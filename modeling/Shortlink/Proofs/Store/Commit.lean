import Mathlib.Data.List.Forall2
import Mathlib.Data.List.Perm.Subperm
import Shortlink.Proofs.Sql.Transaction
import Shortlink.Proofs.Store.State
import Shortlink.Sql.Script
import Shortlink.Store.Postgres
/-!
# What a database has committed

A store in a database tells its callers of a batch just what the database has acknowledged. Before it
asks for the commit it has seen a row for each URL of the batch.
-/
namespace Shortlink.PostgresStore
open Sql

/-! ## Rows for a batch -/

private theorem mem_of_lookup_reverse {stored : List (String × String)} {url code : String}
    (found : stored.reverse.lookup url = some code) : (url, code) ∈ stored := by
  obtain ⟨before, after, split, -⟩ := List.lookup_eq_some_iff.mp found
  rw [← List.mem_reverse, split]
  exact List.mem_append_right _ List.mem_cons_self

private theorem forall₂_of_codesFor? {stored : List (String × String)} {links : List NewLink}
    {codes : List ShortCode} (h : codesFor? stored links = some codes) :
    List.Forall₂ (fun link code => (link.url, code.text) ∈ stored) links codes := by
  induction links generalizing stored codes with
  | nil =>
    rw [codesFor?, Option.some.injEq] at h
    rw [← h]
    exact .nil
  | cons link rest ih =>
    simp only [codesFor?, Option.bind_eq_bind, Option.bind_eq_some_iff] at h
    obtain ⟨code, found, others, later, same⟩ := h
    rw [Option.pure_def, Option.some.injEq] at same
    rw [← same]
    refine .cons (mem_of_lookup_reverse found) ((ih later).imp ?_)
    intro link code kept
    exact List.mem_of_mem_filter kept

/-- As many rows as links, and among them one for each URL: then the URLs of the rows are those of the
links in some order. -/
theorem perm_of_codesFor? {stored : List (String × String)} {links : List NewLink}
    {codes : List ShortCode} (distinct : (links.map NewLink.url).Nodup)
    (size : stored.length = links.length) (h : codesFor? stored links = some codes) :
    (stored.map Prod.fst).Perm (links.map NewLink.url) := by
  have subset : links.map NewLink.url ⊆ stored.map Prod.fst := by
    have found := forall₂_of_codesFor? h
    clear distinct size h
    intro url hurl
    induction found with
    | nil => simp at hurl
    | cons here _ ih =>
      rcases List.mem_cons.mp hurl with rfl | later
      · exact List.mem_map_of_mem here
      · exact ih later
  have sub := List.subperm_of_subset distinct subset
  exact (sub.perm_of_length_le (by simp only [List.length_map, size, Nat.le_refl])).symm

private theorem forall₂_of_mapM {ε α β : Type} {f : α → Except ε β} {xs : List α} {ys : List β}
    (h : xs.mapM f = .ok ys) : List.Forall₂ (fun x y => f x = .ok y) xs ys := by
  induction xs generalizing ys with
  | nil =>
    obtain rfl := Except.ok.inj h
    exact .nil
  | cons x xs ih =>
    rw [List.mapM_cons] at h
    cases first : f x with
    | error e =>
      rw [first] at h
      contradiction
    | ok y =>
      cases rest : xs.mapM f with
      | error e =>
        rw [first, rest] at h
        contradiction
      | ok ys' =>
        rw [first, rest] at h
        obtain rfl := Except.ok.inj h
        exact .cons first (ih rest)

/-! ## Inserting a batch -/

/-- The codes of a batch, given the rows that its insert has returned. -/
def confirmed (links : List NewLink) (rows : List Row) : Except Fault (List ShortCode) :=
  if rows.length ≠ links.length then .error (.rowCount links.length rows.length)
  else
    match rows.mapM readPair with
    | .error fault => .error (.row fault)
    | .ok stored =>
      match codesFor? stored links with
      | some codes => .ok codes
      | none => .error (.rowCount links.length rows.length)

section
variable {δ : Type} [Database δ]

theorem insertAll_apply (links : List NewLink) (owner : OwnerId) (db : δ) :
    insertAll links owner db = match execute (.insertAll links owner) db with
      | (.ok result, db) => (confirmed links result.rows, db)
      | (.error fault, db) => (.error fault, db) := by
  rw [insertAll, bind_apply]
  rcases execute (.insertAll links owner) db with ⟨_ | ⟨rows, affected⟩, after⟩
  · rfl
  · simp only [confirmed]
    split
    · rfl
    · rw [bind_apply, reading]
      cases rows.mapM readPair with
      | error fault => rfl
      | ok stored =>
        simp only [Except.mapError]
        cases codesFor? stored links <;> rfl

private theorem sends_insertAll (links : List NewLink) (owner : OwnerId) :
    Sends (insertAll links owner : SqlM (Traced δ) (List ShortCode)) fun sent answer =>
      ∃ reply, sent = [⟨.insertAll links owner, reply⟩] ∧
        answer = reply.outcome.bind fun result => confirmed links result.rows := by
  intro t
  obtain ⟨sent, exchanges, reply, rfl, outcome⟩ := sends_execute (.insertAll links owner) t
  rw [insertAll_apply]
  cases executed : (execute (.insertAll links owner) : SqlM (Traced δ) Outcome) t with
  | mk answer after =>
    rw [executed] at exchanges outcome
    simp only at outcome
    refine ⟨_, ?_, reply, rfl, ?_⟩
    · cases answer <;> exact exchanges
    · rw [← outcome]
      cases answer <;> rfl

private theorem sends_markDeleted (owner : OwnerId) (codes : List ShortCode) :
    Sends (Outcome.affected <$> execute (.markDeleted owner codes) : SqlM (Traced δ) Nat)
      fun sent _ => ∃ reply, sent = [⟨.markDeleted owner codes, reply⟩] := by
  refine ((sends_execute (.markDeleted owner codes)).bind fun result => sends_pure result.affected).imp
    ?_
  rintro sent answer (⟨_, ⟨reply, rfl, -⟩, -⟩ | ⟨_, _, _, rfl, ⟨reply, rfl, -⟩, rfl, -⟩)
  · exact ⟨reply, rfl⟩
  · exact ⟨reply, rfl⟩

/-! ## What callers are told -/

/-- A call on the database tells its caller what the database has acknowledged, if it is a
transaction. -/
theorem told_of_transaction {α : Type} {body : SqlM (Traced δ) α}
    {Goes : List Exchange → Except Fault α → Prop} (h : Sends body Goes)
    (quiet : ∀ sent answer, Goes sent answer → Quiet sent) (s : PostgresStore (Traced δ)) :
    ∃ sent, (call (transaction body) s).2.database.exchanges = s.database.exchanges ++ sent ∧
      ((∃ a, (call (transaction body) s).1 = .ok a) ↔ Acknowledged sent) ∧
      ∀ before last later, sent = before ++ ⟨.commit, last⟩ :: later →
        ∃ inside a, Goes inside (.ok a) ∧ inside ⊆ before ∧
          ∀ b, (call (transaction body) s).1 = .ok b → b = a := by
  obtain ⟨sent, exchanges, transacted⟩ := h.transaction s.database
  have answered (b : α) : (call (transaction body) s).1 = .ok b ↔
      (transaction body s.database).1 = .ok b := by
    have same : (call (transaction body) s).1 = (transaction body s.database).1.mapError .ofSql := rfl
    rw [same]
    cases (transaction body s.database).1 <;> simp [Except.mapError]
  refine ⟨sent, exchanges, ?_, ?_⟩
  · simp only [answered]
    exact transacted.exists_ok_iff quiet
  · intro before last later split
    simp only [answered]
    exact transacted.before_commit quiet split

theorem saveBatch_owned (links : List NewLink) (owner : OwnerId) (s : PostgresStore δ) :
    saveBatch links (some owner) s = match ensureUnique links with
      | .error e => (.error e, s)
      | .ok () =>
        if links.isEmpty then (.ok [], s) else call (transaction (insertAll links owner)) s := by
  have whose : (ownerOf (some owner) : StoreM (PostgresStore δ) OwnerId) s = (.ok owner, s) := rfl
  rw [saveBatch, bind_apply, whose]
  simp only
  rw [bind_apply, StoreM.ask]
  cases ensureUnique links with
  | error e => rfl
  | ok => cases links <;> rfl

private theorem saveBatch_of_distinct {links : List NewLink} (given : links ≠ [])
    (distinct : (links.map NewLink.url).Nodup) (owner : OwnerId) (s : PostgresStore δ) :
    saveBatch links (some owner) s = call (transaction (insertAll links owner)) s := by
  rw [saveBatch_owned, ensureUnique_eq_ok_iff.mpr distinct]
  simp [given]

theorem deleteBatch_of_ne_nil {codes : List ShortCode} (given : codes ≠ []) (owner : OwnerId)
    (s : PostgresStore δ) : deleteBatch owner codes s =
      call (transaction (Outcome.affected <$> execute (.markDeleted owner codes))) s := by
  rw [deleteBatch, if_neg (by simpa using given)]

private theorem state_saveBatch_of_refused {links : List NewLink} {owner : Option OwnerId}
    (refused : owner = none ∨ ¬(links.map NewLink.url).Nodup ∨ links = []) (s : PostgresStore δ) :
    (saveBatch links owner s).2 = s := by
  cases owner with
  | none => rfl
  | some owner =>
    rw [saveBatch_owned]
    cases unique : ensureUnique links with
    | error e => rfl
    | ok =>
      have nothing : links = [] := by simpa [ensureUnique_eq_ok_iff.mp unique] using refused
      rw [nothing]
      rfl

private theorem confirmed_eq_ok {links : List NewLink} (distinct : (links.map NewLink.url).Nodup)
    {rows : List Row} {codes : List ShortCode} (h : confirmed links rows = .ok codes) :
    ∃ stored, rows.mapM readPair = .ok stored ∧
      (stored.map Prod.fst).Perm (links.map NewLink.url) ∧
      List.Forall₂ (fun link code => (link.url, code.text) ∈ stored) links codes := by
  rw [confirmed] at h
  split at h
  · contradiction
  case isFalse size =>
  rw [not_not] at size
  split at h
  · contradiction
  case h_2 stored read =>
  split at h
  case h_1 codes' found =>
    obtain rfl := Except.ok.inj h
    have sizes := (forall₂_of_mapM read).length_eq
    exact ⟨stored, read, perm_of_codesFor? distinct (sizes.symm.trans size) found,
      forall₂_of_codesFor? found⟩
  case h_2 => contradiction

/-- Whatever the database answers, a batch of links with distinct URLs is answered with codes if and
only if the database has acknowledged a commit in this call. Where a commit is sent, the insert has been
answered before it with rows that can all be read and that name the URLs of the batch, each once, in any
order; the codes are those that the rows name for the URLs of the links. A batch that is refused from
the outset sends nothing. A deletion is answered with a count if and only if the database has
acknowledged its commit. -/
theorem writes_told_as_committed (s : PostgresStore (Traced δ)) :
    (∀ (links : List NewLink) (owner : OwnerId), links ≠ [] → (links.map NewLink.url).Nodup →
      ∃ sent, (saveBatch links (some owner) s).2.database.exchanges = s.database.exchanges ++ sent ∧
        ((∃ codes, (saveBatch links (some owner) s).1 = .ok codes) ↔ Acknowledged sent) ∧
        ∀ before last later, sent = before ++ ⟨.commit, last⟩ :: later →
          ∃ rows affected stored, ⟨.insertAll links owner, .done rows affected⟩ ∈ before ∧
            rows.mapM readPair = .ok stored ∧
            (stored.map Prod.fst).Perm (links.map NewLink.url) ∧
            ∀ codes, (saveBatch links (some owner) s).1 = .ok codes →
              List.Forall₂ (fun link code => (link.url, code.text) ∈ stored) links codes) ∧
    (∀ (links : List NewLink) (owner : Option OwnerId),
      owner = none ∨ ¬(links.map NewLink.url).Nodup ∨ links = [] → (saveBatch links owner s).2 = s) ∧
    (∀ (owner : OwnerId) (codes : List ShortCode), codes ≠ [] →
      ∃ sent, (deleteBatch owner codes s).2.database.exchanges = s.database.exchanges ++ sent ∧
        ((∃ marked, (deleteBatch owner codes s).1 = .ok marked) ↔ Acknowledged sent)) := by
  refine ⟨?_, fun links owner refused => state_saveBatch_of_refused refused s, ?_⟩
  · intro links owner given distinct
    have quiet (sent : List Exchange) (answer : Except Fault (List ShortCode))
        (goes : ∃ reply, sent = [⟨.insertAll links owner, reply⟩] ∧
          answer = reply.outcome.bind fun result => confirmed links result.rows) : Quiet sent := by
      obtain ⟨reply, rfl, -⟩ := goes
      exact quiet_singleton (by simp) reply
    obtain ⟨sent, exchanges, acknowledged, committed⟩ :=
      told_of_transaction (sends_insertAll links owner) quiet s
    rw [saveBatch_of_distinct given distinct]
    refine ⟨sent, exchanges, acknowledged, ?_⟩
    intro before last later split
    obtain ⟨inside, codes, ⟨reply, rfl, outcome⟩, already, only⟩ := committed before last later split
    cases reply with
    | done rows affected =>
      obtain ⟨stored, read, perm, named⟩ := confirmed_eq_ok distinct outcome.symm
      refine ⟨rows, affected, stored, already List.mem_cons_self, read, perm, ?_⟩
      intro codes' told
      rw [only codes' told]
      exact named
    | _ => contradiction
  · intro owner codes given
    have quiet (sent : List Exchange) (answer : Except Fault Nat)
        (goes : ∃ reply, sent = [⟨.markDeleted owner codes, reply⟩]) : Quiet sent := by
      obtain ⟨reply, rfl⟩ := goes
      exact quiet_singleton (by simp) reply
    obtain ⟨sent, exchanges, acknowledged, -⟩ :=
      told_of_transaction (sends_markDeleted owner codes) quiet s
    rw [deleteBatch_of_ne_nil given]
    exact ⟨sent, exchanges, acknowledged⟩

end

def pairRow (code url : String) : Row :=
  [("short_url", some (.text code)), ("original_url", some (.text url))]

/-- A database that returns the rows of a batch of two in the other order, one with an old code. -/
def swappedRows : PostgresStore (Traced ScriptedDatabase) :=
  ⟨⟨{ replies := [.done [pairRow "new" "http://c.d/", pairRow "old" "http://a.b/"] 2] }, []⟩⟩

theorem writes_told_as_committed_of_swappedRows : ∃ sent,
    (saveBatch [⟨⟨"abc"⟩, "http://a.b/"⟩, ⟨⟨"new"⟩, "http://c.d/"⟩] (some .zero)
      swappedRows).2.database.exchanges = [] ++ sent ∧ Acknowledged sent ∧
    (saveBatch [⟨⟨"abc"⟩, "http://a.b/"⟩, ⟨⟨"new"⟩, "http://c.d/"⟩] (some .zero)
      swappedRows).1 = .ok [⟨"old"⟩, ⟨"new"⟩] := by
  obtain ⟨batches, -, -⟩ := writes_told_as_committed swappedRows
  obtain ⟨sent, exchanges, acknowledged, -⟩ :=
    batches [⟨⟨"abc"⟩, "http://a.b/"⟩, ⟨⟨"new"⟩, "http://c.d/"⟩] .zero (by decide) (by decide)
  have answer : (saveBatch [⟨⟨"abc"⟩, "http://a.b/"⟩, ⟨⟨"new"⟩, "http://c.d/"⟩] (some .zero)
      swappedRows).1 = .ok [⟨"old"⟩, ⟨"new"⟩] := rfl
  exact ⟨sent, exchanges, acknowledged.mp ⟨_, answer⟩, answer⟩

end Shortlink.PostgresStore
