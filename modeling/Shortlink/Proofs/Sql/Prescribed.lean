import Mathlib.Data.List.Nodup
import Shortlink.Proofs.Distinct
import Shortlink.Proofs.Sql.Transaction
import Shortlink.Sql.Table
/-!
# What a database is to answer

A database stands for a table of links whose rows are numbered as they come, with a unique index over
the URLs. What it answers to a statement is settled up to what SQL leaves open: the order in which
rows of a batch are returned, which of several matching rows is looked up, and the text of an error.
-/
namespace Shortlink.Sql

/-- Whether a column of the table can hold a text, and the text is not empty. -/
def Storable (text : String) : Prop := text ≠ "" ∧ text.length ≤ 255 ∧ '\x00' ∉ text.toList

instance (text : String) : Decidable (Storable text) :=
  inferInstanceAs (Decidable (text ≠ "" ∧ text.length ≤ 255 ∧ '\x00' ∉ text.toList))

def StorableLink (link : NewLink) : Prop := Storable link.code.text ∧ Storable link.url

instance (link : NewLink) : Decidable (StorableLink link) :=
  inferInstanceAs (Decidable (Storable link.code.text ∧ Storable link.url))

/-- The statements to which a database gives an answer without fail: texts can be stored, a batch has
links with different URLs, and of transactions there is one at a time. -/
def Statement.Fits (t : TableDatabase) : Statement → Prop
  | .begin => t.atBegin = none
  | .commit | .rollback => t.atBegin ≠ none
  | .insert link _ => t.atBegin = none ∧ StorableLink link
  | .insertAll links _ =>
    links ≠ [] ∧ (links.map NewLink.url).Nodup ∧ ∀ link ∈ links, StorableLink link
  | .codeOf text | .lookUp text => Storable text
  | .markDeleted _ codes => ∀ code ∈ codes, Storable code.text
  | .schema | .ping | .ownedBy _ | .stats => True

/-- The answers that SQL allows, each with the table afterwards. -/
inductive Prescribed (t : TableDatabase) : Statement → Reply → TableDatabase → Prop where
  | begin (rows : List Row) (affected : Nat) :
      Prescribed t .begin (.done rows affected) { t with atBegin := some t.rows }
  | commit (rows : List Row) (affected : Nat) :
      Prescribed t .commit (.done rows affected) { t with atBegin := none }
  | rollback (rows : List Row) (affected : Nat) :
      Prescribed t .rollback (.done rows affected) ⟨t.atBegin.getD t.rows, none⟩
  | schema (rows : List Row) (affected : Nat) : Prescribed t .schema (.done rows affected) t
  | ping (rows : List Row) (affected : Nat) : Prescribed t .ping (.done rows affected) t
  | insert {link : NewLink} {owner : OwnerId} (fresh : ∀ r ∈ t.rows, r.url ≠ link.url)
      (affected : Nat) :
      Prescribed t (.insert link owner)
        (.done [[("short_url", some (.text link.code.text))]] affected)
        { t with rows := t.rows ++ [{ code := link.code, url := link.url, owner := owner }] }
  | duplicate {link : NewLink} {owner : OwnerId} {r : LinkRow} (there : r ∈ t.rows)
      (same : r.url = link.url) (message : String) :
      Prescribed t (.insert link owner) (.failed Fault.uniqueViolation message) t
  | insertAll {links : List NewLink} {owner : OwnerId} {returned : List LinkRow}
      (each : returned.Perm (TableDatabase.upsert owner t.rows links).1) (affected : Nat) :
      Prescribed t (.insertAll links owner)
        (.done (returned.map fun r => [r.codeCell, r.urlCell]) affected)
        { t with rows := (TableDatabase.upsert owner t.rows links).2 }
  | codeOf (url : String) (affected : Nat) :
      Prescribed t (.codeOf url)
        (.done ((TableDatabase.find? t.rows url).toList.map fun r => [r.codeCell]) affected) t
  | found {key : String} {r : LinkRow} (there : r ∈ t.rows)
      (matching : r.code.text = key ∨ r.url = key) (affected : Nat) :
      Prescribed t (.lookUp key) (.done [[r.codeCell, r.urlCell, r.deletedCell]] affected) t
  | missing {key : String} (unknown : ∀ r ∈ t.rows, ¬(r.code.text = key ∨ r.url = key))
      (affected : Nat) : Prescribed t (.lookUp key) (.done [] affected) t
  | ownedBy (owner : OwnerId) (affected : Nat) :
      Prescribed t (.ownedBy owner)
        (.done ((t.rows.filter fun r => r.owner = owner ∧ r.code.text ≠ "").map fun r =>
          [r.codeCell, r.urlCell, r.ownerCell, r.deletedCell]) affected) t
  | stats {users : List OwnerId} (once : users.Nodup)
      (each : ∀ owner, owner ∈ users ↔ owner ∈ (t.rows.filter LinkRow.isLive).map LinkRow.owner)
      (affected : Nat) :
      Prescribed t .stats
        (.done [[("urls", some (.int (t.rows.filter LinkRow.isLive).length)),
          ("users", some (.int users.length))]] affected) t
  | markDeleted (owner : OwnerId) (codes : List ShortCode) :
      Prescribed t (.markDeleted owner codes)
        (.done [] (t.rows.countP fun r => LinkRow.mark owner codes r ≠ r))
        { t with rows := t.rows.map (LinkRow.mark owner codes) }

/-- A database that has a connection to give and answers what is prescribed for the table that it
holds. -/
structure Conforms {δ : Type} [Database δ] (Holds : δ → TableDatabase → Prop) : Prop where
  acquire : ∀ db t, Holds db t →
    ((Database.acquire : SqlM δ Unit) db).1 = .ok () ∧
      Holds ((Database.acquire : SqlM δ Unit) db).2 t
  send : ∀ statement db t, Holds db t → statement.Fits t →
    ∃ after, Prescribed t statement (Database.send statement db).1 after ∧
      Holds (Database.send statement db).2 after

/-! ## A database at work -/

section
variable {δ : Type} [Database δ] {Holds : δ → TableDatabase → Prop} (conforms : Conforms Holds)
include conforms

theorem Conforms.execute {statement : Statement} {db : δ} {t : TableDatabase} (held : Holds db t)
    (fits : statement.Fits t) : ∃ reply db' after,
      execute statement db = (reply.outcome, db') ∧ Prescribed t statement reply after ∧
        Holds db' after := by
  obtain ⟨after, prescribed, still⟩ := conforms.send statement db t held fits
  exact ⟨_, _, after, rfl, prescribed, still⟩

theorem Conforms.query {statement : Statement} {db : δ} {t : TableDatabase} (held : Holds db t)
    (fits : statement.Fits t) : ∃ reply db' after,
      query statement db = (reply.outcome, db') ∧ Prescribed t statement reply after ∧
        Holds db' after := by
  obtain ⟨connected, ready⟩ := conforms.acquire db t held
  obtain ⟨reply, db', after, answer, prescribed, still⟩ := conforms.execute ready fits
  refine ⟨reply, db', after, ?_, prescribed, still⟩
  rw [Sql.query, bind_apply]
  cases acquired : (Database.acquire : SqlM δ Unit) db with
  | mk result db1 =>
    rw [acquired] at connected answer
    simp only at connected
    subst connected
    exact answer

theorem Conforms.transaction {α : Type} {body : SqlM δ α} {rows rows' : List LinkRow} {a : α}
    {db : δ} (held : Holds db ⟨rows, none⟩)
    (inside : ∀ db, Holds db ⟨rows, some rows⟩ →
      ∃ db', body db = (.ok a, db') ∧ Holds db' ⟨rows', some rows⟩) :
    ∃ db', transaction body db = (.ok a, db') ∧ Holds db' ⟨rows', none⟩ := by
  obtain ⟨connected, ready⟩ := conforms.acquire db _ held
  have opens : Statement.begin.Fits ⟨rows, none⟩ := rfl
  obtain ⟨reply, db1, _, begun, prescribed, entered⟩ := conforms.execute ready opens
  cases prescribed
  obtain ⟨db2, done, changed⟩ := inside db1 entered
  have closes : Statement.commit.Fits ⟨rows', some rows⟩ := Option.some_ne_none rows
  obtain ⟨reply, db3, _, committed, prescribed, left⟩ := conforms.execute changed closes
  cases prescribed
  refine ⟨db3, ?_, left⟩
  rw [Sql.transaction, bind_apply]
  cases acquired : (Database.acquire : SqlM δ Unit) db with
  | mk result db0 =>
    rw [acquired] at connected begun
    simp only at connected
    subst connected
    simp only [bind_apply, begun, tryCatch_apply, done, committed, Reply.outcome]
    rfl
end

/-! ## The table as a database -/

theorem TableDatabase.find?_eq_some {rows : List LinkRow} {url : String} {r : LinkRow}
    (found : find? rows url = some r) : r ∈ rows ∧ r.url = url := by
  refine ⟨List.mem_of_find?_eq_some found, ?_⟩
  simpa using List.find?_some found

theorem TableDatabase.find?_eq_none {rows : List LinkRow} {url : String} :
    find? rows url = none ↔ ∀ r ∈ rows, r.url ≠ url := by
  rw [find?, List.find?_eq_none]
  simp

/-- The table answers what is prescribed to every statement. -/
theorem TableDatabase.prescribed_send (statement : Statement) (t : TableDatabase) :
    Prescribed t statement (send statement t).1 (send statement t).2 := by
  cases statement with
  | begin => exact .begin [] 0
  | commit => exact .commit [] 0
  | rollback => exact .rollback [] 0
  | schema => exact .schema [] 0
  | ping => exact .ping _ 1
  | insert link owner =>
    cases known : find? t.rows link.url with
    | none =>
      simp only [send, known]
      exact .insert (find?_eq_none.mp known) 1
    | some r =>
      have found := find?_eq_some known
      simp only [send, known]
      exact .duplicate found.1 found.2 _
  | insertAll links owner => exact .insertAll (List.Perm.refl _) _
  | codeOf url => exact .codeOf url _
  | lookUp key =>
    cases known : t.rows.find? fun r => r.code.text = key ∨ r.url = key with
    | none =>
      simp only [send, known]
      refine .missing ?_ 0
      intro r there
      simpa using List.find?_eq_none.mp known r there
    | some r =>
      simp only [send, known]
      refine .found (List.mem_of_find?_eq_some known) ?_ 1
      simpa using List.find?_some known
  | ownedBy owner => exact .ownedBy owner _
  | stats =>
    refine .stats (nodup_eraseDups _) ?_ 1
    intro owner
    exact List.mem_eraseDups
  | markDeleted owner codes => exact .markDeleted owner codes

theorem TableDatabase.conforms : Conforms (@Eq TableDatabase) where
  acquire _ _ same := ⟨rfl, same⟩
  send statement db t same _ := by
    rw [← same]
    exact ⟨_, prescribed_send statement db, rfl⟩

end Shortlink.Sql
