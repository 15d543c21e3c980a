import Shortlink.Proofs.Sql.Rows
import Shortlink.Proofs.Store.Commit
import Shortlink.Proofs.Store.Stability
/-!
# Database and memory answer alike

A store in a database whose table is empty at first gives the same answers as an empty store in
memory. Each call asks for what is prescribed, and afterwards the rows make up the table in memory
again.
-/
namespace Shortlink
open Sql LinkTable

namespace StoreCall

def answers {σ : Type} [LinkStore σ] : List StoreCall → σ → List (Except StoreError StoreAnswer)
  | [], _ => []
  | call :: rest, store => (call.perform store).1 :: answers rest (call.perform store).2

/-- Whether a database can take a call: its links have an owner, and its texts can be stored. -/
def IsStorable : StoreCall → Prop
  | save link owner => owner.isSome ∧ StorableLink link
  | saveBatch links owner => owner.isSome ∧ ∀ link ∈ links, StorableLink link
  | deleteBatch _ codes => ∀ code ∈ codes, Storable code.text
  | get key => Storable key
  | ownedBy _ | stats => True

instance : (call : StoreCall) → Decidable call.IsStorable
  | save link owner => inferInstanceAs (Decidable (owner.isSome ∧ StorableLink link))
  | saveBatch links owner =>
    inferInstanceAs (Decidable (owner.isSome ∧ ∀ link ∈ links, StorableLink link))
  | deleteBatch _ codes => inferInstanceAs (Decidable (∀ code ∈ codes, Storable code.text))
  | get key => inferInstanceAs (Decidable (Storable key))
  | ownedBy _ | stats => inferInstanceAs (Decidable True)

end StoreCall

/-! ## The links of a run -/

namespace LinkTable

private theorem Persist.links_subset {t u : LinkTable} (persist : Persist t.list u.list) :
    t.links ⊆ u.links := by
  intro link there
  obtain ⟨r, hr, rfl⟩ := List.mem_map.mp there
  obtain ⟨i, here⟩ := List.mem_iff_getElem?.mp hr
  obtain ⟨s, later, kept⟩ := persist i r here
  rw [← kept.code, ← kept.url]
  exact List.mem_map_of_mem (List.mem_of_getElem? later)

private theorem Indexed.grown_run {t : LinkTable} (h : Indexed t) (calls : List StoreCall) :
    Grown (calls.flatMap StoreCall.links) t (StoreCall.run calls t) := by
  induction calls generalizing t with
  | nil => exact h.grown_refl
  | cons call rest ih =>
    have first := h.grown_event (.call call)
    exact first.trans (ih first.indexed)

private theorem Indexed.links_subset_run {t : LinkTable} (h : Indexed t) (calls : List StoreCall) :
    t.links ⊆ (StoreCall.run calls t).links :=
  (h.grown_run calls).persist.links_subset

end LinkTable

/-- What holds of all links that are passed to saves holds of those that come to be stored. -/
theorem unmixed_run {calls : List StoreCall} (h : Unmixed (calls.flatMap StoreCall.links)) :
    Unmixed (StoreCall.run calls ({} : LinkTable)).links :=
  h.mono (indexed_empty.grown_run calls).links

namespace PostgresStore
variable {δ : Type} [Database δ]

/-! ## Reading rows -/

private theorem get?_deletedCell (cells : Row) (r : LinkRow) :
    Row.get? (cells ++ [r.deletedCell]) "deleted_flag" = .ok r.deleted := by
  have cell : Row.cell (cells ++ [r.deletedCell]) "deleted_flag" = .ok (r.deleted.map .bool) := by
    simp [Row.cell, LinkRow.deletedCell]
  rw [Row.get?, cell]
  cases r.deleted <;> rfl

private theorem readRecord_row (r : LinkRow) :
    readRecord [r.codeCell, r.urlCell, r.ownerCell, r.deletedCell] = .ok r.record := by
  have marked := get?_deletedCell [r.codeCell, r.urlCell, r.ownerCell] r
  simp only [List.cons_append, List.nil_append] at marked
  simp only [readRecord, marked]
  rfl

theorem get_of_row {key : String} {s : PostgresStore δ} {db : δ} {r : LinkRow} {affected : Nat}
    (asked : query (.lookUp key) s.database =
      ((Reply.done [[r.codeCell, r.urlCell, r.deletedCell]] affected).outcome, db)) :
    get key s = (if r.record.deleted then .error (.alreadyDeleted key)
      else if key = r.code.text then .ok (some r.url)
      else if key = r.url then .ok (some r.code.text)
      else .ok none, ⟨db⟩) := by
  have read : readPair [r.codeCell, r.urlCell, r.deletedCell] = .ok (r.url, r.code.text) := rfl
  have marked := get?_deletedCell [r.codeCell, r.urlCell] r
  simp only [List.cons_append, List.nil_append] at marked
  have last (found : Option (String × String × Bool)) :
      (pure found : SqlM δ (Option (String × String × Bool))) db = (.ok found, db) := rfl
  rw [get, bind_apply]
  simp only [call, bind_apply, asked, Reply.outcome, reading, read, marked, Except.mapError, last]
  change (if r.record.deleted = true then throw (.alreadyDeleted key) else _ :
    StoreM (PostgresStore δ) (Option String)) ⟨db⟩ = _
  split
  · rfl
  · split
    · rfl
    · split <;> rfl

/-! ## Codes of a batch -/

private theorem lookup_of_nodup {stored : List (String × String)}
    (once : (stored.map Prod.fst).Nodup)
    {url code : String} (there : (url, code) ∈ stored) : stored.lookup url = some code := by
  obtain ⟨before, after, split⟩ := List.append_of_mem there
  rw [split, List.map_append, List.map_cons] at once
  have others := (List.nodup_append.mp once).2.2
  refine List.lookup_eq_some_iff.mpr ⟨before, after, split, ?_⟩
  intro entry earlier
  have apart := others entry.1 (List.mem_map_of_mem earlier) url List.mem_cons_self
  simpa using Ne.symm apart

private theorem codesFor?_of_stored {links : List NewLink} {rows : List LinkRow}
    (urls : rows.map LinkRow.url = links.map NewLink.url)
    (distinct : (links.map NewLink.url).Nodup) {stored : List (String × String)}
    (once : (stored.map Prod.fst).Nodup) (each : ∀ r ∈ rows, (r.url, r.code.text) ∈ stored) :
    codesFor? stored links = some (rows.map LinkRow.code) := by
  induction links generalizing rows stored with
  | nil =>
    rw [List.map_nil, List.map_eq_nil_iff] at urls
    rw [urls]
    rfl
  | cons link rest ih =>
    cases rows with
    | nil => simp at urls
    | cons r others =>
      rw [List.map_cons, List.map_cons, List.cons.injEq] at urls
      rw [List.map_cons, List.nodup_cons] at distinct
      rw [List.forall_mem_cons] at each
      have backwards : (stored.reverse.map Prod.fst).Nodup := by
        rw [List.map_reverse, List.nodup_reverse]
        exact once
      have found : stored.reverse.lookup link.url = some r.code.text := by
        apply lookup_of_nodup backwards
        rw [List.mem_reverse, ← urls.1]
        exact each.1
      have kept : ((stored.filter fun entry => entry.1 ≠ link.url).map Prod.fst).Nodup :=
        once.sublist (List.filter_sublist.map Prod.fst)
      have later : ∀ r' ∈ others,
          (r'.url, r'.code.text) ∈ stored.filter fun entry => entry.1 ≠ link.url := by
        intro r' there
        have apart : r'.url ≠ link.url := by
          intro same
          apply distinct.1
          rw [← urls.2, ← same]
          exact List.mem_map_of_mem there
        exact List.mem_filter.mpr ⟨each.2 r' there, by simpa using apart⟩
      rw [codesFor?, found, ih urls.2 distinct.2 kept later]
      rfl

private theorem confirmed_of_perm {links : List NewLink} {rows returned : List LinkRow}
    (urls : rows.map LinkRow.url = links.map NewLink.url)
    (distinct : (links.map NewLink.url).Nodup) (order : returned.Perm rows) :
    confirmed links (returned.map fun r => [r.codeCell, r.urlCell]) =
      .ok (rows.map LinkRow.code) := by
  have size : returned.length = links.length := by
    have sizes := congrArg List.length urls
    rw [List.length_map, List.length_map] at sizes
    rw [order.length_eq, sizes]
  have read : (returned.map fun r => [r.codeCell, r.urlCell]).mapM readPair =
      Except.ok (returned.map fun r => (r.url, r.code.text)) := by
    rw [List.mapM_map]
    exact List.mapM_pure
  have once : ((returned.map fun r => (r.url, r.code.text)).map Prod.fst).Nodup := by
    have keys : (returned.map fun r => (r.url, r.code.text)).map Prod.fst =
        returned.map LinkRow.url := by
      rw [List.map_map]
      rfl
    rw [keys, (order.map LinkRow.url).nodup_iff, urls]
    exact distinct
  have each : ∀ r ∈ rows, (r.url, r.code.text) ∈ returned.map fun r => (r.url, r.code.text) := by
    intro r there
    exact List.mem_map_of_mem (order.mem_iff.mpr there)
  rw [confirmed, if_neg (by simp [size]), read]
  simp only [codesFor?_of_stored urls distinct once each]

/-! ## Saving a link -/

private theorem save_of_inserted {link : NewLink} {owner : OwnerId} {s : PostgresStore δ} {db : δ}
    {code : String} {affected : Nat} (asked : query (.insert link owner) s.database =
      ((Reply.done [[("short_url", some (.text code))]] affected).outcome, db)) :
    save link (some owner) s = (.ok ⟨code⟩, ⟨db⟩) := by
  have whose : (ownerOf (some owner) : StoreM (PostgresStore δ) OwnerId) s = (.ok owner, s) := rfl
  have inserted : (insert link owner : SqlM δ ShortCode) s.database = (.ok ⟨code⟩, db) := by
    rw [insert, bind_apply, asked]
    rfl
  have told : (some <$> insert link owner : SqlM δ (Option ShortCode)) s.database =
      (.ok (some ⟨code⟩), db) := by
    rw [map_eq_pure_bind, bind_apply, inserted]
    rfl
  rw [save, bind_apply, whose]
  simp only
  rw [bind_apply, call, tryCatch_apply, told]
  rfl

private theorem save_of_duplicate {link : NewLink} {owner : OwnerId} {s : PostgresStore δ}
    {db db' : δ}
    {message : String} {r : LinkRow} {affected : Nat}
    (asked : query (.insert link owner) s.database =
      ((Reply.failed Fault.uniqueViolation message).outcome, db))
    (known : query (.codeOf link.url) db = ((Reply.done [[r.codeCell]] affected).outcome, db')) :
    save link (some owner) s = (.error (.conflict r.code.text), ⟨db'⟩) := by
  have whose : (ownerOf (some owner) : StoreM (PostgresStore δ) OwnerId) s = (.ok owner, s) := rfl
  have refused : (insert link owner : SqlM δ ShortCode) s.database =
      (.error (.refused Fault.uniqueViolation message), db) := by
    rw [insert, bind_apply, asked]
    rfl
  have told : (some <$> insert link owner : SqlM δ (Option ShortCode)) s.database =
      (.error (.refused Fault.uniqueViolation message), db) := by
    rw [map_eq_pure_bind, bind_apply, refused]
  have code : (codeOf? link.url : SqlM δ (Option ShortCode)) db = (.ok (some r.code), db') := by
    rw [codeOf?, bind_apply, known]
    rfl
  rw [save, bind_apply, whose]
  simp only
  rw [bind_apply, call, tryCatch_apply, told]
  simp only [Fault.isUniqueViolation, decide_true, if_true]
  change (call (codeOf? link.url) >>= fun code => throw (.conflict (code.getD link.code).text) :
    StoreM (PostgresStore δ) ShortCode) ⟨db⟩ = _
  rw [bind_apply, call, code]
  rfl

/-! ## Single calls -/

/-- The rows of the database make up the table, and no transaction is open. -/
def Reflects (Holds : δ → TableDatabase → Prop) (s : PostgresStore δ) (t : LinkTable) : Prop :=
  ∃ rows, Holds s.database ⟨rows, none⟩ ∧ Matches rows t

/-- A call on the database and one on the table answer alike, and afterwards the rows make up the
table again. -/
def Agree {α : Type} (Holds : δ → TableDatabase → Prop) (s : PostgresStore δ) (t : LinkTable)
    (m : StoreM (PostgresStore δ) α) (n : StoreM LinkTable α) : Prop :=
  (m s).1 = (n t).1 ∧ Reflects Holds (m s).2 (n t).2

variable {Holds : δ → TableDatabase → Prop} (conforms : Conforms Holds) {s : PostgresStore δ}
  {t : LinkTable} (h : Reflects Holds s t)
include conforms h

private theorem agree_get (unmixed : Unmixed t.links) {key : String} (fits : Storable key) :
    Agree Holds s t (LinkStore.get key) (LinkStore.get key) := by
  obtain ⟨rows, held, rowed⟩ := h
  have may : (Statement.lookUp key).Fits ⟨rows, none⟩ := fits
  obtain ⟨reply, db, after, asked, prescribed, kept⟩ := conforms.query held may
  have table : (LinkStore.get key : StoreM LinkTable (Option String)) t = (t.get key, t) := rfl
  rw [Agree, table]
  show (get key s).1 = t.get key ∧ Reflects Holds (get key s).2 t
  cases prescribed with
  | @found _ r there matching affected =>
    have leads := find?_of_matching rowed.indexed unmixed (rowed.mem there) matching
    rw [get_of_row asked, get_of_find? leads]
    refine ⟨?_, rows, kept, rowed⟩
    by_cases code : r.code.text = key
    · simp [LinkRow.record, code]
    · have url : r.url = key := matching.resolve_left code
      simp [LinkRow.record, code, Ne.symm code, url]
  | missing unknown affected =>
    have leads : t.find? key = none := by
      apply find?_of_unmatched rowed.indexed
      rw [rowed.list, List.forall_mem_map]
      exact unknown
    rw [LinkTable.get, leads, get, bind_apply]
    simp only [call, bind_apply, asked, Reply.outcome]
    exact ⟨rfl, rows, kept, rowed⟩

private theorem agree_ownedBy (owner : OwnerId) :
    Agree Holds s t (LinkStore.ownedBy owner) (LinkStore.ownedBy owner) := by
  obtain ⟨rows, held, rowed⟩ := h
  have may : (Statement.ownedBy owner).Fits ⟨rows, none⟩ := trivial
  obtain ⟨reply, db, after, asked, prescribed, kept⟩ := conforms.query held may
  cases prescribed with
  | ownedBy _ affected =>
    have read (owned : List LinkRow) :
        (owned.map fun r => [r.codeCell, r.urlCell, r.ownerCell, r.deletedCell]).mapM readRecord =
          Except.ok (owned.map LinkRow.record) := by
      rw [List.mapM_map]
      have each : (readRecord ∘ fun r => [r.codeCell, r.urlCell, r.ownerCell, r.deletedCell]) =
          fun r : LinkRow => pure r.record := funext readRecord_row
      rw [each, List.mapM_pure]
      rfl
    have told : (LinkStore.ownedBy owner : StoreM (PostgresStore δ) (List LinkRecord)) s =
        (.ok (t.ownedBy owner), ⟨db⟩) := by
      rw [← rowed.ownedBy]
      simp only [LinkStore.ownedBy, call, bind_apply, asked, Reply.outcome, reading, read,
        Except.mapError]
    rw [Agree, told]
    exact ⟨rfl, rows, kept, rowed⟩

private theorem agree_stats : Agree Holds s t LinkStore.stats LinkStore.stats := by
  obtain ⟨rows, held, rowed⟩ := h
  have may : Statement.stats.Fits ⟨rows, none⟩ := trivial
  obtain ⟨reply, db, after, asked, prescribed, kept⟩ := conforms.query held may
  cases prescribed with
  | @stats users once each affected =>
    have told : (LinkStore.stats : StoreM (PostgresStore δ) StoreStats) s = (.ok t.stats, ⟨db⟩) := by
      rw [rowed.stats once each]
      simp only [LinkStore.stats, call, bind_apply, asked, Reply.outcome]
      rfl
    rw [Agree, told]
    exact ⟨rfl, rows, kept, rowed⟩

private theorem agree_deleteBatch (unmixed : Unmixed t.links) (owner : OwnerId)
    {codes : List ShortCode}
    (fits : ∀ code ∈ codes, Storable code.text) :
    Agree Holds s t (LinkStore.deleteBatch owner codes) (LinkStore.deleteBatch owner codes) := by
  by_cases given : codes = []
  · rw [given]
    exact ⟨rfl, h⟩
  obtain ⟨rows, held, rowed⟩ := h
  obtain ⟨kept, counted⟩ :=
    rowed.markDeleted (singleCodes_of_unmixed rowed.indexed unmixed) owner codes
  have inside : ∀ db, Holds db ⟨rows, some rows⟩ → ∃ db',
      (Outcome.affected <$> execute (.markDeleted owner codes) : SqlM δ Nat) db =
        (.ok (t.deleteBatch owner codes).1.length, db') ∧
      Holds db' ⟨rows.map (LinkRow.mark owner codes), some rows⟩ := by
    intro db opened
    have may : (Statement.markDeleted owner codes).Fits ⟨rows, some rows⟩ := fits
    obtain ⟨reply, db', after, asked, prescribed, changed⟩ := conforms.execute opened may
    cases prescribed with
    | markDeleted =>
      refine ⟨db', ?_, changed⟩
      rw [← counted, map_eq_pure_bind, bind_apply, asked]
      rfl
  obtain ⟨db', done, closed⟩ := conforms.transaction held inside
  have told : (LinkStore.deleteBatch owner codes : StoreM (PostgresStore δ) Nat) s =
      (.ok (t.deleteBatch owner codes).1.length, ⟨db'⟩) := by
    have whole := deleteBatch_of_ne_nil given owner s
    rw [call, done] at whole
    exact whole
  rw [Agree, told]
  exact ⟨rfl, _, closed, kept⟩

private theorem agree_save {link : NewLink} (fits : StorableLink link) (owner : OwnerId) :
    Agree Holds s t (LinkStore.save link (some owner)) (LinkStore.save link (some owner)) := by
  obtain ⟨rows, held, rowed⟩ := h
  have may : (Statement.insert link owner).Fits ⟨rows, none⟩ := ⟨rfl, fits⟩
  obtain ⟨reply, db, after, asked, prescribed, kept⟩ := conforms.query held may
  have code := rowed.find?_map link.url
  show (save link (some owner) s).1 = _ ∧ Reflects Holds (save link (some owner) s).2 _
  simp only [LinkStore.save, StoreM.change, LinkTable.save]
  cases prescribed with
  | insert fresh affected =>
    have new : TableDatabase.find? rows link.url = none := TableDatabase.find?_eq_none.mpr fresh
    rw [new, Option.map_none] at code
    rw [save_of_inserted asked, ← code]
    exact ⟨rfl, _, kept, rowed.push new fits.1.1 owner⟩
  | duplicate there same message =>
    cases known : TableDatabase.find? rows link.url with
    | none => exact absurd same (TableDatabase.find?_eq_none.mp known _ there)
    | some r =>
      rw [known, Option.map_some] at code
      have may : (Statement.codeOf link.url).Fits ⟨rows, none⟩ := fits.2
      obtain ⟨reply, db', after, asked', prescribed, kept⟩ := conforms.query kept may
      cases prescribed with
      | codeOf _ affected =>
        rw [known] at asked'
        rw [save_of_duplicate asked asked', ← code]
        exact ⟨rfl, rows, kept, rowed⟩

private theorem agree_saveBatch {links : List NewLink} (fits : ∀ link ∈ links, StorableLink link)
    (owner : OwnerId) : Agree Holds s t (LinkStore.saveBatch links (some owner))
      (LinkStore.saveBatch links (some owner)) := by
  show (saveBatch links (some owner) s).1 = _ ∧ Reflects Holds (saveBatch links (some owner) s).2 _
  rw [saveBatch_owned]
  cases unique : ensureUnique links with
  | error e =>
    have refused : (LinkStore.saveBatch links (some owner) : StoreM LinkTable (List ShortCode)) t =
        (.error e, t) := by
      simp only [LinkStore.saveBatch, StoreM.change, LinkTable.saveBatch, unique]
    rw [refused]
    exact ⟨rfl, h⟩
  | ok =>
    have saved : (LinkStore.saveBatch links (some owner) : StoreM LinkTable (List ShortCode)) t =
        (.ok (t.saveAll (some owner) links).1, (t.saveAll (some owner) links).2) := by
      simp only [LinkStore.saveBatch, StoreM.change, LinkTable.saveBatch, unique]
    rw [saved]
    by_cases given : links = []
    · rw [given]
      exact ⟨rfl, h⟩
    obtain ⟨rows, held, rowed⟩ := h
    have distinct := ensureUnique_eq_ok_iff.mp unique
    obtain ⟨kept, codes, urls⟩ := rowed.upsert owner fun link there => (fits link there).1.1
    have inside : ∀ db, Holds db ⟨rows, some rows⟩ → ∃ db',
        insertAll links owner db = (.ok (t.saveAll (some owner) links).1, db') ∧
        Holds db' ⟨(TableDatabase.upsert owner rows links).2, some rows⟩ := by
      intro db opened
      have may : (Statement.insertAll links owner).Fits ⟨rows, some rows⟩ := ⟨given, distinct, fits⟩
      obtain ⟨reply, db', after, asked, prescribed, changed⟩ := conforms.execute opened may
      cases prescribed with
      | insertAll each affected =>
        refine ⟨db', ?_, changed⟩
        rw [insertAll_apply, asked, ← codes]
        simp only [Reply.outcome, confirmed_of_perm urls distinct each]
    obtain ⟨db', done, closed⟩ := conforms.transaction held inside
    simp only [List.isEmpty_eq_false_iff.mpr given, call, done]
    exact ⟨rfl, _, closed, kept⟩

/-! ## Runs of calls -/

private theorem agree_perform (unmixed : Unmixed t.links) {call : StoreCall}
    (storable : call.IsStorable) :
    Agree Holds s t call.perform call.perform := by
  have mapped {α : Type} {m : StoreM (PostgresStore δ) α} {n : StoreM LinkTable α}
      (agree : Agree Holds s t m n) (f : α → StoreAnswer) : Agree Holds s t (f <$> m) (f <$> n) := by
    rw [Agree, StoreM.map_apply, StoreM.map_apply, agree.1]
    exact ⟨rfl, agree.2⟩
  cases call with
  | save link owner =>
    obtain ⟨owned, fits⟩ := storable
    obtain ⟨owner, rfl⟩ := Option.isSome_iff_exists.mp owned
    exact mapped (agree_save conforms h fits owner) .code
  | saveBatch links owner =>
    obtain ⟨owned, fits⟩ := storable
    obtain ⟨owner, rfl⟩ := Option.isSome_iff_exists.mp owned
    exact mapped (agree_saveBatch conforms h fits owner) .codes
  | deleteBatch owner codes => exact mapped (agree_deleteBatch conforms h unmixed owner storable) .count
  | get key => exact mapped (agree_get conforms h unmixed storable) .half
  | ownedBy owner => exact mapped (agree_ownedBy conforms h owner) .records
  | stats => exact mapped (agree_stats conforms h) .stats

private theorem answers_eq_of_reflects {calls : List StoreCall}
    (storable : ∀ call ∈ calls, call.IsStorable) (unmixed : Unmixed (StoreCall.run calls t).links) :
    StoreCall.answers calls s = StoreCall.answers calls t := by
  induction calls generalizing s t with
  | nil => rfl
  | cons call rest ih =>
    have indexed : Indexed t := by
      obtain ⟨rows, held, rowed⟩ := h
      exact rowed.indexed
    have now := unmixed.mono (indexed.links_subset_run (call :: rest))
    rw [List.forall_mem_cons] at storable
    obtain ⟨same, still⟩ := agree_perform conforms h now storable.1
    rw [StoreCall.answers, StoreCall.answers, same, ih still storable.2 unmixed]

end PostgresStore

/-- A store in a database that answers as SQL prescribes, with an empty table, and an empty store in
memory give the same answers to any calls. Every link that is saved has an owner, every text can be
stored in a column, and of the links that come to be stored different URLs have different codes and
no code is a URL. -/
theorem database_answers_eq_memory_answers {δ : Type} [Database δ]
    {Holds : δ → TableDatabase → Prop} (conforms : Conforms Holds) {db : δ} (empty : Holds db {})
    (calls : List StoreCall) (storable : ∀ call ∈ calls, call.IsStorable)
    (unmixed : Unmixed (StoreCall.run calls ({} : LinkTable)).links) :
    StoreCall.answers calls (⟨db⟩ : PostgresStore δ) = StoreCall.answers calls ({} : LinkTable) :=
  PostgresStore.answers_eq_of_reflects conforms ⟨[], empty, matches_empty⟩ storable unmixed

def savedAndDeleted : List StoreCall :=
  [.save ⟨⟨"aaa"⟩, "http://a.b/"⟩ (some .zero), .save ⟨⟨"bbb"⟩, "http://a.b/"⟩ (some .zero),
    .saveBatch [⟨⟨"ccc"⟩, "http://c.d/"⟩, ⟨⟨"aaa"⟩, "http://a.b/"⟩] (some .zero),
    .deleteBatch .zero [⟨"aaa"⟩, ⟨"aaa"⟩, ⟨"bbb"⟩], .get "http://a.b/", .get "ccc", .stats]

theorem database_answers_eq_memory_answers_of_savedAndDeleted :
    StoreCall.answers savedAndDeleted (⟨{}⟩ : PostgresStore TableDatabase) =
      [.ok (.code ⟨"aaa"⟩), .error (.conflict "aaa"), .ok (.codes [⟨"ccc"⟩, ⟨"aaa"⟩]), .ok (.count 1),
        .error (.alreadyDeleted "http://a.b/"), .ok (.half (some "http://c.d/")),
        .ok (.stats ⟨1, 1⟩)] := by
  have storable : ∀ call ∈ savedAndDeleted, call.IsStorable := by decide +kernel
  have saved : Unmixed (savedAndDeleted.flatMap StoreCall.links) := ⟨by decide +kernel, by decide +kernel⟩
  rw [database_answers_eq_memory_answers TableDatabase.conforms rfl savedAndDeleted storable
    (unmixed_run saved)]
  rfl

end Shortlink
