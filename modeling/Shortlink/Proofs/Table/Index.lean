import Shortlink.Table
/-!
# The indexes of a link table

In every table that comes about each URL stands once, and each index finds the first record with
its key. Looking up is then a search through the records, and a mark changes one record.
-/
namespace Shortlink.LinkTable

abbrev list (t : LinkTable) : List LinkRecord := t.records.toList

def hasCode (code : String) (r : LinkRecord) : Bool := r.code.text = code

def hasUrl (url : String) (r : LinkRecord) : Bool := r.url = url

/-- The indexes describe the records. -/
structure Indexed (t : LinkTable) : Prop where
  byCode : ∀ code, t.byCode[code]? = t.list.findIdx? (hasCode code)
  byUrl : ∀ url, t.byUrl[url]? = t.list.findIdx? (hasUrl url)
  urls : (t.list.map LinkRecord.url).Nodup

theorem indexed_empty : Indexed {} where
  byCode _ := rfl
  byUrl _ := rfl
  urls := List.nodup_nil

theorem getElem?_of_findIdx? {α : Type} (xs : List α) (p : α → Bool) :
    (xs.findIdx? p).bind (xs[·]?) = xs.find? p := by
  induction xs with
  | nil => rfl
  | cons x xs ih =>
    rw [List.findIdx?_cons, List.find?_cons]
    cases p x with
    | true => rfl
    | false =>
      rw [← ih]
      cases xs.findIdx? p <;> rfl

/-! ## Looking up -/

theorem find?_of_nodup {α : Type} {f : α → String} {xs : List α} (nodup : (xs.map f).Nodup) {x : α}
    (h : x ∈ xs) : xs.find? (fun y => f y = f x) = some x := by
  induction xs with
  | nil => simp at h
  | cons y rest ih =>
    rw [List.map_cons, List.nodup_cons] at nodup
    rcases List.mem_cons.mp h with rfl | later
    · simp
    · have apart : f y ≠ f x := fun same => nodup.1 (same ▸ List.mem_map_of_mem later)
      rw [List.find?_cons, decide_eq_false apart]
      exact ih nodup.2 later

section
variable {t : LinkTable} (h : Indexed t)
include h

theorem Indexed.find?_eq (key : String) :
    t.find? key = (t.list.find? (hasCode key)).or (t.list.find? (hasUrl key)) := by
  have found {p : LinkRecord → Bool} : (t.list.findIdx? p).bind (t.records[·]?) = t.list.find? p := by
    simpa using getElem?_of_findIdx? t.list p
  rw [find?, h.byCode, h.byUrl, ← found, ← found]
  cases code : t.list.findIdx? (hasCode key) with
  | none => rfl
  | some i =>
    have inside := (List.findIdx?_eq_some_iff_getElem.mp code).1
    have present : t.records[i]? = some t.records[i] := Array.getElem?_eq_getElem inside
    simp [present]

theorem Indexed.codeOf?_eq (url : String) :
    t.codeOf? url = (t.list.find? (hasUrl url)).map LinkRecord.code := by
  rw [codeOf?, h.byUrl, ← getElem?_of_findIdx?]
  cases t.list.findIdx? (hasUrl url) with
  | none => rfl
  | some i => simp

theorem Indexed.isSome_byUrl (url : String) :
    (t.byUrl[url]?).isSome = (t.codeOf? url).isSome := by
  rw [h.codeOf?_eq, h.byUrl, Option.isSome_map, List.findIdx?_isSome, Bool.eq_iff_iff,
    List.find?_isSome, List.any_eq_true]

theorem Indexed.ownLive?_eq (owner : OwnerId) (code : ShortCode) :
    t.ownLive? owner code = (t.list.find? (hasCode code.text)).filter fun r =>
      r.owner = some owner ∧ r.deleted = false := by
  rw [ownLive?, h.byCode, ← getElem?_of_findIdx?]
  cases t.list.findIdx? (hasCode code.text) with
  | none => rfl
  | some i => simp

end

/-! ## Changes -/

def markFirst (code : String) : List LinkRecord → List LinkRecord
  | [] => []
  | r :: rest =>
    if hasCode code r then { r with deleted := true } :: rest else r :: markFirst code rest

private theorem markFirst_of_absent {code : String} {records : List LinkRecord}
    (absent : records.findIdx? (hasCode code) = none) : markFirst code records = records := by
  rw [List.findIdx?_eq_none_iff] at absent
  induction records with
  | nil => rfl
  | cons r rest ih =>
    rw [List.forall_mem_cons] at absent
    rw [markFirst, absent.1, ih absent.2]
    rfl

private theorem markFirst_of_found {code : String} {records : List LinkRecord} {i : Nat}
    (found : records.findIdx? (hasCode code) = some i) :
    markFirst code records = records.modify i fun r => { r with deleted := true } := by
  induction records generalizing i with
  | nil => simp at found
  | cons r rest ih =>
    rw [List.findIdx?_cons] at found
    rw [markFirst]
    cases here : hasCode code r with
    | true =>
      simp only [here, if_true, Option.some.injEq] at found
      subst found
      rfl
    | false =>
      simp only [here, Bool.false_eq_true, if_false, Option.map_eq_some_iff] at found
      obtain ⟨j, later, rfl⟩ := found
      rw [ih later]
      rfl

theorem getElem?_markFirst (code : String) (records : List LinkRecord) (j : Nat) :
    (markFirst code records)[j]? = records[j]?.map fun r =>
      if records.findIdx? (hasCode code) = some j then { r with deleted := true } else r := by
  cases found : records.findIdx? (hasCode code) with
  | none =>
    rw [markFirst_of_absent found]
    simp
  | some i =>
    rw [markFirst_of_found found, List.getElem?_modify]
    simp

theorem Indexed.list_mark {t : LinkTable} (h : Indexed t) (code : String) :
    (t.mark code).list = markFirst code t.list := by
  rw [mark, h.byCode]
  cases found : t.list.findIdx? (hasCode code) with
  | none => exact (markFirst_of_absent found).symm
  | some i =>
    rw [markFirst_of_found found]
    exact Array.toList_modify

theorem map_markFirst {α : Type} {f : LinkRecord → α} (same : ∀ r, f { r with deleted := true } = f r)
    (code : String) (records : List LinkRecord) :
    (markFirst code records).map f = records.map f := by
  induction records with
  | nil => rfl
  | cons r rest ih =>
    rw [markFirst]
    split
    · rw [List.map_cons, List.map_cons, same]
    · rw [List.map_cons, List.map_cons, ih]

theorem byCode_mark (t : LinkTable) (code : String) : (t.mark code).byCode = t.byCode := by
  rw [mark]
  split <;> rfl

theorem byUrl_mark (t : LinkTable) (code : String) : (t.mark code).byUrl = t.byUrl := by
  rw [mark]
  split <;> rfl

theorem Indexed.mark {t : LinkTable} (h : Indexed t) (code : String) : Indexed (t.mark code) := by
  have search {f : LinkRecord → String} (same : ∀ r, f { r with deleted := true } = f r)
      (key : String) : (t.mark code).list.findIdx? (fun r => f r = key) =
        t.list.findIdx? fun r => f r = key := by
    have keys := map_markFirst same code t.list
    rw [← h.list_mark] at keys
    have before := List.findIdx?_map (p := fun k => decide (k = key)) (f := f) (l := t.list)
    rw [← keys, List.findIdx?_map] at before
    exact before
  exact {
    byCode := fun key => by
      rw [byCode_mark, h.byCode]
      exact (search (fun _ => rfl) key).symm
    byUrl := fun key => by
      rw [byUrl_mark, h.byUrl]
      exact (search (fun _ => rfl) key).symm
    urls := by
      rw [h.list_mark, map_markFirst (fun _ => rfl)]
      exact h.urls }

theorem list_push (t : LinkTable) (r : LinkRecord) : (t.push r).list = t.list ++ [r] := by
  simp [push, list]

theorem Indexed.push {t : LinkTable} (h : Indexed t) {r : LinkRecord}
    (fresh : t.codeOf? r.url = none) : Indexed (t.push r) := by
  rw [h.codeOf?_eq, Option.map_eq_none_iff] at fresh
  have unseen : ∀ s ∈ t.list, s.url ≠ r.url := fun s hs same => by
    simpa [hasUrl, same] using List.find?_eq_none.mp fresh s hs
  exact {
    byCode := fun key => by
      rw [list_push, List.findIdx?_append, ← h.byCode]
      simp only [LinkTable.push, Std.TreeMap.getElem?_insertIfNew, Std.compare_eq_iff_eq,
        Std.TreeMap.mem_iff_isSome_getElem?, List.findIdx?_singleton, hasCode]
      by_cases same : r.code.text = key
      · subst same
        cases t.byCode[r.code.text]? <;> simp
      · simp [same]
    byUrl := fun key => by
      rw [list_push, List.findIdx?_append, ← h.byUrl]
      simp only [LinkTable.push, Std.TreeMap.getElem?_insert, Std.compare_eq_iff_eq,
        List.findIdx?_singleton, hasUrl]
      by_cases same : r.url = key
      · subst same
        have absent : t.byUrl[r.url]? = none := by
          rw [h.byUrl, List.findIdx?_eq_none_iff]
          intro s hs
          exact by simpa [hasUrl] using unseen s hs
        simp [absent]
      · simp [same]
    urls := by
      rw [list_push, List.map_append, List.nodup_append]
      refine ⟨h.urls, by simp, ?_⟩
      intro url hurl other hother
      obtain ⟨s, hs, rfl⟩ := List.mem_map.mp hurl
      rw [List.map_singleton, List.mem_singleton] at hother
      subst hother
      exact unseen s hs }

end Shortlink.LinkTable
