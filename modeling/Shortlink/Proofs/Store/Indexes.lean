import Shortlink.Proofs.Store.State
/-!
# Indexes lead to records

In memory the indexes of a table are kept by every call, and in a file they are made anew from
whatever text it holds. Either way they name all records by their keys, and no position outside the
records. Main statement: operations that fail where a position is not there never do.
-/
namespace Shortlink
namespace LinkTable
variable {t : LinkTable}

/-! ## What an index names -/

/-- A record has the code, and no record before it has. -/
structure Earliest (t : LinkTable) (code : String) (i : Nat) (r : LinkRecord) : Prop where
  here : t.list[i]? = some r
  same : r.code.text = code
  first : ∀ j s, j < i → t.list[j]? = some s → s.code.text ≠ code

/-- Both indexes name the records by their keys, and the first record with a code goes before the
record with that URL. -/
structure Described (t : LinkTable) : Prop where
  once : (t.list.map LinkRecord.url).Nodup
  urls : ∀ url, url ∈ t.byUrl ↔ ∃ r ∈ t.list, r.url = url
  byUrl : ∀ url (i : Nat), t.byUrl[url]? = some i ↔ ∃ r, t.list[i]? = some r ∧ r.url = url
  codes : ∀ code, code ∈ t.byCode ↔ ∃ r ∈ t.list, r.code.text = code
  byCode : ∀ code i, t.byCode[code]? = some i ↔ ∃ r, t.Earliest code i r
  find : ∀ key r, t.find? key = some r ↔ (∃ i, t.Earliest key i r) ∨
    (∀ s ∈ t.list, s.code.text ≠ key) ∧ r ∈ t.list ∧ r.url = key

private theorem findIdx?_hasCode {code : String} {i : Nat} :
    t.list.findIdx? (hasCode code) = some i ↔ ∃ r, t.Earliest code i r := by
  rw [List.findIdx?_eq_some_iff_getElem]
  constructor
  · rintro ⟨inside, same, before⟩
    refine ⟨t.list[i], List.getElem?_eq_getElem inside, of_decide_eq_true same, ?_⟩
    intro j s earlier there sameCode
    obtain ⟨within, rfl⟩ := List.getElem?_eq_some_iff.mp there
    exact before j earlier (decide_eq_true sameCode)
  · rintro ⟨r, here, same, first⟩
    obtain ⟨inside, rfl⟩ := List.getElem?_eq_some_iff.mp here
    refine ⟨inside, decide_eq_true same, fun j earlier again => ?_⟩
    have within : j < t.list.length := by omega
    exact first j _ earlier (List.getElem?_eq_getElem within) (of_decide_eq_true again)

private theorem findIdx?_hasUrl (once : (t.list.map LinkRecord.url).Nodup) {url : String}
    {i : Nat} :
    t.list.findIdx? (hasUrl url) = some i ↔ ∃ r, t.list[i]? = some r ∧ r.url = url := by
  rw [List.findIdx?_eq_some_iff_getElem]
  constructor
  · rintro ⟨inside, same, -⟩
    exact ⟨t.list[i], List.getElem?_eq_getElem inside, of_decide_eq_true same⟩
  · rintro ⟨r, here, same⟩
    obtain ⟨inside, rfl⟩ := List.getElem?_eq_some_iff.mp here
    refine ⟨inside, decide_eq_true same, fun j earlier again => ?_⟩
    have within : j < t.list.length := by omega
    have both : (t.list.map LinkRecord.url)[j]? = (t.list.map LinkRecord.url)[i]? := by
      rw [List.getElem?_map, List.getElem?_map, List.getElem?_eq_getElem within, here,
        Option.map_some, Option.map_some, of_decide_eq_true again, same]
    have place := (List.getElem?_inj (by simpa using within) once).mp both
    omega

section
variable (h : Indexed t)
include h

private theorem Indexed.mem_byCode {code : String} :
    code ∈ t.byCode ↔ ∃ r ∈ t.list, r.code.text = code := by
  rw [Std.TreeMap.mem_iff_isSome_getElem?, h.byCode, List.findIdx?_isSome, List.any_eq_true]
  simp only [hasCode, decide_eq_true_eq]

private theorem Indexed.mem_byUrl {url : String} : url ∈ t.byUrl ↔ ∃ r ∈ t.list, r.url = url := by
  rw [Std.TreeMap.mem_iff_isSome_getElem?, h.byUrl, List.findIdx?_isSome, List.any_eq_true]
  simp only [hasUrl, decide_eq_true_eq]

private theorem Indexed.find?_eq_some_iff {key : String} {r : LinkRecord} :
    t.find? key = some r ↔ (∃ i, t.Earliest key i r) ∨
      (∀ s ∈ t.list, s.code.text ≠ key) ∧ r ∈ t.list ∧ r.url = key := by
  rw [h.find?_eq]
  cases code : t.list.findIdx? (hasCode key) with
  | some i =>
    obtain ⟨s, lead⟩ := findIdx?_hasCode.mp code
    have found : t.list.find? (hasCode key) = some s := by
      rw [← getElem?_of_findIdx?, code, Option.bind_some, lead.here]
    rw [found, Option.some_or, Option.some.injEq]
    constructor
    · rintro rfl
      exact .inl ⟨i, lead⟩
    · rintro (⟨j, other⟩ | ⟨absent, -⟩)
      · have place := findIdx?_hasCode.mpr ⟨r, other⟩
        rw [code, Option.some.injEq] at place
        subst place
        exact Option.some.inj (lead.here.symm.trans other.here)
      · exact absurd lead.same (absent s (List.mem_of_getElem? lead.here))
  | none =>
    have absent : ∀ s ∈ t.list, s.code.text ≠ key := by
      simpa [hasCode] using List.findIdx?_eq_none_iff.mp code
    rw [← getElem?_of_findIdx? t.list (hasCode key), code, Option.bind_none, Option.none_or]
    constructor
    · intro found
      have same : r.url = key := by simpa [hasUrl] using List.find?_some found
      exact .inr ⟨absent, List.mem_of_find?_eq_some found, same⟩
    · rintro (⟨i, lead⟩ | ⟨-, there, rfl⟩)
      · exact absurd lead.same (absent r (List.mem_of_getElem? lead.here))
      · exact find?_of_nodup h.urls there

private theorem Indexed.described : t.Described where
  once := h.urls
  urls _ := h.mem_byUrl
  byUrl url i := by rw [h.byUrl, findIdx?_hasUrl h.urls]
  codes _ := h.mem_byCode
  byCode code i := by rw [h.byCode, findIdx?_hasCode]
  find _ _ := h.find?_eq_some_iff

end

/-! ## Operations that need their positions -/

/-- There is no record at a position. -/
structure Astray where
  position : Nat
deriving DecidableEq

def recordAt (t : LinkTable) (i : Nat) : Except Astray LinkRecord :=
  match t.records[i]? with
  | some r => .ok r
  | none => .error ⟨i⟩

def named (t : LinkTable) : Option Nat → Except Astray (Option LinkRecord)
  | none => .ok none
  | some i => some <$> t.recordAt i

def strictFind (t : LinkTable) (key : String) : Except Astray (Option LinkRecord) :=
  t.named ((t.byCode[key]?).or t.byUrl[key]?)

def strictCodeOf (t : LinkTable) (url : String) : Except Astray (Option ShortCode) :=
  Option.map LinkRecord.code <$> t.named t.byUrl[url]?

def strictMark (t : LinkTable) (code : String) : Except Astray LinkTable :=
  (fun _ => t.mark code) <$> t.named t.byCode[code]?

def strictApply (t : LinkTable) (l : JournalLine) : Except Astray LinkTable :=
  if l.deleted then t.strictMark l.code else .ok (t.apply l)

def strictSaveAll (t : LinkTable) (owner : Option OwnerId) :
    List NewLink → Except Astray (List ShortCode × LinkTable)
  | [] => .ok ([], t)
  | link :: rest => do
    match ← t.strictCodeOf link.url with
    | some code =>
      let (codes, t) ← t.strictSaveAll owner rest
      return (code :: codes, t)
    | none =>
      let (codes, t) ← (t.push (link.record owner)).strictSaveAll owner rest
      return (link.code :: codes, t)

def strictDeleteBatch (t : LinkTable) (owner : OwnerId) :
    List ShortCode → Except Astray (List LinkRecord × LinkTable)
  | [] => .ok ([], t)
  | code :: rest => do
    match (← t.named t.byCode[code.text]?).filter fun r =>
        r.owner = some owner ∧ r.deleted = false with
    | some r =>
      let (marked, t) ← (← t.strictMark code.text).strictDeleteBatch owner rest
      return (r :: marked, t)
    | none => t.strictDeleteBatch owner rest

/-- No operation looks for a record where there is none. -/
structure InRange (t : LinkTable) : Prop where
  find : ∀ key, t.strictFind key = .ok (t.find? key)
  codeOf : ∀ url, t.strictCodeOf url = .ok (t.codeOf? url)
  apply : ∀ l, t.strictApply l = .ok (t.apply l)
  saveAll : ∀ owner links, t.strictSaveAll owner links = .ok (t.saveAll owner links)
  deleteBatch : ∀ owner codes, t.strictDeleteBatch owner codes = .ok (t.deleteBatch owner codes)

private theorem named_eq {place : Option Nat} (inside : ∀ i, place = some i → i < t.records.size) :
    t.named place = .ok (place.bind (t.records[·]?)) := by
  cases place with
  | none => rfl
  | some i =>
    have within := inside i rfl
    have there : t.records[i]? = some t.records[i] := Array.getElem?_eq_getElem within
    rw [named, recordAt, Option.bind_some, there]
    rfl

section
variable (h : Indexed t)
include h

private theorem Indexed.lt_of_byCode {code : String} {i : Nat} (entry : t.byCode[code]? = some i) :
    i < t.records.size := by
  rw [h.byCode] at entry
  exact (List.findIdx?_eq_some_iff_getElem.mp entry).1

private theorem Indexed.lt_of_byUrl {url : String} {i : Nat} (entry : t.byUrl[url]? = some i) :
    i < t.records.size := by
  rw [h.byUrl] at entry
  exact (List.findIdx?_eq_some_iff_getElem.mp entry).1

private theorem Indexed.named_byCode (code : String) :
    t.named t.byCode[code]? = .ok ((t.byCode[code]?).bind (t.records[·]?)) :=
  named_eq fun _ => h.lt_of_byCode

private theorem Indexed.strictFind_eq (key : String) : t.strictFind key = .ok (t.find? key) := by
  rw [strictFind, find?]
  apply named_eq
  intro i place
  rcases Option.or_eq_some_iff.mp place with code | ⟨-, url⟩
  · exact h.lt_of_byCode code
  · exact h.lt_of_byUrl url

private theorem Indexed.strictCodeOf_eq (url : String) :
    t.strictCodeOf url = .ok (t.codeOf? url) := by
  rw [strictCodeOf, named_eq fun _ => h.lt_of_byUrl, codeOf?]
  cases t.byUrl[url]? <;> rfl

private theorem Indexed.strictMark_eq (code : String) : t.strictMark code = .ok (t.mark code) := by
  rw [strictMark, h.named_byCode]
  rfl

private theorem Indexed.strictApply_eq (l : JournalLine) : t.strictApply l = .ok (t.apply l) := by
  rw [strictApply]
  split
  case isTrue deleted => rw [h.strictMark_eq, LinkTable.apply, if_pos deleted]
  case isFalse => rfl

private theorem Indexed.strictSaveAll_eq (owner : Option OwnerId) (links : List NewLink) :
    t.strictSaveAll owner links = .ok (t.saveAll owner links) := by
  induction links generalizing t with
  | nil => rfl
  | cons link rest ih =>
    rw [strictSaveAll, LinkTable.saveAll, h.strictCodeOf_eq]
    cases fresh : t.codeOf? link.url with
    | some code =>
      simp only [bind, Except.bind, ih h]
      rfl
    | none =>
      have pushed : Indexed (t.push (link.record owner)) := h.push fresh
      simp only [bind, Except.bind, ih pushed]
      rfl

private theorem Indexed.strictDeleteBatch_eq (owner : OwnerId) (codes : List ShortCode) :
    t.strictDeleteBatch owner codes = .ok (t.deleteBatch owner codes) := by
  induction codes generalizing t with
  | nil => rfl
  | cons code rest ih =>
    have own : ((t.byCode[code.text]?).bind (t.records[·]?)).filter
        (fun r => r.owner = some owner ∧ r.deleted = false) = t.ownLive? owner code := by
      rw [ownLive?]
      cases t.byCode[code.text]? <;> rfl
    rw [strictDeleteBatch, LinkTable.deleteBatch, h.named_byCode]
    simp only [bind, Except.bind, own]
    cases t.ownLive? owner code with
    | some r =>
      simp only [h.strictMark_eq, ih (h.mark code.text)]
      rfl
    | none => exact ih h

private theorem Indexed.inRange : t.InRange :=
  ⟨h.strictFind_eq, h.strictCodeOf_eq, h.strictApply_eq, h.strictSaveAll_eq, h.strictDeleteBatch_eq⟩

end
end LinkTable

/-! ## All tables that come about -/

/-- Replaying with marks that need the records that they reach. -/
def Journal.strictReplay (text : List Char) : Except LinkTable.Astray LinkTable :=
  (entries text).foldlM LinkTable.strictApply {}

private theorem Journal.strictReplay_eq (text : List Char) :
    strictReplay text = .ok (replay text) := by
  suffices started : ∀ t : LinkTable, LinkTable.Indexed t →
      (entries text).foldlM LinkTable.strictApply t = .ok ((entries text).foldl LinkTable.apply t) from
    started {} LinkTable.indexed_empty
  intro t indexed
  induction entries text generalizing t with
  | nil => rfl
  | cons l rest ih =>
    rw [List.foldlM_cons, List.foldl_cons, indexed.strictApply_eq]
    exact ih (t.apply l) (indexed.apply l)

/-- Whatever has been asked of a table in memory, and whatever text a table has been replayed from:
its indexes name its records by their keys and nothing else, and no operation on it ever looks for
a record where there is none, nor does the replay. -/
theorem indexes_lead_to_records (calls : List StoreCall) (text : List Char) :
    ((StoreCall.run calls ({} : LinkTable)).Described ∧
      (StoreCall.run calls ({} : LinkTable)).InRange) ∧
    ((Journal.replay text).Described ∧ (Journal.replay text).InRange) ∧
    Journal.strictReplay text = .ok (Journal.replay text) := by
  have called := TableStore.indexed (TableStore.holds_empty.run calls)
  have replayed := Journal.indexed_replay text
  exact ⟨⟨called.described, called.inRange⟩, ⟨replayed.described, replayed.inRange⟩,
    Journal.strictReplay_eq text⟩

end Shortlink
