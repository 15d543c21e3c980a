import Shortlink.Proofs.Table.Growth
import Shortlink.Service
import Shortlink.Store.Memory
/-!
# What deletions do to a table

Requests mark the links of their owners that they name, but of the links that share a code they
reach the first one only. It does not matter in which order the requests come.
-/
namespace Shortlink

theorem ShortCode.text_inj {a b : ShortCode} : a.text = b.text ↔ a = b := by
  cases a
  cases b
  simp

def DeleteRequest.Names (w : DeleteRequest) (r : LinkRecord) : Prop :=
  r.owner = some w.owner ∧ r.code ∈ w.codes

instance (w : DeleteRequest) (r : LinkRecord) : Decidable (w.Names r) :=
  inferInstanceAs (Decidable (r.owner = some w.owner ∧ r.code ∈ w.codes))

/-- A record after some requests. -/
def LinkRecord.struck (ws : List DeleteRequest) (r : LinkRecord) : LinkRecord :=
  if ∃ w ∈ ws, w.Names r then { r with deleted := true } else r

namespace LinkRecord

private theorem struck_append (as bs : List DeleteRequest) (r : LinkRecord) :
    r.struck (as ++ bs) = (r.struck as).struck bs := by
  have kept : ∀ w : DeleteRequest, w.Names (r.struck as) ↔ w.Names r := by
    intro w
    unfold struck
    split <;> exact Iff.rfl
  by_cases first : ∃ w ∈ as, w.Names r
  · have all : ∃ w ∈ as ++ bs, w.Names r := by
      obtain ⟨w, hw, named⟩ := first
      exact ⟨w, List.mem_append_left bs hw, named⟩
    rw [struck, if_pos all, struck, struck, if_pos first]
    split <;> rfl
  · have rest : (∃ w ∈ as ++ bs, w.Names r) ↔ ∃ w ∈ bs, w.Names r := by
      constructor
      · rintro ⟨w, hw, named⟩
        rcases List.mem_append.mp hw with early | late
        · exact absurd ⟨w, early, named⟩ first
        · exact ⟨w, late, named⟩
      · rintro ⟨w, hw, named⟩
        exact ⟨w, List.mem_append_right as hw, named⟩
    have same : r.struck as = r := by rw [struck, if_neg first]
    rw [same]
    simp only [struck, rest]

theorem struck_congr {as bs : List DeleteRequest} {r : LinkRecord}
    (h : (∃ w ∈ as, w.Names r) ↔ ∃ w ∈ bs, w.Names r) : r.struck as = r.struck bs := by
  simp only [struck, h]

private theorem struck_single (owner : OwnerId) (code : ShortCode) (r : LinkRecord) :
    r.struck [⟨owner, [code]⟩] =
      if r.owner = some owner ∧ r.code = code then { r with deleted := true } else r := by
  simp only [struck, DeleteRequest.Names, List.mem_singleton, exists_eq_left]

theorem map_struck_nil (records : List LinkRecord) : records.map (struck []) = records := by
  have same : struck [] = id := by
    funext r
    simp [struck]
  rw [same, List.map_id]

theorem map_struck_append (as bs : List DeleteRequest) (records : List LinkRecord) :
    records.map (struck (as ++ bs)) = (records.map (struck as)).map (struck bs) := by
  rw [List.map_map]
  apply List.map_congr_left
  intro r _
  exact struck_append as bs r

theorem map_struck {α : Type} {f : LinkRecord → α}
    (same : ∀ r, f { r with deleted := true } = f r) (ws : List DeleteRequest)
    (records : List LinkRecord) : (records.map (struck ws)).map f = records.map f := by
  rw [List.map_map]
  apply List.map_congr_left
  intro r _
  simp only [Function.comp, struck]
  split
  · exact same r
  · rfl

end LinkRecord

namespace LinkTable
open LinkRecord
variable {t : LinkTable}

/-! ## Records that share a code -/

def Leads (records : List LinkRecord) (i : Nat) (r : LinkRecord) : Prop :=
  records.findIdx? (hasCode r.code.text) = some i

instance (records : List LinkRecord) (i : Nat) (r : LinkRecord) : Decidable (Leads records i r) :=
  inferInstanceAs (Decidable (records.findIdx? (hasCode r.code.text) = some i))

/-- Records after some requests. Of the records that share a code the first one is reached only. -/
def struckFirst (ws : List DeleteRequest) (records : List LinkRecord) : List LinkRecord :=
  records.mapIdx fun i r => if Leads records i r then r.struck ws else r

theorem Leads.find?_eq {records : List LinkRecord} {i : Nat} {r : LinkRecord}
    (leads : Leads records i r) (here : records[i]? = some r) :
    records.find? (hasCode r.code.text) = some r := by
  rw [← getElem?_of_findIdx?, leads, Option.bind_some, here]

theorem Leads.ownLive?_eq (h : Indexed t) {i : Nat} {r : LinkRecord} (leads : Leads t.list i r)
    (here : t.list[i]? = some r) (owner : OwnerId) :
    t.ownLive? owner r.code = if r.owner = some owner ∧ r.deleted = false then some r else none := by
  rw [h.ownLive?_eq, leads.find?_eq here, Option.filter]
  simp

private theorem leads_congr {as bs : List LinkRecord}
    (codes : as.map (fun r => r.code.text) = bs.map fun r => r.code.text) {r s : LinkRecord}
    (same : r.code = s.code) (i : Nat) : Leads as i r ↔ Leads bs i s := by
  have search (records : List LinkRecord) : records.findIdx? (hasCode r.code.text) =
      (records.map fun r => r.code.text).findIdx? (fun text => decide (text = r.code.text)) := by
    rw [List.findIdx?_map]
    rfl
  rw [Leads, Leads, ← same, search, search, codes]

theorem getElem?_struckFirst (ws : List DeleteRequest) (records : List LinkRecord) (i : Nat) :
    (struckFirst ws records)[i]? = records[i]?.map fun r =>
      if Leads records i r then r.struck ws else r := by
  rw [struckFirst, List.getElem?_mapIdx]

theorem map_struckFirst {α : Type} {f : LinkRecord → α}
    (same : ∀ r, f { r with deleted := true } = f r) (ws : List DeleteRequest)
    (records : List LinkRecord) : (struckFirst ws records).map f = records.map f := by
  apply List.ext_getElem?
  intro i
  rw [List.getElem?_map, List.getElem?_map, getElem?_struckFirst, Option.map_map]
  congr 1
  funext r
  simp only [Function.comp, struck]
  split
  · split
    · exact same r
    · rfl
  · rfl

private theorem struckFirst_congr {as bs : List DeleteRequest}
    (h : ∀ r, (∃ w ∈ as, w.Names r) ↔ ∃ w ∈ bs, w.Names r) : struckFirst as = struckFirst bs := by
  have same : struck as = struck bs := funext fun r => struck_congr (h r)
  funext records
  rw [struckFirst, struckFirst, same]

private theorem struckFirst_nil (records : List LinkRecord) : struckFirst [] records = records := by
  apply List.ext_getElem?
  intro i
  rw [getElem?_struckFirst]
  simp [struck]

private theorem struckFirst_append (as bs : List DeleteRequest) (records : List LinkRecord) :
    struckFirst (as ++ bs) records = struckFirst bs (struckFirst as records) := by
  have codes := map_struckFirst (f := fun r => r.code.text) (fun _ => rfl) as records
  apply List.ext_getElem?
  intro i
  rw [getElem?_struckFirst, getElem?_struckFirst, getElem?_struckFirst, Option.map_map]
  congr 1
  funext r
  rw [Function.comp]
  by_cases leads : Leads records i r
  · have still : Leads (struckFirst as records) i (r.struck as) := by
      refine (leads_congr codes ?_ i).mpr leads
      rw [struck]
      split <;> rfl
    rw [if_pos leads, if_pos leads, if_pos still, struck_append]
  · have still : ¬Leads (struckFirst as records) i r :=
      fun later => leads ((leads_congr codes rfl i).mp later)
    rw [if_neg leads, if_neg leads, if_neg still]

/-! ## Deletions -/

private theorem code_of_findIdx? {records : List LinkRecord} {code : ShortCode} {i : Nat}
    {r : LinkRecord}
    (place : records.findIdx? (hasCode code.text) = some i) (here : records[i]? = some r) :
    r.code = code := by
  obtain ⟨inside, has, -⟩ := List.findIdx?_eq_some_iff_getElem.mp place
  rw [(List.getElem?_eq_some_iff.mp here).2] at has
  exact ShortCode.text_inj.mp (by simpa [hasCode] using has)

private theorem list_mark_live (h : Indexed t) (owner : OwnerId) (code : ShortCode) :
    (match t.ownLive? owner code with
      | some _ => t.mark code.text
      | none => t).list = struckFirst [⟨owner, [code]⟩] t.list := by
  apply List.ext_getElem?
  intro i
  rw [getElem?_struckFirst]
  cases here : t.list[i]? with
  | none =>
    split
    · rw [h.list_mark, getElem?_markFirst, here]
      rfl
    · exact here
  | some r =>
    rw [Option.map_some, struck_single]
    by_cases place : t.list.findIdx? (hasCode code.text) = some i
    · obtain rfl := code_of_findIdx? place here
      have leads : Leads t.list i r := place
      rw [if_pos leads, leads.ownLive?_eq h here]
      by_cases own : r.owner = some owner ∧ r.deleted = false
      · rw [if_pos own, if_pos ⟨own.1, rfl⟩]
        simp only
        rw [h.list_mark, getElem?_markFirst, here, Option.map_some, if_pos place]
      · rw [if_neg own]
        simp only [here]
        split
        case isTrue named =>
          -- the record has been deleted before, so marking it changes nothing
          have deleted : r.deleted = true := by simpa [named.1] using own
          rw [← deleted]
        case isFalse => rfl
    · have other : ¬(Leads t.list i r ∧ r.code = code) := by
        rintro ⟨leads, rfl⟩
        exact place leads
      have kept : (if Leads t.list i r then
          if r.owner = some owner ∧ r.code = code then { r with deleted := true } else r
          else r) = r := by
        split
        · rw [if_neg]
          rintro ⟨-, same⟩
          exact other ⟨‹_›, same⟩
        · rfl
      rw [kept]
      split
      · rw [h.list_mark, getElem?_markFirst, here, Option.map_some, if_neg place]
      · exact here

/-- The table after some requests. Deletions touch nothing but records. -/
def strike (t : LinkTable) (ws : List DeleteRequest) : LinkTable :=
  { t with records := (struckFirst ws t.list).toArray }

theorem list_strike (t : LinkTable) (ws : List DeleteRequest) :
    (t.strike ws).list = struckFirst ws t.list := rfl

theorem strike_nil (t : LinkTable) : t.strike [] = t := by
  rw [strike, struckFirst_nil]

theorem strike_append (t : LinkTable) (as bs : List DeleteRequest) :
    t.strike (as ++ bs) = (t.strike as).strike bs := by
  simp only [strike, struckFirst_append]

theorem strike_congr {as bs : List DeleteRequest}
    (h : ∀ r, (∃ w ∈ as, w.Names r) ↔ ∃ w ∈ bs, w.Names r) (t : LinkTable) :
    t.strike as = t.strike bs := by
  rw [strike, strike, struckFirst_congr h]

private theorem strike_code (h : Indexed t) (owner : OwnerId) (code : ShortCode) :
    (match t.ownLive? owner code with
      | some _ => t.mark code.text
      | none => t) = t.strike [⟨owner, [code]⟩] := by
  have list := list_mark_live h owner code
  cases own : t.ownLive? owner code with
  | some live =>
    simp only [own] at list
    rw [strike, ← list, ← byCode_mark t code.text, ← byUrl_mark t code.text]
  | none =>
    simp only [own] at list
    rw [strike, ← list]

theorem deleteBatch_eq (h : Indexed t) (owner : OwnerId) (codes : List ShortCode) :
    (t.deleteBatch owner codes).2 = t.strike [⟨owner, codes⟩] := by
  induction codes generalizing t with
  | nil =>
    have nothing : t.strike [⟨owner, []⟩] = t.strike [] := by
      apply strike_congr
      simp [DeleteRequest.Names]
    rw [nothing, strike_nil]
    rfl
  | cons code rest ih =>
    have both : t.strike [⟨owner, code :: rest⟩] =
        (t.strike [⟨owner, [code]⟩]).strike [⟨owner, rest⟩] := by
      rw [← strike_append]
      apply strike_congr
      simp [DeleteRequest.Names, ← and_or_left]
    rw [both, ← strike_code h, LinkTable.deleteBatch]
    cases own : t.ownLive? owner code with
    | some live => exact ih (h.mark code.text)
    | none => exact ih h

/-- Chunks that are deleted one after another mark what any of them names. -/
theorem deleteChunks_eq (h : Indexed t) (chunks : List Chunk) :
    Service.deleteChunks t chunks = t.strike (chunks.map Chunk.work) ∧
      Indexed (Service.deleteChunks t chunks) := by
  induction chunks generalizing t with
  | nil => exact ⟨(strike_nil t).symm, h⟩
  | cons chunk rest ih =>
    obtain ⟨later, indexed⟩ := ih (h.deleteBatch chunk.work.owner chunk.work.codes)
    refine ⟨?_, indexed⟩
    rw [deleteBatch_eq h, ← strike_append, List.singleton_append] at later
    rw [List.map_cons, ← later, ← deleteBatch_eq h]
    rfl

/-! ## How many are marked -/

private theorem countP_markFirst {code : String} {records : List LinkRecord} {r : LinkRecord}
    (first : records.find? (hasCode code) = some r) (live : r.deleted = false) :
    (markFirst code records).countP (·.deleted) = records.countP (·.deleted) + 1 := by
  induction records with
  | nil => simp at first
  | cons s rest ih =>
    rw [List.find?_cons] at first
    rw [markFirst]
    cases here : hasCode code s with
    | true =>
      simp only [here, Option.some.injEq] at first
      subst first
      simp [live]
    | false =>
      simp only [here] at first
      simp only [List.countP_cons, ih first, Bool.false_eq_true, if_false]
      omega

theorem countP_deleteBatch (h : Indexed t) (owner : OwnerId) (codes : List ShortCode) :
    (t.deleteBatch owner codes).2.list.countP (·.deleted) =
      t.list.countP (·.deleted) + (t.deleteBatch owner codes).1.length := by
  induction codes generalizing t with
  | nil => rfl
  | cons code rest ih =>
    rw [LinkTable.deleteBatch]
    cases own : t.ownLive? owner code with
    | none => exact ih h
    | some live =>
      rw [h.ownLive?_eq, Option.filter_eq_some_iff] at own
      have alive : live.deleted = false := (of_decide_eq_true own.2).2
      have once := countP_markFirst own.1 alive
      rw [← h.list_mark] at once
      simp only [List.length_cons]
      rw [ih (h.mark code.text), once]
      omega

/-! ## Which are marked -/

/-- The records that have been marked in the meantime, as they were before. -/
def marked (before after : List LinkRecord) : List LinkRecord :=
  ((before.zip after).filter fun p => !p.1.deleted && p.2.deleted).map Prod.fst

theorem marked_append (records added : List LinkRecord) : marked records (records ++ added) = [] := by
  induction records with
  | nil => rfl
  | cons r rest ih =>
    rw [marked] at ih ⊢
    rw [List.cons_append, List.zip_cons_cons, List.filter_cons_of_neg, ih]
    simp

private theorem marked_self (records : List LinkRecord) : marked records records = [] := by
  simpa using marked_append records []

private theorem marked_markFirst {code : String} {records after : List LinkRecord} {r : LinkRecord}
    (first : records.find? (hasCode code) = some r) (live : r.deleted = false)
    (persist : Persist (markFirst code records) after) :
    (marked records after).Perm (r :: marked (markFirst code records) after) := by
  induction records generalizing after with
  | nil => simp at first
  | cons s rest ih =>
    rw [List.find?_cons] at first
    rw [markFirst] at persist ⊢
    cases here : hasCode code s with
    | true =>
      simp only [here, Option.some.injEq, if_true] at first persist ⊢
      subst first
      obtain ⟨a, there, kept⟩ := persist 0 _ rfl
      cases after with
      | nil => simp at there
      | cons b more =>
        obtain rfl := Option.some.inj there
        have deleted : b.deleted = true := kept.deleted rfl
        simp [marked, live, deleted]
    | false =>
      simp only [here, Bool.false_eq_true, if_false] at first persist ⊢
      obtain ⟨a, there, kept⟩ := persist 0 _ rfl
      cases after with
      | nil => simp at there
      | cons b more =>
        have later := ih first fun i r inside => persist (i + 1) r inside
        simp only [marked, List.zip_cons_cons, List.filter_cons] at later ⊢
        split
        · exact (later.cons s).trans (List.Perm.swap r s _)
        · exact later

theorem Indexed.marked_deleteBatch (h : Indexed t) (owner : OwnerId) (codes : List ShortCode) :
    (t.deleteBatch owner codes).1.Perm (marked t.list (t.deleteBatch owner codes).2.list) := by
  induction codes generalizing t with
  | nil =>
    rw [LinkTable.deleteBatch, marked_self]
  | cons code rest ih =>
    rw [LinkTable.deleteBatch]
    cases own : t.ownLive? owner code with
    | none => exact ih h
    | some r =>
      have persist := ((h.mark code.text).grown_deleteBatch owner rest).persist
      have later := ih (h.mark code.text)
      rw [h.ownLive?_eq, Option.filter_eq_some_iff] at own
      have live : r.deleted = false := (of_decide_eq_true own.2).2
      rw [h.list_mark] at persist later
      exact (later.cons r).trans (marked_markFirst own.1 live persist).symm

def newlyMarked (before after : List LinkRecord) : Nat :=
  (before.zip after).countP fun p => !p.1.deleted && p.2.deleted

private theorem newlyMarked_eq (before after : List LinkRecord) :
    newlyMarked before after = (marked before after).length := by
  rw [newlyMarked, marked, List.length_map, List.countP_eq_length_filter]

theorem length_deleteBatch (h : Indexed t) (owner : OwnerId) (codes : List ShortCode) :
    (t.deleteBatch owner codes).1.length =
      newlyMarked t.list (t.deleteBatch owner codes).2.list := by
  rw [newlyMarked_eq]
  exact (h.marked_deleteBatch owner codes).length_eq

/-! ## Distinct codes -/

/-- Whether every code belongs to one record. -/
def SingleCodes (t : LinkTable) : Prop := (t.list.map fun r => r.code.text).Nodup

theorem SingleCodes.find?_eq (single : t.SingleCodes) {r : LinkRecord} (h : r ∈ t.list) :
    t.list.find? (hasCode r.code.text) = some r :=
  find?_of_nodup single h

theorem SingleCodes.list_strike (single : t.SingleCodes) (ws : List DeleteRequest) :
    (t.strike ws).list = t.list.map (struck ws) := by
  apply List.ext_getElem?
  intro i
  rw [LinkTable.list_strike, getElem?_struckFirst, List.getElem?_map]
  cases here : t.list[i]? with
  | none => rfl
  | some r =>
    have leads : Leads t.list i r := by
      obtain ⟨inside, rfl⟩ := List.getElem?_eq_some_iff.mp here
      rw [Leads, List.findIdx?_eq_some_iff_getElem]
      refine ⟨inside, by simp [hasCode], fun j before => ?_⟩
      have earlier : j < t.list.length := by omega
      have apart := List.pairwise_iff_getElem.mp single j i
        (by rwa [List.length_map]) (by rwa [List.length_map]) before
      simpa [hasCode] using apart
    rw [Option.map_some, Option.map_some, if_pos leads]

end LinkTable
end Shortlink
