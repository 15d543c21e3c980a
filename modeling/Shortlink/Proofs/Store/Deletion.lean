import Shortlink.Proofs.Store.State
import Shortlink.Proofs.Table.Deletion
/-!
# What deleting does to a store

A batch of codes marks links of the owner among them and no others, and answers how many it has
marked. Of the links that share a code it reaches the first one only, so all of them are marked
exactly where every live link of the owner comes first under its code.
-/
namespace Shortlink
open LinkTable LinkRecord TableStore

def LinkRecord.markIf (condition : Prop) [Decidable condition] (r : LinkRecord) : LinkRecord :=
  { r with deleted := r.deleted || decide condition }

/-- The owner's links among the codes are deleted, and nothing else has changed. -/
def DeletesAll (owner : OwnerId) (codes : List ShortCode) (before after : List LinkRecord) : Prop :=
  after = before.map fun r => r.markIf (r.owner = some owner ∧ r.code ∈ codes)

instance (owner : OwnerId) (codes : List ShortCode) (before after : List LinkRecord) :
    Decidable (DeletesAll owner codes before after) :=
  inferInstanceAs (Decidable (after = _))

/-- The owner's live links among the codes all come first under their codes. -/
def AllLead (owner : OwnerId) (codes : List ShortCode) (records : List LinkRecord) : Prop :=
  ∀ (i : Nat) (r : LinkRecord), records[i]? = some r → r.owner = some owner → r.code ∈ codes →
    r.deleted = false → Leads records i r

section
variable (owner : OwnerId) (codes : List ShortCode)

private theorem struck_request (r : LinkRecord) :
    r.struck [⟨owner, codes⟩] = r.markIf (r.owner = some owner ∧ r.code ∈ codes) := by
  have named : (∃ w ∈ [(⟨owner, codes⟩ : DeleteRequest)], w.Names r) ↔
      r.owner = some owner ∧ r.code ∈ codes := by simp [DeleteRequest.Names]
  rw [struck]
  split
  case isTrue asked => simp [markIf, named.mp asked]
  case isFalse other =>
    rw [named] at other
    simp [markIf, other]

private theorem struckFirst_request (records : List LinkRecord) :
    struckFirst [⟨owner, codes⟩] records =
    records.mapIdx fun i r =>
      r.markIf (r.owner = some owner ∧ r.code ∈ codes ∧ Leads records i r) := by
  rw [struckFirst]
  congr 1
  funext i r
  rw [struck_request]
  by_cases leads : Leads records i r <;> simp [markIf, leads]

/-- A link that comes after another one with its code is passed over, unless it is no matter. -/
theorem deletesAll_iff (records : List LinkRecord) :
    DeletesAll owner codes records (struckFirst [⟨owner, codes⟩] records) ↔
      AllLead owner codes records := by
  rw [DeletesAll, struckFirst_request]
  constructor
  · intro same i r here mine among live
    have left := congrArg (·[i]?) same
    simp only [List.getElem?_mapIdx, List.getElem?_map, here, Option.map_some, Option.some.injEq,
      markIf, LinkRecord.mk.injEq, true_and] at left
    simpa [live, mine, among] using left
  · intro lead
    apply List.ext_getElem?
    intro i
    rw [List.getElem?_mapIdx, List.getElem?_map]
    cases here : records[i]? with
    | none => rfl
    | some r =>
      have reached := lead i r here
      cases live : r.deleted with
      | true => simp [markIf, live]
      | false =>
        have same : (r.owner = some owner ∧ r.code ∈ codes ∧ Leads records i r) ↔
            r.owner = some owner ∧ r.code ∈ codes :=
          ⟨fun h => ⟨h.1, h.2.1⟩, fun h => ⟨h.1, h.2, reached h.1 h.2 live⟩⟩
        simp only [Option.map_some, markIf, same]

end

/-- Whatever a store holds, a batch of codes deletes the owner's links that come first under one of
the codes, and the answer is the number of records that it has newly marked. All links of the owner
with these codes are deleted exactly if the live ones among them come first under their codes. -/
theorem deleteBatch_marks_first {σ : Type} [LinkStore σ] [TableStore σ] {store : σ} {t : LinkTable}
    (held : Holds store t) (owner : OwnerId) (codes : List ShortCode) :
    ∃ (n : Nat) (after : σ) (t' : LinkTable),
      (LinkStore.deleteBatch owner codes : StoreM σ Nat) store = (.ok n, after) ∧
      Holds after t' ∧
      t'.list = (t.list.mapIdx fun i r =>
        r.markIf (r.owner = some owner ∧ r.code ∈ codes ∧ Leads t.list i r)) ∧
      n = newlyMarked t.list t'.list ∧
      (DeletesAll owner codes t.list t'.list ↔ AllLead owner codes t.list) := by
  have indexed := TableStore.indexed held
  obtain ⟨same, still⟩ := simulates.deleteBatch owner codes store t held
  have list : (t.deleteBatch owner codes).2.list = struckFirst [⟨owner, codes⟩] t.list := by
    rw [deleteBatch_eq indexed, list_strike]
  refine ⟨(t.deleteBatch owner codes).1.length, _, (t.deleteBatch owner codes).2,
    Prod.ext same rfl, still, ?_, length_deleteBatch indexed owner codes, ?_⟩
  · rw [list, struckFirst_request]
  · rw [list]
    exact deletesAll_iff owner codes t.list

def sharedCodeCalls : List StoreCall :=
  [.save ⟨⟨"SAMECODE"⟩, "http://a.b/"⟩ (some .zero),
    .save ⟨⟨"SAMECODE"⟩, "http://c.d/"⟩ (some .zero)]

/-- Of the two links the first one is deleted. -/
theorem deleteBatch_marks_first_of_sharedCode :
    ∃ after : LinkTable, (LinkStore.deleteBatch .zero [⟨"SAMECODE"⟩] : StoreM LinkTable Nat)
        (StoreCall.run sharedCodeCalls {}) = (.ok 1, after) ∧
      after.list.map LinkRecord.deleted = [true, false] := by
  have held := holds_empty.run sharedCodeCalls
  obtain ⟨n, after, t', answer, ⟨same, -⟩, list, count, -⟩ :=
    deleteBatch_marks_first held .zero [⟨"SAMECODE"⟩]
  have one : n = 1 := by
    rw [count, list]
    decide +kernel
  refine ⟨after, by rw [answer, one], ?_⟩
  rw [same, list]
  decide +kernel

theorem not_deletesAll_of_sharedCode :
    ¬DeletesAll .zero [⟨"SAMECODE"⟩]
      (StoreCall.run sharedCodeCalls ({} : LinkTable)).list
      ((LinkStore.deleteBatch .zero [⟨"SAMECODE"⟩] : StoreM LinkTable Nat)
        (StoreCall.run sharedCodeCalls ({} : LinkTable))).2.list := by
  decide +kernel

end Shortlink
