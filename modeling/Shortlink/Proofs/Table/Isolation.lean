import Shortlink.Proofs.Table.Deletion
/-!
# What an owner sees of a table

Every owner sees all links, but it sees only of its own links whether they are deleted. What others
delete does not show, and what is saved or deleted by the owner depends on what shows only.
-/
namespace Shortlink

/-- A record as an owner sees it. Links of others look as if they were not deleted. -/
def LinkRecord.seenBy (viewer : OwnerId) (r : LinkRecord) : LinkRecord :=
  if r.owner = some viewer then r else { r with deleted := false }

namespace LinkRecord
variable (viewer : OwnerId) (r : LinkRecord)

private theorem seenBy_of_own {viewer : OwnerId} {r : LinkRecord} (own : r.owner = some viewer) :
    r.seenBy viewer = r := if_pos own

@[simp] theorem code_seenBy : (r.seenBy viewer).code = r.code := by
  rw [seenBy]
  split <;> rfl

@[simp] theorem url_seenBy : (r.seenBy viewer).url = r.url := by
  rw [seenBy]
  split <;> rfl

@[simp] theorem owner_seenBy : (r.seenBy viewer).owner = r.owner := by
  rw [seenBy]
  split <;> rfl

private theorem seenBy_mark {viewer : OwnerId} {r : LinkRecord} (other : r.owner ≠ some viewer) :
    ({ r with deleted := true } : LinkRecord).seenBy viewer = r.seenBy viewer := by
  rw [seenBy, seenBy, if_neg other, if_neg other]

private theorem seenBy_struck {viewer owner : OwnerId} (other : owner ≠ viewer)
    (codes : List ShortCode)
    (r : LinkRecord) : (r.struck [⟨owner, codes⟩]).seenBy viewer = r.seenBy viewer := by
  rw [struck]
  split
  case isFalse => rfl
  case isTrue named =>
    obtain ⟨w, hw, mine, -⟩ := named
    rw [List.mem_singleton] at hw
    subst hw
    apply seenBy_mark
    intro own
    have same := mine.symm.trans own
    exact other (Option.some.inj same)

end LinkRecord

namespace LinkTable
open LinkRecord

def view (viewer : OwnerId) (t : LinkTable) : List LinkRecord := t.list.map (seenBy viewer)

/-- An owner cannot tell two tables apart. -/
structure SameFor (viewer : OwnerId) (t u : LinkTable) : Prop where
  left : Indexed t
  right : Indexed u
  view : t.view viewer = u.view viewer

theorem Indexed.sameFor_refl {t : LinkTable} (h : Indexed t) (viewer : OwnerId) :
    SameFor viewer t t := ⟨h, h, rfl⟩

/-! ## What shows -/

section
variable {t u : LinkTable} {viewer : OwnerId}

private theorem Indexed.codeOf?_view (h : Indexed t) (viewer : OwnerId) (url : String) :
    t.codeOf? url = ((t.view viewer).find? (hasUrl url)).map LinkRecord.code := by
  have urls : hasUrl url ∘ seenBy viewer = hasUrl url := by
    funext r
    simp [hasUrl]
  have codes : LinkRecord.code ∘ seenBy viewer = LinkRecord.code := by
    funext r
    exact code_seenBy viewer r
  rw [view, List.find?_map, urls, Option.map_map, codes, h.codeOf?_eq]

theorem SameFor.codeOf?_eq (same : SameFor viewer t u) (url : String) :
    t.codeOf? url = u.codeOf? url := by
  rw [same.left.codeOf?_view viewer, same.right.codeOf?_view viewer, same.view]

private theorem view_push (t : LinkTable) (r : LinkRecord) :
    (t.push r).view viewer = t.view viewer ++ [r.seenBy viewer] := by
  rw [view, list_push, List.map_append]
  rfl

private theorem ownedBy_view (t : LinkTable) (viewer : OwnerId) :
    t.ownedBy viewer = (t.view viewer).filter fun r => r.owner = some viewer := by
  have owners : (fun r : LinkRecord => decide (r.owner = some viewer)) ∘ seenBy viewer =
      fun r => decide (r.owner = some viewer) := by
    funext r
    simp
  rw [view, List.filter_map, owners, ownedBy]
  have kept : ∀ r ∈ t.list.filter (fun r => r.owner = some viewer), r.seenBy viewer = r := by
    intro r hr
    have own := (List.mem_filter.mp hr).2
    exact seenBy_of_own (of_decide_eq_true own)
  have same := List.map_congr_left kept
  rw [List.map_id'] at same
  exact same.symm

theorem SameFor.ownedBy_eq (same : SameFor viewer t u) : t.ownedBy viewer = u.ownedBy viewer := by
  rw [ownedBy_view, ownedBy_view, same.view]

private theorem Indexed.ownLive?_view (h : Indexed t) (viewer : OwnerId) (code : ShortCode) :
    t.ownLive? viewer code = ((t.view viewer).find? (hasCode code.text)).filter fun r =>
      r.owner = some viewer ∧ r.deleted = false := by
  have codes : hasCode code.text ∘ seenBy viewer = hasCode code.text := by
    funext r
    simp [hasCode]
  rw [view, List.find?_map, codes, h.ownLive?_eq]
  cases t.list.find? (hasCode code.text) with
  | none => rfl
  | some r =>
    by_cases own : r.owner = some viewer
    · rw [Option.map_some, seenBy_of_own own]
    · simp [Option.filter, own]

theorem SameFor.ownLive?_eq (same : SameFor viewer t u) (code : ShortCode) :
    t.ownLive? viewer code = u.ownLive? viewer code := by
  rw [same.left.ownLive?_view viewer, same.right.ownLive?_view viewer, same.view]

/-! ## What is kept the same -/

theorem SameFor.push (same : SameFor viewer t u) {r : LinkRecord}
    (fresh : t.codeOf? r.url = none) : SameFor viewer (t.push r) (u.push r) := by
  have fresh' : u.codeOf? r.url = none := by
    rw [← same.codeOf?_eq]
    exact fresh
  refine ⟨same.left.push fresh, same.right.push fresh', ?_⟩
  rw [view_push, view_push, same.view]

theorem SameFor.saveAll (same : SameFor viewer t u) (owner : Option OwnerId) (links : List NewLink) :
    (t.saveAll owner links).1 = (u.saveAll owner links).1 ∧
      SameFor viewer (t.saveAll owner links).2 (u.saveAll owner links).2 := by
  induction links generalizing t u with
  | nil => exact ⟨rfl, same⟩
  | cons link rest ih =>
    have known := same.codeOf?_eq link.url
    rw [LinkTable.saveAll, LinkTable.saveAll, ← known]
    cases fresh : t.codeOf? link.url with
    | some code =>
      obtain ⟨codes, still⟩ := ih same
      exact ⟨congrArg (code :: ·) codes, still⟩
    | none =>
      obtain ⟨codes, still⟩ := ih (same.push (r := link.record owner) fresh)
      exact ⟨congrArg (link.code :: ·) codes, still⟩

private theorem map_seenBy_markFirst {code : String} {records : List LinkRecord} {r : LinkRecord}
    (first : records.find? (hasCode code) = some r) (mine : r.owner = some viewer) :
    (markFirst code records).map (seenBy viewer) =
      markFirst code (records.map (seenBy viewer)) := by
  induction records with
  | nil => rfl
  | cons s rest ih =>
    have shows : hasCode code (s.seenBy viewer) = hasCode code s := by simp [hasCode]
    rw [List.find?_cons] at first
    rw [markFirst, List.map_cons, markFirst, shows]
    cases here : hasCode code s with
    | true =>
      simp only [here, Option.some.injEq] at first
      subst first
      have marked : ({ s with deleted := true } : LinkRecord).seenBy viewer =
          { s with deleted := true } := seenBy_of_own mine
      rw [if_pos rfl, if_pos rfl, List.map_cons, marked, seenBy_of_own mine]
    | false =>
      simp only [here] at first
      rw [if_neg Bool.false_ne_true, if_neg Bool.false_ne_true, List.map_cons, ih first]

private theorem Indexed.view_mark (h : Indexed t) {code : ShortCode} {r : LinkRecord}
    (own : t.ownLive? viewer code = some r) :
    (t.mark code.text).view viewer = markFirst code.text (t.view viewer) := by
  rw [h.ownLive?_eq, Option.filter_eq_some_iff] at own
  have mine : r.owner = some viewer := (of_decide_eq_true own.2).1
  rw [view, view, h.list_mark]
  exact map_seenBy_markFirst own.1 mine

theorem SameFor.mark (same : SameFor viewer t u) {code : ShortCode} {r : LinkRecord}
    (own : t.ownLive? viewer code = some r) :
    SameFor viewer (t.mark code.text) (u.mark code.text) := by
  have own' : u.ownLive? viewer code = some r := by
    rw [← same.ownLive?_eq]
    exact own
  refine ⟨same.left.mark code.text, same.right.mark code.text, ?_⟩
  rw [same.left.view_mark own, same.right.view_mark own', same.view]

theorem SameFor.deleteBatch (same : SameFor viewer t u) (codes : List ShortCode) :
    (t.deleteBatch viewer codes).1 = (u.deleteBatch viewer codes).1 ∧
      SameFor viewer (t.deleteBatch viewer codes).2 (u.deleteBatch viewer codes).2 := by
  induction codes generalizing t u with
  | nil => exact ⟨rfl, same⟩
  | cons code rest ih =>
    have live := same.ownLive?_eq code
    rw [LinkTable.deleteBatch, LinkTable.deleteBatch, ← live]
    cases own : t.ownLive? viewer code with
    | none => exact ih same
    | some r =>
      obtain ⟨marked, still⟩ := ih (same.mark own)
      exact ⟨congrArg (r :: ·) marked, still⟩

/-- What another owner deletes does not show. -/
theorem Indexed.view_deleteBatch (h : Indexed t) {owner : OwnerId} (other : owner ≠ viewer)
    (codes : List ShortCode) : (t.deleteBatch owner codes).2.view viewer = t.view viewer := by
  rw [view, view, deleteBatch_eq h, list_strike]
  apply List.ext_getElem?
  intro i
  rw [List.getElem?_map, List.getElem?_map, getElem?_struckFirst, Option.map_map]
  congr 1
  funext r
  rw [Function.comp]
  split
  · exact seenBy_struck other codes r
  · rfl

theorem SameFor.deleteBatch_left (same : SameFor viewer t u) {owner : OwnerId}
    (other : owner ≠ viewer) (codes : List ShortCode) :
    SameFor viewer (t.deleteBatch owner codes).2 u :=
  ⟨same.left.deleteBatch owner codes, same.right,
    (same.left.view_deleteBatch other codes).trans same.view⟩

end

end LinkTable
end Shortlink
