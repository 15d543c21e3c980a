import Shortlink.Proofs.Table.Changes
/-!
# Tables only grow

Changes of a link table add records at the end and set marks. Where no code of a table is also one of
its URLs, a look-up therefore keeps its answer until the record that it has found is marked, and stays
with that mark.
-/
namespace Shortlink

/-- A record later on: at most it has been marked. -/
structure LinkRecord.Kept (r later : LinkRecord) : Prop where
  code : later.code = r.code
  url : later.url = r.url
  owner : later.owner = r.owner
  deleted : r.deleted = true → later.deleted = true

namespace LinkRecord

theorem Kept.refl (r : LinkRecord) : Kept r r := ⟨rfl, rfl, rfl, id⟩

theorem Kept.trans {r s t : LinkRecord} (first : Kept r s) (second : Kept s t) : Kept r t :=
  ⟨second.code.trans first.code, second.url.trans first.url, second.owner.trans first.owner,
    second.deleted ∘ first.deleted⟩

private theorem kept_mark (r : LinkRecord) : Kept r { r with deleted := true } :=
  ⟨rfl, rfl, rfl, fun _ => rfl⟩

end LinkRecord

namespace LinkTable
open LinkRecord

/-- Every record is still at its place, marked at most. -/
def Persist (before after : List LinkRecord) : Prop :=
  ∀ (i : Nat) (r : LinkRecord), before[i]? = some r → ∃ s, after[i]? = some s ∧ Kept r s

theorem Persist.refl (records : List LinkRecord) : Persist records records :=
  fun _ r there => ⟨r, there, Kept.refl r⟩

theorem Persist.trans {as bs cs : List LinkRecord} (first : Persist as bs) (second : Persist bs cs) :
    Persist as cs := by
  intro i r there
  obtain ⟨s, there', kept⟩ := first i r there
  obtain ⟨u, there'', kept'⟩ := second i s there'
  exact ⟨u, there'', kept.trans kept'⟩

theorem Persist.find? {p : LinkRecord → Bool} (same : ∀ {r s}, Kept r s → p s = p r)
    {before after : List LinkRecord} (persist : Persist before after) {r : LinkRecord}
    (found : before.find? p = some r) : ∃ s, after.find? p = some s ∧ Kept r s := by
  induction before generalizing after with
  | nil => simp at found
  | cons first rest ih =>
    obtain ⟨later, there, kept⟩ := persist 0 first rfl
    cases after with
    | nil => simp at there
    | cons head more =>
      obtain rfl : head = later := Option.some.inj there
      rw [List.find?_cons, same kept]
      rw [List.find?_cons] at found
      cases here : p first with
      | true =>
        rw [here] at found
        obtain rfl := Option.some.inj found
        exact ⟨head, rfl, kept⟩
      | false =>
        rw [here] at found
        exact ih (fun i s inside => persist (i + 1) s inside) found

/-! ## Growing -/

def links (t : LinkTable) : List NewLink := t.list.map fun r => ⟨r.code, r.url⟩

/-- A table has become another one, with links from among the given ones. -/
structure Grown (saved : List NewLink) (t u : LinkTable) : Prop where
  indexed : Indexed u
  persist : Persist t.list u.list
  links : u.links ⊆ t.links ++ saved

section
variable {t u v : LinkTable}

theorem Indexed.grown_refl (h : Indexed t) : Grown [] t t :=
  ⟨h, .refl t.list, List.subset_append_left _ _⟩

theorem Grown.trans {as bs : List NewLink} (first : Grown as t u) (second : Grown bs u v) :
    Grown (as ++ bs) t v := by
  refine ⟨second.indexed, first.persist.trans second.persist, ?_⟩
  rw [← List.append_assoc]
  refine List.Subset.trans second.links (List.append_subset.mpr ⟨?_, List.subset_append_right _ _⟩)
  exact List.Subset.trans first.links (List.subset_append_left _ _)

theorem Grown.mono {as bs : List NewLink} (grown : Grown as t u) (more : as ⊆ bs) :
    Grown bs t u := by
  refine ⟨grown.indexed, grown.persist, ?_⟩
  refine List.Subset.trans grown.links (List.append_subset.mpr ⟨List.subset_append_left _ _, ?_⟩)
  exact List.Subset.trans more (List.subset_append_right _ _)

private theorem Indexed.grown_push (h : Indexed t) {link : NewLink}
    (new : t.codeOf? link.url = none)
    (owner : Option OwnerId) : Grown [link] t (t.push (link.record owner)) := by
  refine ⟨h.push new, ?_, ?_⟩
  · intro i s there
    obtain ⟨inside, -⟩ := List.getElem?_eq_some_iff.mp there
    rw [list_push, List.getElem?_append_left inside]
    exact ⟨s, there, Kept.refl s⟩
  · rw [LinkTable.links, list_push, List.map_append]
    exact List.Subset.refl _

private theorem Indexed.grown_mark (h : Indexed t) (code : String) : Grown [] t (t.mark code) := by
  refine ⟨h.mark code, ?_, ?_⟩
  · intro i r there
    rw [h.list_mark, getElem?_markFirst, there]
    split
    · exact ⟨_, rfl, kept_mark r⟩
    · exact ⟨r, rfl, Kept.refl r⟩
  · rw [LinkTable.links, h.list_mark, map_markFirst (fun _ => rfl)]
    exact List.subset_append_left _ _

theorem Indexed.grown_saveAll (h : Indexed t) (owner : Option OwnerId) (links : List NewLink) :
    Grown links t (t.saveAll owner links).2 := by
  induction links generalizing t with
  | nil => exact h.grown_refl
  | cons link rest ih =>
    rw [LinkTable.saveAll]
    cases new : t.codeOf? link.url with
    | some code => exact (ih h).mono (List.subset_cons_self link rest)
    | none =>
      have pushed := h.grown_push new owner
      exact pushed.trans (ih pushed.indexed)

theorem exists_list_saveAll (t : LinkTable) (owner : Option OwnerId) (links : List NewLink) :
    ∃ added, (t.saveAll owner links).2.list = t.list ++ added ∧ ∀ r ∈ added, r.deleted = false := by
  induction links generalizing t with
  | nil => exact ⟨[], (List.append_nil t.list).symm, List.forall_mem_nil _⟩
  | cons link rest ih =>
    rw [LinkTable.saveAll]
    cases t.codeOf? link.url with
    | some code => exact ih t
    | none =>
      obtain ⟨added, whole, live⟩ := ih (t.push (link.record owner))
      refine ⟨link.record owner :: added, ?_, ?_⟩
      · rw [list_push, List.append_assoc] at whole
        exact whole
      · rw [List.forall_mem_cons]
        exact ⟨rfl, live⟩

theorem Indexed.grown_deleteBatch (h : Indexed t) (owner : OwnerId) (codes : List ShortCode) :
    Grown [] t (t.deleteBatch owner codes).2 := by
  induction codes generalizing t with
  | nil => exact h.grown_refl
  | cons code rest ih =>
    rw [LinkTable.deleteBatch]
    cases t.ownLive? owner code with
    | none => exact ih h
    | some r =>
      have marked := h.grown_mark code.text
      exact marked.trans (ih marked.indexed)

end

/-! ## Look-ups -/

/-- No code is also a URL. -/
def Apart (links : List NewLink) : Prop := ∀ a ∈ links, ∀ b ∈ links, a.code.text ≠ b.url

instance (links : List NewLink) : Decidable (Apart links) :=
  inferInstanceAs (Decidable (∀ a ∈ links, ∀ b ∈ links, a.code.text ≠ b.url))

theorem Apart.mono {as bs : List NewLink} (apart : Apart bs) (subset : as ⊆ bs) : Apart as :=
  fun a ha b hb => apart a (subset ha) b (subset hb)

theorem get_of_find? {t : LinkTable} {key : String} {r : LinkRecord} (found : t.find? key = some r) :
    t.get key = if r.deleted then .error (.alreadyDeleted key)
      else if r.code.text = key then .ok (some r.url) else .ok (some r.code.text) := by
  rw [LinkTable.get, found]

section
variable {t u : LinkTable} {saved : List NewLink} (h : Indexed t) (grown : Grown saved t u)
  (apart : Apart (t.links ++ saved)) {key : String}
include h grown apart

theorem Grown.find? {r : LinkRecord} (found : t.find? key = some r) :
    ∃ s, u.find? key = some s ∧ Kept r s := by
  have sameCode {r s : LinkRecord} (kept : Kept r s) : hasCode key s = hasCode key r := by
    rw [hasCode, hasCode, kept.code]
  have sameUrl {r s : LinkRecord} (kept : Kept r s) : hasUrl key s = hasUrl key r := by
    rw [hasUrl, hasUrl, kept.url]
  rw [h.find?_eq] at found
  rw [grown.indexed.find?_eq]
  cases code : t.list.find? (hasCode key) with
  | some first =>
    rw [code, Option.some_or, Option.some.injEq] at found
    obtain ⟨s, there, kept⟩ := grown.persist.find? sameCode code
    rw [there]
    exact ⟨s, rfl, found ▸ kept⟩
  | none =>
    rw [code, Option.none_or] at found
    obtain ⟨s, there, kept⟩ := grown.persist.find? sameUrl found
    -- the key is a URL of the later table, so no record has come to have it as its code
    have absent : u.list.find? (hasCode key) = none := by
      rw [List.find?_eq_none]
      intro other hother same
      have url : s.url = key := by simpa [hasUrl] using List.find?_some there
      have clash : other.code.text = key := by simpa [hasCode] using same
      have mine : (⟨other.code, other.url⟩ : NewLink) ∈ u.links := List.mem_map_of_mem hother
      have its : (⟨s.code, s.url⟩ : NewLink) ∈ u.links :=
        List.mem_map_of_mem (List.mem_of_find?_eq_some there)
      exact apart _ (grown.links mine) _ (grown.links its) (clash.trans url.symm)
    rw [absent, there]
    exact ⟨s, rfl, kept⟩

theorem Grown.get_value {half : String} (answer : t.get key = .ok (some half)) :
    u.get key = .ok (some half) ∨ u.get key = .error (.alreadyDeleted key) := by
  cases found : t.find? key with
  | none => simp [LinkTable.get, found] at answer
  | some r =>
    obtain ⟨s, there, kept⟩ := grown.find? h apart found
    rw [get_of_find? found] at answer
    rw [get_of_find? there, kept.code, kept.url]
    cases gone : s.deleted with
    | true => exact .inr rfl
    | false =>
      have live : r.deleted ≠ true := by
        intro deleted
        rw [kept.deleted deleted] at gone
        contradiction
      rw [if_neg live] at answer
      exact .inl answer

theorem Grown.get_deleted (answer : t.get key = .error (.alreadyDeleted key)) :
    u.get key = .error (.alreadyDeleted key) := by
  cases found : t.find? key with
  | none => simp [LinkTable.get, found] at answer
  | some r =>
    obtain ⟨s, there, kept⟩ := grown.find? h apart found
    rw [get_of_find? found] at answer
    cases gone : r.deleted with
    | true => rw [get_of_find? there, kept.deleted gone, if_pos rfl]
    | false =>
      rw [gone, if_neg Bool.false_ne_true] at answer
      split at answer <;> contradiction

end

end LinkTable
end Shortlink
