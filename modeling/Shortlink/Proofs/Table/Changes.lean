import Shortlink.Proofs.Table.Index
/-!
# Changes of a link table

Every operation keeps the indexes true to the records. A table that comes about holds each URL once.
-/
namespace Shortlink

private theorem firstDuplicate?_eq_none_iff {seen urls : List String} :
    firstDuplicate? seen urls = none ↔ urls.Nodup ∧ ∀ url ∈ urls, url ∉ seen := by
  induction urls generalizing seen with
  | nil => simp [firstDuplicate?]
  | cons url rest ih =>
    rw [firstDuplicate?]
    split
    case isTrue repeated => simp [repeated]
    case isFalse new =>
      rw [ih, List.nodup_cons]
      constructor
      · rintro ⟨distinct, unseen⟩
        refine ⟨⟨fun again => ?_, distinct⟩, ?_⟩
        · exact unseen url again List.mem_cons_self
        · intro other hother
          rcases List.mem_cons.mp hother with rfl | later
          · exact new
          · intro old
            exact unseen other later (List.mem_cons_of_mem url old)
      · rintro ⟨⟨single, distinct⟩, unseen⟩
        refine ⟨distinct, fun other hother old => ?_⟩
        rcases List.mem_cons.mp old with rfl | old
        · exact single hother
        · exact unseen other (List.mem_cons_of_mem url hother) old

theorem ensureUnique_eq_ok_iff {links : List NewLink} :
    ensureUnique links = .ok () ↔ (links.map NewLink.url).Nodup := by
  have unseen : firstDuplicate? [] (links.map NewLink.url) = none ↔
      (links.map NewLink.url).Nodup := by simp [firstDuplicate?_eq_none_iff]
  rw [← unseen, ensureUnique]
  cases firstDuplicate? [] (links.map NewLink.url) <;> simp

/-- Of the entries that name what an earlier one names, this is the first. -/
def FirstRepeated (urls : List String) (url : String) : Prop :=
  ∃ before after, urls = before ++ url :: after ∧ before.Nodup ∧ url ∈ before

private theorem firstDuplicate?_append {seen before : List String} (distinct : before.Nodup)
    (unseen : ∀ url ∈ before, url ∉ seen) (rest : List String) :
    firstDuplicate? seen (before ++ rest) = firstDuplicate? (before.reverse ++ seen) rest := by
  induction before generalizing seen with
  | nil => rfl
  | cons url more ih =>
    rw [List.nodup_cons] at distinct
    rw [List.forall_mem_cons] at unseen
    have later : ∀ other ∈ more, other ∉ url :: seen := by
      intro other there old
      rcases List.mem_cons.mp old with rfl | old
      · exact distinct.1 there
      · exact unseen.2 other there old
    rw [List.cons_append, firstDuplicate?, if_neg unseen.1, ih distinct.2 later,
      List.reverse_cons, List.append_assoc]
    rfl

private theorem firstDuplicate?_eq_some {url : String} {seen urls : List String}
    (found : firstDuplicate? seen urls = some url) : ∃ before after, urls = before ++ url :: after ∧
      before.Nodup ∧ (∀ other ∈ before, other ∉ seen) ∧ url ∈ before ++ seen := by
  induction urls generalizing seen with
  | nil => simp [firstDuplicate?] at found
  | cons first rest ih =>
    rw [firstDuplicate?] at found
    split at found
    case isTrue repeated =>
      obtain rfl := Option.some.inj found
      exact ⟨[], rest, rfl, List.nodup_nil, List.forall_mem_nil _, repeated⟩
    case isFalse new =>
      obtain ⟨before, after, rfl, distinct, unseen, again⟩ := ih found
      refine ⟨first :: before, after, rfl, List.nodup_cons.mpr ⟨?_, distinct⟩, ?_, ?_⟩
      · exact fun there => unseen first there List.mem_cons_self
      · rw [List.forall_mem_cons]
        exact ⟨new, fun other there old => unseen other there (List.mem_cons_of_mem first old)⟩
      · simpa [or_left_comm] using again

private theorem firstDuplicate?_eq_some_iff {urls : List String} {url : String} :
    firstDuplicate? [] urls = some url ↔ FirstRepeated urls url := by
  constructor
  · intro found
    obtain ⟨before, after, same, distinct, -, again⟩ := firstDuplicate?_eq_some found
    exact ⟨before, after, same, distinct, by simpa using again⟩
  · rintro ⟨before, after, rfl, distinct, again⟩
    rw [firstDuplicate?_append distinct (by simp), firstDuplicate?, if_pos (by simpa using again)]

theorem exists_firstRepeated_iff {urls : List String} :
    (∃ url, FirstRepeated urls url) ↔ ¬urls.Nodup := by
  have distinct : firstDuplicate? [] urls = none ↔ urls.Nodup := by
    simp [firstDuplicate?_eq_none_iff]
  rw [← distinct, ← ne_eq, Option.ne_none_iff_exists']
  simp only [firstDuplicate?_eq_some_iff]

theorem ensureUnique_eq_error_iff {links : List NewLink} {e : StoreError} :
    ensureUnique links = .error e ↔
      ∃ url, e = .duplicateInBatch url ∧ FirstRepeated (links.map NewLink.url) url := by
  simp only [← firstDuplicate?_eq_some_iff]
  rw [ensureUnique]
  cases firstDuplicate? [] (links.map NewLink.url) <;> simp [eq_comm]

namespace LinkTable
variable {t : LinkTable}

private theorem Indexed.codeOf?_push (h : Indexed t) {r : LinkRecord}
    (fresh : t.codeOf? r.url = none)
    (url : String) :
    (t.push r).codeOf? url = if r.url = url then some r.code else t.codeOf? url := by
  have unseen := fresh
  rw [h.codeOf?_eq, Option.map_eq_none_iff] at unseen
  rw [(h.push fresh).codeOf?_eq, list_push, List.find?_append, h.codeOf?_eq]
  split
  case isTrue same =>
    subst same
    rw [unseen]
    simp [hasUrl]
  case isFalse other => simp [hasUrl, other]

theorem Indexed.codeOf?_push_of_ne (h : Indexed t) {r : LinkRecord}
    (fresh : t.codeOf? r.url = none) {url : String} (other : url ≠ r.url) :
    (t.push r).codeOf? url = t.codeOf? url := by
  rw [h.codeOf?_push fresh, if_neg (Ne.symm other)]

theorem Indexed.save (h : Indexed t) {link : NewLink} {owner : Option OwnerId} {code : ShortCode}
    {t' : LinkTable} (saved : t.save link owner = .ok (code, t')) : Indexed t' := by
  rw [LinkTable.save] at saved
  cases fresh : t.codeOf? link.url with
  | some code => simp [fresh] at saved
  | none =>
    simp only [fresh, Except.ok.injEq, Prod.mk.injEq] at saved
    rw [← saved.2]
    exact h.push fresh

theorem Indexed.saveAll (h : Indexed t) (owner : Option OwnerId) (links : List NewLink) :
    Indexed (t.saveAll owner links).2 := by
  induction links generalizing t with
  | nil => exact h
  | cons link rest ih =>
    rw [LinkTable.saveAll]
    cases fresh : t.codeOf? link.url with
    | some code => exact ih h
    | none => exact ih (h.push fresh)

theorem Indexed.saveBatch (h : Indexed t) {links : List NewLink} {owner : Option OwnerId}
    {codes : List ShortCode} {t' : LinkTable}
    (saved : t.saveBatch links owner = .ok (codes, t')) : Indexed t' := by
  rw [LinkTable.saveBatch] at saved
  cases unique : ensureUnique links with
  | error e => simp [unique] at saved
  | ok =>
    simp only [unique, Except.ok.injEq] at saved
    have kept := h.saveAll owner links
    rwa [saved] at kept

theorem Indexed.deleteBatch (h : Indexed t) (owner : OwnerId) (codes : List ShortCode) :
    Indexed (t.deleteBatch owner codes).2 := by
  induction codes generalizing t with
  | nil => exact h
  | cons code rest ih =>
    rw [LinkTable.deleteBatch]
    cases t.ownLive? owner code with
    | some r => exact ih (h.mark code.text)
    | none => exact ih h

end LinkTable
end Shortlink
