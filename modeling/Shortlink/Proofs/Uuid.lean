import Mathlib.Algebra.Ring.Nat
import Shortlink.Proofs.Text.Bytes
import Shortlink.Uuid
/-!
# Reading identifiers back

The written form of an identifier has five groups of digits in thirty-six bytes, and it is read as
the identifier itself.
-/
namespace Shortlink.Uuid

private theorem length_cut {α : Type} (sizes : List Nat) (xs : List α) :
    (cut sizes xs).length = sizes.length := by
  induction sizes generalizing xs with
  | nil => rfl
  | cons n ns ih => rw [cut, List.length_cons, ih, List.length_cons]

private theorem flatten_cut {α : Type} (sizes : List Nat) {xs : List α}
    (whole : sizes.sum = xs.length) :
    (cut sizes xs).flatten = xs := by
  induction sizes generalizing xs with
  | nil => exact (List.length_eq_zero_iff.mp whole.symm).symm
  | cons n ns ih =>
    rw [List.sum_cons] at whole
    rw [cut, List.flatten_cons, ih (by rw [List.length_drop]; omega), List.take_append_drop]

private theorem map_length_cut {α : Type} (sizes : List Nat) {xs : List α}
    (whole : sizes.sum = xs.length) :
    (cut sizes xs).map List.length = sizes := by
  induction sizes generalizing xs with
  | nil => rfl
  | cons n ns ih =>
    rw [List.sum_cons] at whole
    rw [cut, List.map_cons, ih (by rw [List.length_drop]; omega), List.length_take,
      Nat.min_eq_left (by omega)]

/-! ## Groups -/

private theorem groups_eq_splitOn (cs : List Char) : groups cs = cs.splitOn '-' := by
  induction cs with
  | nil => rfl
  | cons c cs ih =>
    rw [groups, List.splitOn_cons_eq_if_modifyHead, ih]
    simp only [beq_iff_eq]
    split
    · rfl
    · cases split : cs.splitOn '-' with
      | nil => exact absurd split (List.splitOn_ne_nil _ _)
      | cons g gs => rfl

private theorem mem_intercalate {α : Type} {x y : α} {gs : List (List α)}
    (h : y ∈ [x].intercalate gs) :
    y = x ∨ ∃ g ∈ gs, y ∈ g := by
  induction gs with
  | nil => simp at h
  | cons g gs ih =>
    cases gs with
    | nil =>
      rw [List.intercalate_singleton] at h
      exact .inr ⟨g, List.mem_cons_self, h⟩
    | cons g' gs =>
      rw [List.intercalate_cons_cons, List.append_assoc, List.mem_append, List.singleton_append,
        List.mem_cons] at h
      rcases h with h | rfl | h
      · exact .inr ⟨g, List.mem_cons_self, h⟩
      · exact .inl rfl
      · rcases ih h with rfl | ⟨g', hg, hy⟩
        · exact .inl rfl
        · exact .inr ⟨g', List.mem_cons_of_mem g hg, hy⟩

private theorem length_intercalate {α : Type} (x : α) (g : List α) (gs : List (List α)) :
    ([x].intercalate (g :: gs)).length = (g :: gs).flatten.length + gs.length := by
  induction gs generalizing g with
  | nil => simp
  | cons g' gs ih =>
    have rest := ih g'
    rw [List.intercalate_cons_cons, List.length_append, rest]
    simp only [List.flatten_cons, List.length_append, List.length_cons, List.length_nil]
    omega

private theorem wrongGroup?_map_length (bytes i : Nat) (gs : List (List Char)) :
    wrongGroup? bytes i (gs.map List.length) gs = none := by
  induction gs generalizing i with
  | nil => rfl
  | cons g gs ih => rw [List.map_cons, wrongGroup?, if_pos rfl, ih]

private theorem stray?_eq_none {cs : List Char}
    (h : ∀ c ∈ cs, c = '-' ∨ (Hex.value? c).isSome = true) (i : Nat) : stray? cs i = none := by
  induction cs generalizing i with
  | nil => rfl
  | cons c cs ih =>
    rw [stray?, if_pos (h c List.mem_cons_self), ih fun d hd => h d (List.mem_cons_of_mem c hd)]

private theorem filterMap_value?_digit (digits : List (Fin 16)) :
    (digits.map Hex.digit).filterMap Hex.value? = digits := by
  rw [List.filterMap_map]
  have back : Hex.value? ∘ Hex.digit = some := funext Hex.value?_digit
  rw [back, List.filterMap_some]

/-! ## The written form -/

section
variable (u : Uuid)

def letters : List Char := u.digits.map Hex.digit

private theorem sum_groupSizes : groupSizes.sum = u.letters.length := by
  rw [letters, List.length_map, u.length_digits]
  rfl

private theorem mem_letters {c : Char} (h : c ∈ u.letters) :
    (Hex.value? c).isSome = true ∧ c ≠ '-' ∧ c.toNat < 128 := by
  obtain ⟨d, -, rfl⟩ := List.mem_map.mp h
  have digit : ∀ d : Fin 16, Hex.digit d ≠ '-' ∧ (Hex.digit d).toNat < 128 := by decide
  exact ⟨by rw [Hex.value?_digit]; rfl, digit d⟩

private theorem mem_group {g : List Char} (h : g ∈ cut groupSizes u.letters) {c : Char}
    (hc : c ∈ g) :
    c ∈ u.letters := by
  rw [← flatten_cut groupSizes u.sum_groupSizes]
  exact List.mem_flatten_of_mem h hc

/-- Neither letters nor hyphens are anything but ASCII characters of an identifier. -/
theorem mem_toList {c : Char} (h : c ∈ u.toList) :
    (c = '-' ∨ (Hex.value? c).isSome = true) ∧ c.toNat < 128 := by
  rcases mem_intercalate h with rfl | ⟨g, hg, hc⟩
  · exact ⟨.inl rfl, by decide⟩
  · obtain ⟨value, -, ascii⟩ := u.mem_letters (u.mem_group hg hc)
    exact ⟨.inr value, ascii⟩

private theorem length_toList : u.toList.length = 36 := by
  have whole := flatten_cut groupSizes u.sum_groupSizes
  have count : (cut groupSizes u.letters).length = 5 := length_cut _ _
  have size : u.letters.length = 32 := u.sum_groupSizes.symm
  rw [toList, ← letters]
  cases parts : cut groupSizes u.letters with
  | nil => simp [parts] at count
  | cons g gs =>
    rw [parts] at whole count
    rw [List.length_cons] at count
    rw [length_intercalate, whole, size]
    omega

private theorem groups_toList : groups u.toList = cut groupSizes u.letters := by
  rw [groups_eq_splitOn]
  refine List.splitOn_intercalate '-' (fun g hg hyphen => ?_) ?_
  · exact (u.mem_letters (u.mem_group hg hyphen)).2.1 rfl
  · intro nothing
    have count : (cut groupSizes u.letters).length = 5 := length_cut _ _
    rw [letters, nothing] at count
    exact absurd count (by decide)

private theorem utf8ByteSize_toString : u.toString.utf8ByteSize = 36 := by
  have size := Text.size_bytes_ascii fun c hc => (u.mem_toList hc).2
  rw [u.length_toList] at size
  exact size

theorem parse_toString : parse u.toString = .ok u := by
  have letters_back : ofDigits? u.letters = some u := by
    rw [ofDigits?, letters, filterMap_value?_digit]
    exact dif_pos u.length_digits
  have layout : Layout.ofString u.toString = ⟨u.toList, 0, true⟩ := by
    rw [Layout.ofString, u.utf8ByteSize_toString, Uuid.toString, String.toList_ofList]
    rfl
  have clean := stray?_eq_none (fun c hc => (u.mem_toList hc).1) 0
  have sizes := wrongGroup?_map_length 36 0 (cut groupSizes u.letters)
  rw [map_length_cut groupSizes u.sum_groupSizes] at sizes
  have count : (cut groupSizes u.letters).length = 5 := length_cut _ _
  rw [parse, u.utf8ByteSize_toString]
  simp only [layout, clean, u.groups_toList, count, sizes,
    flatten_cut groupSizes u.sum_groupSizes, letters_back]
  rfl

end

end Shortlink.Uuid
