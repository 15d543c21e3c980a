import Mathlib.Algebra.Order.Floor.Div
import Shortlink.Deletion.Request
/-!
# Chunks of a request

The chunks of a request have its owner, and their codes one after another are its codes. All but the
last are full, which settles where the request is cut: no other requests are like that.
-/
namespace Shortlink.DeleteRequest

/-! ## Cutting a list -/

section
variable {α : Type}

/-- Cutting loses nothing and changes no order. -/
theorem flatten_pieces (n : Nat) (xs : List α) : (pieces n xs).flatten = xs := by
  fun_induction pieces n xs with
  | case1 => rfl
  | case2 x rest ih => rw [List.flatten_cons, ih, List.cons_append, List.take_append_drop]

private theorem length_of_mem_pieces {n : Nat} {xs piece : List α} (h : piece ∈ pieces n xs) :
    0 < piece.length ∧ piece.length ≤ n + 1 := by
  fun_induction pieces n xs with
  | case1 => simp at h
  | case2 x rest ih =>
    rcases List.mem_cons.mp h with rfl | later
    · simp only [List.length_cons, List.length_take]
      omega
    · exact ih later

private theorem length_of_mem_dropLast_pieces {n : Nat} {xs piece : List α}
    (h : piece ∈ (pieces n xs).dropLast) : piece.length = n + 1 := by
  fun_induction pieces n xs with
  | case1 => simp at h
  | case2 x rest ih =>
    by_cases last : pieces n (rest.drop n) = []
    · simp [last] at h
    · rw [List.dropLast_cons_of_ne_nil last, List.mem_cons] at h
      rcases h with rfl | later
      · -- another piece follows, so there is more than the first one can take
        have more : rest.drop n ≠ [] := by
          intro none
          rw [none, pieces] at last
          exact last rfl
        have long : n < rest.length := by simpa using more
        rw [List.length_cons, List.length_take, Nat.min_eq_left long.le]
      · exact ih later

private theorem length_pieces (n : Nat) (xs : List α) :
    (pieces n xs).length = xs.length ⌈/⌉ (n + 1) := by
  fun_induction pieces n xs with
  | case1 => exact (zero_ceilDiv (n + 1)).symm
  | case2 x rest ih =>
    rw [List.length_cons, List.length_cons, ih, List.length_drop, Nat.ceilDiv_eq_add_pred_div,
      Nat.ceilDiv_eq_add_pred_div]
    -- either the first piece is the last one, or it takes a whole divisor off the length
    rcases Nat.lt_or_ge rest.length n with short | long
    · have none : rest.length - n + (n + 1) - 1 = n := by omega
      have one : rest.length + 1 + (n + 1) - 1 = rest.length + (n + 1) := by omega
      rw [none, one, Nat.add_div_right _ n.succ_pos, Nat.div_eq_of_lt n.lt_succ_self,
        Nat.div_eq_of_lt (Nat.lt_succ_of_lt short)]
    · have more : rest.length + 1 + (n + 1) - 1 = rest.length - n + (n + 1) - 1 + (n + 1) := by
        omega
      rw [more, Nat.add_div_right _ n.succ_pos]

private theorem pieces_flatten {n : Nat} {parts : List (List α)}
    (bounded : ∀ part ∈ parts, 0 < part.length ∧ part.length ≤ n + 1)
    (full : ∀ part ∈ parts.dropLast, part.length = n + 1) : pieces n parts.flatten = parts := by
  induction parts with
  | nil => rw [List.flatten_nil, pieces]
  | cons part later ih =>
    rw [List.forall_mem_cons] at bounded
    obtain ⟨⟨some, most⟩, bounded⟩ := bounded
    obtain ⟨x, rest, rfl⟩ := List.exists_cons_of_length_pos some
    rw [List.flatten_cons, List.cons_append, pieces]
    -- a part is known to be full only where another one follows
    cases later with
    | nil =>
      have short : rest.length ≤ n := Nat.le_of_succ_le_succ most
      rw [List.flatten_nil, List.append_nil, List.take_of_length_le short,
        List.drop_of_length_le short, pieces]
    | cons next others =>
      rw [List.dropLast_cons_of_ne_nil (List.cons_ne_nil _ _), List.forall_mem_cons] at full
      obtain ⟨whole, full⟩ := full
      have size : rest.length = n := Nat.succ.inj whole
      rw [List.take_left' size, List.drop_left' size, ih bounded full]

end

/-! ## The chunks -/

section
variable {r w : DeleteRequest} {size : Nat}

theorem owner_of_mem_chunks (h : w ∈ r.chunks size) : w.owner = r.owner := by
  obtain ⟨codes, -, rfl⟩ := List.mem_map.mp h
  rfl

private theorem map_codes_chunks (r : DeleteRequest) (size : Nat) :
    (r.chunks size).map codes = pieces (size - 1) r.codes := by
  rw [chunks, List.map_map]
  exact List.map_id _

theorem flatMap_codes_chunks (r : DeleteRequest) (size : Nat) :
    (r.chunks size).flatMap codes = r.codes := by
  rw [List.flatMap_def, map_codes_chunks, flatten_pieces]

theorem exists_mem_chunks_iff (r : DeleteRequest) (size : Nat) (code : ShortCode) :
    (∃ w ∈ r.chunks size, code ∈ w.codes) ↔ code ∈ r.codes := by
  rw [← List.mem_flatMap, flatMap_codes_chunks]

theorem length_of_mem_chunks (h : w ∈ r.chunks size) :
    1 ≤ w.codes.length ∧ w.codes.length ≤ max 1 size := by
  have there := List.mem_map_of_mem (f := codes) h
  rw [map_codes_chunks] at there
  have bounds := length_of_mem_pieces there
  omega

private theorem length_of_mem_dropLast_chunks (h : w ∈ (r.chunks size).dropLast) :
    w.codes.length = max 1 size := by
  have there := List.mem_map_of_mem (f := codes) h
  rw [List.map_dropLast, map_codes_chunks] at there
  have full := length_of_mem_dropLast_pieces there
  omega

private theorem length_chunks (r : DeleteRequest) (size : Nat) :
    (r.chunks size).length = r.codes.length ⌈/⌉ max 1 size := by
  rw [chunks, List.length_map, length_pieces, Nat.sub_add_eq_max, Nat.max_comm]

/-! ## The only way to cut -/

/-- Parts of a request that hold its codes in order, all of them full except that the last may have
fewer codes. A part is full with `size` codes, or with one if `size` is zero. -/
structure CutInto (r : DeleteRequest) (size : Nat) (parts : List DeleteRequest) : Prop where
  owned : ∀ part ∈ parts, part.owner = r.owner
  joined : parts.flatMap codes = r.codes
  bounded : ∀ part ∈ parts, 1 ≤ part.codes.length ∧ part.codes.length ≤ max 1 size
  full : ∀ part ∈ parts.dropLast, part.codes.length = max 1 size

private theorem cutInto_chunks (r : DeleteRequest) (size : Nat) :
    r.CutInto size (r.chunks size) where
  owned _ := owner_of_mem_chunks
  joined := flatMap_codes_chunks r size
  bounded _ := length_of_mem_chunks
  full _ := length_of_mem_dropLast_chunks

private theorem CutInto.eq_chunks {parts : List DeleteRequest} (cut : r.CutInto size parts) :
    parts = r.chunks size := by
  obtain ⟨owned, joined, bounded, full⟩ := cut
  have same : pieces (size - 1) r.codes = parts.map codes := by
    rw [← joined, List.flatMap_def]
    apply pieces_flatten
    · rw [List.forall_mem_map, Nat.sub_add_eq_max, Nat.max_comm]
      exact bounded
    · rw [← List.map_dropLast, List.forall_mem_map, Nat.sub_add_eq_max, Nat.max_comm]
      exact full
  have restored : ∀ part ∈ parts, (⟨r.owner, part.codes⟩ : DeleteRequest) = part := by
    intro part there
    rw [← owned part there]
  rw [chunks, same, List.map_map]
  exact ((List.map_congr_left restored).trans (List.map_id' parts)).symm

private theorem chunks_eq_singleton (some : 1 ≤ r.codes.length)
    (most : r.codes.length ≤ max 1 size) :
    r.chunks size = [r] := by
  have cut : r.CutInto size [r] :=
    { owned := by simp
      joined := by simp
      bounded := List.forall_mem_singleton.mpr ⟨some, most⟩
      full := by simp }
  exact cut.eq_chunks.symm

end

/-- The chunks of a request are its codes in order, for its owner, in full parts except that the last
may be shorter, and no other parts are. Their number is that of the codes divided by the size of a
full one, rounded up. A chunk that is cut again at the same or a larger size stays in one piece. -/
theorem chunks_lossless (r : DeleteRequest) (size : Nat) :
    (∀ parts, r.CutInto size parts ↔ parts = r.chunks size) ∧
      (r.chunks size).length = r.codes.length ⌈/⌉ max 1 size ∧
      ∀ part ∈ r.chunks size, ∀ larger, size ≤ larger → part.chunks larger = [part] := by
  refine ⟨fun parts => ⟨CutInto.eq_chunks, ?_⟩, length_chunks r size, ?_⟩
  · rintro rfl
    exact cutInto_chunks r size
  · intro part there larger more
    obtain ⟨some, most⟩ := length_of_mem_chunks there
    exact chunks_eq_singleton some (by omega)

end Shortlink.DeleteRequest
