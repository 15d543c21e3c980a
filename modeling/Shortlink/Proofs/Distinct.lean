import Mathlib.Data.List.Basic
import Shortlink.Table
/-!
# Each thing once

Where a step does nothing for what has been done, a list can be gone through without its repetitions.
-/
namespace Shortlink

namespace LinkTable

theorem mem_distinct {α : Type} [DecidableEq α] {xs : List α} {a : α} :
    a ∈ distinct xs ↔ a ∈ xs := by
  induction xs with
  | nil => exact Iff.rfl
  | cons x rest ih =>
    rw [distinct]
    split
    case isTrue again =>
      rw [ih, List.mem_cons]
      constructor
      · exact .inr
      · rintro (rfl | later)
        · exact again
        · exact later
    case isFalse => rw [List.mem_cons, List.mem_cons, ih]

theorem nodup_distinct {α : Type} [DecidableEq α] (xs : List α) : (distinct xs).Nodup := by
  induction xs with
  | nil => exact List.nodup_nil
  | cons x rest ih =>
    rw [distinct]
    split
    case isTrue => exact ih
    case isFalse last =>
      rw [List.nodup_cons, mem_distinct]
      exact ⟨last, ih⟩

end LinkTable

section
variable {α : Type} [DecidableEq α]

private theorem length_filter_lt (x : α) (rest : List α) :
    (rest.filter fun other => !other == x).length < (x :: rest).length := by
  have bound := List.length_filter_le (fun other => !other == x) rest
  rw [List.length_cons]
  omega

theorem nodup_eraseDups (xs : List α) : xs.eraseDups.Nodup := by
  cases xs with
  | nil => exact List.nodup_nil
  | cons x rest =>
    rw [List.eraseDups_cons, List.nodup_cons]
    constructor
    · intro again
      simpa using List.mem_eraseDups.mp again
    · exact nodup_eraseDups _
termination_by xs.length
decreasing_by exact length_filter_lt x rest

variable {β : Type} {step : β → α → β} (Fits : α → Prop) (Done : β → List α → Prop)
  (idle : ∀ {b done x}, Done b done → x ∈ done → step b x = b)
  (next : ∀ {b done x}, Done b done → Fits x → Done (step b x) (x :: done))
include idle next

private theorem foldl_filter_of_done {xs : List α} (fits : ∀ x ∈ xs, Fits x) {b : β} {done : List α}
    (start : Done b done) {x : α} (known : x ∈ done) :
    (xs.filter fun other => !other == x).foldl step b = xs.foldl step b := by
  induction xs generalizing b done with
  | nil => rfl
  | cons first rest ih =>
    rw [List.forall_mem_cons] at fits
    by_cases same : first = x
    · subst same
      simp only [List.filter_cons, beq_self_eq_true, Bool.not_true, Bool.false_eq_true, if_false,
        List.foldl_cons, idle start known]
      exact ih fits.2 start known
    · have kept : (!first == x) = true := by simpa using same
      rw [List.filter_cons, if_pos kept, List.foldl_cons, List.foldl_cons]
      exact ih fits.2 (next start fits.1) (List.mem_cons_of_mem first known)

theorem foldl_eraseDups {xs : List α} (fits : ∀ x ∈ xs, Fits x) {b : β} (done : List α)
    (start : Done b done) : xs.eraseDups.foldl step b = xs.foldl step b := by
  induction size : xs.length using Nat.strongRecOn generalizing xs b done with
  | ind n ih =>
    cases xs with
    | nil => rfl
    | cons x rest =>
      rw [List.forall_mem_cons] at fits
      have onward := next start fits.1
      have others : ∀ y ∈ rest.filter fun other => !other == x, Fits y :=
        fun y hy => fits.2 y (List.mem_filter.mp hy).1
      have smaller := ih _ (size ▸ length_filter_lt x rest) others _ onward rfl
      rw [List.eraseDups_cons, List.foldl_cons, List.foldl_cons, smaller]
      exact foldl_filter_of_done Fits Done idle next fits.2 onward List.mem_cons_self

end

end Shortlink
