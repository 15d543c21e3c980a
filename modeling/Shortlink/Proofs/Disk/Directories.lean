import Shortlink.Proofs.Disk
/-!
# Making directories

The directory of a file that can be read is there already. Where it is missing, making it leaves
files as they are and adds none.
-/
namespace Shortlink.Disk
open Node DiskPath
variable {disk : Disk}

/-! ## Directories that are there -/

private theorem walk_filter {place : List String} {steps : List PathStep}
    {r : List String × Option Node}
    (h : disk.walk place steps = .ok r) :
    disk.walk place (steps.filter (· ≠ .here)) = .ok r := by
  induction steps generalizing place with
  | nil => exact h
  | cons step rest ih =>
    rw [walk_cons_eq_ok_iff] at h
    obtain ⟨there, short, onward⟩ := h
    by_cases here : step = .here
    · subst here
      rw [List.filter_cons_of_neg (by simp)]
      exact ih onward
    · rw [List.filter_cons_of_pos (by simpa using here), walk_cons_eq_ok_iff]
      exact ⟨there, short, ih onward⟩

private theorem walk_dropLast {place : List String} {steps : List PathStep}
    {r : List String × Option Node}
    (proper : steps ≠ []) (h : disk.walk place steps = .ok r) :
    ∃ above, disk.walk place steps.dropLast = .ok (above, disk.root.at? above) ∧
      disk.root.kindAt above = some none := by
  induction steps generalizing place with
  | nil => exact absurd rfl proper
  | cons step rest ih =>
    rw [walk_cons_eq_ok_iff] at h
    obtain ⟨there, short, onward⟩ := h
    cases rest with
    | nil => exact ⟨place, by rw [List.dropLast_singleton, walk], there⟩
    | cons next rest =>
      obtain ⟨above, found, directory⟩ := ih (by simp) onward
      refine ⟨above, ?_, directory⟩
      rw [List.dropLast_cons_of_ne_nil (by simp), walk_cons_eq_ok_iff]
      exact ⟨there, short, found⟩

theorem isDirectory_parent {p : DiskPath} {r : List String × Option Node}
    (h : disk.walk [] p.steps = .ok r) (deep : p.parent ≠ []) : disk.isDirectory p.parent = true := by
  cases steps : p.steps with
  | nil => simp [parent, steps] at deep
  | cons first rest =>
    rw [steps, walk_cons_eq_ok_iff] at h
    obtain ⟨there, short, onward⟩ := h
    have kept : disk.walk [] (first :: rest.filter (· ≠ .here)) = .ok r := by
      rw [walk_cons_eq_ok_iff]
      exact ⟨there, short, walk_filter onward⟩
    obtain ⟨above, found, directory⟩ := walk_dropLast (by simp) kept
    obtain ⟨entries, inside⟩ := kindAt_eq_directory.mp directory
    rw [parent, steps, isDirectory]
    simp only [found, inside]

theorem ensureDirectories_of_isDirectory {steps : List PathStep}
    (h : steps ≠ [] → disk.isDirectory steps = true) :
    disk.ensureDirectories steps.reverse = (.ok (), disk) := by
  cases back : steps.reverse with
  | nil => rfl
  | cons step above =>
    have forth : (step :: above).reverse = steps := by rw [← back, List.reverse_reverse]
    have there := h (by rintro rfl; simp at back)
    have ready : disk.ensureDirectory steps = .ok disk := by
      rw [ensureDirectory, makeDirectory]
      rw [isDirectory] at there
      cases found : disk.walk [] steps with
      | error e => simp [found] at there
      | ok r =>
        obtain ⟨place, node⟩ := r
        cases node with
        | none => simp [found] at there
        | some node =>
          cases node with
          | file bytes => simp [found] at there
          | directory entries => simp [isDirectory, found]
    rw [ensureDirectories, forth, ready]

/-! ## Directories that are made -/

/-- At a place nothing has changed, unless a directory has been made there. -/
def Grown (place : List String) (before after : Disk) : Prop :=
  after.root.kindAt place = before.root.kindAt place ∨ after.root.kindAt place = some none

private theorem grown_makeDirectory {steps : List PathStep} {after : Disk}
    (made : disk.makeDirectory steps = .ok after) (place : List String) :
    Grown place disk after := by
  rw [makeDirectory] at made
  cases found : disk.walk [] steps with
  | error e => simp [found] at made
  | ok r =>
    obtain ⟨fresh, node⟩ := r
    cases node with
    | some node => simp [found] at made
    | none =>
      simp only [found, Except.ok.injEq] at made
      subst made
      by_cases below : fresh <+: place
      · obtain ⟨names, rfl⟩ := below
        have nothing : disk.root.at? fresh = none := by
          have there := eq_of_walk found
          simp only [Prod.mk.injEq] at there
          rw [there.1, ← there.2]
        have inside := at?_put (.directory []) (reaches_of_walk (.inl rfl) found) names
        cases names with
        | nil => exact .inr (kindAt_eq_directory.mpr ⟨[], inside⟩)
        | cons name names =>
          have before : disk.root.kindAt (fresh ++ name :: names) = none :=
            kindAt_eq_none.mpr (by rw [at?_append, nothing]; rfl)
          exact .inl ((kindAt_eq_none.mpr inside).trans before.symm)
      · exact .inl (kindAt_put below)

private theorem grown_ensureDirectory {steps : List PathStep} {after : Disk}
    (made : disk.ensureDirectory steps = .ok after) (place : List String) :
    Grown place disk after := by
  rw [ensureDirectory] at made
  cases fresh : disk.makeDirectory steps with
  | ok made' =>
    simp only [fresh, Except.ok.injEq] at made
    rw [← made]
    exact grown_makeDirectory fresh place
  | error e =>
    simp only [fresh] at made
    split at made
    · rw [Except.ok.injEq] at made
      rw [← made]
      exact .inl rfl
    · simp at made

theorem Grown.trans {place : List String} {a b c : Disk} (ab : Grown place a b)
    (bc : Grown place b c) : Grown place a c := by
  rcases bc with same | directory
  · rcases ab with same' | directory
    · exact .inl (same.trans same')
    · exact .inr (same.trans directory)
  · exact .inr directory

theorem grown_ensureDirectories (steps : List PathStep) (place : List String) :
    Grown place disk (disk.ensureDirectories steps).2 := by
  induction steps with
  | nil => exact .inl rfl
  | cons step above ih =>
    rw [ensureDirectories]
    split
    case h_1 after made => exact grown_ensureDirectory made place
    case h_2 =>
      split
      case h_1 e half made =>
        rw [made] at ih
        exact ih
      case h_2 half made =>
        rw [made] at ih
        have first : Grown place disk half := ih
        split
        case h_1 after last => exact first.trans (grown_ensureDirectory last place)
        case h_2 => exact first
    case h_3 => exact .inl rfl

end Shortlink.Disk
