import Shortlink.Disk
/-!
# What stays where it is on a disk

Putting a node under a path changes what is at the path and below it, and keeps everything else what
it was. A file that can be read can therefore be written and is then read as it was written.
-/
namespace Shortlink

namespace Node

/-- What is at a place: nothing, a directory, or a file with its content. -/
def kindAt (root : Node) (place : List String) : Option (Option ByteArray) :=
  (root.at? place).map fun
    | file bytes => some bytes
    | directory _ => none

theorem kindAt_eq_directory {root : Node} {place : List String} :
    root.kindAt place = some none ↔ ∃ entries, root.at? place = some (directory entries) := by
  rw [kindAt]
  cases root.at? place with
  | none => simp
  | some node => cases node <;> simp

theorem kindAt_eq_file {root : Node} {place : List String} {bytes : ByteArray} :
    root.kindAt place = some (some bytes) ↔ root.at? place = some (file bytes) := by
  rw [kindAt]
  cases root.at? place with
  | none => simp
  | some node => cases node <;> simp

theorem kindAt_eq_none {root : Node} {place : List String} :
    root.kindAt place = none ↔ root.at? place = none := by
  rw [kindAt, Option.map_eq_none_iff]

theorem at?_append (root : Node) (a b : List String) :
    root.at? (a ++ b) = (root.at? a).bind (at? · b) := by
  induction a generalizing root with
  | nil => simp [at?]
  | cons name a ih =>
    cases root with
    | file bytes => rfl
    | directory entries =>
      simp only [List.cons_append, at?, Option.bind_assoc]
      congr 1
      funext node
      exact ih node

private theorem at?_below {root : Node} {place : List String} (h : root.kindAt place ≠ some none)
    {below : List String} (proper : below ≠ []) : root.at? (place ++ below) = none := by
  rw [at?_append]
  cases there : root.at? place with
  | none => rfl
  | some node =>
    cases node with
    | directory entries => exact absurd (kindAt_eq_directory.mpr ⟨entries, there⟩) h
    | file bytes =>
      cases below with
      | nil => exact absurd rfl proper
      | cons name rest => rfl

private theorem lookup_cons_if (first : String) (node : Node) (rest : List (String × Node))
    (other : String) :
    ((first, node) :: rest).lookup other = if other = first then some node else rest.lookup other := by
  rw [List.lookup_cons]
  by_cases here : other = first
  · simp [here]
  · have differs : (other == first) = false := by simpa using here
    simp [here, differs]

private theorem lookup_setEntry (name : String) (node : Node) (entries : List (String × Node))
    (other : String) :
    (setEntry name node entries).lookup other =
      if other = name then some node else entries.lookup other := by
  induction entries with
  | nil => rw [setEntry, lookup_cons_if]
  | cons entry rest ih =>
    obtain ⟨first, kept⟩ := entry
    rw [setEntry]
    split
    case isTrue same =>
      subst same
      simp only [lookup_cons_if]
      split <;> rfl
    case isFalse differs =>
      simp only [lookup_cons_if, ih]
      by_cases here : other = first
      · subst here
        simp [differs]
      · simp [here]

/-- Whether a node can be put at a place. -/
def Reaches (root : Node) (place : List String) : Prop :=
  place = [] ∨ root.kindAt place.dropLast = some none

theorem at?_put (new : Node) {root : Node} {place : List String} (h : root.Reaches place)
    (below : List String) : (put new root place).at? (place ++ below) = new.at? below := by
  induction place generalizing root with
  | nil => cases root <;> rfl
  | cons name rest ih =>
    have parent := h.resolve_left (by simp)
    cases root with
    | file bytes => cases rest <;> simp [kindAt, at?] at parent
    | directory entries =>
      cases rest with
      | nil => simp [put, at?, lookup_setEntry]
      | cons next rest =>
        rw [List.dropLast_cons_of_ne_nil (by simp)] at parent
        cases there : entries.lookup name with
        | none => simp [kindAt, at?, there] at parent
        | some node =>
          have onward : node.Reaches (next :: rest) := by
            refine .inr ?_
            simpa [kindAt, at?, there] using parent
          simp only [put, there, List.cons_append, at?, lookup_setEntry, if_true, Option.bind_some]
          exact ih onward

theorem kindAt_put {new root : Node} {place other : List String} (h : ¬ place <+: other) :
    (put new root place).kindAt other = root.kindAt other := by
  induction place generalizing root other with
  | nil => exact absurd (List.nil_prefix) h
  | cons name rest ih =>
    cases root with
    | file bytes => rw [put]
    | directory entries =>
      cases other with
      | nil => cases rest <;> cases there : entries.lookup name <;> simp [put, there, kindAt, at?]
      | cons first others =>
        cases rest with
        | nil =>
          have differs : first ≠ name := by
            rintro rfl
            exact h ⟨others, rfl⟩
          simp [put, kindAt, at?, lookup_setEntry, differs]
        | cons next rest =>
          cases there : entries.lookup name with
          | none => simp [put, there]
          | some node =>
            by_cases same : first = name
            · subst same
              have apart : ¬ next :: rest <+: others := by
                rintro ⟨more, rfl⟩
                exact h ⟨more, rfl⟩
              have kept : (put new node (next :: rest)).kindAt others = node.kindAt others := ih apart
              simpa [put, there, kindAt, at?, lookup_setEntry] using kept
            · simp [put, there, kindAt, at?, lookup_setEntry, same]

private theorem setEntry_cons_self (name : String) (node kept : Node)
    (rest : List (String × Node)) :
    setEntry name node ((name, kept) :: rest) = (name, node) :: rest := if_pos rfl

private theorem setEntry_cons_of_ne {name other : String} (differs : other ≠ name)
    (node kept : Node)
    (rest : List (String × Node)) :
    setEntry name node ((other, kept) :: rest) = (other, kept) :: setEntry name node rest :=
  if_neg differs

private theorem setEntry_setEntry (name : String) (old new : Node)
    (entries : List (String × Node)) :
    setEntry name new (setEntry name old entries) = setEntry name new entries := by
  induction entries with
  | nil => exact setEntry_cons_self name new old []
  | cons entry rest ih =>
    obtain ⟨first, kept⟩ := entry
    by_cases here : first = name
    · rw [here, setEntry_cons_self, setEntry_cons_self, setEntry_cons_self]
    · rw [setEntry_cons_of_ne here, setEntry_cons_of_ne here, setEntry_cons_of_ne here, ih]

private theorem setEntry_self {name : String} {node : Node} {entries : List (String × Node)}
    (there : entries.lookup name = some node) : setEntry name node entries = entries := by
  induction entries with
  | nil => simp at there
  | cons entry rest ih =>
    obtain ⟨first, kept⟩ := entry
    rw [lookup_cons_if] at there
    by_cases here : name = first
    · rw [if_pos here, Option.some.injEq] at there
      rw [here, there, setEntry_cons_self]
    · rw [if_neg here] at there
      rw [setEntry_cons_of_ne (Ne.symm here), ih there]

private theorem put_nil (new root : Node) : put new root [] = new := by
  cases root <;> rfl

private theorem put_below (new : Node) (entries : List (String × Node)) (name next : String)
    (rest : List String) : put new (directory entries) (name :: next :: rest) =
      ((entries.lookup name).map fun node =>
        directory (setEntry name (put new node (next :: rest)) entries)).getD (directory entries) := by
  cases there : entries.lookup name <;> simp [put, there]

theorem put_put (old new root : Node) (place : List String) :
    put new (put old root place) place = put new root place := by
  induction place generalizing root with
  | nil => rw [put_nil, put_nil]
  | cons name rest ih =>
    cases root with
    | file bytes => rfl
    | directory entries =>
      cases rest with
      | nil => exact congrArg directory (setEntry_setEntry name old new entries)
      | cons next rest =>
        cases there : entries.lookup name with
        | none => simp only [put_below, there, Option.map_none, Option.getD_none]
        | some node =>
          have again : (setEntry name (put old node (next :: rest)) entries).lookup name =
              some (put old node (next :: rest)) := by
            rw [lookup_setEntry, if_pos rfl]
          simp only [put_below, there, again, Option.map_some, Option.getD_some, setEntry_setEntry, ih]

private theorem put_self {root node : Node} {place : List String}
    (there : root.at? place = some node) :
    put node root place = root := by
  induction place generalizing root with
  | nil => rw [put_nil, Option.some.inj there]
  | cons name rest ih =>
    cases root with
    | file bytes => rfl
    | directory entries =>
      obtain ⟨entry, found, inside⟩ := Option.bind_eq_some_iff.mp there
      cases rest with
      | nil =>
        obtain rfl := Option.some.inj inside
        exact congrArg directory (setEntry_self found)
      | cons next rest =>
        rw [put_below, found, Option.map_some, ih inside, setEntry_self found, Option.getD_some]

private theorem reaches_of_at? {root : Node} {place : List String} (h : root.at? place ≠ none) :
    root.Reaches place := by
  rcases List.eq_nil_or_concat place with rfl | ⟨above, name, rfl⟩
  · exact .inl rfl
  · refine .inr ?_
    rw [List.concat_eq_append] at h ⊢
    rw [List.dropLast_concat]
    exact Classical.byContradiction fun parent => h (at?_below parent (by simp))

end Node

/-! ## Following paths -/

namespace PathStep

def «from» (place : List String) : PathStep → List String
  | here => place
  | up => place.dropLast
  | name s => place ++ [s]

def isLong : PathStep → Bool
  | name s => DiskPath.maxName < s.utf8ByteSize
  | _ => false

end PathStep

def DiskPath.destination (place : List String) (steps : List PathStep) : List String :=
  steps.foldl PathStep.from place

namespace Disk
open Node DiskPath
variable {disk : Disk}

theorem walk_cons_eq_ok_iff {place : List String} {step : PathStep} {rest : List PathStep}
    {r : List String × Option Node} :
    disk.walk place (step :: rest) = .ok r ↔
      disk.root.kindAt place = some none ∧ step.isLong = false ∧
        disk.walk (step.from place) rest = .ok r := by
  rw [walk, kindAt]
  cases there : disk.root.at? place with
  | none => simp
  | some node =>
    cases node with
    | file bytes => simp
    | directory entries =>
      cases step with
      | here => simp [PathStep.isLong, PathStep.from]
      | up => simp [PathStep.isLong, PathStep.from]
      | name s =>
        have entry : disk.root.at? (place ++ [s]) = entries.lookup s := by
          rw [at?_append, there, Option.bind_some, at?]
          cases entries.lookup s <;> simp [at?]
        by_cases long : maxName < s.utf8ByteSize
        · simp [PathStep.isLong, long]
        · cases rest with
          | nil => simp [PathStep.isLong, PathStep.from, long, walk, entry]
          | cons next rest =>
            cases inside : entries.lookup s with
            | none =>
              have stuck : disk.walk (place ++ [s]) (next :: rest) = .error .notFound := by
                rw [walk, entry, inside]
              simp [PathStep.isLong, PathStep.from, long, stuck]
            | some node => simp [PathStep.isLong, PathStep.from, long, inside]

theorem eq_of_walk {place : List String} {steps : List PathStep} {r : List String × Option Node}
    (h : disk.walk place steps = .ok r) :
    r = (destination place steps, disk.root.at? (destination place steps)) := by
  induction steps generalizing place with
  | nil =>
    rw [walk, Except.ok.injEq] at h
    exact h.symm
  | cons step rest ih =>
    rw [walk_cons_eq_ok_iff] at h
    exact ih h.2.2

private theorem walk_of_directories (after : Disk)
    (kept : ∀ other, disk.root.kindAt other = some none → after.root.kindAt other = some none)
    {place : List String} {steps : List PathStep} {r : List String × Option Node}
    (h : disk.walk place steps = .ok r) :
    after.walk place steps = .ok (r.1, after.root.at? r.1) := by
  induction steps generalizing place with
  | nil =>
    rw [walk, Except.ok.injEq] at h
    rw [walk, ← h]
  | cons step rest ih =>
    rw [walk_cons_eq_ok_iff] at h ⊢
    obtain ⟨there, short, onward⟩ := h
    exact ⟨kept place there, short, ih onward⟩

theorem reaches_of_walk {place : List String} {steps : List PathStep}
    {r : List String × Option Node} (start : disk.root.Reaches place)
    (h : disk.walk place steps = .ok r) : disk.root.Reaches r.1 := by
  induction steps generalizing place with
  | nil =>
    rw [walk, Except.ok.injEq] at h
    rwa [← h]
  | cons step rest ih =>
    rw [walk_cons_eq_ok_iff] at h
    obtain ⟨there, -, onward⟩ := h
    refine ih ?_ onward
    cases step with
    | here => exact start
    | up =>
      rcases start with rfl | parent
      · exact .inl rfl
      · refine reaches_of_at? fun nothing => ?_
        have absent : disk.root.kindAt place.dropLast = none := kindAt_eq_none.mpr nothing
        simp [absent] at parent
    | name s =>
      refine .inr ?_
      rwa [PathStep.from, List.dropLast_concat]

/-! ## Reading and writing -/

theorem read_eq_ok_iff {path : String} {bytes : ByteArray} :
    disk.read path = .ok bytes ↔ ∃ p place, parse path = .ok p ∧ p.slash = false ∧
      disk.walk [] p.steps = .ok (place, some (.file bytes)) := by
  rw [read, find]
  cases parsed : parse path with
  | error e => simp
  | ok p =>
    simp only [Except.ok.injEq, exists_and_left, exists_eq_left']
    cases disk.walk [] p.steps with
    | error e => simp
    | ok r =>
      obtain ⟨place, node⟩ := r
      cases node with
      | none => simp
      | some node =>
        cases node with
        | directory entries => simp
        | file found => cases p.slash <;> simp

theorem walk_put {steps : List PathStep} {r : List String × Option Node}
    (h : disk.walk [] steps = .ok r) (free : disk.root.kindAt r.1 ≠ some none) (new : Node) :
    (⟨put new disk.root r.1⟩ : Disk).walk [] steps = .ok (r.1, some new) := by
  have kept : ∀ other, disk.root.kindAt other = some none →
      (put new disk.root r.1).kindAt other = some none := by
    intro other there
    rw [kindAt_put, there]
    rintro ⟨below, rfl⟩
    cases below with
    | nil =>
      rw [List.append_nil] at there
      exact free there
    | cons name rest =>
      rw [kindAt_eq_none.mpr (at?_below free (by simp))] at there
      simp at there
  have found := walk_of_directories ⟨put new disk.root r.1⟩ kept h
  have there := at?_put new (reaches_of_walk (.inl rfl) h) []
  rw [List.append_nil] at there
  rw [found, there]
  cases new <;> rfl

section
variable {path : String} {p : DiskPath} {place : List String} {old : ByteArray}

theorem write_of_walk (parsed : parse path = .ok p) (slash : p.slash = false)
    (found : disk.walk [] p.steps = .ok (place, some (.file old))) (new : ByteArray) :
    disk.write path new = .ok ⟨put (.file new) disk.root place⟩ := by
  rw [write, parsed]
  simp [slash, found]

private theorem at?_of_walk (found : disk.walk [] p.steps = .ok (place, some (.file old))) :
    disk.root.at? place = some (.file old) := by
  have there := eq_of_walk found
  simp only [Prod.mk.injEq] at there
  rw [there.1, there.2]

private theorem walk_put_file (found : disk.walk [] p.steps = .ok (place, some (.file old)))
    (new : ByteArray) : (⟨put (.file new) disk.root place⟩ : Disk).walk [] p.steps =
      .ok (place, some (.file new)) := by
  have free : disk.root.kindAt place ≠ some none := by simp [kindAt, at?_of_walk found]
  exact walk_put found free (.file new)

/-- A file that can be read can be written, and is read as it was written. -/
theorem read_write (h : disk.read path = .ok old) (new : ByteArray) :
    ∃ after, disk.write path new = .ok after ∧ after.read path = .ok new := by
  rw [read_eq_ok_iff] at h
  obtain ⟨p, place, parsed, slash, found⟩ := h
  refine ⟨_, write_of_walk parsed slash found new, ?_⟩
  rw [read_eq_ok_iff]
  exact ⟨p, place, parsed, slash, walk_put_file found new⟩

theorem write_self (h : disk.read path = .ok old) : disk.write path old = .ok disk := by
  rw [read_eq_ok_iff] at h
  obtain ⟨p, place, parsed, slash, found⟩ := h
  rw [write_of_walk parsed slash found, put_self (at?_of_walk found)]

end

end Disk
end Shortlink
