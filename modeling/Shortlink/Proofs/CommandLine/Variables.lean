import Shortlink.CommandLine
/-!
# What variables add to arguments

A command line is read in three steps: arguments are scanned, the variables of flags that they do not
name are added, and what has been set becomes an invocation. Each step has laws of its own, by which
two command lines that differ in their variables are compared.
-/
namespace Shortlink.CommandLine

/-! ## Steps that can fail -/

section
variable {α β : Type} {x : Except UsageError α} {f : α → Except UsageError β}

private theorem bind_eq_ok {b : β} (h : x >>= f = .ok b) : ∃ a, x = .ok a ∧ f a = .ok b := by
  cases x with
  | error e => cases h
  | ok a => exact ⟨a, rfl, h⟩

theorem bind_eq_error {e : UsageError} (h : x >>= f = .error e) :
    x = .error e ∨ ∃ a, x = .ok a ∧ f a = .error e := by
  cases x with
  | error e' => exact .inl (congrArg Except.error (Except.error.inj h))
  | ok a => exact .inr ⟨a, rfl, h⟩

theorem map_eq_error {g : α → β} {e : UsageError} (h : x.map g = .error e) : x = .error e := by
  cases x with
  | error e' => exact congrArg Except.error (Except.error.inj h)
  | ok a => cases h

end

/-! ## Three steps -/

/-- What the arguments alone set, and the command that they name. -/
def scanned (args : List String) :
    Except UsageError (Settings × Option (Command × Option OwnerId)) := do
  let (s, verb) ← Scan.run .top {} args
  let command ← match verb with
    | some (v, rest) => (readCommand v rest).map some
    | none => pure none
  let s ← s.settle
  return (s.settings, command)

/-- The invocation that comes of all that has been set. -/
def finish : Option (Command × Option OwnerId) → Settings → Except UsageError Invocation
  | some (command, owner), m => .ok (invocation m command owner)
  | none, m => if m.any Flag.general then .error .noCommand else .error (.nothing about)

theorem parse_eq (args : List String) (env : String → Option String) :
    parse args env = scanned args >>= fun r =>
      addVariables env r.1 Flag.general >>= finish r.2 := by
  simp only [parse, scanned, bind_assoc]
  refine congrArg _ (funext fun r => ?_)
  obtain ⟨s, _ | ⟨v, rest⟩⟩ := r
  · simp only [bind_assoc, pure_bind]
    rfl
  · simp only [bind_assoc, pure_bind]
    refine congrArg _ (funext fun command => ?_)
    cases command <;> rfl

namespace Settings
variable {m : Settings} {f g : Flag}

@[simp] theorem set_self (v : f.Value) : m.set f v f = some v := dif_pos rfl

theorem set_of_ne (other : f ≠ g) (v : f.Value) : m.set f v g = m g := dif_neg other

private theorem set_comm (other : f ≠ g) (v : f.Value) (w : g.Value) :
    (m.set f v).set g w = (m.set g w).set f v := by
  funext k
  by_cases first : f = k
  · subst first
    rw [set_self, set_of_ne other.symm, set_self]
  · rw [set_of_ne first]
    by_cases second : g = k
    · subst second
      rw [set_self, set_self]
    · rw [set_of_ne second, set_of_ne second, set_of_ne first]

theorem any_of_isSome {flags : List Flag} (among : f ∈ flags) (given : (m f).isSome) :
    m.any flags = true :=
  List.any_eq_true.mpr ⟨f, among, given⟩

end Settings

/-! ## One variable -/

def variableOf (env : String → Option String) (f : Flag) : Option String := f.envName?.bind env

def addVariable (env : String → Option String) (m : Settings) (f : Flag) :
    Except UsageError Settings :=
  match m f, variableOf env f with
  | none, some value => (f.read value).map (m.set f)
  | _, _ => .ok m

theorem addVariables_cons (env : String → Option String) (m : Settings) (f : Flag)
    (rest : List Flag) :
    addVariables env m (f :: rest) = addVariable env m f >>= (addVariables env · rest) := by
  rw [addVariables, addVariable, variableOf]
  cases m f with
  | some v => rfl
  | none =>
    cases f.envName?.bind env with
    | none => rfl
    | some value =>
      simp only
      cases f.read value <;> rfl

section
variable {env env' : String → Option String} {m m' : Settings} {f g : Flag}

theorem addVariable_of_settled (settled : (m f).isSome ∨ variableOf env f = none) :
    addVariable env m f = .ok m := by
  rw [addVariable]
  rcases settled with given | absent
  · obtain ⟨v, given⟩ := Option.isSome_iff_exists.mp given
    rw [given]
  · rw [absent]
    cases m f <;> rfl

theorem addVariable_of_given {value : String} (free : m f = none)
    (given : variableOf env f = some value) :
    addVariable env m f = (f.read value).map (m.set f) := by
  rw [addVariable, free, given]

theorem addVariable_same (added : addVariable env m f = .ok m')
    (untouched : g ≠ f ∨ (m g).isSome ∨ variableOf env g = none) : m' g = m g := by
  rcases Decidable.em (g = f) with rfl | other
  · have settled := untouched.resolve_left fun ne => ne rfl
    rw [addVariable_of_settled settled] at added
    rw [← Except.ok.inj added]
  · cases free : m f with
    | some v =>
      rw [addVariable_of_settled (.inl (free ▸ rfl))] at added
      rw [← Except.ok.inj added]
    | none =>
      cases given : variableOf env f with
      | none =>
        rw [addVariable_of_settled (.inr given)] at added
        rw [← Except.ok.inj added]
      | some value =>
        rw [addVariable_of_given free given] at added
        cases read : f.read value with
        | error e =>
          rw [read] at added
          cases added
        | ok v =>
          rw [read] at added
          rw [← Except.ok.inj added]
          exact Settings.set_of_ne (Ne.symm other) v

private theorem addVariable_error {e : UsageError} (refused : addVariable env m f = .error e) :
    ∃ value, variableOf env f = some value ∧ f.read value = .error e := by
  cases free : m f with
  | some v =>
    rw [addVariable_of_settled (.inl (by rw [free]; rfl))] at refused
    cases refused
  | none =>
    cases given : variableOf env f with
    | none =>
      rw [addVariable_of_settled (.inr given)] at refused
      cases refused
    | some value =>
      rw [addVariable_of_given free given] at refused
      exact ⟨value, rfl, map_eq_error refused⟩

end

/-! ## All variables -/

section
variable {env env' : String → Option String} {m m' : Settings} {fs : List Flag}

theorem addVariables_same (added : addVariables env m fs = .ok m') {g : Flag}
    (untouched : g ∉ fs ∨ (m g).isSome ∨ variableOf env g = none) : m' g = m g := by
  induction fs generalizing m with
  | nil => rw [← Except.ok.inj added]
  | cons f rest ih =>
    rw [addVariables_cons] at added
    obtain ⟨next, first, later⟩ := bind_eq_ok added
    have same : next g = m g :=
      addVariable_same first (untouched.imp_left fun out here => out (here ▸ List.mem_cons_self))
    rw [← same]
    refine ih later ?_
    rw [same]
    exact untouched.imp_left fun out among => out (List.mem_cons_of_mem f among)

theorem addVariables_error {e : UsageError} (refused : addVariables env m fs = .error e) :
    ∃ f ∈ fs, ∃ value, variableOf env f = some value ∧ f.read value = .error e := by
  induction fs generalizing m with
  | nil => simp [addVariables] at refused
  | cons f rest ih =>
    rw [addVariables_cons] at refused
    rcases bind_eq_error refused with first | ⟨next, -, later⟩
    · exact ⟨f, List.mem_cons_self, addVariable_error first⟩
    · obtain ⟨g, among, cause⟩ := ih later
      exact ⟨g, List.mem_cons_of_mem f among, cause⟩

/-- Variables of flags that are set make no difference. -/
theorem addVariables_congr
    (same : ∀ f ∈ fs, (m f).isSome ∨ variableOf env f = variableOf env' f) :
    addVariables env m fs = addVariables env' m fs := by
  induction fs generalizing m with
  | nil => rfl
  | cons f rest ih =>
    rw [List.forall_mem_cons] at same
    have first : addVariable env m f = addVariable env' m f := by
      rcases same.1 with given | alike
      · rw [addVariable_of_settled (.inl given), addVariable_of_settled (.inl given)]
      · rw [addVariable, addVariable, alike]
    rw [addVariables_cons, addVariables_cons, first]
    cases step : addVariable env' m f with
    | error e => rfl
    | ok next =>
      refine ih fun g later => ?_
      refine (same.2 g later).imp_left fun given => ?_
      rw [addVariable_same step (.inr (.inl given))]
      exact given

theorem addVariables_set {g : Flag} (v : g.Value) (out : g ∉ fs) :
    addVariables env (m.set g v) fs = (addVariables env m fs).map (·.set g v) := by
  induction fs generalizing m with
  | nil => rfl
  | cons f rest ih =>
    rw [List.mem_cons, not_or] at out
    have first : addVariable env (m.set g v) f = (addVariable env m f).map (·.set g v) := by
      rw [addVariable, addVariable, Settings.set_of_ne out.1]
      cases m f with
      | some w => rfl
      | none =>
        cases variableOf env f with
        | none => rfl
        | some value =>
          simp only
          cases f.read value with
          | error e => rfl
          | ok w => exact congrArg Except.ok (Settings.set_comm out.1 v w)
    rw [addVariables_cons, addVariables_cons, first]
    cases addVariable env m f with
    | error e => rfl
    | ok next => exact ih out.2

theorem exists_addVariables (any : ∀ f ∈ fs, ∀ value, ∃ v, f.read value = .ok v) :
    ∃ m', addVariables env m fs = .ok m' := by
  cases added : addVariables env m fs with
  | ok m' => exact ⟨m', rfl⟩
  | error e =>
    obtain ⟨f, there, value, -, refused⟩ := addVariables_error added
    obtain ⟨v, read⟩ := any f there value
    rw [read] at refused
    cases refused

theorem addVariables_append (as bs : List Flag) :
    addVariables env m (as ++ bs) = addVariables env m as >>= (addVariables env · bs) := by
  induction as generalizing m with
  | nil => rfl
  | cons f rest ih =>
    rw [List.cons_append, addVariables_cons, addVariables_cons, bind_assoc]
    exact congrArg _ (funext fun _ => ih)

end

end Shortlink.CommandLine
