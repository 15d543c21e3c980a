import Shortlink.Proofs.CommandLine.Variables
/-!
# Empty settings of the storage

An address of a database that is empty counts as none, but the variable of the file is refused where
it is empty, unless the arguments leave nothing to it. Main statement: which command lines do not
tell empty variables from absent ones.
-/
namespace Shortlink.CommandLine

/-! ## What errors are about -/

def UsageError.flag? : UsageError → Option Flag
  | repeated f | noValue f | badChoice f _ | badValue f _ _ => some f
  | _ => none

/-- Whether an error answers something that has been given. -/
def UsageError.isAnswer : UsageError → Bool
  | nothing _ => false
  | _ => true

private theorem Flag.readNumber_error {f : Flag} {value : String} {e : UsageError}
    (refused : f.readNumber value = .error e) : e.flag? = some f := by
  rw [readNumber] at refused
  split at refused
  · cases refused
  · rw [← Except.error.inj refused]
    rfl

private theorem Flag.readPath_error {f : Flag} {value : String} {e : UsageError}
    (refused : f.readPath value = .error e) : e.flag? = some f := by
  rw [readPath] at refused
  split at refused
  · rw [← Except.error.inj refused]
    rfl
  · cases refused

private theorem Flag.read_error {f : Flag} {value : String} {e : UsageError}
    (refused : f.read value = .error e) : e.flag? = some f := by
  cases f with
  | baseUrl => cases refused
  | databaseDsn => cases refused
  | fileStoragePath => exact readPath_error refused
  | input => exact readPath_error refused
  | deleteChunkSize => exact readNumber_error refused
  | deleteQueueCapacity => exact readNumber_error refused
  | deleteWorkers => exact readNumber_error refused
  | shutdownGraceSecs => exact readNumber_error refused
  | logFormat =>
    unfold read at refused
    simp only at refused
    split at refused
    · cases refused
    · cases refused
    · rw [← Except.error.inj refused]
      rfl
    · rw [← Except.error.inj refused]
      rfl
  | owner =>
    rw [read] at refused
    split at refused
    · cases refused
    · rw [← Except.error.inj refused]
      rfl

private theorem isAnswer_of_flag? {f : Flag} {e : UsageError} (about : e.flag? = some f) :
    e.isAnswer = true := by
  cases e with
  | nothing => simp [UsageError.flag?] at about
  | _ => rfl

/-- Whatever a step refuses has been given. -/
def Answers {α : Type} (x : Except UsageError α) : Prop :=
  ∀ e, x = .error e → e.isAnswer = true

section
variable {α β : Type} {x : Except UsageError α}

private theorem answers_ok (a : α) : Answers (.ok a) := by
  intro e refused
  cases refused

private theorem answers_error {e : UsageError} (answer : e.isAnswer = true) :
    Answers (.error e : Except UsageError α) := by
  intro e' refused
  rw [← Except.error.inj refused]
  exact answer

theorem Answers.bind {f : α → Except UsageError β} (first : Answers x)
    (later : ∀ a, Answers (f a)) : Answers (x >>= f) := by
  intro e refused
  rcases bind_eq_error refused with cause | ⟨a, -, cause⟩
  · exact first e cause
  · exact later a e cause

theorem Answers.map {f : α → β} (first : Answers x) : Answers (x.map f) :=
  fun e refused => first e (map_eq_error refused)

end

namespace Scan
variable {s : Scan} {g : Grammar}

private theorem answers_give {f : Flag} {value : String} : Answers (s.give f value) := by
  rw [give]
  split
  · exact answers_error rfl
  · split
    case h_1 => exact answers_ok _
    case h_2 cause => exact answers_error (isAnswer_of_flag? (Flag.read_error cause))

private theorem answers_settle : Answers s.settle := by
  rw [settle]
  split
  · exact answers_ok s
  · exact answers_error rfl
  · exact answers_give

private theorem answers_addPlain {a : String} : Answers (s.addPlain g a) := by
  rw [addPlain]
  split
  · exact answers_settle.map
  · split
    all_goals exact answers_error rfl

private theorem answers_addFlag {cs : List Char} : Answers (s.addFlag g cs) := by
  rw [addFlag]
  split
  · exact answers_settle.bind fun _ => answers_error rfl
  · exact answers_error rfl
  · split
    · exact answers_error rfl
    · exact answers_settle.bind fun _ => answers_give
    · exact answers_settle.map

private theorem answers_addLetters {c : Char} : Answers (s.addLetters g c) := by
  rw [addLetters]
  split
  · exact answers_settle.bind fun _ => answers_error rfl
  · exact answers_error rfl

private theorem answers_add {a : String} : Answers (s.add g a) := by
  rw [add]
  split
  · exact answers_addPlain
  · split
    · exact answers_ok _
    · exact answers_addFlag
    · exact answers_addLetters
    · split
      · exact answers_ok _
      · exact answers_addPlain

private theorem isAnswer_helpOn (words : List String) : (helpOn words).isAnswer = true := by
  rw [helpOn.eq_def]
  split
  · rfl
  · split <;> rfl

private theorem answers_run (args : List String) : Answers (run g s args) := by
  induction args generalizing s with
  | nil => exact answers_ok (s, none)
  | cons a rest ih =>
    rw [run]
    split
    · exact answers_error (isAnswer_helpOn rest)
    · split
      · exact answers_ok _
      · split
        case h_1 => exact ih
        case h_2 cause => exact answers_error (answers_add _ cause)

end Scan

private theorem answers_readCommand (v : Verb) (args : List String) :
    Answers (readCommand v args) := by
  refine (Scan.answers_run args).bind fun ⟨s, _⟩ => Scan.answers_settle.bind fun s => ?_
  split
  · exact answers_ok _
  · exact answers_error rfl

private theorem answers_scanned (args : List String) : Answers (scanned args) := by
  refine (Scan.answers_run args).bind fun ⟨s, verb⟩ => ?_
  have settled (command : Option (Command × Option OwnerId)) :
      Answers (s.settle >>= fun s => pure (s.settings, command)) :=
    Scan.answers_settle.bind fun s => answers_ok (s.settings, command)
  cases verb with
  | none => exact settled none
  | some named => exact (answers_readCommand named.1 named.2).map.bind settled

/-! ## Empty and absent variables -/

def assign (fs : List Flag) (value : Option String) (env : String → Option String) :
    String → Option String :=
  fun name => if ∃ f ∈ fs, f.envName? = some name then value else env name

/-- Whether it makes no difference that the variables of some flags are empty and not absent. -/
def EmptyIsUnset (fs : List Flag) (args : List String) (env : String → Option String) : Prop :=
  parse args (assign fs (some "") env) = parse args (assign fs none env)

/-- Whether the arguments leave nothing to the variable of a flag: they are refused, or they name the
flag themselves. -/
def Decides (args : List String) (f : Flag) : Prop :=
  ∀ m command, scanned args = .ok (m, command) → (m f).isSome

def storageFlags : List Flag := [.databaseDsn, .fileStoragePath]

private theorem envName?_inj {f g : Flag} (has : f.envName?.isSome)
    (same : f.envName? = g.envName?) :
    f = g := by
  cases f
  case owner | input => cases has
  all_goals
    cases g
    all_goals first | rfl | simp [Flag.envName?] at same

private theorem variableOf_assign {fs : List Flag} (value : Option String)
    (env : String → Option String)
    {f : Flag} (named : f.envName?.isSome) :
    variableOf (assign fs value env) f = if f ∈ fs then value else variableOf env f := by
  obtain ⟨name, same⟩ := Option.isSome_iff_exists.mp named
  have among : (∃ g ∈ fs, g.envName? = some name) ↔ f ∈ fs := by
    constructor
    · rintro ⟨g, there, again⟩
      exact envName?_inj named (same.trans again.symm) ▸ there
    · intro there
      exact ⟨f, there, same⟩
  simp only [variableOf, same, Option.bind_some, assign, among]

private theorem variableOf_assign_other {fs : List Flag} (value value' : Option String)
    (env : String → Option String) {f : Flag} (out : f ∉ fs) :
    variableOf (assign fs value env) f = variableOf (assign fs value' env) f := by
  cases named : f.envName? with
  | none => simp only [variableOf, named, Option.bind_none]
  | some name =>
    have has : f.envName?.isSome := by rw [named]; rfl
    rw [variableOf_assign value env has, variableOf_assign value' env has, if_neg out, if_neg out]

section
variable {args : List String} {env env' : String → Option String} {m : Settings}

private theorem parse_of_refused {e : UsageError} (refused : scanned args = .error e) :
    parse args env = .error e := by
  rw [parse_eq, refused]
  rfl

private theorem parse_of_scanned {command : Option (Command × Option OwnerId)}
    (read : scanned args = .ok (m, command)) :
    parse args env = addVariables env m Flag.general >>= finish command := by
  rw [parse_eq, read]
  rfl

/-- The command lines agree if each variable is the same or its flag is named by the arguments. -/
theorem parse_congr
    (same : ∀ f ∈ Flag.general, Decides args f ∨ variableOf env f = variableOf env' f) :
    parse args env = parse args env' := by
  cases read : scanned args with
  | error e => rw [parse_of_refused read, parse_of_refused read]
  | ok r =>
    obtain ⟨m, command⟩ := r
    rw [parse_of_scanned read, parse_of_scanned read, addVariables_congr fun f there =>
      (same f there).imp_left fun decides => decides m command read]

private theorem addVariables_ne_nothing {text : String} : addVariables env m Flag.general ≠
    .error (.nothing text) := by
  intro refused
  obtain ⟨f, -, value, -, cause⟩ := addVariables_error refused
  have answer := isAnswer_of_flag? (Flag.read_error cause)
  cases answer

private theorem Decides.parse_ne_nothing {f : Flag} (decides : Decides args f)
    (among : f ∈ Flag.general)
    {text : String} : parse args env ≠ .error (.nothing text) := by
  intro refused
  cases read : scanned args with
  | error e =>
    rw [parse_of_refused read] at refused
    have answer := answers_scanned args e read
    rw [Except.error.inj refused] at answer
    cases answer
  | ok r =>
    obtain ⟨m, command⟩ := r
    rw [parse_of_scanned read] at refused
    rcases bind_eq_error refused with cause | ⟨m', added, last⟩
    · exact addVariables_ne_nothing cause
    · have given := decides m command read
      rw [← addVariables_same added (.inr (.inl given))] at given
      cases command with
      | some named => cases last
      | none =>
        rw [finish, Settings.any_of_isSome among given] at last
        cases last

private theorem exists_of_not_decides {f : Flag} (undecided : ¬Decides args f) :
    ∃ m command, scanned args = .ok (m, command) ∧ m f = none := by
  simp only [Decides, Classical.not_forall] at undecided
  obtain ⟨m, command, read, free⟩ := undecided
  exact ⟨m, command, read, Option.not_isSome_iff_eq_none.mp free⟩

/-! ## The address of the database -/

/-- An empty address is a value of its flag, but the same links are meant as without it. -/
theorem invocation_emptyDsn (free : m .databaseDsn = none) (command : Command)
    (owner : Option OwnerId) :
    invocation (m.set .databaseDsn "") command owner = invocation m command owner := by
  have storage : StorageSetting.ofSettings (some "") (m .fileStoragePath) =
      .ofSettings (m .databaseDsn) (m .fileStoragePath) := by
    rw [free]
    rfl
  have others {f : Flag} (other : Flag.databaseDsn ≠ f) : m.set .databaseDsn "" f = m f :=
    Settings.set_of_ne other ""
  simp only [invocation, Settings.set_self, others (f := .baseUrl) nofun,
    others (f := .fileStoragePath) nofun, others (f := .deleteChunkSize) nofun,
    others (f := .deleteQueueCapacity) nofun, others (f := .deleteWorkers) nofun,
    others (f := .shutdownGraceSecs) nofun, others (f := .logFormat) nofun,
    others (f := .owner) nofun, storage]

private theorem addVariables_emptyDsn (free : m .databaseDsn = none)
    (empty : variableOf env .databaseDsn = some "") (absent : variableOf env' .databaseDsn = none)
    (same : ∀ f ∈ Flag.general, f ≠ .databaseDsn →
      (m f).isSome ∨ variableOf env f = variableOf env' f) :
    addVariables env m Flag.general =
      (addVariables env' m Flag.general).map (·.set .databaseDsn "") := by
  have first : addVariable env m .baseUrl = addVariable env' m .baseUrl := by
    rcases same .baseUrl (by decide) (by decide) with given | alike
    · rw [addVariable_of_settled (.inl given), addVariable_of_settled (.inl given)]
    · rw [addVariable, addVariable, alike]
  rw [Flag.general, addVariables_cons, addVariables_cons, first]
  cases read : addVariable env' m .baseUrl with
  | error e => rfl
  | ok next =>
    have free' : next .databaseDsn = none := by
      rw [addVariable_same read (.inl (by decide)), free]
    have later : ∀ f ∈ Flag.general.drop 2,
        (next f).isSome ∨ variableOf env f = variableOf env' f := by
      intro f there
      have apart : f ≠ .databaseDsn := by
        rintro rfl
        exact absurd there (by decide)
      refine (same f (List.mem_of_mem_drop there) apart).imp_left fun given => ?_
      rw [addVariable_same read (.inr (.inl given))]
      exact given
    have emptied : addVariable env next .databaseDsn = .ok (next.set .databaseDsn "") := by
      rw [addVariable_of_given free' empty]
      rfl
    have kept : addVariable env' next .databaseDsn = .ok next :=
      addVariable_of_settled (.inr absent)
    show addVariables env next (.databaseDsn :: Flag.general.drop 2) =
      (addVariables env' next (.databaseDsn :: Flag.general.drop 2)).map _
    rw [addVariables_cons, addVariables_cons, emptied, kept]
    show addVariables env (next.set .databaseDsn "") (Flag.general.drop 2) =
      (addVariables env' next (Flag.general.drop 2)).map _
    rw [addVariables_set (g := .databaseDsn) "" (by decide), addVariables_congr later]

private theorem finish_emptyDsn (free : m .databaseDsn = none)
    (command : Option (Command × Option OwnerId)) :
    (finish command (m.set .databaseDsn "") = finish command m ∧
      finish command m ≠ .error (.nothing about)) ∨
    (finish command (m.set .databaseDsn "") = .error .noCommand ∧
      finish command m = .error (.nothing about)) := by
  cases command with
  | some named =>
    refine .inl ⟨?_, nofun⟩
    rw [finish, finish, invocation_emptyDsn free]
  | none =>
    have set : (m.set .databaseDsn "").any Flag.general = true :=
      Settings.any_of_isSome (f := .databaseDsn) (by decide) (by rw [Settings.set_self]; rfl)
    rw [finish, finish, set]
    cases m.any Flag.general with
    | true => exact .inl ⟨rfl, nofun⟩
    | false => exact .inr ⟨rfl, rfl⟩

/-- With an empty address the answer is the one without an address, unless that one is the answer to
nothing at all. -/
theorem parse_emptyDsn (empty : variableOf env .databaseDsn = some "")
    (absent : variableOf env' .databaseDsn = none)
    (same : ∀ f ∈ Flag.general, f ≠ .databaseDsn →
      Decides args f ∨ variableOf env f = variableOf env' f) :
    (parse args env = parse args env' ∧ parse args env' ≠ .error (.nothing about)) ∨
      (parse args env = .error .noCommand ∧ parse args env' = .error (.nothing about)) := by
  by_cases decides : Decides args .databaseDsn
  · refine .inl ⟨parse_congr fun f there => ?_, decides.parse_ne_nothing (by decide)⟩
    by_cases dsn : f = .databaseDsn
    · exact .inl (dsn ▸ decides)
    · exact same f there dsn
  · obtain ⟨m, command, read, free⟩ := exists_of_not_decides decides
    have alike : ∀ f ∈ Flag.general, f ≠ .databaseDsn →
        (m f).isSome ∨ variableOf env f = variableOf env' f :=
      fun f there other => (same f there other).imp_left fun decides => decides m command read
    rw [parse_of_scanned read, parse_of_scanned read, addVariables_emptyDsn free empty absent alike]
    cases added : addVariables env' m Flag.general with
    | error e =>
      refine .inl ⟨rfl, fun nothing => ?_⟩
      rw [Except.error.inj nothing] at added
      exact addVariables_ne_nothing added
    | ok m' =>
      have free' : m' .databaseDsn = none := by
        rw [addVariables_same added (.inr (.inr absent)), free]
      exact finish_emptyDsn free' command

/-! ## The path of the file -/

/-- An empty path is refused where the arguments do not decide on the file. -/
theorem parse_emptyPath (free : ¬Decides args .fileStoragePath)
    (empty : variableOf env .fileStoragePath = some "") :
    parse args env = .error (.noValue .fileStoragePath) := by
  obtain ⟨m, command, read, free⟩ := exists_of_not_decides free
  have texts : ∀ f ∈ [Flag.baseUrl, .databaseDsn], ∀ value, ∃ v, f.read value = .ok v := by
    simp [Flag.read]
  obtain ⟨next, added⟩ : ∃ next, addVariables env m [.baseUrl, .databaseDsn] = .ok next :=
    exists_addVariables texts
  have free' : next .fileStoragePath = none := by
    rw [addVariables_same added (.inl (by decide)), free]
  have refused : addVariable env next .fileStoragePath = .error (.noValue .fileStoragePath) := by
    rw [addVariable_of_given free' empty]
    rfl
  have order : Flag.general =
      [.baseUrl, .databaseDsn] ++ .fileStoragePath :: Flag.general.drop 3 := rfl
  rw [parse_of_scanned read, order, addVariables_append, added]
  show (addVariables env next (.fileStoragePath :: Flag.general.drop 3)) >>= finish command = _
  rw [addVariables_cons, refused]
  rfl

private theorem parse_ne_emptyPath (free : ¬Decides args .fileStoragePath)
    (absent : variableOf env .fileStoragePath = none) :
    parse args env ≠ .error (.noValue .fileStoragePath) := by
  intro refused
  obtain ⟨m, command, read, -⟩ := exists_of_not_decides free
  rw [parse_of_scanned read] at refused
  rcases bind_eq_error refused with cause | ⟨m', -, last⟩
  · obtain ⟨f, -, value, given, cause⟩ := addVariables_error cause
    have named := Flag.read_error cause
    obtain rfl : Flag.fileStoragePath = f := Option.some.inj named
    rw [absent] at given
    cases given
  · rw [finish.eq_def] at last
    split at last
    · cases last
    · split at last <;> cases last

/-- An empty path is told from an absent one unless the arguments decide on the file. -/
theorem parse_emptyPath_eq_iff (empty : variableOf env .fileStoragePath = some "")
    (absent : variableOf env' .fileStoragePath = none)
    (decided : Decides args .fileStoragePath → parse args env = parse args env') :
    parse args env = parse args env' ↔ Decides args .fileStoragePath := by
  refine ⟨fun same => Classical.byContradiction fun free => ?_, decided⟩
  rw [parse_emptyPath free empty] at same
  exact parse_ne_emptyPath free absent same.symm

end

/-! ## Which command lines do not tell the two apart -/

/-- An empty address of the database is no other than an absent one, unless no command is named and
nothing is set: then the answer misses a command instead of telling what there is. An empty path of
the file is no other than an absent one exactly if the arguments are refused or name a path, and
otherwise a value is missed. So it is where both are empty. -/
theorem emptyIsUnset_iff (args : List String) (env : String → Option String) :
    (EmptyIsUnset [.databaseDsn] args env ↔
      parse args (assign [.databaseDsn] none env) ≠ .error (.nothing about)) ∧
    (EmptyIsUnset [.fileStoragePath] args env ↔ Decides args .fileStoragePath) ∧
    (EmptyIsUnset storageFlags args env ↔ Decides args .fileStoragePath) ∧
    (¬EmptyIsUnset [.databaseDsn] args env →
      parse args (assign [.databaseDsn] (some "") env) = .error .noCommand) ∧
    (¬Decides args .fileStoragePath →
      parse args (assign [.fileStoragePath] (some "") env) =
        .error (.noValue .fileStoragePath) ∧
      parse args (assign storageFlags (some "") env) = .error (.noValue .fileStoragePath)) := by
  have dsn (value : Option String) :
      variableOf (assign [.databaseDsn] value env) .databaseDsn = value :=
    variableOf_assign value env rfl
  have path (value : Option String) :
      variableOf (assign [.fileStoragePath] value env) .fileStoragePath = value :=
    variableOf_assign value env rfl
  have both {f : Flag} (among : f ∈ storageFlags) (value : Option String) :
      variableOf (assign storageFlags value env) f = value := by
    have named : f.envName?.isSome := by
      rcases List.mem_cons.mp among with rfl | among
      · rfl
      · rw [List.mem_singleton.mp among]
        rfl
    rw [variableOf_assign value env named, if_pos among]
  have first := @parse_emptyDsn args _ _ (dsn (some "")) (dsn none) fun f _ other =>
    .inr (variableOf_assign_other (some "") none env (by simpa using other))
  refine ⟨?_, ?_, ?_, ?_, ?_⟩
  · rw [EmptyIsUnset]
    rcases first with ⟨same, given⟩ | ⟨missing, nothing⟩
    · exact ⟨fun _ => given, fun _ => same⟩
    · rw [missing, nothing]
      exact ⟨nofun, fun given => absurd rfl given⟩
  · refine parse_emptyPath_eq_iff (path (some "")) (path none) fun decides => ?_
    refine parse_congr fun f _ => ?_
    by_cases file : f = .fileStoragePath
    · exact .inl (file ▸ decides)
    · exact .inr (variableOf_assign_other (some "") none env (by simpa using file))
  · refine parse_emptyPath_eq_iff (both (by decide) (some "")) (both (by decide) none)
      fun decides => ?_
    have answer := @parse_emptyDsn args _ _ (both (by decide) (some ""))
      (both (by decide) none) fun f _ other => by
        by_cases file : f = .fileStoragePath
        · exact .inl (file ▸ decides)
        · exact .inr (variableOf_assign_other (some "") none env
            (by simp [storageFlags, other, file]))
    rcases answer with ⟨same, -⟩ | ⟨-, nothing⟩
    · exact same
    · exact absurd nothing (decides.parse_ne_nothing (by decide))
  · intro differ
    rcases first with ⟨same, -⟩ | ⟨missing, -⟩
    · exact absurd same differ
    · exact missing
  · intro free
    exact ⟨parse_emptyPath free (path (some "")),
      parse_emptyPath free (both (by decide) (some ""))⟩

/-- Where a program is called for nothing but a sign of life, an empty path is an error, and where
nothing is asked for at all, an empty address changes the answer. -/
theorem not_emptyIsUnset_of_ping :
    ¬EmptyIsUnset [.fileStoragePath] ["ping"] (fun _ => none) ∧
      ¬EmptyIsUnset [.databaseDsn] [] fun _ => none := by
  constructor
  · intro same
    have left : (parse ["ping"] (assign [.fileStoragePath] (some "") fun _ => none)).toBool =
        false := by decide +kernel
    have right : (parse ["ping"] (assign [.fileStoragePath] none fun _ => none)).toBool =
        true := by decide +kernel
    rw [EmptyIsUnset] at same
    rw [same, right] at left
    cases left
  · intro same
    cases same

end Shortlink.CommandLine
