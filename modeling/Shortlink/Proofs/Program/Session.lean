import Shortlink.Proofs.Program.Drain
import Shortlink.Proofs.Store.Torn
/-!
# Many runs are one service

Runs of the program one after another over one file do what a single service over that file does
when it carries out their commands in order and lets each deletion be done. Nothing but the file is
carried over from one run to the next.
-/
namespace Shortlink
open Pipeline Service FileStore

structure ProgramRun where
  around : Program.Surroundings
  args : List String

namespace Program

def session : List ProgramRun → Disk → List (Except ProgramError String) × Disk
  | [], disk => ([], disk)
  | r :: rest, disk =>
    let (answer, disk) := run r.around r.args disk
    let (answers, disk) := session rest disk
    (answer :: answers, disk)

/-- A service carries out the commands of runs one after another, and drains after each of them. -/
inductive Serves : Service FileStore → List ProgramRun → List (Except ProgramError String) →
    Service FileStore → Prop where
  | nil (s : Service FileStore) : Serves s [] [] s
  | cons {s t u last : Service FileStore} {r : ProgramRun} {rest : List ProgramRun}
      {i : Invocation} {answer : Except ProgramError String}
      {answers : List (Except ProgramError String)}
      (parsed : CommandLine.parse r.args r.around.env = .ok i)
      (carried : carryOut (batchText s.store.disk r.around.input) i.owner i.command s = (answer, t))
      (drained : Drained t u) (later : Serves u rest answers last) :
      Serves s (r :: rest) (answer :: answers) last

/-- A run over the file of a path, with this base URL, that waits long enough for its deletions. -/
def Over (path base : String) (r : ProgramRun) : Prop :=
  ∃ i, CommandLine.parse r.args r.around.env = .ok i ∧ i.storage = .file path ∧
    i.service.baseUrl = base ∧ i.Drains

section
variable {path base : String} {disk : Disk} {store : FileStore} {r : ProgramRun}

private theorem open_of_legible (legible : store.Legible path) :
    FileStore.open store.disk path = (.ok store, store.disk) := by
  obtain ⟨rfl, bytes, read⟩ := legible
  exact open_self read

private theorem legible_of_open (opened : (FileStore.open disk path).1 = .ok store) :
    store.Legible path := by
  have whole : FileStore.open disk path = (.ok store, (FileStore.open disk path).2) :=
    Prod.ext opened rfl
  obtain ⟨same, -⟩ := touched_of_open whole
  exact ⟨congrArg FileStore.path same, exists_read_of_open whole⟩

private theorem run_eq_outcome {i : Invocation}
    (parsed : CommandLine.parse r.args r.around.env = .ok i)
    (setting : i.storage = .file path) (drains : i.Drains)
    (opened : (FileStore.open disk path).1 = .ok store) :
    run r.around r.args disk =
      ((outcome (batchText store.disk r.around.input) i.owner i.command i.service.baseUrl store).1,
        (outcome (batchText store.disk r.around.input) i.owner i.command i.service.baseUrl
          store).2.disk) := by
  rw [run, parsed]
  exact invoke_eq_outcome setting (Prod.ext opened rfl) drains

private theorem opens_run (suits : Over path base r)
    (opened : (FileStore.open disk path).1 = .ok store) :
    (∃ after, (FileStore.open (run r.around r.args disk).2 path).1 = .ok after) ∧
    ∀ e, (run r.around r.args disk).1 = .error e →
      Disk.Kept path disk (run r.around r.args disk).2 := by
  obtain ⟨i, parsed, setting, -, drains⟩ := suits
  have left : (outcome (batchText store.disk r.around.input) i.owner i.command i.service.baseUrl
      store).2.Legible path := legible_outcome (legible_of_open opened)
  rw [run_eq_outcome parsed setting drains opened]
  refine ⟨⟨_, congrArg Prod.fst (open_of_legible left)⟩, ?_⟩
  intro e failed
  have whole : FileStore.open disk path = (.ok store, (FileStore.open disk path).2) :=
    Prod.ext opened rfl
  obtain ⟨same, -⟩ := touched_of_open whole
  rw [outcome_of_error failed, same]
  exact kept_of_open whole

private theorem opens_session {runs : List ProgramRun} (each : ∀ r ∈ runs, Over path base r)
    (opened : (FileStore.open disk path).1 = .ok store) :
    ∃ after, (FileStore.open (session runs disk).2 path).1 = .ok after := by
  induction runs generalizing disk store with
  | nil => exact ⟨store, opened⟩
  | cons r rest ih =>
    rw [List.forall_mem_cons] at each
    obtain ⟨⟨after, opened⟩, -⟩ := opens_run each.1 opened
    exact ih each.2 opened

end

/-- A service over the file of a path, with this base URL, that has nothing left to delete. -/
structure Ready (path base : String) (s : Service FileStore) : Prop where
  legible : s.store.Legible path
  base : s.settings.baseUrl = base
  rest : AtRest s

section
variable {path base : String} {r : ProgramRun} {s : Service FileStore}

/-- A service does with a command what the program does with the file. -/
theorem Ready.run_eq (ready : Ready path base s) {i : Invocation}
    (parsed : CommandLine.parse r.args r.around.env = .ok i) (setting : i.storage = .file path)
    (here : i.service.baseUrl = base) (drains : i.Drains) :
    let served := carryOut (batchText s.store.disk r.around.input) i.owner i.command s
    served.1 = (run r.around r.args s.store.disk).1 ∧ (∃ u, Drained served.2 u) ∧
      ∀ u, Drained served.2 u →
        u.store.disk = (run r.around r.args s.store.disk).2 ∧ Ready path base u := by
  have opened := congrArg Prod.fst (open_of_legible ready.legible)
  obtain ⟨answer, drained, left⟩ := served_eq_outcome ready.rest ready.legible.readable
    (batchText s.store.disk r.around.input) i.owner i.command
  rw [ready.base, ← here] at answer left
  rw [run_eq_outcome parsed setting drains opened]
  refine ⟨answer, drained, ?_⟩
  intro u ends
  obtain ⟨settings, rest, store⟩ := left u ends
  refine ⟨congrArg FileStore.disk store, ?_, ?_, rest⟩
  · rw [store]
    exact legible_outcome ready.legible
  · rw [settings]
    exact ready.base

private theorem Ready.session_eq (ready : Ready path base s) {runs : List ProgramRun}
    (each : ∀ r ∈ runs, Over path base r) :
    (∃ last, Serves s runs (session runs s.store.disk).1 last) ∧
      ∀ answers last, Serves s runs answers last →
        answers = (session runs s.store.disk).1 ∧
          last.store.disk = (session runs s.store.disk).2 := by
  induction runs generalizing s with
  | nil =>
    refine ⟨⟨s, .nil s⟩, ?_⟩
    intro answers last serves
    cases serves
    exact ⟨rfl, rfl⟩
  | cons r others ih =>
    rw [List.forall_mem_cons] at each
    obtain ⟨⟨i, parsed, setting, here, drains⟩, each⟩ := each
    obtain ⟨answer, ⟨u, drained⟩, left⟩ := ready.run_eq parsed setting here drains
    -- draining leaves the disk that the run leaves, and from there both sides go on alike
    constructor
    · obtain ⟨disk, ready⟩ := left u drained
      obtain ⟨⟨last, serves⟩, -⟩ := ih ready each
      rw [disk] at serves
      exact ⟨last, .cons parsed (Prod.ext answer rfl) drained serves⟩
    · intro answers last serves
      cases serves with
      | @cons _ _ u _ _ _ i' _ answers parsed' carried drained later =>
        obtain rfl := Except.ok.inj (parsed.symm.trans parsed')
        rw [carried] at answer left
        obtain ⟨disk, ready⟩ := left u drained
        obtain ⟨same, final⟩ := (ih ready each).2 answers last later
        rw [disk] at same final
        exact ⟨List.cons_eq_cons.mpr ⟨answer, same⟩, final⟩

end

private theorem session_of_open {path base : String} {disk : Disk} {store : FileStore}
    {runs : List ProgramRun} (each : ∀ r ∈ runs, Over path base r)
    (opened : (FileStore.open disk path).1 = .ok store) :
    (session runs disk).1 = (session runs store.disk).1 ∧
      (runs ≠ [] → (session runs disk).2 = (session runs store.disk).2) := by
  cases runs with
  | nil => exact ⟨rfl, fun some => absurd rfl some⟩
  | cons r rest =>
    obtain ⟨i, parsed, setting, -, drains⟩ := each r List.mem_cons_self
    have again := congrArg Prod.fst (open_of_legible (legible_of_open opened))
    have first : run r.around r.args disk = run r.around r.args store.disk :=
      (run_eq_outcome parsed setting drains opened).trans
        (run_eq_outcome parsed setting drains again).symm
    rw [session, session, first]
    exact ⟨rfl, fun _ => rfl⟩

/-- Runs of the program over one file that opens, each of which waits until its deletions are done,
are one service over that file, whatever it holds and whatever the sizes of the pipeline are. They
show what the service answers when it carries out their commands in order and after each of them
drains, with the chunks recorded in the order in which they were asked for. So a service can always
drain, and then it leaves the file, and the whole disk, as the runs do. In another order of chunks
the lines of a deletion may stand in another order. A run that fails keeps the file as it was, but
where there was none, it may have made an empty one. -/
theorem runs_are_one_service {path base : String} {disk : Disk} {store : FileStore}
    (opened : (FileStore.open disk path).1 = .ok store) {runs : List ProgramRun}
    (each : ∀ r ∈ runs, Over path base r) (settings : ServiceSettings)
    (same : settings.baseUrl = base) :
    (∃ last, Serves (Service.start store settings) runs (session runs disk).1 last) ∧
    (∀ answers last, Serves (Service.start store settings) runs answers last →
      answers = (session runs disk).1 ∧ (runs ≠ [] → last.store.disk = (session runs disk).2)) ∧
    ∀ before r later, runs = before ++ r :: later →
      let found := (session before disk).2
      ∀ e, (run r.around r.args found).1 = .error e →
        Disk.Kept path found (run r.around r.args found).2 := by
  have ready : Ready path base (Service.start store settings) :=
    ⟨legible_of_open opened, same, atRest_start store settings⟩
  obtain ⟨shown, left⟩ := session_of_open each opened
  obtain ⟨can, only⟩ := ready.session_eq each
  refine ⟨?_, ?_, ?_⟩
  · rw [shown]
    exact can
  · intro answers last serves
    obtain ⟨answered, final⟩ := only answers last serves
    refine ⟨answered.trans shown.symm, ?_⟩
    intro some
    rw [left some]
    exact final
  · intro before r later split found
    subst split
    have first : ∀ r ∈ before, Over path base r :=
      fun r there => each r (List.mem_append_left _ there)
    obtain ⟨store, opened⟩ := opens_session first opened
    exact (opens_run (each r (by simp)) opened).2

def plainRun (args : List String) : ProgramRun :=
  ⟨⟨fun _ => none, .empty⟩, "--file-storage-path" :: "urls.json" :: "--owner" ::
    "00000000-0000-0000-0000-000000000000" :: args⟩

def plainInvocation (command : Command) : Invocation :=
  ⟨{}, .file "urls.json", CommandLine.defaultGraceSecs, .plain, some .zero, command⟩

/-- A URL is refused, another one is saved, and its link is deleted. -/
def deletingRuns : List ProgramRun :=
  [plainRun ["shorten", "a.b"], plainRun ["shorten", "http://a.b/"],
    plainRun ["delete", "pKXxiYMn"]]

private theorem over_plainRun {args : List String} (command : Command)
    (parsed : CommandLine.parse (plainRun args).args (plainRun args).around.env =
      .ok (plainInvocation command)) (drains : (plainInvocation command).Drains) :
    Over "urls.json" "http://localhost:8080" (plainRun args) :=
  ⟨_, parsed, rfl, rfl, drains⟩

private theorem drains_of_quiet {i : Invocation} (quiet : i.command.request? i.owner = none) :
    i.Drains := by
  intro r asks
  rw [quiet] at asks
  contradiction

private theorem drains_plainDelete : (plainInvocation (.delete ["pKXxiYMn"])).Drains := by
  intro r asks handed submitted
  obtain rfl := Option.some.inj asks
  obtain rfl := Except.ok.inj submitted
  decide +kernel

private theorem over_deletingRuns :
    ∀ r ∈ deletingRuns, Over "urls.json" "http://localhost:8080" r := by
  have refused : Over "urls.json" "http://localhost:8080" (plainRun ["shorten", "a.b"]) :=
    over_plainRun (.shorten "a.b") rfl (drains_of_quiet rfl)
  have saved : Over "urls.json" "http://localhost:8080" (plainRun ["shorten", "http://a.b/"]) :=
    over_plainRun (.shorten "http://a.b/") rfl (drains_of_quiet rfl)
  have deleted : Over "urls.json" "http://localhost:8080" (plainRun ["delete", "pKXxiYMn"]) :=
    over_plainRun _ rfl drains_plainDelete
  simpa [deletingRuns] using ⟨refused, saved, deleted⟩

theorem runs_are_one_service_of_deletingRuns :
    (session deletingRuns {}).1.map Except.toBool = [false, true, true] ∧
      ∃ last, Serves (Service.start (ofContent .empty) { sizes := ⟨1, 1, 1⟩ }) deletingRuns
        (session deletingRuns {}).1 last ∧ last.store.disk = (session deletingRuns {}).2 := by
  have opened : (FileStore.open {} "urls.json").1 = .ok (ofContent .empty) := rfl
  obtain ⟨⟨last, serves⟩, only, -⟩ :=
    runs_are_one_service opened over_deletingRuns { sizes := ⟨1, 1, 1⟩ } rfl
  refine ⟨by decide +kernel, last, serves, (only _ _ serves).2 ?_⟩
  exact List.cons_ne_nil _ _

end Program
end Shortlink
