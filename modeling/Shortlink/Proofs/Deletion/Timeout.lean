import Shortlink.Proofs.Deletion.Drain
/-!
# What a shutdown gives up

Workers hold at most one chunk each, and they count the chunks that they hold. A shutdown call that
runs out of time answers with this count, and every chunk that is not on record by then never is.
-/
namespace Shortlink.Pipeline

/-! ## What workers hold -/

/-- No more chunks are held than there are workers, and until a shutdown ends the work their number
is what the workers count. -/
structure Staffed (c : PipelineConfig) (p : Pipeline) : Prop where
  bounded : p.inFlight.length ≤ c.workers
  counted : p.drain = .over ∨ p.busy = p.inFlight.length

section
variable {c : PipelineConfig} {p q : Pipeline} {a : Action}

theorem Staffed.beginCall (staffed : Staffed c p) (call grace turn : Nat) :
    Staffed c (p.beginCall call grace turn) := by
  refine ⟨by simpa using staffed.bounded, ?_⟩
  rcases staffed.counted with ended | same
  · have begun : p.drain ≠ .idle := by simp [ended]
    rw [beginCall_of_not_idle _ _ _ _ begun]
    exact .inl ended
  · exact .inr (by simpa using same)

private theorem mem_outcomes_of_beginCall {number grace turn call aborted : Nat}
    (answer : (call, .timedOut aborted) ∈ (p.beginCall number grace turn).outcomes) :
    (call, .timedOut aborted) ∈ p.outcomes := by
  by_cases idle : p.drain = .idle
  · rw [beginCall_of_idle _ _ _ _ idle] at answer
    exact answer
  · rw [beginCall_of_not_idle _ _ _ _ idle] at answer
    simpa using answer

private theorem Effect.staffed (h : Effect c p a q) (staffed : Staffed c p) : Staffed c q := by
  have bounded := staffed.bounded
  cases h with
  | take first free =>
    refine ⟨?_, staffed.counted.imp_right ?_⟩
    · simp only [List.length_append, List.length_singleton]
      omega
    · intro same
      simp [same]
  | finish found due =>
    rw [found, List.length_append, List.length_cons] at bounded
    refine ⟨?_, staffed.counted.imp_right ?_⟩
    · rw [List.length_append]
      omega
    · intro same
      rw [found, List.length_append, List.length_cons] at same
      simp only [List.length_append]
      omega
  | @shutDown grace =>
    have begun := staffed.beginCall p.calls grace 0
    exact ⟨begun.bounded, begun.counted⟩
  | @beginAnnounced call _ first =>
    have begun := staffed.beginCall call.call call.grace (p.turns + 1)
    exact ⟨begun.bounded, begun.counted⟩
  | expire waits due => exact ⟨Nat.zero_le _, .inl rfl⟩
  | drained waits empty => exact ⟨bounded, .inl rfl⟩
  | _ => exact ⟨bounded, staffed.counted⟩

/-- Only the waiting call times out, and its answer is what the workers count. -/
theorem Effect.timedOut (h : Effect c p a q) {call aborted : Nat}
    (answer : (call, .timedOut aborted) ∈ q.outcomes) (new : (call, .timedOut aborted) ∉ p.outcomes) :
    a = .expire ∧ q = p.giveUp call ∧ p.waiting? = some call ∧ p.busy = aborted := by
  cases h with
  | shutDown => exact absurd (mem_outcomes_of_beginCall answer) new
  | beginAnnounced first => exact absurd (mem_outcomes_of_beginCall answer) new
  | @expire waiting timer waits due =>
    simp only [giveUp, List.mem_cons, new, or_false, Prod.mk.injEq, DrainOutcome.timedOut.injEq] at answer
    obtain ⟨rfl, rfl⟩ := answer
    exact ⟨rfl, rfl, by rw [waiting?, waits], rfl⟩
  | drained waits empty => simp [new] at answer
  | _ => exact absurd answer new

end

/-! ## Runs -/

section
variable (c : PipelineConfig)

theorem Staffed.run {p : Pipeline} (staffed : Staffed c p) (actions : List Action) :
    Staffed c (run c p actions) := by
  induction actions generalizing p with
  | nil => exact staffed
  | cons a rest ih => exact ih ((act_effect c p a).staffed staffed)

theorem staffed_run (actions : List Action) : Staffed c (Pipeline.run c {} actions) :=
  Staffed.run c ⟨Nat.zero_le _, .inr rfl⟩ actions

private theorem exists_expiry {p : Pipeline} {actions : List Action} {call aborted : Nat}
    (answer : (call, .timedOut aborted) ∈ (Pipeline.run c p actions).outcomes)
    (new : (call, .timedOut aborted) ∉ p.outcomes) :
    ∃ before later, actions = before ++ .expire :: later ∧
      (Pipeline.run c p before).act c .expire = (Pipeline.run c p before).giveUp call ∧
      (Pipeline.run c p before).waiting? = some call ∧
      (Pipeline.run c p before).busy = aborted := by
  induction actions generalizing p with
  | nil => exact absurd answer new
  | cons a rest ih =>
    by_cases now : (call, .timedOut aborted) ∈ (p.act c a).outcomes
    · obtain ⟨rfl, gives, waits, counted⟩ := (act_effect c p a).timedOut now new
      exact ⟨[], rest, rfl, gives, waits, counted⟩
    · obtain ⟨before, later, rfl, gives, waits, counted⟩ := ih answer now
      exact ⟨a :: before, later, rfl, gives, waits, counted⟩

private theorem handed_perm {actions : List Action} (kept : (Pipeline.run c {} actions).lost = []) :
    (handed c {} actions).Perm
      ((Pipeline.run c {} actions).recorded ++ (Pipeline.run c {} actions).flying) := by
  apply List.perm_iff_count.mpr
  intro chunk
  have everywhere := (places_perm c actions).count_eq chunk
  have most := count_handed_run c {} actions chunk
  have least := count_flying_run c {} actions chunk
  simp only [places, kept, List.append_nil, List.count_append] at everywhere ⊢
  simp only [held, flying, recorded, List.append_nil, List.flatMap_nil, List.map_nil,
    List.count_nil] at everywhere most least ⊢
  omega

theorem of_waiting {actions : List Action} {call : Nat}
    (waits : (Pipeline.run c {} actions).waiting? = some call) :
    firstCall? c {} actions = some call ∧ (Pipeline.run c {} actions).lost = [] := by
  have stage := stage_run c actions
  generalize firstCall? c {} actions = first at stage ⊢
  cases stage with
  | accepting idle running silent kept => simp [waiting?, idle] at waits
  | draining waits' refusing early kept =>
    simp only [waiting?, waits'] at waits
    exact ⟨waits, kept⟩
  | drained ended stopped empty kept answer => simp [waiting?, ended] at waits
  | timedOut ended stopped empty answer => simp [waiting?, ended] at waits

end

/-- Where a shutdown call answers that it has timed out, there is a moment at which it does, and it is
the first call. At that moment each chunk of the accepted requests is on record, or a worker has taken
it and is not done, or no worker has taken it. The answer is the number of those in between, which is at
most the number of workers. From then on no chunk is put on record and every request is refused. It makes
no difference whether a chunk is due at that very moment. -/
theorem timedOut_accounts (c : PipelineConfig) (actions : List Action) {call aborted : Nat}
    (answer : (run c {} actions).outcome? call = some (.timedOut aborted)) :
    ∃ before later, actions = before ++ .expire :: later ∧
      let p := run c {} before
      let q := run c {} (before ++ [.expire])
      firstCall? c {} before = some call ∧
      p.outcome? call = none ∧ q.outcome? call = some (.timedOut aborted) ∧
      (chunksFrom c 0 (accepted c {} before)).Perm (q.recorded ++ p.flying ++ (p.queue ++ p.held)) ∧
      (handed c {} before).Perm (q.recorded ++ p.flying) ∧
      (handed c {} before).Disjoint (p.queue ++ p.held) ∧
      p.flying.length = aborted ∧ aborted ≤ max 1 c.sizes.workers ∧
      ∀ more, (run c q more).recorded = q.recorded ∧ handed c q more = [] ∧
        ∀ (s : Course) (r : DeleteRequest), s.pipeline = run c q more → s.submit c r = .error .closed := by
  have listed : (call, .timedOut aborted) ∈ (run c {} actions).outcomes := by
    obtain ⟨earlier, later, split, -⟩ := List.lookup_eq_some_iff.mp answer
    rw [split]
    exact List.mem_append_right _ List.mem_cons_self
  obtain ⟨before, later, split, gives, waits, counted⟩ := exists_expiry c listed (by simp)
  obtain ⟨first, kept⟩ := of_waiting c waits
  obtain ⟨bounded, count⟩ := staffed_run c before
  have expired : run c {} (before ++ [.expire]) = (run c {} before).giveUp call := by
    rw [run_snoc, gives]
  have unended : (run c {} before).drain ≠ .over := by
    intro ended
    simp [waiting?, ended] at waits
  have taken : (run c {} before).flying.length = aborted := by
    rw [flying, List.length_map, ← count.resolve_left unended]
    exact counted
  have places := places_perm c before
  have handed := handed_perm c kept
  have whole : (chunksFrom c 0 (accepted c {} before)).Perm ((run c {} before).recorded ++
      (run c {} before).flying ++ ((run c {} before).queue ++ (run c {} before).held)) := by
    apply List.perm_iff_count.mpr
    intro chunk
    have same := places.count_eq chunk
    simp only [Pipeline.places, kept, List.append_nil, List.count_append] at same ⊢
    omega
  have distinct := whole.nodup_iff.mp (nodup_chunksFrom c 0 (accepted c {} before))
  refine ⟨before, later, split, first, outcome?_eq_none_of_waiting waits, ?_, ?_, ?_, ?_, taken, ?_, ?_⟩
  · apply outcome?_eq_of_mem
    rw [expired, giveUp, counted]
    exact List.mem_cons_self
  · rw [expired]
    exact whole
  · rw [expired]
    exact handed
  · intro chunk passed untaken
    exact List.disjoint_of_nodup_append distinct (handed.mem_iff.mp passed) untaken
  · rw [← taken, flying, List.length_map]
    exact bounded
  · intro more
    rw [expired]
    obtain ⟨ended, -, -, same, nothing⟩ := quiet_run c (p := (run c {} before).giveUp call) rfl rfl
      (by simp [giveUp, isEmpty]) more
    refine ⟨?_, nothing, ?_⟩
    · rw [recorded, same]
      rfl
    · intro s r at_end
      apply Course.submit_of_not_idle
      rw [at_end, ended]
      simp

/-- One worker and room for one chunk: when the time is over, a chunk is on record, one is being
deleted, one is in the queue and one is with its producer. -/
def overdueRun : List Action :=
  [.submit ⟨⟨⟨List.replicate 32 ⟨1, by decide⟩, rfl⟩⟩, [⟨"a0"⟩, ⟨"a1"⟩, ⟨"a2"⟩, ⟨"a3"⟩]⟩,
    .enter 0 1, .take, .enter 0 1, .wait 10, .finish 1, .take, .enter 0 1, .shutDown 5, .wait 15,
    .expire]

theorem timedOut_accounts_of_overdueRun :
    let c : PipelineConfig := ⟨⟨1, 1, 1⟩, fun _ => 10⟩
    (run c {} overdueRun).outcome? 0 = some (.timedOut 1) ∧
      (run c {} overdueRun).recorded.length = 1 ∧
      ∀ more, (run c (run c {} overdueRun) more).recorded = (run c {} overdueRun).recorded := by
  intro c
  have answer : (run c {} overdueRun).outcome? 0 = some (.timedOut 1) := by decide +kernel
  obtain ⟨before, later, split, -, -, -, -, -, -, -, -, quiet⟩ := timedOut_accounts c overdueRun answer
  have resumed : run c {} overdueRun = run c (run c {} (before ++ [.expire])) later := by
    rw [← run_append, List.append_assoc, List.singleton_append, ← split]
  refine ⟨answer, by decide +kernel, ?_⟩
  intro more
  have early := (quiet later).1
  have late := (quiet (later ++ more)).1
  rw [run_append, ← resumed] at late
  rw [late, resumed, early]

end Shortlink.Pipeline
