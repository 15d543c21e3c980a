import Shortlink.Proofs.Deletion.Accounting
/-!
# The life of a pipeline

The shutdown call that begins first waits for the workers, and its answer ends the work for good.
Every call has one number, and a number stands in one place: announced, waiting or answered.
-/
namespace Shortlink.Pipeline

def waiting? (p : Pipeline) : Option Nat :=
  match p.drain with
  | .waiting call _ => some call
  | _ => none

/-- The call of a run that begins first, which is the one that waits for the workers. -/
def firstCall? (c : PipelineConfig) (p : Pipeline) : List Action → Option Nat
  | [] => p.waiting?
  | a :: rest => p.waiting?.or (firstCall? c (p.act c a) rest)

/-- The numbers of all calls: that of the waiting one, of the announced and of the answered ones. -/
def callNumbers (p : Pipeline) : List Nat :=
  p.waiting?.toList ++ p.announced.map AnnouncedCall.call ++ p.outcomes.map Prod.fst

/-- How far a pipeline is, given the call that began first. -/
inductive Stage (p : Pipeline) : Option Nat → Prop where
  | accepting (idle : p.drain = .idle) (running : p.phase = .running)
      (silent : p.outcomes = []) (kept : p.lost = []) : Stage p none
  | draining {call : Nat} {timer : Timer} (waits : p.drain = .waiting call timer)
      (refusing : p.phase ≠ .running) (early : p.phase = .stopped → p.outcomes ≠ [])
      (kept : p.lost = []) : Stage p (some call)
  | drained {call : Nat} (ended : p.drain = .over) (stopped : p.phase = .stopped)
      (empty : p.isEmpty = true) (kept : p.lost = []) (answer : (call, .drained) ∈ p.outcomes) :
      Stage p (some call)
  | timedOut {call aborted : Nat} (ended : p.drain = .over) (stopped : p.phase = .stopped)
      (empty : p.isEmpty = true) (answer : (call, .timedOut aborted) ∈ p.outcomes) :
      Stage p (some call)

theorem isEmpty_iff {p : Pipeline} :
    p.isEmpty = true ↔
      p.ready = [] ∧ p.line = [] ∧ p.called = [] ∧ p.queue = [] ∧ p.inFlight = [] := by
  simp [isEmpty, and_assoc]

theorem waiting?_eq_none {p : Pipeline} (h : p.drain = .idle) : p.waiting? = none := by
  rw [waiting?, h]

/-- Requests are accepted as long as there is a way into the queue, and the phase is kept apart from
that. At every stage the two agree. -/
theorem Stage.running_iff_idle {p : Pipeline} {first : Option Nat} (stage : Stage p first) :
    p.phase = .running ↔ p.drain = .idle := by
  cases stage with
  | accepting idle running => exact iff_of_true running idle
  | draining waits refusing => exact iff_of_false refusing (by simp [waits])
  | drained ended stopped => exact iff_of_false (by simp [stopped]) (by simp [ended])
  | timedOut ended stopped => exact iff_of_false (by simp [stopped]) (by simp [ended])

/-- Before the first shutdown begins, no call is the first and nothing is lost. -/
theorem Stage.of_idle {p : Pipeline} {first : Option Nat} (stage : Stage p first)
    (idle : p.drain = .idle) : first = none ∧ p.lost = [] := by
  cases stage with
  | accepting _ _ _ kept => exact ⟨rfl, kept⟩
  | draining waits => exact absurd (waits.symm.trans idle) (by simp)
  | drained ended => exact absurd (ended.symm.trans idle) (by simp)
  | timedOut ended => exact absurd (ended.symm.trans idle) (by simp)

/-! ## One action -/

section
variable {c : PipelineConfig} {p q : Pipeline} {a : Action}

private theorem Effect.count_callNumbers (h : Effect c p a q) (n : Nat) :
    q.callNumbers.count n + (List.range p.calls).count n =
      p.callNumbers.count n + (List.range q.calls).count n := by
  cases h with
  | nothing refused untaken => rfl
  | shutDown =>
    by_cases idle : p.drain = .idle
    · rw [beginCall_of_idle _ _ _ _ idle]
      simp only [callNumbers, waiting?, idle, List.range_succ, List.count_append,
        Option.toList_some, Option.toList_none, List.count_nil]
      omega
    · rw [beginCall_of_not_idle _ _ _ _ idle]
      simp only [callNumbers, waiting?, List.range_succ, List.count_append, List.map_cons,
        List.count_cons, List.count_nil]
      omega
  | announce =>
    simp only [callNumbers, waiting?, List.range_succ, List.count_append, List.map_append,
      List.map_cons, List.map_nil]
    omega
  | beginAnnounced first =>
    by_cases idle : p.drain = .idle
    · rw [beginCall_of_idle _ _ _ _ idle]
      simp only [callNumbers, waiting?, idle, first, List.count_append, List.map_cons,
        List.count_cons, Option.toList_some, Option.toList_none, List.count_nil]
      omega
    · rw [beginCall_of_not_idle _ _ _ _ idle]
      simp only [callNumbers, waiting?, first, List.count_append, List.map_cons,
        List.count_cons]
      omega
  | expire waits due =>
    simp only [callNumbers, waiting?, giveUp, waits, List.count_append, List.map_cons,
      List.count_cons, Option.toList_some, Option.toList_none, List.count_nil]
    omega
  | drained waits empty =>
    simp only [callNumbers, waiting?, waits, List.count_append, List.map_cons,
      List.count_cons, Option.toList_some, Option.toList_none, List.count_nil]
    omega
  | _ => rfl

theorem Effect.over (h : Effect c p a q) (ended : p.drain = .over) (stopped : p.phase = .stopped) :
    q.drain = .over ∧ q.phase = .stopped ∧ p.outcomes ⊆ q.outcomes := by
  have busy : p.drain ≠ .idle := by simp [ended]
  cases h with
  | submit idle => exact absurd idle busy
  | shutDown =>
    rw [beginCall_of_not_idle _ _ _ _ busy]
    exact ⟨ended, rfl, List.subset_cons_self _ _⟩
  | beginAnnounced first =>
    rw [beginCall_of_not_idle _ _ _ _ busy]
    exact ⟨ended, rfl, List.subset_cons_self _ _⟩
  | expire waits due => exact absurd (ended.symm.trans waits) (by simp)
  | drained waits empty => exact absurd (ended.symm.trans waits) (by simp)
  | _ => exact ⟨ended, stopped, List.Subset.refl _⟩

/-- An empty pipeline does nothing any more once a shutdown has begun. -/
theorem Effect.quiet (h : Effect c p a q) (empty : p.isEmpty = true) (busy : p.drain ≠ .idle) :
    q.isEmpty = true ∧ q.finished = p.finished ∧ q.lost = p.lost ∧ p.hands c a = [] ∧
      p.accepts a = [] := by
  obtain ⟨hready, hline, hcalled, hqueue, hflight⟩ := isEmpty_iff.mp empty
  have keeps {q : Pipeline} (hr : q.ready = p.ready) (hl : q.line = p.line)
      (hc : q.called = p.called) (hq : q.queue = p.queue) (hi : q.inFlight = p.inFlight) :
      q.isEmpty = true := by
    rw [isEmpty, hr, hl, hc, hq, hi]
    exact empty
  cases h with
  | nothing refused untaken => exact ⟨empty, rfl, rfl, untaken, refused⟩
  | submit idle => exact absurd idle busy
  | enter found named others => simp [hready] at found
  | lineUp found named others full => simp [hready] at found
  | arrive found named others => simp [hcalled] at found
  | take first free => simp [hqueue] at first
  | finish found due => simp [hflight] at found
  | shutDown => exact ⟨keeps (by simp) (by simp) (by simp) (by simp) (by simp), by simp, by simp, rfl, rfl⟩
  | beginAnnounced first =>
    exact ⟨keeps (by simp) (by simp) (by simp) (by simp) (by simp), by simp, by simp, rfl, rfl⟩
  | expire waits due =>
    exact ⟨by simp [giveUp, isEmpty], rfl,
      by simp [giveUp, hready, hline, hcalled, hqueue, hflight], rfl, rfl⟩
  | drained waits empty => exact ⟨keeps rfl rfl rfl rfl rfl, rfl, rfl, rfl, rfl⟩
  | announce => exact ⟨keeps rfl rfl rfl rfl rfl, rfl, rfl, rfl, rfl⟩
  | wait => exact ⟨keeps rfl rfl rfl rfl rfl, rfl, rfl, rfl, rfl⟩

private theorem stage_of_idle (idle : q.drain = .idle) (running : q.phase = .running)
    (silent : q.outcomes = []) (kept : q.lost = []) : Stage q (none.or q.waiting?) := by
  rw [waiting?_eq_none idle]
  exact .accepting idle running silent kept

theorem Effect.stage (h : Effect c p a q) {first : Option Nat} (s : Stage p first) :
    Stage q (first.or q.waiting?) := by
  cases s with
  | accepting idle running silent kept =>
    cases h with
    | shutDown =>
      rw [beginCall_of_idle _ _ _ _ idle]
      exact .draining rfl (by simp) (by simp) kept
    | beginAnnounced first =>
      rw [beginCall_of_idle _ _ _ _ idle]
      exact .draining rfl (by simp) (by simp) kept
    | expire waits due => exact absurd (idle.symm.trans waits) (by simp)
    | drained waits empty => exact absurd (idle.symm.trans waits) (by simp)
    | _ => exact stage_of_idle idle running silent kept
  | @draining call timer waits refusing early kept =>
    have busy : p.drain ≠ .idle := by simp [waits]
    cases h with
    | submit idle => exact absurd idle busy
    | shutDown =>
      rw [beginCall_of_not_idle _ _ _ _ busy]
      exact .draining waits (by simp) (by simp) kept
    | beginAnnounced first =>
      rw [beginCall_of_not_idle _ _ _ _ busy]
      exact .draining waits (by simp) (by simp) kept
    | @expire call' timer' waits' due =>
      obtain ⟨rfl, -⟩ := Drain.waiting.inj (waits.symm.trans waits')
      exact .timedOut rfl rfl (by simp [giveUp, isEmpty]) (List.mem_cons_self ..)
    | @drained call' timer' waits' empty =>
      obtain ⟨rfl, -⟩ := Drain.waiting.inj (waits.symm.trans waits')
      exact .drained rfl rfl empty kept (List.mem_cons_self ..)
    | _ => exact .draining waits refusing early kept
  | drained ended stopped empty kept answer =>
    obtain ⟨ended', stopped', grown⟩ := h.over ended stopped
    obtain ⟨empty', -, kept', -, -⟩ := h.quiet empty (by simp [ended])
    exact .drained ended' stopped' empty' (kept'.trans kept) (grown answer)
  | timedOut ended stopped empty answer =>
    obtain ⟨ended', stopped', grown⟩ := h.over ended stopped
    obtain ⟨empty', -, -, -, -⟩ := h.quiet empty (by simp [ended])
    exact .timedOut ended' stopped' empty' (grown answer)

end

/-! ## Runs -/

section
variable (c : PipelineConfig)

private theorem Stage.or_waiting? {p : Pipeline} {first : Option Nat} (s : Stage p first) :
    first.or p.waiting? = first := by
  cases s with
  | accepting idle running silent kept => rw [waiting?_eq_none idle]; rfl
  | _ => rfl

theorem Stage.run {p : Pipeline} {first : Option Nat} (s : Stage p first) (actions : List Action) :
    Stage (run c p actions) (first.or (firstCall? c p actions)) := by
  induction actions generalizing p first with
  | nil => exact s.or_waiting?.symm ▸ s
  | cons a rest ih =>
    have later := ih ((act_effect c p a).stage s)
    have known : (first.or (p.act c a).waiting?).or (firstCall? c (p.act c a) rest) =
        first.or (firstCall? c (p.act c a) rest) := by
      cases rest <;> cases first <;> simp [firstCall?, ← Option.or_assoc]
    rw [known] at later
    rw [firstCall?, ← Option.or_assoc, s.or_waiting?]
    exact later

theorem stage_run (actions : List Action) :
    Stage (run c {} actions) (firstCall? c {} actions) :=
  Stage.run c (.accepting rfl rfl rfl rfl) actions

private theorem count_callNumbers_run (p : Pipeline) (actions : List Action) (n : Nat) :
    (Pipeline.run c p actions).callNumbers.count n + (List.range p.calls).count n =
      p.callNumbers.count n + (List.range (Pipeline.run c p actions).calls).count n := by
  induction actions generalizing p with
  | nil => rfl
  | cons a rest ih =>
    have step := (act_effect c p a).count_callNumbers n
    have later := ih (p.act c a)
    rw [run_cons]
    omega

private theorem callNumbers_perm_range (actions : List Action) :
    (Pipeline.run c {} actions).callNumbers.Perm
      (List.range (Pipeline.run c {} actions).calls) := by
  apply List.perm_iff_count.mpr
  intro n
  simpa [callNumbers, waiting?] using count_callNumbers_run c {} actions n

private theorem nodup_callNumbers (actions : List Action) :
    (Pipeline.run c {} actions).callNumbers.Nodup :=
  (callNumbers_perm_range c actions).nodup_iff.mpr List.nodup_range

end

/-! ## Answers -/

theorem outcome?_eq_of_mem {c : PipelineConfig} {actions : List Action} {call : Nat}
    {outcome : DrainOutcome} (h : (call, outcome) ∈ (run c {} actions).outcomes) :
    (run c {} actions).outcome? call = some outcome := by
  have once := (List.nodup_append.mp (nodup_callNumbers c actions)).2.1
  obtain ⟨earlier, later, split⟩ := List.append_of_mem h
  rw [split, List.map_append, List.map_cons] at once
  have others := (List.nodup_append.mp once).2.2
  refine List.lookup_eq_some_iff.mpr ⟨earlier, later, split, ?_⟩
  intro entry hentry
  have hne := others entry.1 (List.mem_map_of_mem hentry) call (List.mem_cons_self ..)
  simpa using Ne.symm hne

theorem outcome?_eq_none_of_waiting {c : PipelineConfig} {actions : List Action} {call : Nat}
    (waits : (run c {} actions).waiting? = some call) :
    (run c {} actions).outcome? call = none := by
  have once := nodup_callNumbers c actions
  rw [callNumbers, waits, List.append_assoc, Option.toList_some, List.singleton_append] at once
  have absent := (List.nodup_cons.mp once).1
  apply List.lookup_eq_none_iff.mpr
  intro entry hentry
  have hne : call ≠ entry.1 := by
    rintro rfl
    exact absent (List.mem_append_right _ (List.mem_map_of_mem hentry))
  simpa using hne

/-- When the first call answers that the pipeline is drained, nothing is left and nothing has been
lost. -/
theorem empty_of_drained {c : PipelineConfig} {actions : List Action} {call : Nat}
    (first : firstCall? c {} actions = some call)
    (answer : (run c {} actions).outcome? call = some .drained) :
    (run c {} actions).isEmpty = true ∧ (run c {} actions).lost = [] := by
  have stage := stage_run c actions
  rw [first] at stage
  cases stage with
  | draining waits refusing early kept =>
    rw [outcome?_eq_none_of_waiting (by rw [waiting?, waits])] at answer
    exact absurd answer (by simp)
  | drained ended stopped empty kept mem => exact ⟨empty, kept⟩
  | timedOut ended stopped empty mem =>
    rw [outcome?_eq_of_mem mem] at answer
    exact absurd answer (by simp)

end Shortlink.Pipeline
