import Mathlib.Data.List.Perm.Subperm
import Shortlink.Proofs.Deletion.Passage
/-!
# Waiting for a place in the queue

A producer that lines up waits behind those that stand in line or have been promised a place. Until
its own place is promised each of these puts one chunk into the queue and lines up again behind it,
and nobody else puts in any. More chunks can pass it only in places that become free after that.
-/
namespace Shortlink.Pipeline

/-- The producer of a request goes on, and there is no room for its next chunk. -/
def StartsWaiting (c : PipelineConfig) (p : Pipeline) (request : Nat) : Prop :=
  request ∈ p.ready.map Producer.request ∧ p.room c = 0

def unfinished (p : Pipeline) : List Nat :=
  (p.ready ++ p.line ++ p.called).map Producer.request

/-- How a producer waits that has lined up behind `ahead`, of which `inLine` stood in line. Since then
the chunks `passed` have entered the queue, and workers have taken so many from it. -/
inductive Waits (c : PipelineConfig) (ahead : List Producer) (inLine : Nat) (producer : Producer)
    (p : Pipeline) (passed : List Chunk) (taken : Nat) : Prop where
  | lined (before behind : List Producer) (line : p.line = before ++ producer :: behind)
      (left : taken + before.length = inLine)
      (served : (passed ++ (p.called ++ before).map Producer.next).Perm (ahead.map Producer.next))
  /-- Its place has been promised. The chunks `extra` used places that became free after that. -/
  | promised (earlier later : List Producer) (extra : List Chunk)
      (called : p.called = earlier ++ producer :: later)
      (served : (passed ++ earlier.map Producer.next).Perm (ahead.map Producer.next ++ extra))
      (freed : taken = inLine + 1 + extra.length + later.length + p.room c)
  | dropped (extra : List Chunk) (ended : p.drain = .over) (stopped : p.phase = .stopped)
      (empty : p.isEmpty = true) (served : passed.Subperm (ahead.map Producer.next ++ extra))
      (freed : extra.length ≤ taken - (inLine + 1))

section
variable {c : PipelineConfig} {p q : Pipeline} {a : Action} {ahead : List Producer} {inLine : Nat}
  {producer : Producer} {passed : List Chunk} {taken : Nat}

private theorem Waits.subperm (waits : Waits c ahead inLine producer p passed taken) :
    ∃ extra : List Chunk, passed.Subperm (ahead.map Producer.next ++ extra) ∧
      extra.length ≤ taken - (inLine + 1) := by
  cases waits with
  | lined before behind line left served =>
    refine ⟨[], ?_, Nat.zero_le _⟩
    rw [List.append_nil]
    exact (List.sublist_append_left _ _).subperm.trans served.subperm
  | promised earlier later extra called served freed =>
    refine ⟨extra, (List.sublist_append_left _ _).subperm.trans served.subperm, ?_⟩
    omega
  | dropped extra ended stopped empty served freed => exact ⟨extra, served, freed⟩

/-- Nobody puts a chunk into the queue while a producer stands in line, except those that have been
promised a place. -/
theorem Effect.waits_lined (h : Effect c p a q) (roomy : Roomy c p) {before behind : List Producer}
    (line : p.line = before ++ producer :: behind) (left : taken + before.length = inLine)
    (served : (passed ++ (p.called ++ before).map Producer.next).Perm (ahead.map Producer.next)) :
    Waits c ahead inLine producer q (passed ++ q.queue.drop p.queue.length)
      (taken + (p.hands c a).length) := by
  have full : p.room c = 0 := roomy.full (by simp [line])
  cases h with
  | nothing refused untaken =>
    refine .lined before behind line ?_ ?_
    · simpa [untaken] using left
    · simpa using served
  | enter found named others =>
    refine .lined before behind line left ?_
    simpa [full] using served
  | @lineUp request other _ _ found named others crowded =>
    refine .lined before (behind ++ [other]) ?_ left ?_
    · simp [line]
    · simpa using served
  | @arrive request other first after found named others =>
    refine .lined before behind line left ?_
    have moved : ∀ others : List Chunk, (first.map Producer.next ++ other.next :: others).Perm
        (other.next :: (first.map Producer.next ++ others)) := fun _ => List.perm_middle
    simp only [found, List.drop_left, List.map_append, List.map_cons, List.append_assoc,
      List.cons_append, List.nil_append] at served ⊢
    exact (List.Perm.append_left passed (moved _).symm).trans served
  | @take chunk rest first free =>
    have one : (p.hands c .take).length = 1 := by simp [hands, first, free]
    have nothing : rest.drop p.queue.length = [] := by simp [first]
    rw [one]
    simp only [nothing, List.append_nil]
    cases before with
    | nil =>
      refine .promised p.called [] [] ?_ ?_ ?_
      · simp [line]
      · simpa using served
      · simp only [room, first, line, List.nil_append, List.take_succ_cons, List.take_zero,
          List.length_append, List.length_cons, List.length_nil] at full left ⊢
        omega
    | cons next others =>
      refine .lined others behind ?_ ?_ ?_
      · simp [line]
      · simp only [List.length_cons] at left
        omega
      · simpa [line] using served
  | expire waits due =>
    refine .dropped [] rfl rfl (by simp [giveUp, isEmpty]) ?_ (Nat.zero_le _)
    simp only [giveUp, List.drop_nil, List.append_nil]
    exact (List.sublist_append_left _ _).subperm.trans served.subperm
  | shutDown => exact .lined before behind (by simpa using line) left (by simpa using served)
  | beginAnnounced first =>
    exact .lined before behind (by simpa using line) left (by simpa using served)
  | _ => exact .lined before behind line left (by simpa using served)

private theorem served_later {α : Type} {passed waiting before extra : List α}
    (served : (passed ++ waiting).Perm (before ++ extra)) (more : List α) :
    (passed ++ more ++ waiting).Perm (before ++ (extra ++ more)) := by
  have swapped : (passed ++ more ++ waiting).Perm (passed ++ waiting ++ more) := by
    rw [List.append_assoc, List.append_assoc]
    exact List.perm_append_comm.append_left passed
  rw [← List.append_assoc]
  exact swapped.trans (served.append_right more)

private theorem split_of_split {α : Type} {first after earlier later : List α} {x y : α}
    (same : first ++ x :: after = earlier ++ y :: later) (differ : x ≠ y) :
    (∃ between, earlier = first ++ x :: between ∧ after = between ++ y :: later) ∨
      ∃ between, first = earlier ++ y :: between ∧ later = between ++ x :: after := by
  rcases List.append_eq_append_iff.mp same with ⟨part, before, rest⟩ | ⟨part, before, rest⟩
  · cases part with
    | nil => exact absurd (List.cons.inj rest).1 differ
    | cons z between =>
      obtain ⟨rfl, tail⟩ := List.cons.inj rest
      exact .inl ⟨between, before, tail⟩
  · cases part with
    | nil => exact absurd (List.cons.inj rest).1.symm differ
    | cons z between =>
      obtain ⟨rfl, tail⟩ := List.cons.inj rest
      exact .inr ⟨between, before, tail⟩

/-- Once its place has been promised, other chunks enter into places that were promised before or have
become free since. -/
theorem Effect.waits_promised (h : Effect c p a q) (roomy : Roomy c p)
    (apart : ∀ chunk ∈ q.queue.drop p.queue.length, chunk.request ≠ producer.request)
    {earlier later : List Producer} {extra : List Chunk}
    (called : p.called = earlier ++ producer :: later)
    (served : (passed ++ earlier.map Producer.next).Perm (ahead.map Producer.next ++ extra))
    (freed : taken = inLine + 1 + extra.length + later.length + p.room c) :
    Waits c ahead inLine producer q (passed ++ q.queue.drop p.queue.length)
      (taken + (p.hands c a).length) := by
  have within := roomy.within
  cases h with
  | nothing refused untaken =>
    refine .promised earlier later extra called ?_ ?_
    · simpa using served
    · simpa [untaken] using freed
  | @enter request count next _ _ found named others =>
    refine .promised earlier later (extra ++ next.chunks.take (min count (p.room c))) called ?_ ?_
    · rw [List.drop_left]
      exact served_later served _
    · simp only [room, hands, List.length_append, List.length_take, List.length_nil] at freed ⊢
      omega
  | @arrive request next first after found named others =>
    rw [List.drop_left] at apart ⊢
    have differ : next ≠ producer := by
      rintro rfl
      exact apart next.next List.mem_cons_self rfl
    rcases split_of_split (found.symm.trans called) differ with
      ⟨between, rfl, rest⟩ | ⟨between, rest, rfl⟩
    · -- it was called before the producer
      refine .promised (first ++ between) later extra ?_ ?_ ?_
      · rw [rest, List.append_assoc]
      · have moved : (next.next :: (first.map Producer.next ++ between.map Producer.next)).Perm
            (first.map Producer.next ++ next.next :: between.map Producer.next) :=
          List.perm_middle.symm
        simp only [List.map_append, List.map_cons, List.append_assoc, List.cons_append,
          List.nil_append] at served ⊢
        exact (moved.append_left passed).trans served
      · simp only [room, found, hands, List.length_append, List.length_cons, List.length_nil]
          at freed ⊢
        omega
    · -- it was called after the producer
      refine .promised earlier (between ++ after) (extra ++ [next.next]) ?_ ?_ ?_
      · simp [rest]
      · exact served_later served _
      · simp only [room, found, hands, List.length_append, List.length_cons, List.length_nil]
          at freed ⊢
        omega
  | @take chunk rest first free =>
    have one : (p.hands c .take).length = 1 := by simp [hands, first, free]
    have nothing : rest.drop p.queue.length = [] := by simp [first]
    refine .promised earlier (later ++ p.line.take 1) extra ?_ ?_ ?_
    · simp [called]
    · simpa [nothing] using served
    · rw [one]
      simp only [room, first, called, List.length_append, List.length_cons, List.length_take]
        at within freed ⊢
      omega
  | @expire call timer due _ =>
    obtain ⟨extra, served, freed⟩ :=
      (Waits.promised earlier later extra called served freed).subperm
    refine .dropped extra rfl rfl (by simp [giveUp, isEmpty]) ?_ freed
    simpa [giveUp] using served
  | shutDown =>
    exact .promised earlier later extra (by simpa using called) (by simpa using served)
      (by simpa [room, hands] using freed)
  | beginAnnounced first =>
    exact .promised earlier later extra (by simpa using called) (by simpa using served)
      (by simpa [room, hands] using freed)
  | _ => exact .promised earlier later extra called (by simpa using served) freed

theorem Effect.waits (h : Effect c p a q) (roomy : Roomy c p)
    (apart : ∀ chunk ∈ q.queue.drop p.queue.length, chunk.request ≠ producer.request)
    (waits : Waits c ahead inLine producer p passed taken) :
    Waits c ahead inLine producer q (passed ++ q.queue.drop p.queue.length)
      (taken + (p.hands c a).length) := by
  cases waits with
  | lined before behind line left served =>
    exact h.waits_lined roomy line left served
  | promised earlier later extra called served freed =>
    exact h.waits_promised roomy apart called served freed
  | dropped extra ended stopped empty served freed =>
    obtain ⟨ended', stopped', -⟩ := h.over ended stopped
    obtain ⟨empty', -, -, untaken, -⟩ := h.quiet empty (by simp [ended])
    have nothing : q.queue = [] := (isEmpty_iff.mp empty').2.2.2.1
    refine .dropped extra ended' stopped' empty' ?_ ?_
    · rw [nothing, List.drop_nil, List.append_nil]
      exact served
    · rw [untaken]
      exact freed

theorem Waits.run (roomy : Roomy c p) (waits : Waits c ahead inLine producer p passed taken)
    {actions : List Action}
    (apart : ∀ chunk ∈ entered c p actions, chunk.request ≠ producer.request) :
    Waits c ahead inLine producer (run c p actions) (passed ++ entered c p actions)
      (taken + (handed c p actions).length) := by
  induction actions generalizing p passed taken with
  | nil =>
    rw [entered, List.append_nil]
    exact waits
  | cons a rest ih =>
    rw [entered, List.forall_mem_append] at apart
    have effect := act_effect c p a
    have later := ih (effect.roomy roomy) (effect.waits roomy apart.1 waits) apart.2
    rw [entered, handed, List.length_append, ← List.append_assoc, ← Nat.add_assoc]
    exact later

end

section
variable {c : PipelineConfig} {p : Pipeline} {request : Nat}

private theorem enters_arrive (promised : request ∈ p.called.map Producer.request) :
    (enters c p (.arrive request)).map Chunk.request = [request] := by
  obtain ⟨producer, there, named⟩ := List.mem_map.mp promised
  cases found : p.called.find? (·.request = request) with
  | none => simpa [named] using List.find?_eq_none.mp found producer there
  | some first =>
    have same : first.request = request := by simpa using List.find?_some found
    simp only [enters, act, found, List.drop_left, List.map_cons, List.map_nil]
    rw [← same]
    rfl

private theorem StartsWaiting.exists_lined (starts : StartsWaiting c p request) :
    ∃ producer ready, producer.request = request ∧
      p.act c (.lineUp request) = { p with ready := ready, line := p.line ++ [producer] } := by
  obtain ⟨there, full⟩ := starts
  obtain ⟨producer, there, named⟩ := List.mem_map.mp there
  cases found : p.ready.find? (·.request = request) with
  | none => simpa [named] using List.find?_eq_none.mp found producer there
  | some first =>
    refine ⟨first, p.ready.eraseP (·.request = request), by simpa using List.find?_some found, ?_⟩
    simp only [act, found, if_pos full]

theorem StartsWaiting.waits (starts : StartsWaiting c p request) (roomy : Roomy c p)
    {actions : List Action}
    (apart : ∀ chunk ∈ entered c (p.act c (.lineUp request)) actions, chunk.request ≠ request) :
    ∃ producer : Producer, producer.request = request ∧
      Waits c (p.called ++ p.line) p.line.length producer
        (run c (p.act c (.lineUp request)) actions) (entered c (p.act c (.lineUp request)) actions)
        (handed c (p.act c (.lineUp request)) actions).length := by
  obtain ⟨producer, ready, rfl, lined⟩ := starts.exists_lined
  have first : Waits c (p.called ++ p.line) p.line.length producer
      (p.act c (.lineUp producer.request)) [] 0 := by
    rw [lined]
    exact .lined p.line [] rfl (Nat.zero_add _) (List.Perm.refl _)
  have later := first.run ((act_effect c p _).roomy roomy) apart
  rw [List.nil_append, Nat.zero_add] at later
  exact ⟨producer, rfl, later⟩

private theorem StartsWaiting.length_ahead_le (starts : StartsWaiting c p request)
    (distinct : (unfinished p).Nodup) :
    (p.called ++ p.line).length ≤
      ((unfinished (p.act c (.lineUp request))).filter (· ≠ request)).length := by
  obtain ⟨producer, ready, named, lined⟩ := starts.exists_lined
  have own : request ∈ p.ready.map Producer.request := starts.1
  rw [unfinished, List.append_assoc, List.map_append] at distinct
  have others : ∀ n ∈ (p.line ++ p.called).map Producer.request, n ≠ request := by
    rintro n there rfl
    exact List.disjoint_of_nodup_append distinct own there
  have kept : ((p.line ++ p.called).map Producer.request).filter (· ≠ request) =
      (p.line ++ p.called).map Producer.request :=
    List.filter_eq_self.mpr fun n there => by simpa using others n there
  have counted := congrArg List.length kept
  rw [lined]
  simp only [unfinished, List.map_append, List.filter_append, List.length_append, List.length_map]
    at counted ⊢
  omega

end

private theorem Waits.promised_iff {c : PipelineConfig} {p : Pipeline} {ahead : List Producer}
    {inLine : Nat}
    {producer : Producer} {passed : List Chunk} {taken : Nat}
    (waits : Waits c ahead inLine producer p passed taken) (distinct : (unfinished p).Nodup)
    (left : producer.request ∈ unfinished p) :
    producer.request ∈ p.called.map Producer.request ↔ inLine < taken := by
  rw [unfinished, List.map_append, List.map_append, List.nodup_append] at distinct
  cases waits with
  | lined before behind line early served =>
    have own : producer.request ∈ p.line.map Producer.request := by simp [line]
    constructor
    · intro there
      exact absurd rfl (distinct.2.2 _ (List.mem_append_right _ own) _ there)
    · omega
  | promised earlier later extra called served freed =>
    constructor
    · omega
    · simp [called]
  | dropped extra ended stopped empty served freed =>
    obtain ⟨ready, line, called, -⟩ := isEmpty_iff.mp empty
    simp [unfinished, ready, line, called] at left

private theorem nodup_unfinished (c : PipelineConfig) (actions : List Action) :
    (unfinished (run c {} actions)).Nodup :=
  (inSequence c actions).distinct

private theorem countP_next_le_one {ahead : List Producer}
    (distinct : (ahead.map Producer.request).Nodup) (n : Nat) :
    (ahead.map Producer.next).countP (·.request = n) ≤ 1 := by
  have once := List.nodup_iff_count_le_one.mp distinct n
  rw [List.count, List.countP_map] at once
  rw [List.countP_map]
  exact once

/-- What one may expect of a fair queue: from the moment at which the producer of a request starts to
wait until its next chunk enters, at most one chunk of each other request enters, and so at most as
many as there are other requests that are not finished. -/
def OvertakenOnce (c : PipelineConfig) (before during : List Action) (request : Nat) : Prop :=
  let p := run c {} before
  let q := p.act c (.lineUp request)
  StartsWaiting c p request → (∀ chunk ∈ entered c q during, chunk.request ≠ request) →
    (∀ other, (entered c q during).countP (·.request = other) ≤ 1) ∧
      (entered c q during).length ≤ ((unfinished q).filter (· ≠ request)).length

/-- In every run, when the producer of a request starts to wait, its place is the one that becomes
free with the last of so many chunks: one for each producer in line before it, and one more. Until
then at most one chunk of each other request enters the queue, and so at most as many as there are
other requests that are not finished. From then on its place is kept for it, and its next chunk enters
in its next turn. What enters before that is more only by so many chunks as workers take after its
place has been promised. -/
theorem overtaken_once_until_promised (c : PipelineConfig) (before during : List Action)
    (request : Nat) (starts : StartsWaiting c (run c {} before) request)
    (waits : ∀ chunk ∈ entered c ((run c {} before).act c (.lineUp request)) during,
      chunk.request ≠ request) :
    let p := run c {} before
    let q := p.act c (.lineUp request)
    let passed := entered c q during
    let taken := (handed c q during).length
    let since := taken - (p.line.length + 1)
    (∀ other, passed.countP (·.request = other) ≤ 1 + since) ∧
      passed.length ≤ ((unfinished q).filter (· ≠ request)).length + since ∧
      (request ∈ unfinished (run c q during) →
        (request ∈ (run c q during).called.map Producer.request ↔ p.line.length < taken)) ∧
      (request ∈ (run c q during).called.map Producer.request →
        (enters c (run c q during) (.arrive request)).map Chunk.request = [request]) := by
  intro p q passed taken since
  have distinct : (unfinished p).Nodup := nodup_unfinished c before
  obtain ⟨producer, named, state⟩ := starts.waits (roomy_run c before) waits
  obtain ⟨extra, accounted, freed⟩ : ∃ extra : List Chunk,
      passed.Subperm ((p.called ++ p.line).map Producer.next ++ extra) ∧ extra.length ≤ since :=
    state.subperm
  refine ⟨?_, ?_, ?_, enters_arrive⟩
  · intro other
    have ahead : ((p.called ++ p.line).map Producer.request).Nodup := by
      rw [unfinished, List.append_assoc, List.map_append] at distinct
      exact (List.perm_append_comm.map Producer.request).nodup_iff.mp distinct.of_append_right
    have most := accounted.countP_le (·.request = other)
    have once := countP_next_le_one ahead other
    have rest : extra.countP (·.request = other) ≤ extra.length := List.countP_le_length
    rw [List.countP_append] at most
    omega
  · have most := accounted.length_le
    have others : (p.called ++ p.line).length ≤ ((unfinished q).filter (· ≠ request)).length :=
      starts.length_ahead_le distinct
    rw [List.length_append, List.length_map] at most
    omega
  · intro left
    have whole : run c q during = run c {} (before ++ .lineUp request :: during) := by
      rw [run_append]
      rfl
    rw [← named] at left ⊢
    refine state.promised_iff ?_ left
    rw [whole]
    exact nodup_unfinished c _

def crowded : PipelineConfig := ⟨⟨1, 5, 4⟩, fun _ => 10⟩

/-- Requests for thirteen and for five chunks. Workers take the first four chunks, and whenever one is
taken a producer puts in its next chunk and lines up again. The last to do so is the second one. -/
def crowdedStart : List Action :=
  let owner : OwnerId := ⟨⟨List.replicate 32 ⟨4, by decide⟩, rfl⟩⟩
  [.submit ⟨owner, (List.range 13).map fun i => ⟨s!"a{i}"⟩⟩,
    .submit ⟨owner, (List.range 5).map fun i => ⟨s!"b{i}"⟩⟩,
    .enter 0 128, .lineUp 0, .lineUp 1, .take, .arrive 0, .lineUp 0, .take, .arrive 1, .lineUp 1,
    .take, .arrive 0, .lineUp 0, .take, .arrive 1]

/-- The workers are done at the same moment, and each of them takes another chunk before a producer
has its turn. The first producer uses its promised place and the two that nobody waits for. -/
def crowdedTurns : List Action :=
  [.wait 10, .finish 1, .take, .finish 2, .take, .finish 3, .take, .finish 4, .take, .arrive 0,
    .enter 0 127, .lineUp 0]

/-- While the second producer waits, three chunks of the first one enter. -/
theorem not_overtakenOnce_of_freePlaces : ¬OvertakenOnce crowded crowdedStart crowdedTurns 1 := by
  intro expected
  obtain ⟨once, -⟩ := expected ⟨by decide +kernel, by decide +kernel⟩ (by decide +kernel)
  have passed : (entered crowded ((run crowded {} crowdedStart).act crowded (.lineUp 1))
      crowdedTurns).countP (·.request = 0) = 3 := by decide +kernel
  have one := once 0
  omega

/-- The second chunk that workers take leaves the place of the second producer, and two more are
taken: no more than three chunks pass it, and its own is the next. -/
theorem overtaken_once_until_promised_of_freePlaces :
    let p := run crowded {} crowdedStart
    let q := p.act crowded (.lineUp 1)
    p.line.length = 1 ∧ (handed crowded q crowdedTurns).length = 4 ∧
      (entered crowded q crowdedTurns).countP (·.request = 0) ≤ 3 ∧
      (enters crowded (run crowded q crowdedTurns) (.arrive 1)).map Chunk.request = [1] := by
  intro p q
  have line : p.line.length = 1 := by decide +kernel
  have taken : (handed crowded q crowdedTurns).length = 4 := by decide +kernel
  obtain ⟨each, -, -, next⟩ := overtaken_once_until_promised crowded crowdedStart crowdedTurns 1
    ⟨by decide +kernel, by decide +kernel⟩ (by decide +kernel)
  refine ⟨line, taken, ?_, next (by decide +kernel)⟩
  have most : (entered crowded q crowdedTurns).countP (·.request = 0) ≤
      1 + ((handed crowded q crowdedTurns).length - (p.line.length + 1)) := each 0
  rwa [line, taken] at most

end Shortlink.Pipeline
