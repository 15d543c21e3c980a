import Mathlib.Data.List.Basic
import Shortlink.Sql.Trace
/-!
# Transactions

Whatever a database answers, a transaction sends what it does between its begin and its commit. It
answers a value just where the commit is acknowledged, and a rollback is all that it sends otherwise.
-/
namespace Shortlink.Sql

theorem bind_apply {ε σ α β : Type} (m : ExceptT ε (StateM σ) α) (f : α → ExceptT ε (StateM σ) β)
    (s : σ) : (m >>= f) s = match m s with
      | (.ok a, s) => f a s
      | (.error e, s) => (.error e, s) := by
  simp only [bind, ExceptT.bind, ExceptT.mk, StateT.bind, ExceptT.bindCont]
  cases answer : m s with
  | mk a after => cases a <;> rfl

theorem tryCatch_apply {ε σ α : Type} (m : ExceptT ε (StateM σ) α)
    (handle : ε → ExceptT ε (StateM σ) α) (s : σ) : (tryCatch m handle) s = match m s with
      | (.ok a, s) => (.ok a, s)
      | (.error e, s) => handle e s := by
  simp only [tryCatch, tryCatchThe, MonadExceptOf.tryCatch, ExceptT.tryCatch, ExceptT.mk, bind, StateT.bind]
  cases answer : m s with
  | mk a after => cases a <;> rfl

/-! ## What calls send -/

section
variable {δ α β : Type}

/-- Whatever the database answers, what a call sends goes with what it answers. -/
def Sends (m : SqlM (Traced δ) α) (Goes : List Exchange → Except Fault α → Prop) : Prop :=
  ∀ t, ∃ sent, (m t).2.exchanges = t.exchanges ++ sent ∧ Goes sent (m t).1

theorem sends_pure (a : α) :
    Sends (pure a : SqlM (Traced δ) α) fun sent answer => sent = [] ∧ answer = .ok a :=
  fun _ => ⟨[], by rw [List.append_nil]; rfl, rfl, rfl⟩

variable {Goes : List Exchange → Except Fault α → Prop}

theorem Sends.imp {m : SqlM (Traced δ) α} (h : Sends m Goes)
    {Also : List Exchange → Except Fault α → Prop}
    (weaker : ∀ sent answer, Goes sent answer → Also sent answer) : Sends m Also := by
  intro t
  obtain ⟨sent, exchanges, goes⟩ := h t
  exact ⟨sent, exchanges, weaker _ _ goes⟩

theorem Sends.bind {m : SqlM (Traced δ) α} {f : α → SqlM (Traced δ) β}
    {Then : α → List Exchange → Except Fault β → Prop} (first : Sends m Goes)
    (rest : ∀ a, Sends (f a) (Then a)) : Sends (m >>= f) fun sent answer =>
      (∃ fault, Goes sent (.error fault) ∧ answer = .error fault) ∨
        ∃ a before after, sent = before ++ after ∧ Goes before (.ok a) ∧ Then a after answer := by
  intro t
  obtain ⟨before, exchanges, goes⟩ := first t
  rw [bind_apply]
  cases run : m t with
  | mk answer after =>
    rw [run] at exchanges goes
    cases answer with
    | error fault => exact ⟨before, exchanges, .inl ⟨fault, goes, rfl⟩⟩
    | ok a =>
      obtain ⟨more, exchanges', goes'⟩ := rest a after
      refine ⟨before ++ more, ?_, .inr ⟨a, before, more, rfl, goes, goes'⟩⟩
      rw [exchanges', exchanges, List.append_assoc]

theorem Sends.tryCatch {m : SqlM (Traced δ) α} {handle : Fault → SqlM (Traced δ) α}
    {Then : Fault → List Exchange → Except Fault α → Prop} (first : Sends m Goes)
    (handled : ∀ fault, Sends (handle fault) (Then fault)) :
    Sends (tryCatch m handle) fun sent answer =>
      (∃ a, Goes sent (.ok a) ∧ answer = .ok a) ∨
        ∃ fault before after,
          sent = before ++ after ∧ Goes before (.error fault) ∧ Then fault after answer := by
  intro t
  obtain ⟨before, exchanges, goes⟩ := first t
  rw [tryCatch_apply]
  cases run : m t with
  | mk answer after =>
    rw [run] at exchanges goes
    cases answer with
    | ok a => exact ⟨before, exchanges, .inl ⟨a, goes, rfl⟩⟩
    | error fault =>
      obtain ⟨more, exchanges', goes'⟩ := handled fault after
      refine ⟨before ++ more, ?_, .inr ⟨fault, before, more, rfl, goes, goes'⟩⟩
      rw [exchanges', exchanges, List.append_assoc]

end

/-! ## Brackets -/

section
variable {δ α : Type} {Goes : List Exchange → Except Fault α → Prop}

/-- What a transaction sends and answers, where its body sends and answers what goes together. -/
inductive Transacted (Goes : List Exchange → Except Fault α → Prop) :
    List Exchange → Except Fault α → Prop where
  | unconnected (fault : Fault) : Transacted Goes [] (.error fault)
  | unbegun {reply : Reply} {fault : Fault} (refused : reply.outcome = .error fault) :
      Transacted Goes [⟨.begin, reply⟩] (.error fault)
  | abandoned {reply : Reply} {inside undone : List Exchange} {fault : Fault}
      (failed : Goes inside (.error fault)) (only : ∀ x ∈ undone, x.statement = .rollback) :
      Transacted Goes (⟨.begin, reply⟩ :: (inside ++ undone)) (.error fault)
  | uncommitted {reply last : Reply} {inside undone : List Exchange} {a : α} {fault : Fault}
      (done : Goes inside (.ok a)) (refused : last.outcome = .error fault)
      (only : ∀ x ∈ undone, x.statement = .rollback) :
      Transacted Goes (⟨.begin, reply⟩ :: (inside ++ ⟨.commit, last⟩ :: undone)) (.error fault)
  | committed {reply : Reply} {inside : List Exchange} {a : α} (done : Goes inside (.ok a))
      (rows : List Row) (affected : Nat) :
      Transacted Goes (⟨.begin, reply⟩ :: (inside ++ [⟨.commit, .done rows affected⟩])) (.ok a)

variable [Database δ]

private theorem sends_acquire :
    Sends (Database.acquire : SqlM (Traced δ) Unit) fun sent _ => sent = [] :=
  fun t => ⟨[], by rw [List.append_nil]; rfl, rfl⟩

theorem sends_execute (statement : Statement) : Sends (execute statement : SqlM (Traced δ) Outcome)
    fun sent answer => ∃ reply, sent = [⟨statement, reply⟩] ∧ answer = reply.outcome :=
  fun _ => ⟨_, rfl, _, rfl, rfl⟩

private theorem sends_abandon (fault : Fault) : Sends (abandon fault : SqlM (Traced δ) α)
    fun sent answer => (∀ x ∈ sent, x.statement = .rollback) ∧ answer = .error fault := by
  intro t
  rw [abandon]
  by_cases gone : fault = .disconnected
  · exact ⟨[], by simp [gone], by simp, rfl⟩
  · refine ⟨[⟨.rollback, (Database.send .rollback t.database).1⟩], ?_, by simp, rfl⟩
    simp only [if_neg gone]
    rfl

private theorem Sends.committing {body : SqlM (Traced δ) α} (h : Sends body Goes) : Sends (do
      let a ← body
      let _ ← execute .commit
      pure a : SqlM (Traced δ) α) fun sent answer =>
        (∃ fault, Goes sent (.error fault) ∧ answer = .error fault) ∨
        ∃ inside a reply, sent = inside ++ [⟨.commit, reply⟩] ∧ Goes inside (.ok a) ∧
          answer = reply.outcome.map fun _ => a := by
  refine (h.bind fun a => (sends_execute .commit).bind fun _ => sends_pure a).imp ?_
  rintro sent answer (failed | ⟨a, inside, last, rfl, done, committed⟩)
  · exact .inl failed
  refine .inr ?_
  rcases committed with ⟨fault, ⟨reply, rfl, refused⟩, rfl⟩ |
    ⟨outcome, _, _, rfl, ⟨reply, rfl, acknowledged⟩, rfl, rfl⟩
  · exact ⟨inside, a, reply, rfl, done, by rw [← refused]; rfl⟩
  · exact ⟨inside, a, reply, rfl, done, by rw [← acknowledged]; rfl⟩

theorem Sends.transaction {body : SqlM (Traced δ) α} (h : Sends body Goes) :
    Sends (transaction body) (Transacted Goes) := by
  refine (sends_acquire.bind fun _ => (sends_execute .begin).bind fun _ =>
    h.committing.tryCatch sends_abandon).imp ?_
  rintro sent answer (⟨fault, rfl, rfl⟩ | ⟨_, _, sent, rfl, rfl, begun⟩)
  · exact .unconnected fault
  rcases begun with ⟨fault, ⟨reply, rfl, refused⟩, rfl⟩ | ⟨_, _, sent, rfl, ⟨reply, rfl, -⟩, ended⟩
  · exact .unbegun refused.symm
  rcases ended with ⟨a, ends, rfl⟩ | ⟨fault, sent, undone, rfl, ends, only, rfl⟩
  · rcases ends with ⟨_, -, wrong⟩ | ⟨inside, a', last, rfl, done, answered⟩
    · contradiction
    cases last with
    | done rows affected =>
      obtain rfl := Except.ok.inj answered
      exact .committed done rows affected
    | _ => contradiction
  · show Transacted Goes (⟨.begin, reply⟩ :: (sent ++ undone)) (.error fault)
    rcases ends with ⟨fault', failed, same⟩ | ⟨inside, a, last, rfl, done, answered⟩
    · obtain rfl := Except.error.inj same
      exact .abandoned failed only
    · have refused : last.outcome = .error fault := by
        cases last with
        | done rows affected => contradiction
        | _ => exact congrArg Except.error (Except.error.inj answered).symm
      rw [List.append_assoc]
      exact .uncommitted done refused only

end

/-! ## Commits -/

def Acknowledged (sent : List Exchange) : Prop :=
  ∃ rows affected, ⟨.commit, .done rows affected⟩ ∈ sent

def Quiet (sent : List Exchange) : Prop := ∀ reply, ⟨.commit, reply⟩ ∉ sent

theorem quiet_singleton {statement : Statement} (other : statement ≠ .commit) (reply : Reply) :
    Quiet [⟨statement, reply⟩] := by
  intro last sent
  rw [List.mem_singleton, Exchange.mk.injEq] at sent
  exact other sent.1.symm

private theorem quiet_of_rollbacks {undone : List Exchange}
    (only : ∀ x ∈ undone, x.statement = .rollback) :
    Quiet undone := by
  intro reply sent
  have wrong := only _ sent
  contradiction

section
variable {α : Type} {Goes : List Exchange → Except Fault α → Prop} {sent : List Exchange}
  {answer : Except Fault α} (quiet : ∀ sent answer, Goes sent answer → Quiet sent)
include quiet

/-- A transaction answers a value if and only if its commit is acknowledged. -/
theorem Transacted.exists_ok_iff (h : Transacted Goes sent answer) :
    (∃ a, answer = .ok a) ↔ Acknowledged sent := by
  cases h with
  | unconnected fault => simp [Acknowledged]
  | unbegun refused => simp [Acknowledged]
  | abandoned failed only =>
    simp [Acknowledged, quiet _ _ failed _, quiet_of_rollbacks only _]
  | @uncommitted _ last _ _ _ _ done refused only =>
    have differs (rows : List Row) (affected : Nat) : .done rows affected ≠ last := by
      rintro rfl
      contradiction
    simp [Acknowledged, quiet _ _ done _, quiet_of_rollbacks only _, differs]
  | committed done rows affected =>
    refine ⟨fun _ => ⟨rows, affected, ?_⟩, fun _ => ⟨_, rfl⟩⟩
    exact List.mem_cons_of_mem _ (List.mem_append_right _ List.mem_cons_self)

private theorem inside_subset {first last last' : Reply}
    {inside before undone later : List Exchange}
    {a : α} (done : Goes inside (.ok a)) (rest : Quiet undone)
    (split : ⟨.begin, first⟩ :: (inside ++ ⟨.commit, last⟩ :: undone) =
      before ++ ⟨.commit, last'⟩ :: later) : inside ⊆ before := by
  have whole : (⟨.begin, first⟩ :: inside) ++ ⟨.commit, last⟩ :: undone =
      before ++ ⟨.commit, last'⟩ :: later := split
  have absent : (⟨.commit, last'⟩ : Exchange) ∉ ⟨.begin, first⟩ :: inside := by
    simp [quiet _ _ done last']
  obtain ⟨same, -⟩ := (List.append_cons_inj_of_notMem absent (rest last')).mp whole
  rw [← same]
  exact List.subset_cons_self _ _

/-- What has been sent before a commit: the body is done, and its value is all that can be answered. -/
theorem Transacted.before_commit (h : Transacted Goes sent answer) {before later : List Exchange}
    {last : Reply} (split : sent = before ++ ⟨.commit, last⟩ :: later) :
    ∃ inside a, Goes inside (.ok a) ∧ inside ⊆ before ∧ ∀ b, answer = .ok b → b = a := by
  have sends : ⟨.commit, last⟩ ∈ sent := by
    rw [split]
    exact List.mem_append_right _ List.mem_cons_self
  cases h with
  | unconnected fault => simp at sends
  | unbegun refused => simp at sends
  | abandoned failed only => simp [quiet _ _ failed last, quiet_of_rollbacks only last] at sends
  | uncommitted done refused only =>
    refine ⟨_, _, done, inside_subset quiet done (quiet_of_rollbacks only) split, ?_⟩
    intro b wrong
    contradiction
  | committed done rows affected =>
    refine ⟨_, _, done, inside_subset quiet done (by simp [Quiet]) split, ?_⟩
    intro b same
    exact (Except.ok.inj same).symm

end

end Shortlink.Sql
