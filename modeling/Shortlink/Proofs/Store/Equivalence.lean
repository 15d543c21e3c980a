import Shortlink.Proofs.Store.Simulation
/-!
# Memory and file answer alike

A store in memory and a store in a file that both start empty give the same answers to the same
calls, however often the file is opened again and whatever else than links is written into it.
-/
namespace Shortlink

inductive StoreCall where
  | save (link : NewLink) (owner : Option OwnerId)
  | saveBatch (links : List NewLink) (owner : Option OwnerId)
  | deleteBatch (owner : OwnerId) (codes : List ShortCode)
  | get (key : String)
  | ownedBy (owner : OwnerId)
  | stats

inductive StoreAnswer where
  | code (code : ShortCode)
  | codes (codes : List ShortCode)
  | count (marked : Nat)
  | half (found : Option String)
  | records (records : List LinkRecord)
  | stats (stats : StoreStats)
  /-- Something has been done that is no call. -/
  | done
deriving DecidableEq

namespace StoreCall

def perform {σ : Type} [LinkStore σ] : StoreCall → StoreM σ StoreAnswer
  | save link owner => .code <$> LinkStore.save link owner
  | saveBatch links owner => .codes <$> LinkStore.saveBatch links owner
  | deleteBatch owner codes => .count <$> LinkStore.deleteBatch owner codes
  | get key => .half <$> LinkStore.get key
  | ownedBy owner => .records <$> LinkStore.ownedBy owner
  | stats => .stats <$> LinkStore.stats

end StoreCall

inductive StoreEvent where
  | call (call : StoreCall)
  | reopen
  /-- Someone else writes at the end of the file. -/
  | append (text : List Char)

namespace StoreEvent

/-- What others write are whole lines, and none of them is a journal line. -/
def Harmless : StoreEvent → Prop
  | append text => Text.Ended text ∧
      ∀ line ∈ Text.lines text, Text.isBlank line = true ∨ JournalLine.decode? line = none
  | _ => True

/-- A store in memory takes part in calls only. -/
def inMemory : StoreEvent → StoreM LinkTable StoreAnswer
  | call c => c.perform
  | _ => pure .done

/-- What happens to a store in a file. -/
def inFile : StoreEvent → StoreM FileStore StoreAnswer
  | call c => c.perform
  | reopen => StoreM.change fun s =>
    match FileStore.open s.disk s.path with
    | (.ok s, _) => .ok (.done, s)
    | (.error e, _) => .error e
  | append text => StoreM.change fun s =>
    match s.disk.read s.path with
    | .error e => .error (FileStore.ioError e)
    | .ok bytes =>
      match s.disk.write s.path (bytes ++ Text.bytes text) with
      | .error e => .error (FileStore.ioError e)
      | .ok disk => .ok (.done, { s with disk := disk })

def answers {σ : Type} (step : StoreEvent → StoreM σ StoreAnswer) :
    List StoreEvent → σ → List (Except StoreError StoreAnswer)
  | [], _ => []
  | e :: rest, s => (step e s).1 :: answers step rest (step e s).2

end StoreEvent

namespace StoreM

theorem map_apply {σ α β : Type} (f : α → β) (m : StoreM σ α) (s : σ) :
    (f <$> m) s = ((m s).1.map f, (m s).2) := by
  show ((m >>= fun a => pure (f a)) : StoreM σ β) s = _
  simp only [bind, ExceptT.bind, ExceptT.mk, StateT.bind, ExceptT.bindCont]
  cases answer : m s with
  | mk a after => cases a <;> rfl

theorem Alike.map {σ τ α β : Type} {R : σ → τ → Prop} {m : StoreM σ α} {n : StoreM τ α}
    (h : Alike R m n) (f : α → β) : Alike R (f <$> m) (f <$> n) := by
  intro s t related
  obtain ⟨same, still⟩ := h s t related
  rw [map_apply, map_apply, same]
  exact ⟨rfl, still⟩

end StoreM

theorem Simulates.perform {σ τ : Type} [LinkStore σ] [LinkStore τ] {R : σ → τ → Prop}
    (h : Simulates R) (call : StoreCall) : StoreM.Alike R call.perform call.perform := by
  cases call with
  | save link owner => exact (h.save link owner).map _
  | saveBatch links owner => exact (h.saveBatch links owner).map _
  | deleteBatch owner codes => exact (h.deleteBatch owner codes).map _
  | get key => exact (h.get key).map _
  | ownedBy owner => exact (h.ownedBy owner).map _
  | stats => exact h.stats.map _

namespace StoreEvent
open FileStore Journal

private theorem entries_of_harmless {text : List Char} (h : (append text).Harmless) :
    entries text = [] := by
  rw [entries, List.filterMap_eq_nil_iff]
  intro line hline
  rw [line?]
  split
  · rfl
  · rcases h.2 line hline with blank | undecoded
    · contradiction
    · exact undecoded

private theorem alike_step {e : StoreEvent} (harmless : e.Harmless) :
    StoreM.Alike Mirrors e.inFile e.inMemory := by
  cases e with
  | call c => exact simulates.perform c
  | reopen =>
    rintro s t ⟨text, holds, rfl⟩
    obtain ⟨after, opened, read⟩ := open_of_read holds.read
    simp only [inFile, StoreM.change, opened]
    exact ⟨rfl, text, ⟨holds.ended, read⟩, rfl⟩
  | append more =>
    rintro s t ⟨text, holds, rfl⟩
    obtain ⟨disk, written, kept⟩ := holds.write harmless.1
    rw [Text.bytes_append] at written
    simp only [inFile, StoreM.change, holds.read, written]
    refine ⟨rfl, _, kept, ?_⟩
    rw [replay_append holds.ended, entries_of_harmless harmless]
    rfl

theorem answers_eq {σ : Type} {step : StoreEvent → StoreM σ StoreAnswer} {R : σ → LinkTable → Prop}
    {P : StoreEvent → Prop} (alike : ∀ e, P e → StoreM.Alike R (step e) e.inMemory)
    {events : List StoreEvent} (each : ∀ e ∈ events, P e) {s : σ} {t : LinkTable} (h : R s t) :
    answers step events s = answers inMemory events t := by
  induction events generalizing s t with
  | nil => rfl
  | cons e rest ih =>
    obtain ⟨same, still⟩ := alike e (each e List.mem_cons_self) s t h
    have later := ih (fun x hx => each x (List.mem_cons_of_mem e hx)) still
    rw [answers, answers, same, later]

private theorem answers_eq_of_mirrors {events : List StoreEvent}
    (harmless : ∀ e ∈ events, e.Harmless)
    {s : FileStore} {t : LinkTable} (h : s.Mirrors t) :
    answers inFile events s = answers inMemory events t :=
  answers_eq (fun _ he => alike_step he) harmless h

end StoreEvent

open StoreEvent in
/-- A store in memory and a store in a file, both empty at first, answer every run of events alike:
any calls with any texts, the file opened again at any points, and lines appended to it that are
blank or no journal lines. -/
theorem file_answers_eq_memory_answers {disk after : Disk} {path : String} {s : FileStore}
    (vacant : disk.Vacant path) (opened : FileStore.open disk path = (.ok s, after))
    (events : List StoreEvent) (harmless : ∀ e ∈ events, e.Harmless) :
    answers inFile events s = answers inMemory events {} :=
  answers_eq_of_mirrors harmless (FileStore.mirrors_of_open vacant opened)

open StoreEvent in
/-- The file is made on an empty disk, and a blank line is written between a link and its look-up. -/
theorem new_file_answers_eq_memory_answers :
    answers inFile [.call (.save ⟨⟨"c\n"⟩, "\"u\\"⟩ none), .append [' ', '\n'], .reopen, .call (.get "c\n")]
        ⟨⟨.directory [("urls.json", .file .empty)]⟩, "urls.json"⟩ =
      [.ok (.code ⟨"c\n"⟩), .ok .done, .ok .done, .ok (.half (some "\"u\\"))] := by
  have parsed : DiskPath.parse "urls.json" = .ok ⟨[.name "urls.json"], false⟩ := rfl
  have vacant : ({} : Disk).Vacant "urls.json" := by
    intro p same
    rw [parsed, Except.ok.injEq] at same
    subst same
    exact .inl rfl
  have opened : FileStore.open {} "urls.json" =
      (.ok ⟨⟨.directory [("urls.json", .file .empty)]⟩, "urls.json"⟩,
        ⟨.directory [("urls.json", .file .empty)]⟩) := rfl
  rw [file_answers_eq_memory_answers vacant opened]
  · rfl
  · intro e he
    simp only [List.mem_cons, List.not_mem_nil, or_false] at he
    rcases he with rfl | rfl | rfl | rfl
    · trivial
    · refine ⟨.inr ⟨[' '], rfl⟩, ?_⟩
      intro line hline
      have blank : Text.lines [' ', '\n'] = [[' ']] := by simp [Text.lines, Text.linesFrom, Text.endedLine]
      rw [blank, List.mem_singleton] at hline
      subst hline
      exact .inl rfl
    · trivial
    · trivial

end Shortlink
