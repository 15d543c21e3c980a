import Shortlink.Proofs.Store.Torn
import Shortlink.Proofs.Table.Growth
/-!
# Look-ups do not change their minds

Where no code that is saved is also a URL that is saved, a key leads to the same half for as long as
it is not deleted, and once it is deleted it stays so. No record ever moves or becomes another one.
-/
namespace Shortlink
open LinkTable TableStore

def StoreCall.links : StoreCall → List NewLink
  | save link _ => [link]
  | saveBatch links _ => links
  | _ => []

namespace StoreEvent

def links : StoreEvent → List NewLink
  | call c => c.links
  | _ => []

def after {σ : Type} (step : StoreEvent → StoreM σ StoreAnswer) (events : List StoreEvent)
    (store : σ) : σ :=
  events.foldl (fun store event => (step event store).2) store

theorem after_append {σ : Type} (step : StoreEvent → StoreM σ StoreAnswer)
    (before later : List StoreEvent) (store : σ) :
    after step (before ++ later) store = after step later (after step before store) := by
  rw [after, List.foldl_append]
  rfl

end StoreEvent

open StoreEvent (inMemory inFile after)

/-! ## What runs do to a table -/

namespace StoreCall

/-- What a call answers, the table that comes out, and the lines that it adds to a journal. -/
inductive Does (t : LinkTable) :
    StoreCall → Except StoreError StoreAnswer → LinkTable → List JournalLine → Prop where
  | conflict {link : NewLink} {owner : Option OwnerId} {code : ShortCode}
      (known : t.codeOf? link.url = some code) :
      Does t (.save link owner) (.error (.conflict code.text)) t []
  | saved {link : NewLink} {owner : Option OwnerId} (new : t.codeOf? link.url = none) :
      Does t (.save link owner) (.ok (.code link.code)) (t.push (link.record owner))
        [.live link owner]
  | refused {links : List NewLink} {owner : Option OwnerId} {e : StoreError}
      (repeated : ensureUnique links = .error e) : Does t (.saveBatch links owner) (.error e) t []
  | stored {links : List NewLink} {owner : Option OwnerId}
      (distinct : (links.map NewLink.url).Nodup) :
      Does t (.saveBatch links owner) (.ok (.codes (t.saveAll owner links).1))
        (t.saveAll owner links).2 ((Journal.fresh t links).map fun link => .live link owner)
  | deleted (owner : OwnerId) (codes : List ShortCode) :
      Does t (.deleteBatch owner codes) (.ok (.count (t.deleteBatch owner codes).1.length))
        (t.deleteBatch owner codes).2 ((t.deleteBatch owner codes).1.map .tombstone)
  | got {key : String} {answer : Except StoreError StoreAnswer}
      (told : answer = (t.get key).map .half) : Does t (.get key) answer t []
  | listed (owner : OwnerId) : Does t (.ownedBy owner) (.ok (.records (t.ownedBy owner))) t []
  | counted : Does t .stats (.ok (.stats t.stats)) t []

theorem does (call : StoreCall) (t : LinkTable) :
    Does t call (call.perform t).1 (call.perform t).2 (call.lines t) := by
  cases call with
  | save link owner =>
    rw [perform, StoreM.map_apply, lines, FileStore.savedLines]
    cases known : t.codeOf? link.url with
    | some code =>
      simp only [LinkStore.save, StoreM.change, LinkTable.save, known]
      exact .conflict known
    | none =>
      simp only [LinkStore.save, StoreM.change, LinkTable.save, known]
      exact .saved known
  | saveBatch links owner =>
    rw [perform, StoreM.map_apply, lines, FileStore.savedBatchLines]
    cases unique : ensureUnique links with
    | error e =>
      simp only [LinkStore.saveBatch, StoreM.change, LinkTable.saveBatch, unique]
      exact .refused unique
    | ok =>
      simp only [LinkStore.saveBatch, StoreM.change, LinkTable.saveBatch, unique]
      exact .stored (ensureUnique_eq_ok_iff.mp unique)
  | deleteBatch owner codes =>
    rw [perform, StoreM.map_apply]
    exact .deleted owner codes
  | get key =>
    rw [perform, StoreM.map_apply]
    exact .got rfl
  | ownedBy owner =>
    rw [perform, StoreM.map_apply]
    exact .listed owner
  | stats =>
    rw [perform, StoreM.map_apply]
    exact .counted

/-- A call leaves a table as it is, saves its links or marks records. -/
theorem perform_cases (call : StoreCall) (t : LinkTable) :
    (call.perform t).2 = t ∨
      (∃ owner, (call.perform t).2 = (t.saveAll owner call.links).2) ∨
      ∃ owner codes, call = .deleteBatch owner codes ∧
        (call.perform t).2 = (t.deleteBatch owner codes).2 := by
  have does := call.does t
  generalize (call.perform t).1 = answer, (call.perform t).2 = u, call.lines t = ls at does ⊢
  cases does with
  | @saved link owner new =>
    refine .inr (.inl ⟨owner, ?_⟩)
    simp only [links, LinkTable.saveAll, new]
  | @stored links owner distinct => exact .inr (.inl ⟨owner, rfl⟩)
  | deleted owner codes => exact .inr (.inr ⟨owner, codes, rfl, rfl⟩)
  | _ => exact .inl rfl

end StoreCall

theorem LinkTable.Indexed.grown_event {t : LinkTable} (h : Indexed t) (e : StoreEvent) :
    Grown e.links t (e.inMemory t).2 := by
  cases e with
  | call c =>
    rcases c.perform_cases t with same | ⟨owner, saved⟩ | ⟨owner, codes, -, marked⟩
    · rw [StoreEvent.inMemory, same]
      exact h.grown_refl.mono (List.nil_subset _)
    · rw [StoreEvent.inMemory, saved]
      exact h.grown_saveAll owner c.links
    · rw [StoreEvent.inMemory, marked]
      exact (h.grown_deleteBatch owner codes).mono (List.nil_subset _)
  | reopen => exact h.grown_refl
  | append text => exact h.grown_refl

theorem LinkTable.Indexed.grown_after {t : LinkTable} (h : Indexed t) (events : List StoreEvent) :
    Grown (events.flatMap StoreEvent.links) t (after inMemory events t) := by
  induction events generalizing t with
  | nil => exact h.grown_refl
  | cons e rest ih =>
    have first := h.grown_event e
    exact first.trans (ih first.indexed)

/-! ## Any store -/

/-- Between two points of a run: what a key leads to stays until it is deleted, what is deleted stays
deleted, and every record stays at its place with its code, its URL and its owner. -/
structure Endures {σ : Type} [LinkStore σ] [TableStore σ] (earlier later : σ) : Prop where
  value : ∀ key half, ((LinkStore.get key : StoreM σ (Option String)) earlier).1 = .ok (some half) →
    ((LinkStore.get key : StoreM σ (Option String)) later).1 = .ok (some half) ∨
      ((LinkStore.get key : StoreM σ (Option String)) later).1 = .error (.alreadyDeleted key)
  deleted : ∀ key,
    ((LinkStore.get key : StoreM σ (Option String)) earlier).1 = .error (.alreadyDeleted key) →
      ((LinkStore.get key : StoreM σ (Option String)) later).1 = .error (.alreadyDeleted key)
  records : ∃ t u, Holds earlier t ∧ Holds later u ∧ Persist t.list u.list

section
variable {σ : Type} [LinkStore σ] [TableStore σ] {step : StoreEvent → StoreM σ StoreAnswer}
  (alike : ∀ e : StoreEvent, e.IsOwn → StoreM.Alike (Holds (σ := σ)) (step e) e.inMemory)
include alike

theorem holds_after {store : σ} {t : LinkTable} (held : Holds store t) {events : List StoreEvent}
    (own : ∀ e ∈ events, e.IsOwn) :
    Holds (after step events store) (after inMemory events t) := by
  induction events generalizing store t with
  | nil => exact held
  | cons e rest ih =>
    rw [List.forall_mem_cons] at own
    exact ih (alike e own.1 store t held).2 own.2

private theorem endures_of_alike {store : σ} {t : LinkTable} (held : Holds store t)
    (before later : List StoreEvent) (own : ∀ e ∈ before ++ later, e.IsOwn)
    (apart : Apart (t.links ++ (before ++ later).flatMap StoreEvent.links)) :
    Endures (after step before store) (after step (before ++ later) store) := by
  rw [List.forall_mem_append] at own
  have first := (indexed held).grown_after before
  have second := first.indexed.grown_after later
  have earlier := holds_after alike held own.1
  have last := holds_after alike earlier own.2
  have apart' : Apart ((after inMemory before t).links ++
      later.flatMap StoreEvent.links) := by
    rw [List.flatMap_append, ← List.append_assoc] at apart
    refine apart.mono (List.append_subset.mpr ⟨?_, List.subset_append_right _ _⟩)
    exact List.Subset.trans first.links (List.subset_append_left _ _)
  have looks {store : σ} {t : LinkTable} (held : Holds store t) (key : String) :
      ((LinkStore.get key : StoreM σ (Option String)) store).1 = t.get key :=
    (simulates.get key store t held).1
  rw [StoreEvent.after_append]
  refine ⟨?_, ?_, _, _, earlier, last, second.persist⟩
  · intro key half answer
    rw [looks earlier] at answer
    rw [looks last]
    exact second.get_value first.indexed apart' answer
  · intro key answer
    rw [looks earlier] at answer
    rw [looks last]
    exact second.get_deleted first.indexed apart' answer

end

theorem alike_inMemory (e : StoreEvent) :
    StoreM.Alike (Holds (σ := LinkTable)) e.inMemory e.inMemory := by
  cases e with
  | call c => exact simulates.perform c
  | reopen => exact fun _ _ held => ⟨rfl, held⟩
  | append text => exact fun _ _ held => ⟨rfl, held⟩

/-- A store in memory and a store in a file, each with the same links to start with or none, go through
any calls, and the file is opened again at any points. If no code that is there or is passed to a save
is also such a URL, then look-ups keep their answers and records keep their places from any point of the
run to any later one. Several URLs may have the same code. -/
theorem lookups_endure (t : LinkTable) (before later : List StoreEvent)
    (own : ∀ e ∈ before ++ later, e.IsOwn)
    (apart : Apart (t.links ++ (before ++ later).flatMap StoreEvent.links)) :
    (Indexed t →
      Endures (after inMemory before t) (after inMemory (before ++ later) t)) ∧
    ∀ s : FileStore, Holds s t →
      Endures (after inFile before s) (after inFile (before ++ later) s) := by
  constructor
  · intro h
    exact endures_of_alike (fun e _ => alike_inMemory e) (holds_self h) before later own apart
  · intro s held
    exact endures_of_alike (fun e own => FileStore.alike_own own) held before later own apart

def sharedCodeSaves : List StoreEvent :=
  [.call (.save ⟨⟨"SAMECODE"⟩, "http://a.b/"⟩ (some .zero)),
    .call (.save ⟨⟨"SAMECODE"⟩, "http://c.d/"⟩ (some .zero))]

/-- The first of two links with one code is deleted, and its URL is saved again. -/
def savedAgain : List StoreEvent :=
  [.call (.deleteBatch .zero [⟨"SAMECODE"⟩]), .reopen,
    .call (.saveBatch [⟨⟨"SAMECODE"⟩, "http://a.b/"⟩, ⟨⟨"OTHER"⟩, "http://e.f/"⟩] none)]

theorem lookups_endure_of_savedAgain :
    Endures (after inFile sharedCodeSaves (FileStore.ofContent .empty))
      (after inFile (sharedCodeSaves ++ savedAgain) (FileStore.ofContent .empty)) ∧
    Endures (after inMemory sharedCodeSaves {}) (after inMemory (sharedCodeSaves ++ savedAgain) {}) ∧
    ((LinkStore.get "SAMECODE" : StoreM LinkTable (Option String))
      (after inMemory sharedCodeSaves {})).1 = .ok (some "http://a.b/") := by
  have own : ∀ e ∈ sharedCodeSaves ++ savedAgain, e.IsOwn := by
    simp [sharedCodeSaves, savedAgain, StoreEvent.IsOwn]
  have apart : Apart (({} : LinkTable).links ++
      (sharedCodeSaves ++ savedAgain).flatMap StoreEvent.links) := by decide +kernel
  have held : Holds (FileStore.ofContent .empty) {} := ⟨[], FileStore.read_ofContent _, rfl⟩
  obtain ⟨memory, file⟩ := lookups_endure {} sharedCodeSaves savedAgain own apart
  exact ⟨file _ held, memory indexed_empty, by rfl⟩

end Shortlink
