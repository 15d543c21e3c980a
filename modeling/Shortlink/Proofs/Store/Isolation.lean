import Shortlink.Proofs.Store.Stability
import Shortlink.Proofs.Table.Isolation
/-!
# Owners do not meet in deletions

Whatever others delete, an owner is answered as if they had not. A record becomes deleted only when
its own owner deletes its code, so a record without an owner never does.
-/
namespace Shortlink
open LinkTable TableStore

namespace StoreEvent

def deletesForOther (viewer : OwnerId) : StoreEvent → Bool
  | call (.deleteBatch owner _) => owner ≠ viewer
  | _ => false

/-- Whether an owner may know the answer: that of any save, and those of its own deletions and
listings. -/
def answersFor (viewer : OwnerId) : StoreEvent → Bool
  | call (.save _ _) | call (.saveBatch _ _) => true
  | call (.deleteBatch owner _) | call (.ownedBy owner) => owner = viewer
  | _ => false

def answersSeen {σ : Type} (viewer : OwnerId) (step : StoreEvent → StoreM σ StoreAnswer)
    (events : List StoreEvent) (store : σ) : List (Except StoreError StoreAnswer) :=
  ((events.zip (answers step events store)).filter fun entry => entry.1.answersFor viewer).map
    Prod.snd

private theorem answersSeen_cons {σ : Type} (viewer : OwnerId)
    (step : StoreEvent → StoreM σ StoreAnswer)
    (e : StoreEvent) (rest : List StoreEvent) (store : σ) :
    answersSeen viewer step (e :: rest) store =
      (if e.answersFor viewer then [(step e store).1] else []) ++
        answersSeen viewer step rest (step e store).2 := by
  rw [answersSeen, answers, List.zip_cons_cons, List.filter_cons]
  split <;> rfl

def withoutOthers (viewer : OwnerId) (events : List StoreEvent) : List StoreEvent :=
  events.filter fun e => !e.deletesForOther viewer

end StoreEvent

open StoreEvent (inMemory inFile after answers answersSeen withoutOthers)

/-! ## Two tables -/

namespace LinkTable
variable {viewer : OwnerId} {t u : LinkTable}

theorem SameFor.save (same : SameFor viewer t u) (link : NewLink) (owner : Option OwnerId) :
    ((LinkStore.save link owner : StoreM LinkTable ShortCode) t).1 =
        ((LinkStore.save link owner : StoreM LinkTable ShortCode) u).1 ∧
      SameFor viewer ((LinkStore.save link owner : StoreM LinkTable ShortCode) t).2
        ((LinkStore.save link owner : StoreM LinkTable ShortCode) u).2 := by
  have known := same.codeOf?_eq link.url
  simp only [LinkStore.save, StoreM.change, LinkTable.save, ← known]
  cases fresh : t.codeOf? link.url with
  | some code => exact ⟨rfl, same⟩
  | none => exact ⟨rfl, same.push (r := link.record owner) fresh⟩

theorem SameFor.saveBatch (same : SameFor viewer t u) (links : List NewLink)
    (owner : Option OwnerId) :
    ((LinkStore.saveBatch links owner : StoreM LinkTable (List ShortCode)) t).1 =
        ((LinkStore.saveBatch links owner : StoreM LinkTable (List ShortCode)) u).1 ∧
      SameFor viewer ((LinkStore.saveBatch links owner : StoreM LinkTable (List ShortCode)) t).2
        ((LinkStore.saveBatch links owner : StoreM LinkTable (List ShortCode)) u).2 := by
  simp only [LinkStore.saveBatch, StoreM.change, LinkTable.saveBatch]
  cases ensureUnique links with
  | error e => exact ⟨rfl, same⟩
  | ok =>
    obtain ⟨codes, still⟩ := same.saveAll owner links
    exact ⟨congrArg Except.ok codes, still⟩

theorem SameFor.event (same : SameFor viewer t u) {e : StoreEvent}
    (own : e.deletesForOther viewer = false) :
    (e.answersFor viewer = true → (inMemory e t).1 = (inMemory e u).1) ∧
      SameFor viewer (inMemory e t).2 (inMemory e u).2 := by
  cases e with
  | reopen => exact ⟨fun _ => rfl, same⟩
  | append text => exact ⟨fun _ => rfl, same⟩
  | call c =>
    simp only [inMemory]
    cases c with
    | save link owner =>
      obtain ⟨answer, still⟩ := same.save link owner
      rw [StoreCall.perform, StoreM.map_apply, StoreM.map_apply, answer]
      exact ⟨fun _ => rfl, still⟩
    | saveBatch links owner =>
      obtain ⟨answer, still⟩ := same.saveBatch links owner
      rw [StoreCall.perform, StoreM.map_apply, StoreM.map_apply, answer]
      exact ⟨fun _ => rfl, still⟩
    | deleteBatch owner codes =>
      obtain rfl : owner = viewer := by simpa [StoreEvent.deletesForOther] using own
      obtain ⟨marked, still⟩ := same.deleteBatch codes
      rw [StoreCall.perform, StoreM.map_apply, StoreM.map_apply]
      exact ⟨fun _ => by simp only [LinkStore.deleteBatch, StoreM.change, marked], still⟩
    | ownedBy owner =>
      rw [StoreCall.perform, StoreM.map_apply, StoreM.map_apply]
      refine ⟨fun seen => ?_, same⟩
      obtain rfl : owner = viewer := by simpa [StoreEvent.answersFor] using seen
      simp only [LinkStore.ownedBy, StoreM.ask, same.ownedBy_eq]
    | _ =>
      rw [StoreCall.perform, StoreM.map_apply, StoreM.map_apply]
      exact ⟨fun seen => by simp [StoreEvent.answersFor] at seen, same⟩

/-- Deletions of others change nothing that the owner sees, now or later. -/
theorem SameFor.answersSeen_eq (same : SameFor viewer t u) (events : List StoreEvent) :
    answersSeen viewer inMemory events t =
      answersSeen viewer inMemory (withoutOthers viewer events) u := by
  induction events generalizing t u with
  | nil => rfl
  | cons e rest ih =>
    rw [StoreEvent.answersSeen_cons, withoutOthers, List.filter_cons]
    cases other : e.deletesForOther viewer with
    | true =>
      -- only the first run takes this step
      cases e with
      | call c =>
        cases c with
        | deleteBatch owner codes =>
          have apart : owner ≠ viewer := by simpa [StoreEvent.deletesForOther] using other
          have hidden : (StoreEvent.call (.deleteBatch owner codes)).answersFor viewer = false := by
            simp [StoreEvent.answersFor, apart]
          have after : (inMemory (.call (.deleteBatch owner codes)) t).2 =
              (t.deleteBatch owner codes).2 := by
            rw [inMemory, StoreCall.perform, StoreM.map_apply]
            rfl
          have later := ih (same.deleteBatch_left apart codes)
          rw [hidden, after, later]
          rfl
        | _ => simp [StoreEvent.deletesForOther] at other
      | _ => simp [StoreEvent.deletesForOther] at other
    | false =>
      obtain ⟨answer, still⟩ := same.event other
      have later := ih still
      rw [Bool.not_false, if_pos rfl, StoreEvent.answersSeen_cons, later]
      cases seen : e.answersFor viewer with
      | true => rw [answer seen]; rfl
      | false => rfl

/-! ## What becomes of a record -/

/-- Where a record of the table after an event comes from: it was there as it is, or it is new and
live, or its owner has just deleted it under its code. -/
theorem Indexed.origin (h : Indexed t) (e : StoreEvent) {i : Nat} {s : LinkRecord}
    (here : (inMemory e t).2.list[i]? = some s) :
    t.list[i]? = some s ∨ (t.list[i]? = none ∧ s.deleted = false) ∨
      ∃ r owner codes, t.list[i]? = some r ∧ s = { r with deleted := true } ∧
        e = .call (.deleteBatch owner codes) ∧ r.owner = some owner ∧ r.code ∈ codes := by
  cases e with
  | reopen => exact .inl here
  | append text => exact .inl here
  | call c =>
    rw [inMemory] at here
    rcases c.perform_cases t with same | ⟨owner, saved⟩ | ⟨owner, codes, rfl, marked⟩
    · rw [same] at here
      exact .inl here
    · obtain ⟨added, whole, live⟩ := t.exists_list_saveAll owner c.links
      rw [saved, whole, List.getElem?_append] at here
      split at here
      case isTrue => exact .inl here
      case isFalse beyond =>
        refine .inr (.inl ⟨?_, live s (List.mem_of_getElem? here)⟩)
        exact List.getElem?_eq_none (Nat.le_of_not_lt beyond)
    · rw [marked, deleteBatch_eq h, list_strike, getElem?_struckFirst] at here
      obtain ⟨r, there, became⟩ := Option.map_eq_some_iff.mp here
      by_cases named : (∃ w ∈ [(⟨owner, codes⟩ : DeleteRequest)], w.Names r) ∧ Leads t.list i r
      · rw [if_pos named.2, LinkRecord.struck, if_pos named.1] at became
        obtain ⟨w, hw, mine, among⟩ := named.1
        rw [List.mem_singleton] at hw
        subst hw
        exact .inr (.inr ⟨r, owner, codes, there, became.symm, rfl, mine, among⟩)
      · have same : s = r := by
          rw [← became, LinkRecord.struck]
          split
          case isTrue leads => exact if_neg fun asked => named ⟨asked, leads⟩
          case isFalse => rfl
        rw [same]
        exact .inl there

private theorem Indexed.ownerless_event (h : Indexed t) (e : StoreEvent) {i : Nat} {s : LinkRecord}
    (here : (inMemory e t).2.list[i]? = some s) (anonymous : s.owner = none)
    (gone : s.deleted = true) : t.list[i]? = some s := by
  rcases h.origin e here with same | ⟨-, fresh⟩ | ⟨r, owner, codes, -, rfl, -, mine, -⟩
  · exact same
  · rw [fresh] at gone
    contradiction
  · have clash := mine.symm.trans anonymous
    contradiction

private theorem Indexed.ownerless_after (h : Indexed t) (events : List StoreEvent) {i : Nat}
    {s : LinkRecord} (here : (after inMemory events t).list[i]? = some s)
    (anonymous : s.owner = none) (gone : s.deleted = true) : t.list[i]? = some s := by
  induction events generalizing t with
  | nil => exact here
  | cons e rest ih =>
    have once := ih (h.grown_event e).indexed here
    exact h.ownerless_event e once anonymous gone

end LinkTable

/-! ## Any store -/

/-- What an owner is told in a run does not depend on deletions by others, every record that becomes
deleted is deleted by its own owner, and a deleted record without an owner has been there all along. -/
structure Isolates {σ : Type} [LinkStore σ] [TableStore σ] (step : StoreEvent → StoreM σ StoreAnswer)
    (events : List StoreEvent) (store : σ) : Prop where
  unmoved : ∀ viewer, answersSeen viewer step events store =
    answersSeen viewer step (withoutOthers viewer events) store
  marked : ∀ before e later, events = before ++ e :: later →
    ∃ t u, Holds (after step before store) t ∧ Holds (after step (before ++ [e]) store) u ∧
      ∀ (i : Nat) (r s : LinkRecord), t.list[i]? = some r → u.list[i]? = some s →
        r.deleted = false → s.deleted = true →
        ∃ owner codes, e = .call (.deleteBatch owner codes) ∧ r.owner = some owner ∧ r.code ∈ codes
  ownerless : ∃ t u, Holds store t ∧ Holds (after step events store) u ∧
    ∀ (i : Nat) (s : LinkRecord), u.list[i]? = some s → s.owner = none → s.deleted = true →
      t.list[i]? = some s

section
variable {σ : Type} [LinkStore σ] [TableStore σ] {step : StoreEvent → StoreM σ StoreAnswer}
  (alike : ∀ e : StoreEvent, e.IsOwn → StoreM.Alike (Holds (σ := σ)) (step e) e.inMemory)
include alike

private theorem answersSeen_eq_inMemory (viewer : OwnerId) {store : σ} {t : LinkTable}
    (held : Holds store t) {events : List StoreEvent} (own : ∀ e ∈ events, e.IsOwn) :
    answersSeen viewer step events store = answersSeen viewer inMemory events t := by
  induction events generalizing store t with
  | nil => rfl
  | cons e rest ih =>
    rw [List.forall_mem_cons] at own
    obtain ⟨answer, still⟩ := alike e own.1 store t held
    rw [StoreEvent.answersSeen_cons, StoreEvent.answersSeen_cons, answer, ih still own.2]

private theorem isolates_of_alike {store : σ} {t : LinkTable} (held : Holds store t)
    {events : List StoreEvent} (own : ∀ e ∈ events, e.IsOwn) : Isolates step events store := by
  have h := indexed held
  refine ⟨?_, ?_, ?_⟩
  · intro viewer
    have own' : ∀ e ∈ withoutOthers viewer events, e.IsOwn :=
      fun e he => own e ((List.mem_filter.mp he).1)
    rw [answersSeen_eq_inMemory alike viewer held own, answersSeen_eq_inMemory alike viewer held own']
    exact (h.sameFor_refl viewer).answersSeen_eq events
  · intro before e later split
    rw [split, List.forall_mem_append, List.forall_mem_cons] at own
    have first := holds_after alike held own.1
    have second := (alike e own.2.1 _ _ first).2
    have indexed := (h.grown_after before).indexed
    refine ⟨_, (inMemory e (after inMemory before t)).2, first, ?_, ?_⟩
    · rw [StoreEvent.after_append]
      exact second
    · intro i r s there here live gone
      rcases indexed.origin e here with same | ⟨missing, -⟩ | ⟨r', owner, codes, there', -, rest⟩
      · rw [there, Option.some.injEq] at same
        rw [same, gone] at live
        contradiction
      · rw [there] at missing
        contradiction
      · obtain rfl : r = r' := Option.some.inj (there.symm.trans there')
        exact ⟨owner, codes, rest⟩
  · refine ⟨t, _, held, holds_after alike held own, ?_⟩
    intro i s here anonymous gone
    exact h.ownerless_after events here anonymous gone

end

/-- A store in memory and a store in a file, each with the same links to start with or none, go through
any calls, and the file is opened again at any points. What an owner is told by saves, by its own
deletions and by its own listings is what it would be told without the deletions of all other owners.
A record becomes deleted only where its own owner deletes its code, and one without an owner never,
also where several records have one code. -/
theorem owners_do_not_interfere (t : LinkTable) (events : List StoreEvent)
    (own : ∀ e ∈ events, e.IsOwn) :
    (Indexed t → Isolates inMemory events t) ∧
      ∀ s : FileStore, Holds s t → Isolates inFile events s := by
  constructor
  · intro h
    exact isolates_of_alike (fun e _ => alike_inMemory e) (holds_self h) own
  · intro s held
    exact isolates_of_alike (fun e own => FileStore.alike_own own) held own

def OwnerId.seven : OwnerId := ⟨⟨List.replicate 32 ⟨7, by decide⟩, rfl⟩⟩

/-- Three links of which two have one code and one has no owner. Each owner deletes what it can. -/
def contestedCodes : List StoreEvent :=
  [.call (.save ⟨⟨"SAMECODE"⟩, "http://a.b/"⟩ (some .zero)),
    .call (.saveBatch [⟨⟨"SAMECODE"⟩, "http://c.d/"⟩] (some .seven)),
    .call (.save ⟨⟨"NOBODYS1"⟩, "http://e.f/"⟩ none), .reopen,
    .call (.deleteBatch .zero [⟨"SAMECODE"⟩, ⟨"NOBODYS1"⟩]),
    .call (.deleteBatch .seven [⟨"NOBODYS1"⟩, ⟨"SAMECODE"⟩]),
    .call (.ownedBy .seven)]

theorem owners_do_not_interfere_of_contestedCodes :
    Isolates inFile contestedCodes (FileStore.ofContent .empty) ∧
      Isolates inMemory contestedCodes {} ∧
      answersSeen .seven inMemory contestedCodes {} =
        [.ok (.code ⟨"SAMECODE"⟩), .ok (.codes [⟨"SAMECODE"⟩]), .ok (.code ⟨"NOBODYS1"⟩),
          .ok (.count 0),
          .ok (.records [⟨⟨"SAMECODE"⟩, "http://c.d/", some .seven, false⟩])] := by
  have own : ∀ e ∈ contestedCodes, e.IsOwn := by simp [contestedCodes, StoreEvent.IsOwn]
  have held : Holds (FileStore.ofContent .empty) {} := ⟨[], FileStore.read_ofContent _, rfl⟩
  obtain ⟨memory, file⟩ := owners_do_not_interfere {} contestedCodes own
  exact ⟨file _ held, memory indexed_empty, by rfl⟩

end Shortlink
