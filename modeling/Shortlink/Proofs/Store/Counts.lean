import Mathlib.Data.Set.Card
import Shortlink.Proofs.Distinct
import Shortlink.Proofs.Store.Stability
import Shortlink.Proofs.Table.Deletion
/-!
# Counts add up

What a store that was empty at first counts and lists can be told from the answers of its run. Each URL
that has been named once is one link of the owner that named it first, and every deletion that has been
reported makes one live link less.
-/
namespace Shortlink
open LinkTable TableStore

abbrev Naming := String × Option OwnerId

/-- The first naming of each URL, in order. -/
def firstNamings : List Naming → List Naming
  | [] => []
  | first :: rest => first :: (firstNamings rest).filter (·.1 ≠ first.1)

section
variable {named : List Naming}

private theorem mem_map_firstNamings {url : String} :
    url ∈ (firstNamings named).map Prod.fst ↔ url ∈ named.map Prod.fst := by
  induction named with
  | nil => exact Iff.rfl
  | cons first rest ih =>
    by_cases same : url = first.1
    · simp [firstNamings, same]
    · have later : url ∈ ((firstNamings rest).filter (·.1 ≠ first.1)).map Prod.fst ↔
          url ∈ (firstNamings rest).map Prod.fst := by
        simp only [List.mem_map, List.mem_filter, decide_eq_true_eq]
        constructor
        · rintro ⟨q, ⟨there, -⟩, rfl⟩
          exact ⟨q, there, rfl⟩
        · rintro ⟨q, there, rfl⟩
          exact ⟨q, ⟨there, same⟩, rfl⟩
      rw [firstNamings, List.map_cons, List.map_cons, List.mem_cons, List.mem_cons, later, ih]

private theorem nodup_firstNamings (named : List Naming) :
    ((firstNamings named).map Prod.fst).Nodup := by
  induction named with
  | nil => exact List.nodup_nil
  | cons first rest ih =>
    rw [firstNamings, List.map_cons, List.nodup_cons]
    refine ⟨?_, (List.filter_sublist.map Prod.fst).nodup ih⟩
    simp

private theorem firstNamings_snoc (named : List Naming) (p : Naming) : firstNamings (named ++ [p]) =
    firstNamings named ++ if p.1 ∈ named.map Prod.fst then [] else [p] := by
  induction named with
  | nil => rfl
  | cons first rest ih =>
    rw [List.cons_append, firstNamings, ih, firstNamings, List.filter_append, List.cons_append]
    by_cases same : p.1 = first.1
    · simp only [same, List.map_cons, List.mem_cons, true_or, if_true]
      split <;> simp [same]
    · simp only [List.map_cons, List.mem_cons, same, false_or]
      split <;> simp [same]

private theorem length_firstNamings (named : List Naming) :
    (firstNamings named).length = (named.map Prod.fst).toFinset.card := by
  have same : (named.map Prod.fst).toFinset = ((firstNamings named).map Prod.fst).toFinset := by
    ext url
    rw [List.mem_toFinset, List.mem_toFinset, mem_map_firstNamings]
  rw [same, List.toFinset_card_of_nodup (nodup_firstNamings named), List.length_map]

private theorem disjoint_firstNamings (named : List Naming) {a b : OwnerId} (differ : a ≠ b) :
    (((firstNamings named).filter (·.2 = some a)).map Prod.fst).Disjoint
      (((firstNamings named).filter (·.2 = some b)).map Prod.fst) := by
  intro url first second
  obtain ⟨p, there, rfl⟩ := List.mem_map.mp first
  obtain ⟨q, there', same⟩ := List.mem_map.mp second
  rw [List.mem_filter, decide_eq_true_eq] at there there'
  have one : q = p := List.inj_on_of_nodup_map (nodup_firstNamings named) there'.1 there.1 same
  rw [one, there.2] at there'
  exact differ (Option.some.inj there'.2)

end

/-! ## What answers tell -/

namespace StoreEvent

/-- The URLs that an event names, if it is answered so. A save names its URL also where that is a
conflict, and a batch names its URLs if it is stored. -/
def namings : StoreEvent → Except StoreError StoreAnswer → List Naming
  | call (.save link owner), .ok _ => [(link.url, owner)]
  | call (.save link owner), .error (.conflict _) => [(link.url, owner)]
  | call (.saveBatch links owner), .ok _ => links.map fun link => (link.url, owner)
  | _, _ => []

def deletions : Except StoreError StoreAnswer → Nat
  | .ok (.count marked) => marked
  | _ => 0

def allNamings {σ : Type} (step : StoreEvent → StoreM σ StoreAnswer) (events : List StoreEvent)
    (store : σ) : List Naming :=
  (events.zip (answers step events store)).flatMap fun p => p.1.namings p.2

def allDeletions {σ : Type} (step : StoreEvent → StoreM σ StoreAnswer) (events : List StoreEvent)
    (store : σ) : Nat :=
  ((answers step events store).map deletions).sum

end StoreEvent
open StoreEvent (inMemory inFile after namings deletions allNamings allDeletions)

/-! ## Tables -/

namespace LinkTable

/-- The records of a table are those of the first namings, and so many of them are marked. -/
structure Tallied (t : LinkTable) (named : List Naming) (marked : Nat) : Prop where
  indexed : Indexed t
  records : t.list.map (fun r => (r.url, r.owner)) = firstNamings named
  marks : t.list.countP (·.deleted) = marked

private theorem tallied_empty : Tallied {} [] 0 := ⟨indexed_empty, rfl, rfl⟩

section
variable {t : LinkTable} {named : List Naming} {marked : Nat} (h : Tallied t named marked)
include h

theorem Tallied.mem_urls {url : String} : url ∈ t.list.map LinkRecord.url ↔
    url ∈ named.map Prod.fst := by
  have urls : t.list.map LinkRecord.url = (firstNamings named).map Prod.fst := by
    rw [← h.records, List.map_map]
    rfl
  rw [urls, mem_map_firstNamings]

private theorem Tallied.codeOf?_eq_none_iff {url : String} :
    t.codeOf? url = none ↔ url ∉ named.map Prod.fst := by
  rw [h.indexed.codeOf?_eq, Option.map_eq_none_iff, List.find?_eq_none, ← h.mem_urls]
  simp [hasUrl]

theorem Tallied.known {url : String} {owner : Option OwnerId} {code : ShortCode}
    (known : t.codeOf? url = some code) : Tallied t (named ++ [(url, owner)]) marked := by
  have there : url ∈ named.map Prod.fst := by
    by_contra absent
    rw [h.codeOf?_eq_none_iff.mpr absent] at known
    contradiction
  refine ⟨h.indexed, ?_, h.marks⟩
  rw [firstNamings_snoc, if_pos there, List.append_nil]
  exact h.records

theorem Tallied.push {link : NewLink} (new : t.codeOf? link.url = none) (owner : Option OwnerId) :
    Tallied (t.push (link.record owner)) (named ++ [(link.url, owner)]) marked := by
  refine ⟨h.indexed.push new, ?_, ?_⟩
  · rw [firstNamings_snoc, if_neg (h.codeOf?_eq_none_iff.mp new), list_push, List.map_append,
      h.records]
    rfl
  · rw [list_push, List.countP_append, h.marks]
    rfl

end

section
variable {t : LinkTable} {named : List Naming} {marked : Nat}

theorem Tallied.saveAll (h : Tallied t named marked) (owner : Option OwnerId)
    (links : List NewLink) : Tallied (t.saveAll owner links).2
      (named ++ links.map fun link => (link.url, owner)) marked := by
  induction links generalizing t named with
  | nil =>
    rw [List.map_nil, List.append_nil]
    exact h
  | cons link rest ih =>
    rw [LinkTable.saveAll, List.map_cons, List.append_cons]
    cases known : t.codeOf? link.url with
    | some code => exact ih (h.known known)
    | none => exact ih (h.push known owner)

theorem Tallied.deleteBatch (h : Tallied t named marked) (owner : OwnerId)
    (codes : List ShortCode) : Tallied (t.deleteBatch owner codes).2 named
      (marked + (t.deleteBatch owner codes).1.length) := by
  refine ⟨h.indexed.deleteBatch owner codes, ?_, ?_⟩
  · rw [deleteBatch_eq h.indexed, list_strike, map_struckFirst (fun _ => rfl), h.records]
  · rw [countP_deleteBatch h.indexed, h.marks]

theorem Tallied.idle (h : Tallied t named marked) : Tallied t (named ++ []) (marked + 0) := by
  rw [List.append_nil]
  exact h

/-- Every call adds the URLs that it names and the deletions that it reports. -/
theorem Tallied.call (h : Tallied t named marked) {call : StoreCall}
    {answer : Except StoreError StoreAnswer} {u : LinkTable} {ls : List JournalLine}
    (does : call.Does t answer u ls) :
    Tallied u (named ++ (StoreEvent.call call).namings answer) (marked + deletions answer) := by
  cases does with
  | conflict known => exact h.known known
  | @saved link owner new => exact h.push new owner
  | refused repeated => exact h.idle
  | @stored links owner distinct => exact h.saveAll owner links
  | deleted owner codes =>
    show Tallied _ (named ++ []) _
    rw [List.append_nil]
    exact h.deleteBatch owner codes
  | @got key answer told =>
    rw [told]
    cases t.get key with
    | error e => exact h.idle
    | ok half => exact h.idle
  | listed owner => exact h.idle
  | counted => exact h.idle

theorem Tallied.event (h : Tallied t named marked) (e : StoreEvent) :
    Tallied (e.inMemory t).2 (named ++ e.namings (e.inMemory t).1)
      (marked + deletions (e.inMemory t).1) := by
  cases e with
  | call c => exact h.call (c.does t)
  | reopen => exact h.idle
  | append text => exact h.idle

theorem Tallied.after (h : Tallied t named marked) (events : List StoreEvent) :
    Tallied (after inMemory events t) (named ++ allNamings inMemory events t)
      (marked + allDeletions inMemory events t) := by
  induction events generalizing t named marked with
  | nil =>
    rw [allNamings, allDeletions]
    simpa [StoreEvent.answers, StoreEvent.after] using h
  | cons e rest ih =>
    have later := ih (h.event e)
    rw [List.append_assoc, Nat.add_assoc] at later
    exact later

theorem Tallied.urls (h : Tallied t named marked) :
    t.stats.urls + marked = (named.map Prod.fst).toFinset.card := by
  have counted : t.stats.urls = t.list.countP fun r => !r.deleted := by
    rw [List.countP_eq_length_filter]
    rfl
  have all := List.length_eq_countP_add_countP (fun r : LinkRecord => r.deleted) (l := t.list)
  have records := congrArg List.length h.records
  rw [List.length_map, length_firstNamings] at records
  have live : (t.list.countP fun r => !r.deleted) = t.list.countP fun r => ¬r.deleted = true := by
    apply List.countP_congr
    simp
  have marks := h.marks
  omega

private theorem users_eq_ncard (t : LinkTable) :
    t.stats.users = {owner | ∃ r ∈ t.ownedBy owner, r.deleted = false}.ncard := by
  have same : {owner | ∃ r ∈ t.ownedBy owner, r.deleted = false} =
      ↑(distinct ((t.list.filter fun r => !r.deleted).filterMap LinkRecord.owner)).toFinset := by
    ext owner
    simp only [ownedBy, Set.mem_ofPred_eq, List.mem_filter, decide_eq_true_eq, List.coe_toFinset,
      mem_distinct, List.mem_filterMap, Bool.not_eq_eq_eq_not, Bool.not_true]
    constructor
    · rintro ⟨r, ⟨there, own⟩, live⟩
      exact ⟨r, ⟨there, live⟩, own⟩
    · rintro ⟨r, ⟨there, live⟩, own⟩
      exact ⟨r, ⟨there, own⟩, live⟩
  rw [same, Set.ncard_coe_finset, List.toFinset_card_of_nodup (nodup_distinct _)]
  rfl

/-- An owner is listed the URLs that have been named for it first. -/
theorem Tallied.urls_ownedBy (h : Tallied t named marked) (owner : OwnerId) :
    (t.ownedBy owner).map LinkRecord.url =
      ((firstNamings named).filter (·.2 = some owner)).map Prod.fst := by
  rw [← h.records, List.filter_map, List.map_map]
  rfl

end

end LinkTable

/-! ## Any store -/

section
variable {σ : Type} [LinkStore σ]

def LinkStore.listed (store : σ) (owner : OwnerId) : Except StoreError (List LinkRecord) :=
  ((LinkStore.ownedBy owner : StoreM σ (List LinkRecord)) store).1

/-- What a store counts and lists after a run, and what has been answered in that run. -/
structure AddsUp (step : StoreEvent → StoreM σ StoreAnswer) (events : List StoreEvent)
    (store : σ) : Prop where
  deletions_le : allDeletions step events store ≤
    ((allNamings step events store).map Prod.fst).toFinset.card
  stats : ((LinkStore.stats : StoreM σ StoreStats) (after step events store)).1 = .ok {
    urls := ((allNamings step events store).map Prod.fst).toFinset.card -
      allDeletions step events store
    users := {owner | ∃ records, LinkStore.listed (after step events store) owner = .ok records ∧
      ∃ r ∈ records, r.deleted = false}.ncard }
  listed : ∀ owner, ∃ records, LinkStore.listed (after step events store) owner = .ok records ∧
    records.map LinkRecord.url =
      ((firstNamings (allNamings step events store)).filter (·.2 = some owner)).map Prod.fst
  apart : ∀ a b, a ≠ b → ∀ as bs, LinkStore.listed (after step events store) a = .ok as →
    LinkStore.listed (after step events store) b = .ok bs →
      (as.map LinkRecord.url).Disjoint (bs.map LinkRecord.url)

variable [TableStore σ]

private theorem listed_eq {store : σ} {t : LinkTable} (held : Holds store t) (owner : OwnerId) :
    LinkStore.listed store owner = .ok (t.ownedBy owner) :=
  (simulates.ownedBy owner store t held).1

variable {step : StoreEvent → StoreM σ StoreAnswer}
  (alike : ∀ e : StoreEvent, e.IsOwn → StoreM.Alike (Holds (σ := σ)) (step e) e.inMemory)
include alike

private theorem addsUp_of_alike {store : σ} (held : Holds store {}) {events : List StoreEvent}
    (own : ∀ e ∈ events, e.IsOwn) : AddsUp step events store := by
  have answers := StoreEvent.answers_eq alike own held
  have last := holds_after alike held own
  have namings : allNamings step events store = allNamings inMemory events {} := by
    rw [allNamings, answers, ← allNamings]
  have deletions : allDeletions step events store = allDeletions inMemory events {} := by
    rw [allDeletions, answers, ← allDeletions]
  have tallied := tallied_empty.after events
  rw [List.nil_append, Nat.zero_add, ← namings, ← deletions] at tallied
  have urls := tallied.urls
  refine ⟨by omega, ?_, ?_, ?_⟩
  · simp only [listed_eq last, Except.ok.injEq, exists_eq_left', ← users_eq_ncard, ← urls,
      Nat.add_sub_cancel]
    exact (simulates.stats _ _ last).1
  · exact fun owner => ⟨_, listed_eq last owner, tallied.urls_ownedBy owner⟩
  · intro a b differ as bs listedA listedB
    rw [listed_eq last, Except.ok.injEq] at listedA listedB
    rw [← listedA, ← listedB, tallied.urls_ownedBy, tallied.urls_ownedBy]
    exact disjoint_firstNamings _ differ

end

/-- A store in memory and a store in a file, both without links at first, go through any saves, batches
and deletions, and the file is opened again at any points. Then a store counts so many links as URLs
have been named by saves and stored batches, less those that have been reported as deleted, and so many
owners as are listed a live link. Each URL is listed for the owner that has named it first and for no
other, in the order in which they have been named. -/
theorem counts_add_up (events : List StoreEvent) (own : ∀ e ∈ events, e.IsOwn) :
    AddsUp inMemory events ({} : LinkTable) ∧
      ∀ s : FileStore, Holds s {} → AddsUp inFile events s :=
  ⟨addsUp_of_alike (fun e _ => alike_inMemory e) holds_empty own,
    fun _ held => addsUp_of_alike (fun _ own => FileStore.alike_own own) held own⟩

def OwnerId.three : OwnerId := ⟨⟨List.replicate 32 ⟨3, by decide⟩, rfl⟩⟩

/-- A URL is saved twice and stands in a batch once more, two links have one code, and both owners try
to delete it, the first one twice. -/
def contestedUrls : List StoreEvent :=
  [.call (.save ⟨⟨"SAMECODE"⟩, "http://a.b/"⟩ (some .zero)),
    .call (.save ⟨⟨"OTHER"⟩, "http://a.b/"⟩ (some .three)),
    .call (.saveBatch [⟨⟨"SAMECODE"⟩, "http://c.d/"⟩, ⟨⟨"THIRD"⟩, "http://a.b/"⟩] (some .three)),
    .call (.save ⟨⟨"NOBODYS1"⟩, "http://e.f/"⟩ none), .reopen,
    .call (.deleteBatch .zero [⟨"SAMECODE"⟩, ⟨"SAMECODE"⟩]),
    .call (.deleteBatch .three [⟨"SAMECODE"⟩, ⟨"NOBODYS1"⟩])]

theorem counts_add_up_of_contestedUrls :
    AddsUp inFile contestedUrls (FileStore.ofContent .empty) ∧
      AddsUp inMemory contestedUrls ({} : LinkTable) ∧
      allDeletions inMemory contestedUrls {} = 1 ∧
      (after inMemory contestedUrls {}).stats = ⟨2, 1⟩ := by
  have own : ∀ e ∈ contestedUrls, e.IsOwn := by simp [contestedUrls, StoreEvent.IsOwn]
  have held : Holds (FileStore.ofContent .empty) {} := ⟨[], FileStore.read_ofContent _, rfl⟩
  obtain ⟨memory, file⟩ := counts_add_up contestedUrls own
  exact ⟨file _ held, memory, by decide +kernel, by decide +kernel⟩

end Shortlink
