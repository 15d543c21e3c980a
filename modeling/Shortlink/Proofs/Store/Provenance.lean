import Shortlink.Proofs.Sql.Outages
import Shortlink.Proofs.Store.Database
/-!
# Where links come from

A store has no links but those that it was given to save, and a look-up that finds something answers
a half of one of them. This holds of tables, of stores that hold a table, and of stores in a database,
even if that database fails.
-/
namespace Shortlink
open LinkTable

def NewLink.Leads (link : NewLink) (key half : String) : Prop :=
  link.code.text = key ∧ half = link.url ∨ link.url = key ∧ half = link.code.text

/-- What a store does as long as an invariant holds that says of all its links that they have a
property: it keeps the invariant if the links that it is to save have the property, too. -/
structure Confines {σ : Type} [LinkStore σ] (P : NewLink → Prop) (I : σ → Prop) : Prop where
  get : ∀ key, Keeps I (LinkStore.get key : StoreM σ (Option String))
  found : ∀ {store key half}, I store →
    ((LinkStore.get key : StoreM σ (Option String)) store).1 = .ok (some half) →
    ∃ link, P link ∧ link.Leads key half
  ownedBy : ∀ owner, Keeps I (LinkStore.ownedBy owner : StoreM σ (List LinkRecord))
  save : ∀ {link} owner, P link → Keeps I (LinkStore.save link owner : StoreM σ ShortCode)
  saveBatch : ∀ {links} owner, (∀ link ∈ links, P link) →
    Keeps I (LinkStore.saveBatch links owner : StoreM σ (List ShortCode))
  deleteBatch : ∀ owner codes, Keeps I (LinkStore.deleteBatch owner codes : StoreM σ Nat)

/-! ## Tables -/

namespace TableStore
variable {σ : Type} [LinkStore σ] [TableStore σ]

/-- The store holds a table all of whose links have a property. -/
def Only (P : NewLink → Prop) (store : σ) : Prop := ∃ t, Holds store t ∧ ∀ link ∈ t.links, P link

variable {P : NewLink → Prop}

private theorem keeps_perform (call : StoreCall) (given : ∀ link ∈ call.links, P link) :
    Keeps (Only P) (call.perform : StoreM σ StoreAnswer) := by
  rintro store ⟨t, held, only⟩
  have grown := (indexed held).grown_event (.call call)
  refine ⟨_, (simulates.perform call store t held).2, fun link there => ?_⟩
  rcases List.mem_append.mp (grown.links there) with old | new
  · exact only link old
  · exact given link new

private theorem exists_leads_of_get {t : LinkTable} (h : Indexed t) {key half : String}
    (found : t.get key = .ok (some half)) : ∃ link ∈ t.links, link.Leads key half := by
  cases leads : t.find? key with
  | none => simp [LinkTable.get, leads] at found
  | some r =>
    have there : r ∈ t.list ∧ (r.code.text = key ∨ r.url = key) := by
      rw [h.find?_eq, Option.or_eq_some_iff] at leads
      rcases leads with code | ⟨-, url⟩
      · exact ⟨List.mem_of_find?_eq_some code, .inl (by simpa [hasCode] using List.find?_some code)⟩
      · exact ⟨List.mem_of_find?_eq_some url, .inr (by simpa [hasUrl] using List.find?_some url)⟩
    refine ⟨⟨r.code, r.url⟩, List.mem_map_of_mem there.1, ?_⟩
    rw [get_of_find? leads] at found
    split at found
    · contradiction
    · split at found
      case isTrue code => exact .inl ⟨code, (Option.some.inj (Except.ok.inj found)).symm⟩
      case isFalse code =>
        exact .inr ⟨there.2.resolve_left code, (Option.some.inj (Except.ok.inj found)).symm⟩

theorem confines : Confines P (Only P : σ → Prop) := by
  have keeps {α : Type} {m : StoreM σ α} {f : α → StoreAnswer} (h : Keeps (Only P) (f <$> m)) :
      Keeps (Only P) m := by
    intro store only
    have still := h store only
    rwa [StoreM.map_apply] at still
  exact {
    get := fun key => keeps (keeps_perform (.get key) (List.forall_mem_nil P))
    found := by
      rintro store key half ⟨t, held, only⟩ found
      rw [(simulates.get key store t held).1] at found
      obtain ⟨link, there, leads⟩ := exists_leads_of_get (indexed held) found
      exact ⟨link, only link there, leads⟩
    ownedBy := fun owner => keeps (keeps_perform (.ownedBy owner) (List.forall_mem_nil P))
    save := fun {link} owner given =>
      keeps (keeps_perform (.save link owner) (List.forall_mem_singleton.mpr given))
    saveBatch := fun {links} owner given => keeps (keeps_perform (.saveBatch links owner) given)
    deleteBatch := fun owner codes =>
      keeps (keeps_perform (.deleteBatch owner codes) (List.forall_mem_nil P)) }

end TableStore

/-! ## Databases -/

namespace PostgresStore
open Sql
variable {δ : Type} [Database δ] {Holds : δ → TableDatabase → Prop} {P : NewLink → Prop}

/-- The database of the store holds a table all of whose links have a property. -/
def Only (Holds : δ → TableDatabase → Prop) (P : NewLink → Prop) (s : PostgresStore δ) : Prop :=
  Stocks Holds P s.database

omit [Database δ] in
private theorem keeps_call {α : Type} {m : SqlM δ α} (h : Keeps (Stocks Holds P) m) :
    Keeps (Only Holds P) (call m : StoreM (PostgresStore δ) α) :=
  fun s held => h s.database held

omit [Database δ] in
private theorem keeps_ownerOf (owner : Option OwnerId) :
    Keeps (Only Holds P) (ownerOf owner : StoreM (PostgresStore δ) OwnerId) := by
  cases owner with
  | none => exact keeps_throw _
  | some owner => exact keeps_pure owner

variable (honest : Honest Holds)
include honest

private theorem keeps_get (key : String) :
    Keeps (Only Holds P) (get key : StoreM (PostgresStore δ) (Option String)) := by
  have asks : Keeps (Stocks Holds P) (query (.lookUp key) : SqlM δ Outcome) :=
    honest.keeps_query (.lookUp key) (List.forall_mem_nil P)
  refine (keeps_call (asks.bind fun result => ?_)).bind fun found => ?_
  · cases result.rows with
    | nil => exact keeps_pure none
    | cons row rows =>
      exact (keeps_reading _).bind fun halves => (keeps_reading _).bind fun mark => keeps_pure _
  · rcases found with _ | ⟨url, code, deleted⟩
    · exact keeps_pure none
    · show Keeps _ (if deleted then throw _ else if key = code then pure _ else
        if key = url then pure _ else pure none)
      split
      · exact keeps_throw _
      · split
        · exact keeps_pure _
        · split <;> exact keeps_pure _

private theorem exists_leads_of_found {s : PostgresStore δ} {key half : String}
    (held : Only Holds P s)
    (found : (get key s).1 = .ok (some half)) : ∃ link, P link ∧ link.Leads key half := by
  have failed {fault : Fault} {db : δ}
      (asked : query (.lookUp key) s.database = (.error fault, db)) : False := by
    have answer : (get key s).1 = .error (.ofSql fault) := by
      rw [get, bind_apply]
      simp only [call, bind_apply, asked, Except.mapError]
    rw [answer] at found
    contradiction
  rcases honest.query_cases (.lookUp key) held with
    ⟨fault, db, asked⟩ | ⟨t, reply, after, db, only, possible, asked⟩
  · exact (failed asked).elim
  cases possible with
  | refused code message => exact (failed asked).elim
  | lost => exact (failed asked).elim
  | unheard done => exact (failed asked).elim
  | answered done =>
    cases done with
    | @found _ r there matching affected =>
      refine ⟨r.link, only.rows r there, ?_⟩
      rw [get_of_row asked] at found
      split at found
      · contradiction
      · split at found
        case isTrue code => exact .inl ⟨code.symm, (Option.some.inj (Except.ok.inj found)).symm⟩
        case isFalse =>
          split at found
          case isTrue url => exact .inr ⟨url.symm, (Option.some.inj (Except.ok.inj found)).symm⟩
          case isFalse => simp at found
    | missing unknown affected =>
      have answer : (get key s).1 = .ok none := by
        rw [get, bind_apply]
        simp only [call, bind_apply, asked, Reply.outcome]
        rfl
      simp [answer] at found

private theorem keeps_insert {link : NewLink} (given : P link) (owner : OwnerId) :
    Keeps (Stocks Holds P) (insert link owner : SqlM δ ShortCode) := by
  have asks : Keeps (Stocks Holds P) (query (.insert link owner) : SqlM δ Outcome) :=
    honest.keeps_query (.insert link owner) (List.forall_mem_singleton.mpr given)
  exact asks.bind fun result => (keeps_reading _).bind fun row => (keeps_reading _).map _

private theorem keeps_codeOf? (url : String) :
    Keeps (Stocks Holds P) (codeOf? url : SqlM δ (Option ShortCode)) := by
  have asks : Keeps (Stocks Holds P) (query (.codeOf url) : SqlM δ Outcome) :=
    honest.keeps_query (.codeOf url) (List.forall_mem_nil P)
  refine asks.bind fun result => ?_
  cases result.rows with
  | nil => exact keeps_pure none
  | cons row rows => exact (keeps_reading _).map _

private theorem keeps_save {link : NewLink} (given : P link) (owner : Option OwnerId) :
    Keeps (Only Holds P) (save link owner : StoreM (PostgresStore δ) ShortCode) := by
  refine (keeps_ownerOf owner).bind fun owner => ?_
  have inserts := (keeps_insert honest given owner).map some
  refine (keeps_call (inserts.tryCatch fun fault => ?_)).bind fun stored => ?_
  · split
    · exact keeps_pure none
    · exact keeps_throw fault
  · cases stored with
    | some code => exact keeps_pure code
    | none => exact (keeps_call (keeps_codeOf? honest link.url)).bind fun code => keeps_throw _

private theorem keeps_saveBatch {links : List NewLink} (given : ∀ link ∈ links, P link)
    (owner : Option OwnerId) :
    Keeps (Only Holds P) (saveBatch links owner : StoreM (PostgresStore δ) (List ShortCode)) := by
  refine (keeps_ownerOf owner).bind fun owner => ?_
  have checks : Keeps (Only Holds P)
      (StoreM.ask fun _ => ensureUnique links : StoreM (PostgresStore δ) Unit) := fun _ held => held
  have inserts : Keeps (Stocks Holds P) (insertAll links owner : SqlM δ (List ShortCode)) := by
    intro db held
    have still := honest.keeps_execute (.insertAll links owner) given db held
    rw [insertAll_apply]
    rcases answer : (execute (.insertAll links owner) : SqlM δ Outcome) db with ⟨_ | _, after⟩ <;>
      rwa [answer] at still
  refine checks.bind fun _ => ?_
  split
  · exact keeps_pure []
  · exact keeps_call (honest.keeps_transaction inserts)

private theorem keeps_deleteBatch (owner : OwnerId) (codes : List ShortCode) :
    Keeps (Only Holds P) (deleteBatch owner codes : StoreM (PostgresStore δ) Nat) := by
  have marks : Keeps (Stocks Holds P) (execute (.markDeleted owner codes) : SqlM δ Outcome) :=
    honest.keeps_execute (.markDeleted owner codes) (List.forall_mem_nil P)
  rw [deleteBatch]
  split
  · exact keeps_pure 0
  · exact keeps_call (honest.keeps_transaction (marks.map Outcome.affected))

theorem confines : Confines P (Only (δ := δ) Holds P) where
  get := keeps_get honest
  found held answer := exists_leads_of_found honest held answer
  ownedBy owner := by
    have asks : Keeps (Stocks Holds P) (query (.ownedBy owner) : SqlM δ Outcome) :=
      honest.keeps_query (.ownedBy owner) (List.forall_mem_nil P)
    exact keeps_call (asks.bind fun result => keeps_reading _)
  save owner given := keeps_save honest given owner
  saveBatch owner given := keeps_saveBatch honest given owner
  deleteBatch := keeps_deleteBatch honest

end PostgresStore

end Shortlink
