import Shortlink.Proofs.Sql.Prescribed
/-!
# Databases that fail

A database may refuse any statement and lose any connection, and with it a transaction. If it does
nothing that is not prescribed, then it has no links but those that it has been sent.
-/
namespace Shortlink

/-- Whatever a step answers, an invariant holds afterwards. -/
def Keeps {ε σ α : Type} (I : σ → Prop) (m : ExceptT ε (StateM σ) α) : Prop := ∀ s, I s → I (m s).2

section
variable {ε σ α β : Type} {I : σ → Prop}

theorem keeps_pure (a : α) : Keeps I (pure a : ExceptT ε (StateM σ) α) := fun _ held => held

theorem keeps_throw (e : ε) : Keeps I (throw e : ExceptT ε (StateM σ) α) := fun _ held => held

theorem Keeps.bind {m : ExceptT ε (StateM σ) α} {f : α → ExceptT ε (StateM σ) β}
    (first : Keeps I m) (rest : ∀ a, Keeps I (f a)) : Keeps I (m >>= f) := by
  intro s held
  have still := first s held
  rw [Sql.bind_apply]
  rcases answer : m s with ⟨_ | a, after⟩
  · rwa [answer] at still
  · rw [answer] at still
    exact rest a after still

theorem Keeps.map {m : ExceptT ε (StateM σ) α} (h : Keeps I m) (f : α → β) : Keeps I (f <$> m) := by
  rw [map_eq_pure_bind]
  exact h.bind fun a => keeps_pure (f a)

theorem Keeps.tryCatch {m : ExceptT ε (StateM σ) α} {handle : ε → ExceptT ε (StateM σ) α}
    (first : Keeps I m) (handled : ∀ e, Keeps I (handle e)) : Keeps I (tryCatch m handle) := by
  intro s held
  have still := first s held
  rw [Sql.tryCatch_apply]
  rcases answer : m s with ⟨e | _, after⟩
  · rw [answer] at still
    exact handled e after still
  · rwa [answer] at still

end

namespace Sql

def Statement.links : Statement → List NewLink
  | insert link _ => [link]
  | insertAll links _ => links
  | _ => []

def LinkRow.link (r : LinkRow) : NewLink := ⟨r.code, r.url⟩

private theorem LinkRow.link_mark (owner : OwnerId) (codes : List ShortCode) (r : LinkRow) :
    (r.mark owner codes).link = r.link := by
  rw [mark]
  split <;> rfl

namespace TableDatabase

def undone (t : TableDatabase) : TableDatabase := ⟨t.atBegin.getD t.rows, none⟩

/-- All links have a property, also those that a rollback would bring back. -/
structure Only (P : NewLink → Prop) (t : TableDatabase) : Prop where
  rows : ∀ r ∈ t.rows, P r.link
  atBegin : ∀ rows ∈ t.atBegin, ∀ r ∈ rows, P r.link

private theorem forall_mem_upsert {P : NewLink → Prop} (owner : OwnerId) {links : List NewLink}
    (given : ∀ link ∈ links, P link) {rows : List LinkRow} (only : ∀ r ∈ rows, P r.link) :
    ∀ r ∈ (upsert owner rows links).2, P r.link := by
  induction links generalizing rows with
  | nil => exact only
  | cons link links ih =>
    rw [List.forall_mem_cons] at given
    rw [upsert]
    cases find? rows link.url with
    | some r => exact ih given.2 only
    | none =>
      refine ih given.2 (List.forall_mem_append.mpr ⟨only, ?_⟩)
      rw [List.forall_mem_singleton]
      exact given.1

section
variable {P : NewLink → Prop} {t : TableDatabase} (only : t.Only P)
include only

theorem Only.undone : t.undone.Only P where
  rows := by
    rw [TableDatabase.undone]
    cases begun : t.atBegin with
    | none => exact only.rows
    | some rows => exact only.atBegin rows begun
  atBegin := nofun

private theorem Only.of_prescribed {statement : Statement} {reply : Reply} {after : TableDatabase}
    (h : Prescribed t statement reply after) (given : ∀ link ∈ statement.links, P link) :
    after.Only P := by
  cases h with
  | begin => exact ⟨only.rows, fun _ begun => Option.some.inj begun ▸ only.rows⟩
  | commit => exact ⟨only.rows, nofun⟩
  | rollback => exact only.undone
  | insert fresh affected =>
    refine ⟨List.forall_mem_append.mpr ⟨only.rows, ?_⟩, only.atBegin⟩
    rw [List.forall_mem_singleton]
    exact given _ List.mem_cons_self
  | insertAll each affected => exact ⟨forall_mem_upsert _ given only.rows, only.atBegin⟩
  | markDeleted owner codes =>
    refine ⟨List.forall_mem_map.mpr fun r there => ?_, only.atBegin⟩
    rw [LinkRow.link_mark]
    exact only.rows r there
  | _ => exact only

end
end TableDatabase

/-- What may come of a statement. One that is refused has changed nothing. When the connection breaks
off, the statement has been done or not, and a transaction that is open then is given up. -/
inductive Possible (t : TableDatabase) (statement : Statement) : Reply → TableDatabase → Prop where
  | answered {reply : Reply} {after : TableDatabase} (done : Prescribed t statement reply after) :
      Possible t statement reply after
  | refused (code message : String) : Possible t statement (.failed code message) t
  | lost : Possible t statement .dropped t.undone
  | unheard {reply : Reply} {after : TableDatabase} (done : Prescribed t statement reply after) :
      Possible t statement .dropped after.undone

private theorem TableDatabase.Only.of_possible {P : NewLink → Prop} {t after : TableDatabase}
    (only : t.Only P) {statement : Statement} {reply : Reply}
    (h : Possible t statement reply after) (given : ∀ link ∈ statement.links, P link) :
    after.Only P := by
  cases h with
  | answered done => exact only.of_prescribed done given
  | refused code message => exact only
  | lost => exact only.undone
  | unheard done => exact (only.of_prescribed done given).undone

/-- A database that may be short of connections and may fail at any statement, but does nothing else
than what is prescribed. -/
structure Honest {δ : Type} [Database δ] (Holds : δ → TableDatabase → Prop) : Prop where
  acquire : ∀ db t, Holds db t → Holds ((Database.acquire : SqlM δ Unit) db).2 t
  send : ∀ statement db t, Holds db t → ∃ after,
    Possible t statement (Database.send statement db).1 after ∧
      Holds (Database.send statement db).2 after

theorem TableDatabase.honest : Honest (@Eq TableDatabase) where
  acquire _ _ same := same
  send statement db t same := by
    rw [← same]
    exact ⟨_, .answered (prescribed_send statement db), rfl⟩

def Stocks {δ : Type} (Holds : δ → TableDatabase → Prop) (P : NewLink → Prop) (db : δ) : Prop :=
  ∃ t, Holds db t ∧ t.Only P

section
variable {δ α : Type} [Database δ] {Holds : δ → TableDatabase → Prop} (honest : Honest Holds)
  {P : NewLink → Prop}
include honest

private theorem Honest.stocks_send (statement : Statement)
    (given : ∀ link ∈ statement.links, P link)
    {db : δ} (held : Stocks Holds P db) : Stocks Holds P (Database.send statement db).2 := by
  obtain ⟨t, holds, only⟩ := held
  obtain ⟨after, possible, still⟩ := honest.send statement db t holds
  exact ⟨after, still, only.of_possible possible given⟩

private theorem Honest.keeps_acquire : Keeps (Stocks Holds P) (Database.acquire : SqlM δ Unit) := by
  rintro db ⟨t, holds, only⟩
  exact ⟨t, honest.acquire db t holds, only⟩

theorem Honest.keeps_execute (statement : Statement) (given : ∀ link ∈ statement.links, P link) :
    Keeps (Stocks Holds P) (execute statement : SqlM δ Outcome) :=
  fun _ held => honest.stocks_send statement given held

theorem Honest.keeps_query (statement : Statement) (given : ∀ link ∈ statement.links, P link) :
    Keeps (Stocks Holds P) (query statement : SqlM δ Outcome) :=
  honest.keeps_acquire.bind fun _ => honest.keeps_execute statement given

/-- What a single statement answers: a fault, or what may come of it. -/
theorem Honest.query_cases (statement : Statement) {db : δ} (held : Stocks Holds P db) :
    (∃ fault db', query statement db = (.error fault, db')) ∨
      ∃ t reply after db', t.Only P ∧ Possible t statement reply after ∧
        query statement db = (reply.outcome, db') := by
  obtain ⟨t, holds, only⟩ := honest.keeps_acquire db held
  rw [query, bind_apply]
  rcases acquired : (Database.acquire : SqlM δ Unit) db with ⟨fault | _, db'⟩
  · exact .inl ⟨fault, db', rfl⟩
  · rw [acquired] at holds
    obtain ⟨after, possible, -⟩ := honest.send statement db' t holds
    exact .inr ⟨t, _, after, _, only, possible, rfl⟩

private theorem Honest.keeps_abandon (fault : Fault) :
    Keeps (Stocks Holds P) (abandon fault : SqlM δ α) := by
  intro db held
  rw [abandon]
  split
  · exact held
  · exact honest.stocks_send .rollback (List.forall_mem_nil P) held

theorem Honest.keeps_transaction {body : SqlM δ α} (inside : Keeps (Stocks Holds P) body) :
    Keeps (Stocks Holds P) (transaction body) :=
  honest.keeps_acquire.bind fun _ =>
    (honest.keeps_execute .begin (List.forall_mem_nil P)).bind fun _ =>
      (inside.bind fun a => (honest.keeps_execute .commit (List.forall_mem_nil P)).bind fun _ =>
        keeps_pure a).tryCatch honest.keeps_abandon

end

theorem keeps_reading {δ α : Type} {I : δ → Prop} (r : Except RowFault α) :
    Keeps I (reading r : SqlM δ α) := fun _ held => held

end Sql
end Shortlink
