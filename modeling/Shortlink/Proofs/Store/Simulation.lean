import Shortlink.Proofs.Journal.Changes
import Shortlink.Proofs.Store.Open
import Shortlink.Store.Memory
/-!
# A store that behaves like a table

A store in a file does whatever the table of its lines does, also where the last line is unfinished:
every operation gives the same answer, and afterwards the lines in the file make up the table that
comes out.
-/
namespace Shortlink

/-- Two stores answer alike and stay related. -/
def StoreM.Alike {σ τ α : Type} (R : σ → τ → Prop) (m : StoreM σ α) (n : StoreM τ α) : Prop :=
  ∀ s t, R s t → (m s).1 = (n t).1 ∧ R (m s).2 (n t).2

/-- Related stores do the same with every link operation. -/
structure Simulates {σ τ : Type} [LinkStore σ] [LinkStore τ] (R : σ → τ → Prop) : Prop where
  get : ∀ key, StoreM.Alike R (LinkStore.get key) (LinkStore.get key)
  ownedBy : ∀ owner, StoreM.Alike R (LinkStore.ownedBy owner) (LinkStore.ownedBy owner)
  stats : StoreM.Alike R LinkStore.stats LinkStore.stats
  save : ∀ link owner, StoreM.Alike R (LinkStore.save link owner) (LinkStore.save link owner)
  saveBatch : ∀ links owner,
    StoreM.Alike R (LinkStore.saveBatch links owner) (LinkStore.saveBatch links owner)
  deleteBatch : ∀ owner codes,
    StoreM.Alike R (LinkStore.deleteBatch owner codes) (LinkStore.deleteBatch owner codes)

theorem simulates_eq {σ : Type} [LinkStore σ] : Simulates (@Eq σ) where
  get _ _ _ same := by rw [same]; exact ⟨rfl, rfl⟩
  ownedBy _ _ _ same := by rw [same]; exact ⟨rfl, rfl⟩
  stats _ _ same := by rw [same]; exact ⟨rfl, rfl⟩
  save _ _ _ _ same := by rw [same]; exact ⟨rfl, rfl⟩
  saveBatch _ _ _ _ same := by rw [same]; exact ⟨rfl, rfl⟩
  deleteBatch _ _ _ _ same := by rw [same]; exact ⟨rfl, rfl⟩

namespace FileStore
open Journal

def Carries (s : FileStore) (text : List Char) : Prop :=
  s.disk.read s.path = .ok (Text.bytes text)

/-- The file consists of whole lines, which are these. -/
structure Holds (s : FileStore) (text : List Char) : Prop where
  ended : Text.Ended text
  read : s.disk.read s.path = .ok (Text.bytes text)

/-- The lines in the file make up the table. -/
def Mirrors (s : FileStore) (t : LinkTable) : Prop := ∃ text, s.Holds text ∧ replay text = t

section
variable {s : FileStore} {text : List Char}

theorem Carries.journal (h : s.Carries text) : s.journal = .ok (ofText text) := by
  rw [FileStore.journal, h]
  rfl

theorem Carries.load (h : s.Carries text) : s.load = .ok (ofText text, replay text) := by
  rw [FileStore.load, h.journal]
  simp only [table?_ofText]

theorem Carries.write (h : s.Carries text) (more : List Char) :
    ∃ disk, s.disk.write s.path (Text.bytes (text ++ more)) = .ok disk ∧
      ({ s with disk := disk } : FileStore).Carries (text ++ more) :=
  Disk.read_write h (Text.bytes (text ++ more))

theorem Carries.extend (h : s.Carries text) {α : Type} {a : α} {ls : List JournalLine}
    {f : Journal → LinkTable → Except StoreError (α × Journal)}
    (change : f (ofText text) (replay text) = .ok (a, (ofText text).append ls)) :
    ∃ after, FileStore.extend f s = (.ok a, after) ∧
      after.Carries (text ++ (ofText text).addition ls) := by
  rw [append_ofText_eq] at change
  generalize (ofText text).addition ls = more at change ⊢
  have sizes : (Text.bytes (text ++ more)).size = (Text.bytes text).size + (Text.bytes more).size := by
    rw [Text.bytes_append, ByteArray.size_append]
  rw [FileStore.extend, StoreM.change, h.load]
  simp only [change]
  by_cases same : (Text.bytes (text ++ more)).size = (Text.bytes text).size
  · have nothing : more = [] := Text.eq_nil_of_size_bytes (by omega)
    refine ⟨s, by simp [ofText, same], ?_⟩
    rw [nothing, List.append_nil]
    exact h
  · obtain ⟨disk, write, carries⟩ := h.write more
    refine ⟨{ s with disk := disk }, ?_, carries⟩
    simp [ofText, same, write]

theorem Carries.ask (h : s.Carries text) {α : Type} (f : LinkTable → Except StoreError α) :
    FileStore.ask f s = (f (replay text), s) := by
  rw [FileStore.ask, StoreM.ask, h.load]

theorem Holds.write (h : s.Holds text) {more : List Char} (ended : Text.Ended more) :
    ∃ disk, s.disk.write s.path (Text.bytes (text ++ more)) = .ok disk ∧
      ({ s with disk := disk } : FileStore).Holds (text ++ more) := by
  obtain ⟨disk, written, carries⟩ := Carries.write h.read more
  exact ⟨disk, written, h.ended.append ended, carries⟩

end

/-- The file has a text with a property, and the lines of that text make up the table. -/
def Shows (P : List Char → Prop) (s : FileStore) (t : LinkTable) : Prop :=
  ∃ text, P text ∧ s.Carries text ∧ replay text = t

private theorem mirrors_eq_shows : Mirrors = Shows Text.Ended := by
  funext s t
  refine propext ⟨?_, ?_⟩
  · rintro ⟨text, holds, same⟩
    exact ⟨text, holds.ended, holds.read, same⟩
  · rintro ⟨text, ended, read, same⟩
    exact ⟨text, ⟨ended, read⟩, same⟩

/-! ## What operations add -/

/-- Lines have been added to a text, and they make up a table. -/
structure Grows (text : List Char) (ls : List JournalLine) (after : FileStore) (t : LinkTable) :
    Prop where
  carries : after.Carries (text ++ (ofText text).addition ls)
  table : t = ls.foldl LinkTable.apply (replay text)

/-- An operation answers like the one on a table, and adds lines to the file that do to its table
what that one does. -/
def Adds {α : Type} (m : StoreM FileStore α) (n : StoreM LinkTable α)
    (added : LinkTable → List JournalLine) : Prop :=
  ∀ (s : FileStore) (text : List Char), s.Carries text →
    ∃ after, m s = ((n (replay text)).1, after) ∧
      Grows text (added (replay text)) after (n (replay text)).2

def savedLines (link : NewLink) (owner : Option OwnerId) (t : LinkTable) : List JournalLine :=
  if (t.codeOf? link.url).isNone then [.live link owner] else []

def savedBatchLines (links : List NewLink) (owner : Option OwnerId) (t : LinkTable) :
    List JournalLine :=
  match ensureUnique links with
  | .error _ => []
  | .ok () => (fresh t links).map fun link => .live link owner

def deletedLines (owner : OwnerId) (codes : List ShortCode) (t : LinkTable) : List JournalLine :=
  (t.deleteBatch owner codes).1.map .tombstone

theorem Carries.grows {s : FileStore} {text : List Char} (carries : s.Carries text) :
    Grows text [] s (replay text) := by
  refine ⟨?_, rfl⟩
  rw [addition, if_pos rfl, List.append_nil]
  exact carries

theorem adds_ask {α : Type} (f : LinkTable → Except StoreError α) :
    Adds (FileStore.ask f) (StoreM.ask f) fun _ => [] :=
  fun s _ carries => ⟨s, carries.ask f, carries.grows⟩

theorem adds_save (link : NewLink) (owner : Option OwnerId) :
    Adds (LinkStore.save link owner) (LinkStore.save link owner) (savedLines link owner) := by
  intro s text carries
  have indexed := indexed_replay text
  cases known : (replay text).codeOf? link.url with
  | some code =>
    have nothing : savedLines link owner (replay text) = [] := by simp [savedLines, known]
    have table : (LinkStore.save link owner : StoreM LinkTable ShortCode) (replay text) =
        (.error (.conflict code.text), replay text) := by
      simp [LinkStore.save, StoreM.change, LinkTable.save, known]
    rw [nothing, table]
    refine ⟨s, ?_, carries.grows⟩
    simp [LinkStore.save, FileStore.extend, StoreM.change, carries.load, Journal.save, known]
  | none =>
    have line : savedLines link owner (replay text) = [.live link owner] := by
      simp [savedLines, known]
    have appended : (ofText text).save (replay text) link owner =
        .ok (link.code, (ofText text).append [.live link owner]) := by simp [Journal.save, known]
    obtain ⟨after, file, grown⟩ := carries.extend (f := fun j t => j.save t link owner) appended
    have table : (LinkStore.save link owner : StoreM LinkTable ShortCode) (replay text) =
        (.ok link.code, (replay text).push (link.record owner)) := by
      simp [LinkStore.save, StoreM.change, LinkTable.save, known]
    rw [line, table]
    refine ⟨after, file, grown, ?_⟩
    rw [List.foldl_cons, indexed.apply_live known]
    rfl

theorem adds_saveBatch (links : List NewLink) (owner : Option OwnerId) :
    Adds (LinkStore.saveBatch links owner) (LinkStore.saveBatch links owner)
      (savedBatchLines links owner) := by
  intro s text carries
  cases unique : ensureUnique links with
  | error e =>
    have nothing : savedBatchLines links owner (replay text) = [] := by
      simp only [savedBatchLines, unique]
    have table : (LinkStore.saveBatch links owner : StoreM LinkTable (List ShortCode))
        (replay text) = (.error e, replay text) := by
      simp only [LinkStore.saveBatch, StoreM.change, LinkTable.saveBatch, unique]
    rw [nothing, table]
    refine ⟨s, ?_, carries.grows⟩
    simp only [LinkStore.saveBatch, unique]
  | ok =>
    have saved := saveAll_eq (indexed_replay text) owner (ensureUnique_eq_ok_iff.mp unique)
    obtain ⟨after, file, grown⟩ := carries.extend (a := codes (replay text) links)
      (f := fun j t => .ok (j.saveAll t links owner)) rfl
    simp only [savedBatchLines, LinkStore.saveBatch, StoreM.change, LinkTable.saveBatch, unique, file,
      saved]
    exact ⟨after, rfl, grown, rfl⟩

theorem adds_deleteBatch (owner : OwnerId) (codes : List ShortCode) :
    Adds (LinkStore.deleteBatch owner codes) (LinkStore.deleteBatch owner codes)
      (deletedLines owner codes) := by
  intro s text carries
  obtain ⟨after, file, grown⟩ := carries.extend
    (a := ((replay text).deleteBatch owner codes).1.length)
    (f := fun j t => .ok (j.deleteBatch t owner codes)) rfl
  have marks := foldl_tombstone (indexed_replay text) owner codes
  exact ⟨after, file, grown, marks.symm⟩

/-! ## Simulation -/

section
variable {P : List Char → Prop}
  (kept : ∀ {text}, P text → ∀ ls, P (text ++ (ofText text).addition ls))
include kept

theorem Adds.alike {α : Type} {m : StoreM FileStore α} {n : StoreM LinkTable α}
    {added : LinkTable → List JournalLine} (adds : Adds m n added) :
    StoreM.Alike (Shows P) m n := by
  intro s t shows
  obtain ⟨text, fits, carries, same⟩ := shows
  subst same
  obtain ⟨after, file, grows⟩ := adds s text carries
  rw [file]
  refine ⟨rfl, _, kept fits _, grows.carries, ?_⟩
  rw [replay_addition, grows.table]

/-- Whatever the operation is, the store in the file and the table of its lines do the same, and the
text in the file keeps every property that additions keep. -/
theorem simulates_shows : Simulates (Shows P) where
  get _ := (adds_ask _).alike kept
  ownedBy _ := (adds_ask _).alike kept
  stats := (adds_ask _).alike kept
  save link owner := (adds_save link owner).alike kept
  saveBatch links owner := (adds_saveBatch links owner).alike kept
  deleteBatch owner codes := (adds_deleteBatch owner codes).alike kept

end

theorem simulates : Simulates Mirrors := by
  rw [mirrors_eq_shows]
  exact simulates_shows fun ended ls => ended.append (ended_addition _ ls)

theorem mirrors_of_open {disk after : Disk} {path : String} {s : FileStore}
    (vacant : disk.Vacant path) (opened : FileStore.open disk path = (.ok s, after)) :
    s.Mirrors {} := by
  obtain ⟨rfl, -, read⟩ := read_of_open vacant opened
  exact ⟨[], ⟨.inl rfl, read⟩, rfl⟩

end FileStore
end Shortlink
