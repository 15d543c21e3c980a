import Shortlink.Proofs.Disk.Directories
import Shortlink.Store.File
/-!
# Opening a store in a file

Opening keeps a journal that is there, and makes an empty one where there is none.
-/
namespace Shortlink

namespace Disk
open Node DiskPath

def Vacant (disk : Disk) (path : String) : Prop :=
  ∀ p, DiskPath.parse path = .ok p →
    disk.root.kindAt (destination [] p.steps) = none ∨
      disk.root.kindAt (destination [] p.steps) = some (some ByteArray.empty)

private theorem kindAt_of_read {disk : Disk} {path : String} {bytes : ByteArray}
    (h : disk.read path = .ok bytes) : ∃ p, DiskPath.parse path = .ok p ∧
      disk.root.kindAt (destination [] p.steps) = some (some bytes) := by
  obtain ⟨p, place, parsed, -, found⟩ := read_eq_ok_iff.mp h
  have there := eq_of_walk found
  simp only [Prod.mk.injEq] at there
  exact ⟨p, parsed, kindAt_eq_file.mpr there.2.symm⟩

private theorem kindAt_of_walk_here {disk : Disk} {place : List String} {steps : List PathStep}
    {r : List String × Option Node} (h : disk.walk place (steps ++ [.here]) = .ok r) :
    disk.root.kindAt r.1 = some none := by
  induction steps generalizing place with
  | nil =>
    obtain ⟨there, -, onward⟩ := walk_cons_eq_ok_iff.mp h
    rw [eq_of_walk onward]
    exact there
  | cons step rest ih => exact ih (walk_cons_eq_ok_iff.mp h).2.2

private theorem walk_of_write {disk after : Disk} {path : String} {bytes : ByteArray}
    (h : disk.write path bytes = .ok after) : ∃ p place node, DiskPath.parse path = .ok p ∧
      p.slash = false ∧ disk.walk [] p.steps = .ok (place, node) ∧
      disk.root.kindAt place ≠ some none ∧ after = ⟨put (.file bytes) disk.root place⟩ := by
  rw [write] at h
  cases parsed : DiskPath.parse path with
  | error e => simp [parsed] at h
  | ok p =>
    simp only [parsed] at h
    cases found : disk.walk [] (if p.slash then p.steps.dropLast ++ [.here] else p.steps) with
    | error e => simp [found] at h
    | ok r =>
      obtain ⟨place, node⟩ := r
      have there := eq_of_walk found
      simp only [Prod.mk.injEq] at there
      have free : disk.root.kindAt place ≠ some none := by
        intro directory
        obtain ⟨entries, inside⟩ := kindAt_eq_directory.mp directory
        rw [there.1, ← there.2] at inside
        simp [found, inside] at h
      have slash : p.slash = false := by
        cases slash : p.slash with
        | false => rfl
        | true =>
          simp only [slash, if_true] at found
          exact absurd (kindAt_of_walk_here found) free
      simp only [slash, Bool.false_eq_true, if_false] at found h
      refine ⟨p, place, node, rfl, slash, found, free, ?_⟩
      cases node with
      | none => simpa [found] using h.symm
      | some node =>
        cases node with
        | file old => simpa [found] using h.symm
        | directory entries => simp [found] at h

theorem read_of_write {disk after : Disk} {path : String} {bytes : ByteArray}
    (h : disk.write path bytes = .ok after) : after.read path = .ok bytes := by
  obtain ⟨p, place, node, parsed, slash, found, free, rfl⟩ := walk_of_write h
  exact read_eq_ok_iff.mpr ⟨p, place, parsed, slash, walk_put found free _⟩

theorem write_write {disk after : Disk} {path : String} {between : ByteArray}
    (written : disk.write path between = .ok after) (new : ByteArray) :
    after.write path new = disk.write path new := by
  obtain ⟨p, place, node, parsed, slash, found, free, rfl⟩ := walk_of_write written
  have there := eq_of_walk found
  simp only [Prod.mk.injEq] at there
  have first : disk.write path new = .ok ⟨put (.file new) disk.root place⟩ := by
    rw [write, parsed]
    cases node with
    | none => simp [slash, found]
    | some node =>
      cases node with
      | file old => simp [slash, found]
      | directory entries =>
        rw [there.1] at free
        exact absurd (kindAt_eq_directory.mpr ⟨entries, there.2.symm⟩) free
  rw [write_of_walk parsed slash (walk_put found free (.file between)), put_put, first]

def bytesAt (disk : Disk) (path : String) : Option ByteArray :=
  match DiskPath.parse path with
  | .ok p => (disk.root.kindAt (destination [] p.steps)).join
  | .error _ => none

/-- The file that a path names has stayed as it was, unless an empty one has been made. -/
def Kept (path : String) (before after : Disk) : Prop :=
  after.bytesAt path = before.bytesAt path ∨
    before.bytesAt path = none ∧ after.bytesAt path = some ByteArray.empty

private theorem bytesAt_of_read {disk : Disk} {path : String} {bytes : ByteArray}
    (h : disk.read path = .ok bytes) : disk.bytesAt path = some bytes := by
  obtain ⟨p, parsed, there⟩ := kindAt_of_read h
  simp only [bytesAt, parsed, there, Option.join_some]

private theorem bytesAt_eq {path : String} {p : DiskPath} (parsed : DiskPath.parse path = .ok p)
    (disk : Disk) : disk.bytesAt path = (disk.root.kindAt (destination [] p.steps)).join := by
  rw [bytesAt, parsed]

/-- Touching leaves a file as it is, makes an empty one where there is none, and fails where there
is a directory. -/
theorem bytesAt_touch {disk after : Disk} {path : String} {p : DiskPath}
    (parsed : DiskPath.parse path = .ok p) (touched : disk.touch path = .ok after) :
    disk.root.kindAt (destination [] p.steps) ≠ some none ∧
      after.bytesAt path = some ((disk.bytesAt path).getD ByteArray.empty) := by
  rw [touch] at touched
  cases old : disk.read path with
  | ok bytes =>
    simp only [old] at touched
    obtain ⟨p', parsed', there⟩ := kindAt_of_read old
    obtain rfl := Except.ok.inj (parsed.symm.trans parsed')
    refine ⟨by simp [there], ?_⟩
    rw [bytesAt_of_read (read_of_write touched), bytesAt_of_read old, Option.getD_some]
  | error e =>
    simp only [old] at touched
    obtain ⟨p', place, node, parsed', slash, found, free, -⟩ := walk_of_write touched
    obtain rfl := Except.ok.inj (parsed.symm.trans parsed')
    have there := eq_of_walk found
    simp only [Prod.mk.injEq] at there
    rw [there.1] at free
    refine ⟨free, ?_⟩
    have nothing : disk.bytesAt path = none := by
      rw [bytesAt_eq parsed]
      cases kind : disk.root.kindAt (destination [] p.steps) with
      | none => rfl
      | some content =>
        cases content with
        | none => exact absurd kind free
        | some bytes =>
          have inside := kindAt_eq_file.mp kind
          have read : disk.read path = .ok bytes := by
            refine read_eq_ok_iff.mpr ⟨p, place, parsed, slash, ?_⟩
            rw [found, there.2, inside]
          rw [old] at read
          contradiction
    rw [bytesAt_of_read (read_of_write touched), nothing, Option.getD_none]

end Disk

namespace FileStore
open Disk DiskPath

/-- Opening a journal again changes nothing. -/
theorem open_self {disk : Disk} {path : String} {bytes : ByteArray}
    (h : disk.read path = .ok bytes) :
    FileStore.open disk path = (.ok ⟨disk, path⟩, disk) := by
  obtain ⟨p, place, parsed, slash, found⟩ := read_eq_ok_iff.mp h
  have ready := ensureDirectories_of_isDirectory (isDirectory_parent found)
  have touched : disk.touch path = .ok disk := by
    rw [touch, h]
    exact write_self h
  rw [FileStore.open, parsed]
  simp only [ready, touched]

theorem open_of_read {disk : Disk} {path : String} {bytes : ByteArray}
    (h : disk.read path = .ok bytes) : ∃ after, FileStore.open disk path = (.ok ⟨after, path⟩, after) ∧
      after.read path = .ok bytes :=
  ⟨disk, open_self h, h⟩

theorem touched_of_open {disk after : Disk} {path : String} {s : FileStore}
    (opened : FileStore.open disk path = (.ok s, after)) :
    s = ⟨after, path⟩ ∧ ∃ p, DiskPath.parse path = .ok p ∧
      (disk.ensureDirectories p.parent.reverse).2.touch path = .ok after := by
  rw [FileStore.open] at opened
  cases parsed : DiskPath.parse path with
  | error e => simp [parsed] at opened
  | ok p =>
    simp only [parsed] at opened
    cases made : disk.ensureDirectories p.parent.reverse with
    | mk answer ready =>
      cases answer with
      | error e => simp [made] at opened
      | ok =>
        simp only [made] at opened
        cases touched : ready.touch path with
        | error e => simp [touched] at opened
        | ok final =>
          simp only [touched, Prod.mk.injEq, Except.ok.injEq] at opened
          obtain ⟨rfl, rfl⟩ := opened
          exact ⟨rfl, p, rfl, by rw [made]; exact touched⟩

theorem exists_read_of_open {disk after : Disk} {path : String} {s : FileStore}
    (opened : FileStore.open disk path = (.ok s, after)) :
    ∃ bytes, s.disk.read s.path = .ok bytes := by
  obtain ⟨rfl, p, -, touched⟩ := touched_of_open opened
  rw [touch] at touched
  split at touched
  · exact ⟨_, read_of_write touched⟩
  · exact ⟨_, read_of_write touched⟩

/-- Opening leaves a journal as it is, and makes an empty one where there is none. -/
theorem kept_of_open {disk after : Disk} {path : String} {s : FileStore}
    (opened : FileStore.open disk path = (.ok s, after)) : Kept path disk after := by
  obtain ⟨rfl, p, parsed, touched⟩ := touched_of_open opened
  obtain ⟨free, left⟩ := bytesAt_touch parsed touched
  have grown : Grown (destination [] p.steps) disk
      (disk.ensureDirectories p.parent.reverse).2 := grown_ensureDirectories _ _
  rcases grown with same | directory
  · have ready : (disk.ensureDirectories p.parent.reverse).2.bytesAt path = disk.bytesAt path := by
      rw [bytesAt_eq parsed, bytesAt_eq parsed, same]
    rw [ready] at left
    cases before : disk.bytesAt path with
    | none => exact .inr ⟨before, by rw [left, before, Option.getD_none]⟩
    | some bytes => exact .inl (by rw [left, before, Option.getD_some])
  · exact absurd directory free

private theorem empty_of_vacant {disk : Disk} {path : String} {p : DiskPath} {bytes : ByteArray}
    (vacant : disk.Vacant path) (parsed : DiskPath.parse path = .ok p)
    (read : (disk.ensureDirectories p.parent.reverse).2.read path = .ok bytes) :
    bytes = ByteArray.empty := by
  obtain ⟨p', parsed', there⟩ := kindAt_of_read read
  obtain rfl : p = p' := by simpa [parsed] using parsed'
  have grown : Grown (destination [] p.steps) disk
      (disk.ensureDirectories p.parent.reverse).2 := grown_ensureDirectories _ _
  rcases grown with same | directory
  · rw [there] at same
    rcases vacant p parsed with nothing | empty
    · simp [nothing] at same
    · simpa [empty] using same
  · simp [there] at directory

/-- Where there is no journal, an empty one is made. -/
theorem read_of_open {disk after : Disk} {path : String} {s : FileStore}
    (vacant : disk.Vacant path) (opened : FileStore.open disk path = (.ok s, after)) :
    s.path = path ∧ s.disk = after ∧ s.disk.read path = .ok ByteArray.empty := by
  obtain ⟨rfl, p, parsed, touched⟩ := touched_of_open opened
  refine ⟨rfl, rfl, ?_⟩
  rw [touch] at touched
  cases old : (disk.ensureDirectories p.parent.reverse).2.read path with
  | error e => exact read_of_write (by simpa [old] using touched)
  | ok bytes =>
    rw [← empty_of_vacant vacant parsed old]
    exact read_of_write (by simpa [old] using touched)

end FileStore
end Shortlink
