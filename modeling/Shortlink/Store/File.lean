import Shortlink.Disk
import Shortlink.Journal
import Shortlink.Store
/-!
# The store in a file

A journal in a file is a store that outlives the program. The file is read anew for every
operation, and a missing file reads as an empty journal.
-/
namespace Shortlink

structure FileStore where
  disk : Disk
  path : String

namespace FileStore

def ioError (e : DiskError) : StoreError := .io e.message

/-- Open the journal at a path, and the disk afterwards. The directory of the journal and the file
itself are created if need be. -/
def «open» (disk : Disk) (path : String) : Except StoreError FileStore × Disk :=
  match DiskPath.parse path with
  | .error e => (.error (ioError e), disk)
  | .ok p =>
    match disk.ensureDirectories p.parent.reverse with
    | (.error e, disk) => (.error (ioError e), disk)
    | (.ok (), disk) =>
      match disk.touch path with
      | .error e => (.error (ioError e), disk)
      | .ok disk => (.ok ⟨disk, path⟩, disk)

def journal (s : FileStore) : Except StoreError Journal :=
  match s.disk.read s.path with
  | .ok bytes => .ok ⟨bytes⟩
  | .error .notFound => .ok .empty
  | .error e => .error (ioError e)

def load (s : FileStore) : Except StoreError (Journal × LinkTable) :=
  match s.journal with
  | .error e => .error e
  | .ok j =>
    match j.table? with
    | some t => .ok (j, t)
    | none => .error (ioError .notText)

def ask {α : Type} (f : LinkTable → Except StoreError α) : StoreM FileStore α :=
  StoreM.ask fun s => match s.load with
    | .error e => .error e
    | .ok (_, t) => f t

/-- Extend the journal. The file is written only if the journal has grown. -/
def extend {α : Type} (f : Journal → LinkTable → Except StoreError (α × Journal)) :
    StoreM FileStore α :=
  StoreM.change fun s => match s.load with
    | .error e => .error e
    | .ok (j, t) =>
      match f j t with
      | .error e => .error e
      | .ok (a, grown) =>
        if grown.bytes.size = j.bytes.size then .ok (a, s)
        else
          match s.disk.write s.path grown.bytes with
          | .error e => .error (ioError e)
          | .ok disk => .ok (a, { s with disk := disk })

def ping (s : FileStore) : Except StoreError Unit :=
  match s.disk.find s.path with
  | .ok _ => .ok ()
  | .error e => .error (.unavailable s!"{s.path}: {e.message}")

end FileStore

instance : LinkStore FileStore where
  get key := FileStore.ask fun t => t.get key
  ownedBy owner := FileStore.ask fun t => .ok (t.ownedBy owner)
  ping := StoreM.ask FileStore.ping
  stats := FileStore.ask fun t => .ok t.stats
  save link owner := FileStore.extend fun j t => j.save t link owner
  saveBatch links owner := fun s =>
    match ensureUnique links with
    | .error e => (.error e, s)
    | .ok () => FileStore.extend (fun j t => .ok (j.saveAll t links owner)) s
  deleteBatch owner codes := FileStore.extend fun j t => .ok (j.deleteBatch t owner codes)

end Shortlink
