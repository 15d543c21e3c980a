import Shortlink.Sql.Address
import Shortlink.Store.Faulty
import Shortlink.Store.File
/-!
# Storage

Where links are kept is a matter of settings. An opened store lives beside the disk, so that other
work on the disk can go on while it is used.
-/
namespace Shortlink

inductive StorageSetting where
  | memory
  | file (path : String)
  | postgres (dsn : String)
deriving DecidableEq

namespace StorageSetting

def given? (setting : Option String) : Option String := setting.filter (· ≠ "")

/-- A database goes before a file, and without either links are kept in memory. -/
def ofSettings (dsn path : Option String) : StorageSetting :=
  match given? dsn, given? path with
  | some dsn, _ => postgres dsn
  | none, some path => file path
  | none, none => memory

/-- The setting as it may be shown: a database address can hold a password. -/
def display : StorageSetting → String
  | memory => "in-memory"
  | file path => s!"file:{path}"
  | postgres _ => "postgres"

end StorageSetting

inductive Storage where
  | memory (table : LinkTable) (disk : Disk)
  | file (store : FileStore)
  | faulty (store : FaultyStore) (disk : Disk)

namespace Storage

def disk : Storage → Disk
  | memory _ disk => disk
  | file store => store.disk
  | faulty _ disk => disk

def withDisk (disk : Disk) : Storage → Storage
  | memory table _ => memory table disk
  | file store => file { store with disk := disk }
  | faulty store _ => faulty store disk

def addressFault (dsn : String) : StoreError :=
  match Sql.Address.check dsn with
  | .error fault => .query s!"error with configuration: {fault.message}"
  | .ok () => .unavailable "no database can be reached"

/-- Open a store on this machine, and the disk afterwards. Databases are not reached from here. -/
def «open» (disk : Disk) : StorageSetting → Except StoreError Storage × Disk
  | .memory => (.ok (memory {} disk), disk)
  | .file path =>
    let (store, disk) := FileStore.open disk path
    (store.map file, disk)
  | .postgres dsn => (.error (addressFault dsn), disk)

def use {α : Type} (m : (σ : Type) → [LinkStore σ] → StoreM σ α) : StoreM Storage α
  | memory table disk => StoreM.within table (memory · disk) (m LinkTable) (memory table disk)
  | file store => StoreM.within store file (m FileStore) (file store)
  | faulty store disk => StoreM.within store (faulty · disk) (m FaultyStore) (faulty store disk)

end Storage

instance : LinkStore Storage where
  get key := Storage.use fun _ => LinkStore.get key
  ownedBy owner := Storage.use fun _ => LinkStore.ownedBy owner
  ping := Storage.use fun _ => LinkStore.ping
  stats := Storage.use fun _ => LinkStore.stats
  save link owner := Storage.use fun _ => LinkStore.save link owner
  saveBatch links owner := Storage.use fun _ => LinkStore.saveBatch links owner
  deleteBatch owner codes := Storage.use fun _ => LinkStore.deleteBatch owner codes

end Shortlink
