/-!
# A disk

A tree of directories and files, and the few operations on it that stores and programs need. A
path is resolved step by step; every refusal names its cause.
-/
namespace Shortlink

inductive DiskError where
  | notFound
  | alreadyExists
  | notDirectory
  | isDirectory
  | nameTooLong
  | nulInPath
  /-- The content of the file is not UTF-8. -/
  | notText
deriving DecidableEq

def DiskError.message : DiskError → String
  | notFound => "No such file or directory (os error 2)"
  | alreadyExists => "File exists (os error 17)"
  | notDirectory => "Not a directory (os error 20)"
  | isDirectory => "Is a directory (os error 21)"
  | nameTooLong => "File name too long (os error 36)"
  | nulInPath => "file name contained an unexpected NUL byte"
  | notText => "stream did not contain valid UTF-8"

/-- A file, or a directory of named entries. -/
inductive Node where
  | file (bytes : ByteArray)
  | directory (entries : List (String × Node))

namespace Node

instance : Inhabited Node := ⟨directory []⟩

def at? : Node → List String → Option Node
  | node, [] => some node
  | file _, _ :: _ => none
  | directory entries, name :: rest => (entries.lookup name).bind (at? · rest)

def setEntry (name : String) (node : Node) : List (String × Node) → List (String × Node)
  | [] => [(name, node)]
  | (other, kept) :: rest =>
    if other = name then (name, node) :: rest else (other, kept) :: setEntry name node rest

/-- Put a node under a list of names whose directories exist. -/
def put (new : Node) : Node → List String → Node
  | _, [] => new
  | file bytes, _ :: _ => file bytes
  | directory entries, name :: rest =>
    match rest, entries.lookup name with
    | [], _ => directory (setEntry name new entries)
    | _ :: _, some node => directory (setEntry name (put new node rest) entries)
    | _ :: _, none => directory entries

def remove : Node → List String → Node
  | node, [] => node
  | file bytes, _ :: _ => file bytes
  | directory entries, name :: rest =>
    match rest, entries.lookup name with
    | [], _ => directory (entries.filter fun e => e.1 ≠ name)
    | _ :: _, some node => directory (setEntry name (remove node rest) entries)
    | _ :: _, none => directory entries

end Node

inductive PathStep where
  | here
  | up
  | name (s : String)
deriving DecidableEq

/-- The steps of a path, and whether a slash at the end asks for a directory. -/
structure DiskPath where
  steps : List PathStep
  slash : Bool

namespace DiskPath

/-- The longest name and the longest path, in bytes. -/
def maxName : Nat := 255

def maxPath : Nat := 4095

def step (s : String) : PathStep :=
  if s = "." then .here else if s = ".." then .up else .name s

def names (cs : List Char) : List String :=
  ((cs.splitOnP (· == '/')).filter (· ≠ [])).map String.ofList

def parse (text : String) : Except DiskError DiskPath :=
  if text.toList.contains '\x00' then .error .nulInPath
  else if text.isEmpty then .error .notFound
  else if maxPath < text.utf8ByteSize then .error .nameTooLong
  else .ok ⟨(names text.toList).map step, text.toList.getLast? = some '/'⟩

/-- The steps that lead to the directory in which the last name of a path stands. -/
def parent (p : DiskPath) : List PathStep :=
  match p.steps with
  | [] => []
  | first :: rest => (first :: rest.filter (· ≠ .here)).dropLast

end DiskPath

/-- The directory in which a program runs. It is the top of the tree: going up leads nowhere. -/
structure Disk where
  root : Node := .directory []

namespace Disk

instance : Inhabited Disk := ⟨{}⟩

/-- Follow steps from a place in the tree: where they lead, and what is there. All steps but the
last have to lead to directories. -/
def walk (disk : Disk) : List String → List PathStep → Except DiskError (List String × Option Node)
  | place, [] => .ok (place, disk.root.at? place)
  | place, step :: rest =>
    match disk.root.at? place with
    | none => .error .notFound
    | some (.file _) => .error .notDirectory
    | some (.directory entries) =>
      match step with
      | .here => walk disk place rest
      | .up => walk disk place.dropLast rest
      | .name s =>
        if DiskPath.maxName < s.utf8ByteSize then .error .nameTooLong
        else if rest = [] then .ok (place ++ [s], entries.lookup s)
        else if (entries.lookup s).isNone then .error .notFound
        else walk disk (place ++ [s]) rest

def find (disk : Disk) (path : String) : Except DiskError Node :=
  match DiskPath.parse path with
  | .error e => .error e
  | .ok p =>
    match disk.walk [] p.steps with
    | .error e => .error e
    | .ok (_, none) => .error .notFound
    | .ok (_, some (.file bytes)) => if p.slash then .error .notDirectory else .ok (.file bytes)
    | .ok (_, some node) => .ok node

def read (disk : Disk) (path : String) : Except DiskError ByteArray :=
  match disk.find path with
  | .error e => .error e
  | .ok (.directory _) => .error .isDirectory
  | .ok (.file bytes) => .ok bytes

def readText (disk : Disk) (path : String) : Except DiskError String :=
  match disk.read path with
  | .error e => .error e
  | .ok bytes =>
    match String.fromUTF8? bytes with
    | some s => .ok s
    | none => .error .notText

/-- Set the content of a file, creating it if need be; its directory has to exist. A path with a
slash at its end can only mean a directory, whatever its last name is. -/
def write (disk : Disk) (path : String) (bytes : ByteArray) : Except DiskError Disk :=
  match DiskPath.parse path with
  | .error e => .error e
  | .ok p =>
    match disk.walk [] (if p.slash then p.steps.dropLast ++ [.here] else p.steps) with
    | .error e => .error e
    | .ok (_, some (.directory _)) => .error .isDirectory
    | .ok (place, _) => .ok ⟨Node.put (.file bytes) disk.root place⟩

def touch (disk : Disk) (path : String) : Except DiskError Disk :=
  match disk.read path with
  | .ok bytes => disk.write path bytes
  | .error _ => disk.write path ByteArray.empty

def makeDirectory (disk : Disk) (steps : List PathStep) : Except DiskError Disk :=
  match disk.walk [] steps with
  | .error e => .error e
  | .ok (_, some _) => .error .alreadyExists
  | .ok (place, none) => .ok ⟨Node.put (.directory []) disk.root place⟩

def isDirectory (disk : Disk) (steps : List PathStep) : Bool :=
  match disk.walk [] steps with
  | .ok (_, some (.directory _)) => true
  | _ => false

/-- Make a directory; one that is there already will do. -/
def ensureDirectory (disk : Disk) (steps : List PathStep) : Except DiskError Disk :=
  match disk.makeDirectory steps with
  | .ok disk => .ok disk
  | .error e => if disk.isDirectory steps then .ok disk else .error e

/-- Make a directory, given by its steps in reverse, and those above it that are missing. What has
been made stays when the next one cannot be made. -/
def ensureDirectories (disk : Disk) : List PathStep → Except DiskError Unit × Disk
  | [] => (.ok (), disk)
  | step :: above =>
    let steps := (step :: above).reverse
    match disk.ensureDirectory steps with
    | .ok disk => (.ok (), disk)
    | .error .notFound =>
      match ensureDirectories disk above with
      | (.error e, disk) => (.error e, disk)
      | (.ok (), disk) =>
        match disk.ensureDirectory steps with
        | .ok disk => (.ok (), disk)
        | .error e => (.error e, disk)
    | .error e => (.error e, disk)

def removeFile (disk : Disk) (path : String) : Except DiskError Disk :=
  match DiskPath.parse path with
  | .error e => .error e
  | .ok p =>
    match disk.walk [] p.steps with
    | .error e => .error e
    | .ok (_, none) => .error .notFound
    | .ok (_, some (.directory _)) => .error .isDirectory
    | .ok (place, some (.file _)) => .ok ⟨disk.root.remove place⟩

/-- Make a directory at a path, with those above it. -/
def makeDirectories (disk : Disk) (path : String) : Except DiskError Unit × Disk :=
  match DiskPath.parse path with
  | .error e => (.error e, disk)
  | .ok p => disk.ensureDirectories p.steps.reverse

end Disk
end Shortlink
