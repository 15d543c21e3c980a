import Shortlink.CommandLine
import Shortlink.Json.Links
import Shortlink.Json.Reader
/-!
# The program

One run carries out one command over a store that is opened for it, and ends when the deletions it
has asked for are done. What a run shows is its exit code, its output, and a message if it failed.
-/
namespace Shortlink

inductive ProgramError where
  | usage (cause : CommandLine.UsageError)
  /-- The store cannot be opened. -/
  | store (cause : StoreError)
  | service (cause : ServiceError)
  | disk (cause : DiskError)
  | unreadable (path : String)
  | badBatch
  | nothingStored (key : String)

namespace ProgramError

def message : ProgramError → String
  | usage cause => cause.message
  | store cause => cause.message
  | service cause => cause.message
  | disk cause => cause.message
  | unreadable path => s!"failed to read {path}"
  | badBatch => "batch input is not a valid JSON array"
  | nothingStored key => s!"nothing is stored under {key}"

/-- A wrong command line ends a run with code two, and a request for help is no failure. -/
def exitCode : ProgramError → Nat
  | usage cause => if cause.isMistake then 2 else 0
  | _ => 1

end ProgramError

namespace Program

structure Surroundings where
  env : String → Option String
  input : ByteArray

def print {α : Type} [Json.Form α] (a : α) : String := Json.writePretty a ++ "\n"

def batchText (disk : Disk) (input : ByteArray) : Option String → Except ProgramError String
  | some path =>
    match disk.readText path with
    | .ok text => .ok text
    | .error _ => .error (.unreadable path)
  | none =>
    match String.fromUTF8? input with
    | some text => .ok text
    | none => .error (.disk .notText)

def requests (text : String) : Except ProgramError (List BatchRequest) :=
  match (Json.parse? text.toList).bind Json.Form.ofJson? with
  | some requests => .ok requests
  | none => .error .badBatch

def present {σ α : Type} (m : ServiceM σ α) (f : α → Except ProgramError String) (s : Service σ) :
    Except ProgramError String × Service σ :=
  match m s with
  | (.ok a, s) => (f a, s)
  | (.error e, s) => (.error (.service e), s)

/-- Carry out a command; `batch` gives the text of a batch. -/
def carryOut {σ : Type} [LinkStore σ] (batch : Option String → Except ProgramError String)
    (owner : Option OwnerId) :
    Command → Service σ → Except ProgramError String × Service σ
  | .shorten url => present (Service.shorten url owner) fun a => .ok (print a)
  | .shortenBatch file => fun s =>
    match (batch file).bind requests with
    | .ok requests => present (Service.shortenBatch requests owner) (fun a => .ok (print a)) s
    | .error e => (.error e, s)
  | .decode key => present (Service.decode key) fun
    | some value => .ok (value ++ "\n")
    | none => .error (.nothingStored key)
  | .list => present (Service.userUrls owner) fun a => .ok (print a)
  | .delete codes => present (Service.deleteUrls codes owner) fun _ => .ok ""
  | .ping => present Service.ping fun _ => .ok "ok\n"
  | .stats => present Service.stats fun a => .ok (print a)

def invoke (i : Invocation) (input : ByteArray) (disk : Disk) :
    Except ProgramError String × Disk :=
  match Storage.open disk i.storage with
  | (.error e, disk) => (.error (.store e), disk)
  | (.ok storage, _) =>
    let batch := batchText storage.disk input
    let (result, s) := carryOut batch i.owner i.command (Service.start storage i.service)
    let (_, s) := s.shutdown (1000 * i.graceSecs)
    (result, s.store.disk)

def run (around : Surroundings) (args : List String) (disk : Disk) :
    Except ProgramError String × Disk :=
  match CommandLine.parse args around.env with
  | .error e => (.error (.usage e), disk)
  | .ok i => invoke i around.input disk

end Program
end Shortlink
