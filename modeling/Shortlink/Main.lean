import Shortlink.Program
/-!
# The command

Runs the program on this machine: the files that an invocation names are brought in before the run,
and what it has changed in them is brought out afterwards.
-/
namespace Shortlink.Machine

def environment : IO (String → Option String) := do
  let values ← (CommandLine.Flag.general.filterMap CommandLine.Flag.envName?).mapM fun name =>
    return (name, ← IO.getEnv name)
  return fun name => (values.lookup name).join

def paths (args : List String) (env : String → Option String) : List String :=
  match CommandLine.parse args env with
  | .error _ => []
  | .ok i =>
    (match i.storage with | .file path => [path] | _ => []) ++
    (match i.command with | .shortenBatch (some path) => [path] | _ => [])

def readsInput (args : List String) (env : String → Option String) : Bool :=
  match CommandLine.parse args env with
  | .ok i => i.command = .shortenBatch none
  | .error _ => false

def directory (path : String) : String :=
  String.ofList (path.toList.reverse.dropWhile (· ≠ '/')).reverse

def bringIn (disk : Disk) (path : String) : IO Disk := do
  try
    let bytes ← IO.FS.readBinFile path
    let disk := (disk.makeDirectories (directory path)).2
    return (disk.write path bytes).toOption.getD disk
  catch
    | .inappropriateType .. => return (disk.makeDirectories path).2
    | _ => return disk

def bringOut (before after : Disk) (path : String) : IO Unit := do
  let old := (before.read path).toOption
  match (after.read path).toOption with
  | some new =>
    if old.map ByteArray.toList ≠ some new.toList then
      if directory path ≠ "" then IO.FS.createDirAll (directory path)
      IO.FS.writeBinFile path new
  | none => pure ()

partial def readAll (stream : IO.FS.Stream) (read : ByteArray) : IO ByteArray := do
  let bytes ← stream.read 65536
  if bytes.isEmpty then return read else readAll stream (read ++ bytes)

end Shortlink.Machine

open Shortlink in
def main (args : List String) : IO UInt32 := do
  let env ← Machine.environment
  let paths := Machine.paths args env
  let before ← paths.foldlM Machine.bringIn {}
  let input ←
    if Machine.readsInput args env then Machine.readAll (← IO.getStdin) .empty else pure .empty
  let (result, after) := Program.run ⟨env, input⟩ args before
  paths.forM (Machine.bringOut before after)
  match result with
  | .ok text =>
    IO.print text
    return 0
  | .error e =>
    match e with
    | .usage cause =>
      if cause.isMistake then IO.eprintln e.message else IO.println e.message
    | _ => IO.eprintln s!"Error: {e.message}"
    return e.exitCode.toUInt32
