import Shortlink.CommandLine.Scan
import Shortlink.Service
import Shortlink.Storage
/-!
# The command line

One command with its settings. A flag goes before its environment variable, and the variable before
the default. What follows the command is checked first, then what stands before it, then the
variables.
-/
namespace Shortlink

inductive Command where
  | shorten (url : String)
  /-- Shorten the URLs listed in a file, or in the input of the program. -/
  | shortenBatch (input : Option String)
  | decode (key : String)
  | list
  | delete (codes : List String)
  | ping
  | stats
deriving DecidableEq

structure Invocation where
  service : ServiceSettings
  storage : StorageSetting
  graceSecs : Nat
  logFormat : LogFormat
  owner : Option OwnerId
  command : Command

namespace CommandLine

/-- The command of a verb and what was scanned after it. -/
def command? : Verb → Settings → List String → Option Command
  | .shorten, _, [url] => some (.shorten url)
  | .shortenBatch, m, _ => some (.shortenBatch (m .input))
  | .decode, _, [key] => some (.decode key)
  | .list, _, _ => some .list
  | .delete, _, code :: codes => some (.delete (code :: codes))
  | .ping, _, _ => some .ping
  | .stats, _, _ => some .stats
  | _, _, _ => none

def readCommand (v : Verb) (args : List String) :
    Except UsageError (Command × Option OwnerId) := do
  let (s, _) ← Scan.run (.after v) {} args
  let s ← s.settle
  match command? v s.settings s.plain with
  | some command => return (command, s.settings .owner)
  | none => throw .missingArguments

/-- Set the flags that are not set by their variables. -/
def addVariables (env : String → Option String) : Settings → List Flag → Except UsageError Settings
  | m, [] => .ok m
  | m, f :: rest =>
    match m f, f.envName?.bind env with
    | none, some value =>
      match f.read value with
      | .ok v => addVariables env (m.set f v) rest
      | .error e => .error e
    | _, _ => addVariables env m rest

def defaultGraceSecs : Nat := 5

def invocation (m : Settings) (command : Command) (owner : Option OwnerId) : Invocation :=
  let settings : ServiceSettings := {}
  let sizes : PipelineSizes := settings.sizes
  { service :=
      { baseUrl := (m .baseUrl).getD settings.baseUrl
        sizes :=
          { chunk := (m .deleteChunkSize).getD sizes.chunk
            queue := (m .deleteQueueCapacity).getD sizes.queue
            workers := (m .deleteWorkers).getD sizes.workers } }
    storage := .ofSettings (m .databaseDsn) (m .fileStoragePath)
    graceSecs := (m .shutdownGraceSecs).getD defaultGraceSecs
    logFormat := (m .logFormat).getD .plain
    owner := owner.or (m .owner)
    command := command }

def parse (args : List String) (env : String → Option String) : Except UsageError Invocation := do
  let (s, verb) ← Scan.run .top {} args
  let command ← match verb with
    | some (v, rest) => (readCommand v rest).map some
    | none => pure none
  let s ← s.settle
  let m ← addVariables env s.settings Flag.general
  match command with
  | some (command, owner) => return invocation m command owner
  | none => if m.any Flag.general then throw .noCommand else throw (.nothing about)

end CommandLine
end Shortlink
