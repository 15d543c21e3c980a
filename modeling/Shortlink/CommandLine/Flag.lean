import Shortlink.Owner
import Shortlink.Text.Lines
import Shortlink.Text.Terminal
import Shortlink.Text.Word
/-!
# Flags

What can be set on the command line, and what may stand as the value of each setting.
-/
namespace Shortlink

inductive LogFormat where
  | plain
  | json
deriving DecidableEq

def LogFormat.name : LogFormat → String
  | plain => "plain"
  | json => "json"

namespace CommandLine

inductive Flag where
  | baseUrl
  | databaseDsn
  | fileStoragePath
  | deleteChunkSize
  | deleteQueueCapacity
  | deleteWorkers
  | shutdownGraceSecs
  | logFormat
  | owner
  | input
deriving DecidableEq

namespace Flag

def name : Flag → String
  | baseUrl => "base-url"
  | databaseDsn => "database-dsn"
  | fileStoragePath => "file-storage-path"
  | deleteChunkSize => "delete-chunk-size"
  | deleteQueueCapacity => "delete-queue-capacity"
  | deleteWorkers => "delete-workers"
  | shutdownGraceSecs => "shutdown-grace-secs"
  | logFormat => "log-format"
  | owner => "owner"
  | input => "input"

def display (f : Flag) : String :=
  let word := f.name.toList.map fun c => if c = '-' then '_' else c.toUpper
  s!"--{f.name} <{String.ofList word}>"

def envName? : Flag → Option String
  | baseUrl => some "SNIP_BASE_URL"
  | databaseDsn => some "SNIP_DATABASE_DSN"
  | fileStoragePath => some "SNIP_FILE_STORAGE_PATH"
  | deleteChunkSize => some "SNIP_DELETE_CHUNK_SIZE"
  | deleteQueueCapacity => some "SNIP_DELETE_QUEUE_CAPACITY"
  | deleteWorkers => some "SNIP_DELETE_WORKERS"
  | shutdownGraceSecs => some "SNIP_SHUTDOWN_GRACE_SECS"
  | logFormat => some "SNIP_LOG_FORMAT"
  | owner => none
  | input => none

/-- The flags that go before the command, in the order in which their variables are read. -/
def general : List Flag :=
  [baseUrl, databaseDsn, fileStoragePath, deleteChunkSize, deleteQueueCapacity, deleteWorkers,
    shutdownGraceSecs, logFormat, owner]

@[reducible] def Value : Flag → Type
  | baseUrl => String
  | databaseDsn => String
  | fileStoragePath => String
  | deleteChunkSize => Nat
  | deleteQueueCapacity => Nat
  | deleteWorkers => Nat
  | shutdownGraceSecs => Nat
  | logFormat => LogFormat
  | owner => OwnerId
  | input => String

end Flag

inductive UsageError where
  | unknownArgument (argument : String)
  | unknownCommand (name : String)
  | noCommand
  | missingArguments
  | repeated (flag : Flag)
  | noValue (flag : Flag)
  | badChoice (flag : Flag) (value : String)
  | badValue (flag : Flag) (value reason : String)
  /-- The request for help takes no value. -/
  | helpValue (value : String)
  | help (about : String)
  | nothing (about : String)
deriving DecidableEq

namespace UsageError

def marked (text : String) : String := Text.styled 33 text

def hint : String :=
  let help := Text.styled 1 "--help"
  s!"\n\nFor more information, try '{help}'.\n"

/-- The message with its styles. A reason is not marked, although it may quote the caller. -/
def styled : UsageError → String
  | unknownArgument a => s!"error: unexpected argument '{marked a}' found"
  | unknownCommand name => s!"error: unrecognized subcommand '{marked name}'"
  | noCommand => "error: 'snip' requires a subcommand but one was not provided"
  | missingArguments => "error: the following required arguments were not provided:"
  | repeated f => s!"error: the argument '{f.display}' cannot be used multiple times"
  | noValue f => s!"error: a value is required for '{f.display}' but none was supplied"
  | badChoice f v => s!"error: invalid value '{marked v}' for '{f.display}'"
  | badValue f v reason => s!"error: invalid value '{marked v}' for '{f.display}': {reason}"
  | helpValue v => s!"error: unexpected value '{marked v}' for '--help' found; no more were expected"
  | help about => about
  | nothing about => about

def message (e : UsageError) : String := Text.firstLine (Text.shown (e.styled ++ hint))

def isMistake : UsageError → Bool
  | help _ => false
  | _ => true

end UsageError

namespace Flag

def readNumber (f : Flag) (value : String) : Except UsageError Nat :=
  match Text.word value.toList with
  | .ok n => .ok n
  | .error fault => .error (.badValue f value fault.message)

def readPath (f : Flag) (value : String) : Except UsageError String :=
  if value = "" then .error (.noValue f) else .ok value

def read : (f : Flag) → String → Except UsageError f.Value
  | baseUrl, value => .ok value
  | databaseDsn, value => .ok value
  | fileStoragePath, value => readPath fileStoragePath value
  | deleteChunkSize, value => readNumber deleteChunkSize value
  | deleteQueueCapacity, value => readNumber deleteQueueCapacity value
  | deleteWorkers, value => readNumber deleteWorkers value
  | shutdownGraceSecs, value => readNumber shutdownGraceSecs value
  | logFormat, value =>
    match value with
    | "plain" => .ok .plain
    | "json" => .ok .json
    | "" => .error (.noValue logFormat)
    | _ => .error (.badChoice logFormat value)
  | owner, value =>
    match OwnerId.parse value with
    | .ok o => .ok o
    | .error e => .error (.badValue owner value e.message)
  | input, value => readPath input value

end Flag
end CommandLine
end Shortlink
