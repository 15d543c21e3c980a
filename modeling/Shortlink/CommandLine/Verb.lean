import Shortlink.CommandLine.Flag
/-!
# Verbs

The words that name a command, and what each of them takes.
-/
namespace Shortlink.CommandLine

inductive Verb where
  | shorten
  | shortenBatch
  | decode
  | list
  | delete
  | ping
  | stats
deriving DecidableEq

inductive Arity where
  | none
  | one
  | many
deriving DecidableEq

def Arity.hasRoom (a : Arity) (count : Nat) : Bool :=
  match a with
  | .none => false
  | .one => count == 0
  | .many => true

namespace Verb

def all : List Verb := [shorten, shortenBatch, decode, list, delete, ping, stats]

def name : Verb → String
  | shorten => "shorten"
  | shortenBatch => "shorten-batch"
  | decode => "decode"
  | list => "list"
  | delete => "delete"
  | ping => "ping"
  | stats => "stats"

def ofName? (s : String) : Option Verb := all.find? (·.name = s)

def about : Verb → String
  | shorten => "Shorten one URL"
  | shortenBatch =>
    "Shorten a JSON array of `\x7b\"correlation_id\", \"original_url\"\x7d` objects"
  | decode => "Resolve a short code to its URL, or a URL to its short code"
  | list => "List the owner's links"
  | delete => "Delete some of the owner's links"
  | ping => "Check that the storage backend is reachable"
  | stats => "Count live links and their owners"

def arity : Verb → Arity
  | shorten => .one
  | decode => .one
  | delete => .many
  | _ => .none

def flags : Verb → List Flag
  | shortenBatch => [.owner, .input]
  | _ => [.owner]

end Verb

def helpWord : String := "help"

def about : String := "Shorten, resolve and delete links"

def aboutHelp : String := "Print this message or the help of the given subcommand(s)"

def helpOn : List String → UsageError
  | [] => .help about
  | word :: rest =>
    match if word = helpWord then some aboutHelp else (Verb.ofName? word).map Verb.about, rest with
    | some text, [] => .help text
    | some _, next :: _ => .unknownCommand next
    | none, _ => .unknownCommand word

end Shortlink.CommandLine
