import Shortlink.CommandLine.Verb
/-!
# Scanning arguments

Arguments are read one by one. The value of a flag is checked when the next flag or plain argument
is met, unless it is attached by an equals sign; an argument that is unknown is reported before a
value that is still unchecked.
-/
namespace Shortlink.CommandLine

def Settings : Type := (f : Flag) → Option f.Value

namespace Settings

def empty : Settings := fun _ => none

def set (m : Settings) (f : Flag) (value : f.Value) : Settings :=
  fun g => if h : f = g then some (h ▸ value) else m g

def any (m : Settings) (flags : List Flag) : Bool := flags.any fun f => (m f).isSome

end Settings

structure Grammar where
  flags : List Flag
  arity : Arity
  verbs : Bool
  about : String

def Grammar.top : Grammar := ⟨Flag.general, .none, true, CommandLine.about⟩

def Grammar.after (v : Verb) : Grammar := ⟨v.flags, v.arity, false, v.about⟩

/-- A flag whose value has not been checked, or has not been met. -/
structure Pending where
  flag : Flag
  value : Option String

structure Scan where
  settings : Settings := .empty
  plain : List String := []
  pending : Option Pending := none
  /-- Whether all further arguments are plain. -/
  onlyPlain : Bool := false

namespace Scan

def give (s : Scan) (f : Flag) (value : String) : Except UsageError Scan :=
  if (s.settings f).isSome then .error (.repeated f)
  else match f.read value with
    | .ok v => .ok { s with settings := s.settings.set f v }
    | .error e => .error e

def settle (s : Scan) : Except UsageError Scan :=
  match s.pending with
  | none => .ok s
  | some ⟨f, none⟩ => .error (.noValue f)
  | some ⟨f, some value⟩ => { s with pending := none }.give f value

/-- Whether the next argument is the value of a flag, unless it looks like a flag. -/
def awaitsValue (s : Scan) : Bool :=
  match s.pending with
  | some ⟨_, none⟩ => !s.onlyPlain
  | _ => false

def addPlain (g : Grammar) (s : Scan) (a : String) : Except UsageError Scan :=
  if g.arity.hasRoom s.plain.length then
    s.settle.map fun s => { s with plain := s.plain ++ [a] }
  else if g.verbs ∧ ¬ (s.onlyPlain ∧ (a = helpWord ∨ (Verb.ofName? a).isSome)) then
    .error (.unknownCommand a)
  else .error (.unknownArgument a)

def splitFlag (cs : List Char) : String × Option String :=
  match cs.span (· ≠ '=') with
  | (name, '=' :: value) => (String.ofList name, some (String.ofList value))
  | (name, _) => (String.ofList name, none)

def addFlag (g : Grammar) (s : Scan) (cs : List Char) : Except UsageError Scan :=
  match splitFlag cs with
  | ("help", none) => s.settle.bind fun _ => .error (.help g.about)
  | ("help", some value) => .error (.helpValue value)
  | (name, value) =>
    match g.flags.find? (·.name = name), value with
    | none, _ => .error (.unknownArgument s!"--{name}")
    | some f, some value => s.settle.bind (·.give f value)
    | some f, none => s.settle.map fun s => { s with pending := some ⟨f, none⟩ }

def addLetters (g : Grammar) (s : Scan) (c : Char) : Except UsageError Scan :=
  if c = 'h' then s.settle.bind fun _ => .error (.help g.about)
  else .error (.unknownArgument (String.ofList ['-', c]))

def add (g : Grammar) (s : Scan) (a : String) : Except UsageError Scan :=
  if s.onlyPlain then s.addPlain g a
  else match a.toList with
    | ['-', '-'] => .ok { s with onlyPlain := true }
    | '-' :: '-' :: cs => s.addFlag g cs
    | '-' :: c :: _ => s.addLetters g c
    | _ =>
      match s.pending with
      | some ⟨f, none⟩ => .ok { s with pending := some ⟨f, some a⟩ }
      | _ => s.addPlain g a

def run (g : Grammar) (s : Scan) :
    List String → Except UsageError (Scan × Option (Verb × List String))
  | [] => .ok (s, none)
  | a :: rest =>
    if g.verbs ∧ ¬ s.onlyPlain ∧ ¬ s.awaitsValue ∧ a = helpWord then .error (helpOn rest)
    else match if g.verbs ∧ ¬ s.onlyPlain ∧ ¬ s.awaitsValue then Verb.ofName? a else none with
      | some v => .ok (s, some (v, rest))
      | none =>
        match s.add g a with
        | .ok s => run g s rest
        | .error e => .error e

end Scan
end Shortlink.CommandLine
