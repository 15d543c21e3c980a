import Shortlink.Text.Hex
/-!
# JSON values and their written forms

Values keep the order of their members, repeated names included. A string whose escapes name half
of a surrogate pair stands for no text; it is kept as `none`, since a reader may still skip it.
Of numbers only the natural ones have a value here.
-/
namespace Shortlink

inductive Json where
  | null
  | bool (b : Bool)
  | natural (n : Nat)
  /-- A number with a sign, a fraction or an exponent. -/
  | otherNumber
  | string (text : Option String)
  | array (items : List Json)
  | object (members : List (Option String × Json))

namespace Json

def ofText (s : String) : Json := string (some s)

def ofFields (fields : List (String × Json)) : Json :=
  object (fields.map fun f => (some f.1, f.2))

/-- A character inside a string: quotes, backslashes and control characters are escaped. -/
def escape (c : Char) : List Char :=
  if c = '"' then ['\\', '"']
  else if c = '\\' then ['\\', '\\']
  else if c.toNat < 32 then
    match c.toNat with
    | 8 => ['\\', 'b']
    | 9 => ['\\', 't']
    | 10 => ['\\', 'n']
    | 12 => ['\\', 'f']
    | 13 => ['\\', 'r']
    | n => ['\\', 'u', '0', '0', Hex.lastDigit (n / 16), Hex.lastDigit n]
  else [c]

/-- A text in quotes. A string without a text is written as the half it cannot do without. -/
def quote : Option String → List Char
  | some s => '"' :: s.toList.flatMap escape ++ ['"']
  | none => "\"\\ud800\"".toList

def scalar : Json → List Char
  | bool true => "true".toList
  | bool false => "false".toList
  | natural n => (toString n).toList
  | otherNumber => "-0".toList
  | string s => quote s
  | _ => "null".toList

mutual

def compact : Json → List Char
  | array items => '[' :: compactItems items
  | object members => '\x7b' :: compactMembers members
  | null => scalar null
  | bool b => scalar (bool b)
  | natural n => scalar (natural n)
  | otherNumber => scalar otherNumber
  | string s => scalar (string s)

def compactItems : List Json → List Char
  | [] => [']']
  | [v] => compact v ++ [']']
  | v :: w :: rest => compact v ++ ',' :: compactItems (w :: rest)

def compactMembers : List (Option String × Json) → List Char
  | [] => ['\x7d']
  | [(name, v)] => quote name ++ ':' :: compact v ++ ['\x7d']
  | (name, v) :: m :: rest => quote name ++ ':' :: compact v ++ ',' :: compactMembers (m :: rest)

end

def newLine (level : Nat) : List Char := '\n' :: List.replicate (2 * level) ' '

mutual

/-- The form for people: every item and member on a line of its own. -/
def pretty (level : Nat) : Json → List Char
  | array [] => "[]".toList
  | array (v :: rest) => '[' :: newLine (level + 1) ++ pretty (level + 1) v ++ prettyItems level rest
  | object [] => ['\x7b', '\x7d']
  | object ((name, v) :: rest) =>
    '\x7b' :: newLine (level + 1) ++ quote name ++ ": ".toList ++ pretty (level + 1) v ++
      prettyMembers level rest
  | null => scalar null
  | bool b => scalar (bool b)
  | natural n => scalar (natural n)
  | otherNumber => scalar otherNumber
  | string s => scalar (string s)

def prettyItems (level : Nat) : List Json → List Char
  | [] => newLine level ++ [']']
  | v :: rest => ',' :: newLine (level + 1) ++ pretty (level + 1) v ++ prettyItems level rest

def prettyMembers (level : Nat) : List (Option String × Json) → List Char
  | [] => newLine level ++ ['\x7d']
  | (name, v) :: rest =>
    ',' :: newLine (level + 1) ++ quote name ++ ": ".toList ++ pretty (level + 1) v ++
      prettyMembers level rest

end

/-- Types with a JSON form. -/
class Form (α : Type) where
  toJson : α → Json
  ofJson? : Json → Option α

def write {α : Type} [Form α] (a : α) : String := String.ofList (compact (Form.toJson a))

def writePretty {α : Type} [Form α] (a : α) : String := String.ofList (pretty 0 (Form.toJson a))

end Json
end Shortlink
