import Shortlink.Json
/-!
# Reading JSON

The whole text has to be one value with white space around it. Each step takes at least one
character, so a budget of one step per character is enough for every text.
-/
namespace Shortlink.Json

def isSpace (c : Char) : Bool := c = ' ' || c = '\t' || c = '\n' || c = '\r'

def skipSpace (cs : List Char) : List Char := cs.dropWhile isSpace

/-- What one character or escape of a string stands for. -/
inductive Piece where
  | char (c : Char)
  /-- Half of a surrogate pair. -/
  | half (unit : Nat)

def isHighHalf (n : Nat) : Bool := 0xD800 ≤ n && n ≤ 0xDBFF

def isLowHalf (n : Nat) : Bool := 0xDC00 ≤ n && n ≤ 0xDFFF

def Piece.ofUnit (n : Nat) : Piece :=
  if isHighHalf n || isLowHalf n then .half n else .char (Char.ofNat n)

def escaped? : Char → Option Char
  | '"' => some '"'
  | '\\' => some '\\'
  | '/' => some '/'
  | 'b' => some '\x08'
  | 'f' => some '\x0c'
  | 'n' => some '\n'
  | 'r' => some '\r'
  | 't' => some '\t'
  | _ => none

/-- The pieces up to the closing quote, gathered backwards, and what follows the quote. -/
def pieces? : List Char → List Piece → Option (List Piece × List Char)
  | '"' :: rest, acc => some (acc, rest)
  | '\\' :: 'u' :: a :: b :: c :: d :: rest, acc =>
    match Hex.number? [a, b, c, d] with
    | some n => pieces? rest (Piece.ofUnit n :: acc)
    | none => none
  | '\\' :: e :: rest, acc =>
    match escaped? e with
    | some c => pieces? rest (.char c :: acc)
    | none => none
  | c :: rest, acc => if c = '\\' ∨ c.toNat < 32 then none else pieces? rest (.char c :: acc)
  | [], _ => none

/-- The text of pieces that were gathered backwards; both halves of a pair have to be there. -/
def joined? : List Piece → List Char → Option (List Char)
  | [], cs => some cs
  | .char c :: rest, cs => joined? rest (c :: cs)
  | .half low :: .half high :: rest, cs =>
    if isLowHalf low && isHighHalf high then
      joined? rest (Char.ofNat (0x10000 + 0x400 * (high - 0xD800) + (low - 0xDC00)) :: cs)
    else none
  | .half _ :: _, _ => none

def string? (cs : List Char) : Option (Option String × List Char) :=
  match pieces? cs [] with
  | some (pieces, rest) => some ((joined? pieces []).map String.ofList, rest)
  | none => none

def digits? (cs : List Char) : Option (List Char) :=
  match cs.span Char.isDigit with
  | ([], _) => none
  | (_, rest) => some rest

/-- What follows an optional fraction, and whether there was one. -/
def fraction? : List Char → Option (Bool × List Char)
  | '.' :: rest => (digits? rest).map (true, ·)
  | cs => some (false, cs)

/-- What follows an optional exponent, and whether there was one. -/
def exponent? : List Char → Option (Bool × List Char)
  | e :: rest =>
    if e = 'e' ∨ e = 'E' then
      match rest with
      | '+' :: rest => (digits? rest).map (true, ·)
      | '-' :: rest => (digits? rest).map (true, ·)
      | rest => (digits? rest).map (true, ·)
    else some (false, e :: rest)
  | [] => some (false, [])

def decimal (cs : List Char) : Nat := cs.foldl (fun n c => 10 * n + (c.toNat - 48)) 0

/-- A number without its sign: no zero stands before other digits. -/
def unsigned? (cs : List Char) : Option (Json × List Char) :=
  let (whole, rest) := match cs with
    | '0' :: rest => (['0'], rest)
    | cs => cs.span Char.isDigit
  if whole = [] then none
  else match fraction? rest with
    | none => none
    | some (fractional, rest) =>
      match exponent? rest with
      | none => none
      | some (scaled, rest) =>
        some (if fractional || scaled then .otherNumber else .natural (decimal whole), rest)

def number? : List Char → Option (Json × List Char)
  | '-' :: rest => (unsigned? rest).map fun r => (.otherNumber, r.2)
  | cs => unsigned? cs

mutual

def value? : Nat → List Char → Option (Json × List Char)
  | 0, _ => none
  | fuel + 1, cs =>
    match skipSpace cs with
    | 'n' :: 'u' :: 'l' :: 'l' :: rest => some (.null, rest)
    | 't' :: 'r' :: 'u' :: 'e' :: rest => some (.bool true, rest)
    | 'f' :: 'a' :: 'l' :: 's' :: 'e' :: rest => some (.bool false, rest)
    | '"' :: rest => (string? rest).map fun r => (.string r.1, r.2)
    | '[' :: rest =>
      match skipSpace rest with
      | ']' :: rest => some (.array [], rest)
      | rest => (items? fuel rest []).map fun r => (.array r.1, r.2)
    | '\x7b' :: rest =>
      match skipSpace rest with
      | '\x7d' :: rest => some (.object [], rest)
      | rest => (members? fuel rest []).map fun r => (.object r.1, r.2)
    | rest => number? rest

def items? : Nat → List Char → List Json → Option (List Json × List Char)
  | 0, _, _ => none
  | fuel + 1, cs, acc =>
    match value? fuel cs with
    | none => none
    | some (v, rest) =>
      match skipSpace rest with
      | ',' :: rest => items? fuel rest (v :: acc)
      | ']' :: rest => some ((v :: acc).reverse, rest)
      | _ => none

def members? : Nat → List Char → List (Option String × Json) →
    Option (List (Option String × Json) × List Char)
  | 0, _, _ => none
  | fuel + 1, cs, acc =>
    match skipSpace cs with
    | '"' :: rest =>
      match string? rest with
      | none => none
      | some (name, rest) =>
        match skipSpace rest with
        | ':' :: rest =>
          match value? fuel rest with
          | none => none
          | some (v, rest) =>
            match skipSpace rest with
            | ',' :: rest => members? fuel rest ((name, v) :: acc)
            | '\x7d' :: rest => some (((name, v) :: acc).reverse, rest)
            | _ => none
        | _ => none
    | _ => none

end

def parse? (cs : List Char) : Option Json :=
  match value? (cs.length + 1) cs with
  | some (v, rest) => if skipSpace rest = [] then some v else none
  | none => none

def read? {α : Type} [Form α] (text : String) : Option α :=
  (parse? text.toList).bind Form.ofJson?

end Shortlink.Json
