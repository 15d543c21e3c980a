import Shortlink.Text.Hex
/-!
# UUIDs

A 128-bit identifier, held as its thirty-two hexadecimal digits. It is written in five groups
joined by hyphens. Reading also accepts the digits without hyphens, and the hyphenated form in
braces or after `urn:uuid:`; every refusal names its cause.
-/
namespace Shortlink

/-- A 128-bit identifier as its hexadecimal digits, most significant first. -/
structure Uuid where
  digits : List (Fin 16)
  length_digits : digits.length = 32
deriving DecidableEq

namespace Uuid

def groupSizes : List Nat := [8, 4, 4, 4, 12]

def cut {α : Type} : List Nat → List α → List (List α)
  | [], _ => []
  | n :: ns, xs => xs.take n :: cut ns (xs.drop n)

def toList (u : Uuid) : List Char :=
  ['-'].intercalate (cut groupSizes (u.digits.map Hex.digit))

protected def toString (u : Uuid) : String := String.ofList u.toList

instance : ToString Uuid := ⟨Uuid.toString⟩

inductive Fault where
  /-- The text has a number of bytes that no form has. -/
  | length (found : Nat)
  /-- A character that no form has, at a byte offset. -/
  | character (found : Char) (offset : Nat)
  | groupCount (found : Nat)
  | groupLength (group expected found : Nat)
deriving DecidableEq

def Fault.message : Fault → String
  | .length n => s!"invalid length: found {n}"
  | .character c i => s!"invalid character: found `{c}` at {i}"
  | .groupCount n => s!"invalid group count: expected 5, found {n}"
  | .groupLength g e n => s!"invalid group length in group {g}: expected {e}, found {n}"

def maxLength : Nat := 45

def urnMarker : List Char := "urn:uuid:".toList

def braced? (cs : List Char) : Option (List Char) :=
  match cs with
  | '\x7b' :: rest => if rest.getLast? = some '\x7d' then some rest.dropLast else none
  | _ => none

def marked? (cs : List Char) : Option (List Char) :=
  if (cs.take 9).map Char.toLower = urnMarker then some (cs.drop 9) else none

structure Layout where
  /-- The part of the text that should hold the digits. -/
  body : List Char
  /-- The byte offset at which positions in the body start to count. -/
  start : Nat
  grouped : Bool

/-- The layout of a text whose size is not that of a whole form: positions count from the start of
the text. -/
def Layout.loose (cs : List Char) : Layout :=
  match braced? cs with
  | some body => ⟨body, 1, true⟩
  | none =>
    match marked? cs with
    | some body => ⟨body, 9, true⟩
    | none => ⟨cs, 0, false⟩

/-- The layout of a text. One that has exactly the size of a form is read as that form, with
positions counted in the part that holds the digits: 32 bytes are bare digits, 36 are groups, 38
are groups in braces and 45 are groups after the urn marker. -/
def Layout.ofString (s : String) : Layout :=
  let cs := s.toList
  match s.utf8ByteSize with
  | 32 => ⟨cs, 0, false⟩
  | 36 => ⟨cs, 0, true⟩
  | 38 =>
    match braced? cs with
    | some body => ⟨body, 0, true⟩
    | none => loose cs
  | 45 =>
    match marked? cs with
    | some body => ⟨body, 0, true⟩
    | none => loose cs
  | _ => loose cs

/-- The first character that is neither a digit nor a hyphen, and the position it has when the
first character is at the given one. Whatever precedes it takes one byte a character. -/
def stray? : List Char → Nat → Option (Char × Nat)
  | [], _ => none
  | c :: cs, i => if c = '-' ∨ (Hex.value? c).isSome then stray? cs (i + 1) else some (c, i)

def groups : List Char → List (List Char)
  | [] => [[]]
  | c :: cs =>
    if c = '-' then [] :: groups cs
    else match groups cs with
      | [] => [[c]]
      | g :: gs => (c :: g) :: gs

/-- The first group whose size is not the expected one. The last group is taken to reach from its
proper place to the end of the text, which has the given number of bytes. -/
def wrongGroup? (bytes : Nat) : Nat → List Nat → List (List Char) → Option (Nat × Nat × Nat)
  | i, n :: ns, g :: gs =>
    if g.length = n then wrongGroup? bytes (i + 1) ns gs
    else some (i, n, if ns = [] then bytes - 24 else g.length)
  | _, _, _ => none

def ofDigits? (cs : List Char) : Option Uuid :=
  let digits := cs.filterMap Hex.value?
  if h : digits.length = 32 then some ⟨digits, h⟩ else none

def parse (s : String) : Except Fault Uuid :=
  let bytes := s.utf8ByteSize
  if maxLength < bytes then .error (.length bytes)
  else
    let layout := Layout.ofString s
    match stray? layout.body layout.start with
    | some (c, i) => .error (.character c i)
    | none =>
      let gs := groups layout.body
      if gs.length = 1 ∧ layout.grouped = false then
        match ofDigits? layout.body with
        | some u => .ok u
        | none => .error (.length bytes)
      else if gs.length ≠ 5 then .error (.groupCount gs.length)
      else
        match wrongGroup? bytes 0 groupSizes gs with
        | some (g, e, n) => .error (.groupLength g e n)
        | none =>
          match ofDigits? gs.flatten with
          | some u => .ok u
          | none => .error (.length bytes)

end Uuid
end Shortlink
