/-!
# UTF-8

Bytes are read as characters. Bytes that are no character are gathered into faults; a fault reaches
as far as its bytes could have been the beginning of a character.
-/
namespace Shortlink.Utf8

structure Fault where
  /-- How many bytes precede them. -/
  offset : Nat
  /-- How many they are, unless they only lack the bytes after the end. -/
  size : Option Nat
deriving DecidableEq

def Fault.message (f : Fault) : String :=
  match f.size with
  | some n => s!"invalid utf-8 sequence of {n} bytes from index {f.offset}"
  | none => s!"incomplete utf-8 byte sequence from index {f.offset}"

structure Begun where
  need : Nat
  /-- The least that the next byte may be. -/
  low : UInt8
  /-- The greatest that the next byte may be. -/
  high : UInt8
  value : Nat
  size : Nat

def begin? (b : UInt8) : Option Begun :=
  let n := b.toNat
  if n < 0x80 then some ⟨0, 0, 0, n, 1⟩
  else if n < 0xC2 then none
  else if n < 0xE0 then some ⟨1, 0x80, 0xBF, n - 0xC0, 1⟩
  else if n < 0xF0 then
    some ⟨2, if n = 0xE0 then 0xA0 else 0x80, if n = 0xED then 0x9F else 0xBF, n - 0xE0, 1⟩
  else if n < 0xF5 then
    some ⟨3, if n = 0xF0 then 0x90 else 0x80, if n = 0xF4 then 0x8F else 0xBF, n - 0xF0, 1⟩
  else none

def Begun.add (s : Begun) (b : UInt8) : Begun :=
  ⟨s.need - 1, 0x80, 0xBF, 64 * s.value + (b.toNat - 0x80), s.size + 1⟩

/-- Characters and faults that a byte completes, and what it begins. -/
abbrev Step : Type := List (Except Fault Char) × Option Begun

/-- A beginning that needs no more bytes is a character. -/
def Begun.step (s : Begun) : Step :=
  if s.need = 0 then ([.ok (Char.ofNat s.value)], none) else ([], some s)

def first (offset : Nat) (b : UInt8) : Step :=
  match begin? b with
  | some s => s.step
  | none => ([.error ⟨offset, some 1⟩], none)

def next (offset : Nat) (b : UInt8) : Option Begun → Step
  | none => first offset b
  | some s =>
    if s.low ≤ b ∧ b ≤ s.high then (s.add b).step
    else
      let (read, begun) := first offset b
      (.error ⟨offset - s.size, some s.size⟩ :: read, begun)

def readFrom (offset : Nat) : Option Begun → List UInt8 → List (Except Fault Char)
  | none, [] => []
  | some s, [] => [.error ⟨offset - s.size, none⟩]
  | begun, b :: bs =>
    let (read, begun) := next offset b begun
    read ++ readFrom (offset + 1) begun bs

def read (bytes : List UInt8) : List (Except Fault Char) := readFrom 0 none bytes

def fault? (bytes : List UInt8) : Option Fault :=
  (read bytes).findSome? fun
    | .error fault => some fault
    | .ok _ => none

def decode (bytes : List UInt8) : List Char :=
  (read bytes).map fun
    | .ok c => c
    | .error _ => '\uFFFD'

def encode (cs : List Char) : List UInt8 := (String.ofList cs).toUTF8.data.toList

end Shortlink.Utf8
