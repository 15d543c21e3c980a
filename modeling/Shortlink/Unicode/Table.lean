import Std.Data.TreeMap
import Shortlink.Text.Hex
/-!
# Tables of characters

Properties of characters are written as text, with code points in hexadecimal. A span is a code
point or a range `first-last`; spans are separated by blanks. A block is a code point followed by
what it and its successors are replaced by; the code points of one replacement are joined by `+`,
and blocks are separated by commas.
-/
namespace Shortlink.Unicode

def pieces (separator : Char) (cs : List Char) : List (List Char) := cs.splitOnP (· == separator)

def words (cs : List Char) : List (List Char) :=
  (cs.splitOnP fun c => c == ' ' || c == '\n').filter (· ≠ [])

def number (cs : List Char) : Nat := (Hex.number? cs).getD 0

/-- Disjoint spans of code points, each with a value: the last code point and the value, under the
first code point. -/
abbrev SpanMap (α : Type) := Std.TreeMap Nat (Nat × α)

namespace SpanMap

def add {α : Type} (value : α) (text : String) (m : SpanMap α) : SpanMap α :=
  (words text.toList).foldl (fun m span => match pieces '-' span with
    | [only] => m.insert (number only) (number only, value)
    | [first, last] => m.insert (number first) (number last, value)
    | _ => m) m

def ofTexts {α : Type} (texts : List (α × String)) : SpanMap α :=
  texts.foldl (fun m t => add t.1 t.2 m) ∅

def find? {α : Type} (m : SpanMap α) (n : Nat) : Option α :=
  (m.getEntryLE? n).bind fun e => if n ≤ e.2.1 then some e.2.2 else none

end SpanMap

abbrev SpanSet := SpanMap Unit

def SpanSet.ofText (text : String) : SpanSet := SpanMap.ofTexts [((), text)]

def SpanSet.contains (s : SpanSet) (n : Nat) : Bool := (SpanMap.find? s n).isSome

/-- What code points are replaced by. -/
abbrev BlockMap := Std.TreeMap Nat (List Nat)

namespace BlockMap

def addBlock (m : BlockMap) (first : Nat) : List (List Char) → BlockMap
  | [] => m
  | piece :: rest => addBlock (m.insert first ((pieces '+' piece).map number)) (first + 1) rest

def ofText (text : String) : BlockMap :=
  (pieces ',' text.toList).foldl (fun m block => match words block with
    | first :: rest => m.addBlock (number first) rest
    | [] => m) ∅

end BlockMap
end Shortlink.Unicode
