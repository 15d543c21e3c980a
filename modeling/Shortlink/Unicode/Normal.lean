import Shortlink.Unicode.CombiningClass
import Shortlink.Unicode.Decomposition
/-!
# Composed normal form

Equivalent texts have one normal form: everything is decomposed, marks are put in the order of
their classes, and pairs are composed again.
-/
namespace Shortlink.Unicode

/-! ## Korean syllables

A syllable is a leading consonant, a vowel and perhaps a trailing consonant. -/

def syllableBase : Nat := 0xAC00
def leadingBase : Nat := 0x1100
def vowelBase : Nat := 0x1161
/-- One below the first trailing consonant: a syllable may do without one. -/
def trailingBase : Nat := 0x11A7
def leadingCount : Nat := 19
def vowelCount : Nat := 21
def trailingCount : Nat := 28

def syllableParts? (c : Char) : Option (List Char) :=
  let n := c.toNat - syllableBase
  if c.toNat < syllableBase ∨ leadingCount * vowelCount * trailingCount ≤ n then none
  else
    let trailing := n % trailingCount
    some ([Char.ofNat (leadingBase + n / (vowelCount * trailingCount)),
      Char.ofNat (vowelBase + n / trailingCount % vowelCount)] ++
      if trailing = 0 then [] else [Char.ofNat (trailingBase + trailing)])

def syllable? (a b : Char) : Option Char :=
  let leading := a.toNat - leadingBase
  let vowel := b.toNat - vowelBase
  let n := a.toNat - syllableBase
  let trailing := b.toNat - trailingBase
  if leadingBase ≤ a.toNat ∧ leading < leadingCount ∧ vowelBase ≤ b.toNat ∧ vowel < vowelCount then
    some (Char.ofNat (syllableBase + (leading * vowelCount + vowel) * trailingCount))
  else if syllableBase ≤ a.toNat ∧ n < leadingCount * vowelCount * trailingCount ∧
      n % trailingCount = 0 ∧ trailingBase < b.toNat ∧ trailing < trailingCount then
    some (Char.ofNat (a.toNat + trailing))
  else none

/-! ## Decomposing and composing -/

/-- Decompose a character in at most so many steps. -/
def decomposeWithin : Nat → Char → List Char
  | 0, c => [c]
  | depth + 1, c =>
    match (syllableParts? c).or (tableDecomposition? c) with
    | some parts => parts.flatMap (decomposeWithin depth)
    | none => [c]

def decompose (c : Char) : List Char := decomposeWithin 4 c

/-- Put a character in front of an ordered text: a mark goes behind marks of lower classes. -/
def insertMark (c : Char) : List Char → List Char
  | [] => [c]
  | d :: rest =>
    if combiningClass d ≠ 0 ∧ combiningClass d < combiningClass c then d :: insertMark c rest
    else c :: d :: rest

def order (cs : List Char) : List Char := cs.foldr insertMark []

def composite? (a b : Char) : Option Char := (syllable? a b).or (tableComposite? a b)

/-- Compose the rest of a text with the last character of class 0, unless a mark that was not
composed stands between; such marks are gathered backwards. -/
def composeFrom (start : Char) (marks : List Char) (lastClass : Nat) : List Char → List Char
  | [] => start :: marks.reverse
  | c :: rest =>
    let k := combiningClass c
    match if marks = [] ∨ lastClass < k then composite? start c else none with
    | some d => composeFrom d marks lastClass rest
    | none =>
      if k = 0 then start :: marks.reverse ++ composeFrom c [] 0 rest
      else composeFrom start (c :: marks) k rest

def compose : List Char → List Char
  | [] => []
  | c :: rest => if combiningClass c = 0 then composeFrom c [] 0 rest else c :: compose rest

/-- The composed normal form. Text without characters from U+0300 on is its own. -/
def normalize (cs : List Char) : List Char :=
  if cs.all (·.toNat < 0x300) then cs else compose (order (cs.flatMap decompose))

end Shortlink.Unicode
