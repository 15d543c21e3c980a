import Shortlink.Idna.Mapping
import Shortlink.Idna.Punycode
import Shortlink.Unicode.Bidi
import Shortlink.Unicode.Joining
import Shortlink.Unicode.Mark
import Shortlink.Unicode.Normal
/-!
# International names

A host name with any characters is brought to one form: characters are mapped, the text is
normalized and split at dots, and labels in Punycode are decoded. Each label then has to keep to
the rules on marks, joiners and direction.
-/
namespace Shortlink.Idna
open Unicode

def punycodeMarker : List Char := "xn--".toList

/-- The longest label that is decoded, and the longest that would be encoded. -/
def maxEncoded : Nat := 2000

def maxDecoded : Nat := 1000

def isAscii (cs : List Char) : Bool := cs.all (·.toNat < 128)

def map? : List Char → Option (List Char)
  | [] => some []
  | c :: rest =>
    match Mapping.of c, map? rest with
    | .kept, some cs => some (c :: cs)
    | .replaced target, some cs => some (target ++ cs)
    | _, _ => none

/-- Whether mapping and normalizing leave a text as it is. -/
def isStable (cs : List Char) : Bool :=
  cs.all (fun c => match Mapping.of c with | .kept => true | _ => false) && normalize cs == cs

/-- A label without Punycode. What Punycode stands for must be in its final form, and must have
needed it. -/
def decodeLabel? (label : List Char) : Option (List Char) :=
  if label.take 4 = punycodeMarker then
    if maxEncoded < label.length - 4 then none
    else (Punycode.decode? (label.drop 4)).filter fun cs => isStable cs && !isAscii cs
  else some label

def isLabel (forbidden : Char → Bool) (label : List Char) : Bool :=
  !label.any forbidden && !(label.head?.any isMark) && joinersFit [] label &&
    (isAscii label || label.length ≤ maxDecoded)

/-- Whether a text brings in the rule on direction. No character below U+0590 does. -/
def hasRightToLeft (cs : List Char) : Bool :=
  cs.any fun c => 0x590 ≤ c.toNat && (BidiClass.of c).bringsRightToLeft

def labels? (forbidden : Char → Bool) (name : List Char) : Option (List (List Char)) := do
  let text := normalize (← map? name)
  let labels ← (text.splitOnP (· == '.')).mapM decodeLabel?
  if labels.all (isLabel forbidden) &&
      (!labels.any hasRightToLeft || labels.all fun l => BidiClass.keepsRule (l.map BidiClass.of))
  then some labels else none

end Shortlink.Idna
