import Shortlink.Idna.Mapping
import Shortlink.Unicode.Joining
/-!
# Printable characters

Characters that can be seen by themselves. Most of them may stand in names, and most others may not.
-/
namespace Shortlink.Unicode

/-- Characters that can be seen although no name may hold them. -/
def visibleElsewhere : SpanSet := SpanSet.ofText
  "2024-2026 2488-249b 2ff0-2fff 31ef 33c2 33c7 33d8 fe12 fe19 fe30 fe52 fffc-fffd 1f100"

/-- Blanks and signs that go with the character before them; those that joining letters pass over
are not among them. -/
def blanks : SpanSet := SpanSet.ofText
  "a0 9be 9d7 b3e b57 bbe bd7 cc2 cd5-cd6 d3e d57 dcf ddf 180e 1b35 1b3a 1b3c 1b42 2000-200a
    200c-200d 202f 205f 3000 302e-302f ff9e-ff9f 1133e 11357 114b0 114bd 115af 11930 1d165
    1d16e-1d172"

/-- Whether a character can be seen by itself; a blank counts. -/
def isPrintable (c : Char) : Bool :=
  if c.toNat < 128 then ' ' ≤ c && c ≤ '~'
  else if JoiningType.of c = .transparent ∨ blanks.contains c.toNat then false
  else Idna.known.contains c.toNat || visibleElsewhere.contains c.toNat

end Shortlink.Unicode
