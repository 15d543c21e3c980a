/-!
# What a terminal shows

Control characters other than white space are not shown, and neither are the sequences that an
escape character begins. A sequence that is not complete hides what follows it.
-/
namespace Shortlink.Text

inductive Sequence where
  | none
  /-- Only the escape character. -/
  | escape
  /-- An escape character and marks; the next letter or figure ends it. -/
  | marks
  /-- An escape character, a bracket and parameters; the next letter ends it. -/
  | parameters
  /-- A string, which another escape character ends. -/
  | string
  /-- A string that a bell ends too. -/
  | title
deriving DecidableEq

def isSpacing (c : Char) : Bool := c == '\t' || c == '\n' || c == '\x0c' || c == '\r'

namespace Sequence

/-- Whether a character is shown. Inside a sequence only white space is, and in a string not even
that. -/
def shows : Sequence → Char → Bool
  | none, c => ' ' ≤ c && c ≠ '\x7f' || isSpacing c
  | escape, c => isSpacing c
  | marks, c => isSpacing c
  | parameters, c => isSpacing c
  | string, _ => false
  | title, _ => false

/-- How far a sequence has been read after a character that is neither an escape character, nor one
that cancels sequences, nor shown. -/
def hide : Sequence → Char → Sequence
  | none, _ => none
  | escape, c =>
    if c = '[' then parameters
    else if c = ']' then title
    else if c = 'P' ∨ c = 'X' ∨ c = '^' ∨ c = '_' then string
    else if ' ' ≤ c ∧ c ≤ '/' then marks
    else if '0' ≤ c ∧ c ≤ '~' then none
    else escape
  | marks, c => if '0' ≤ c ∧ c ≤ '~' then none else marks
  | parameters, c => if '@' ≤ c ∧ c ≤ '~' then none else parameters
  | string, _ => string
  | title, c => if c = '\x07' then none else title

def next (s : Sequence) (c : Char) : Sequence :=
  if c = '\x1b' then escape
  else if c = '\x18' ∨ c = '\x1a' ∨ s.shows c then none
  else s.hide c

end Sequence

def shownFrom : Sequence → List Char → List Char
  | _, [] => []
  | s, c :: cs => if s.shows c then c :: shownFrom (s.next c) cs else shownFrom (s.next c) cs

def shown (text : String) : String := String.ofList (shownFrom .none text.toList)

theorem shownFrom_of_shows (cs : List Char) (h : ∀ c ∈ cs, Sequence.none.shows c = true) :
    shownFrom .none cs = cs := by
  induction cs with
  | nil => rfl
  | cons c cs ih =>
    have hc := h c (by simp)
    have hn : Sequence.none.next c = .none := by
      simp only [Sequence.next, Sequence.hide]
      split
      · subst_vars
        simp [Sequence.shows, isSpacing] at hc
      · split <;> rfl
    rw [shownFrom, if_pos hc, hn, ih fun d hd => h d (by simp [hd])]

def styled (style : Nat) (text : String) : String := s!"\x1b[{style}m{text}\x1b[0m"

end Shortlink.Text
