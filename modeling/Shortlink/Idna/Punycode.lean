/-!
# Punycode

A text with any characters written in ASCII: its ASCII characters, a hyphen, and numbers that say
which other characters stand where. Each number is a run of digits of varying weight.
-/
namespace Shortlink.Punycode

def base : Nat := 36

def limit : Nat := 4294967296

def digit? (c : Char) : Option Nat :=
  if 97 ≤ c.toNat ∧ c.toNat ≤ 122 then some (c.toNat - 97)
  else if 48 ≤ c.toNat ∧ c.toNat ≤ 57 then some (c.toNat - 22)
  else none

/-- The least digit at a place after which a number goes on. -/
def threshold (place bias : Nat) : Nat :=
  min 26 (max 1 (base * (place + 1) - bias))

def number? (bias : Nat) : Nat → Nat → Nat → List Char → Option (Nat × List Char)
  | _, _, _, [] => none
  | i, weight, place, c :: rest =>
    match digit? c with
    | none => none
    | some d =>
      let i := i + d * weight
      let t := threshold place bias
      if limit ≤ i then none
      else if d < t then some (i, rest)
      else if limit ≤ weight * (base - t) then none
      else number? bias i (weight * (base - t)) (place + 1) rest

theorem length_number? {bias i weight place n : Nat} {cs rest : List Char}
    (h : number? bias i weight place cs = some (n, rest)) : rest.length < cs.length := by
  induction cs generalizing i weight place with
  | nil => simp [number?] at h
  | cons c cs ih =>
    unfold number? at h
    split at h
    · simp at h
    · dsimp only at h
      split at h
      · simp at h
      · split at h
        · simp only [Option.some.injEq, Prod.mk.injEq] at h
          simp [h.2]
        · split at h
          · simp at h
          · have := ih h
            simp only [List.length_cons]
            omega

/-- Halve a difference of thirty-fives until it is small; how often, and what is left. -/
def taper : Nat → Nat → Nat × Nat
  | 0, delta => (0, delta)
  | steps + 1, delta =>
    if 455 < delta then
      let (n, delta) := taper steps (delta / 35)
      (n + 1, delta)
    else (0, delta)

/-- The bias for the next number, which is likely to be as large as this one. -/
def adapt (delta count : Nat) (isFirst : Bool) : Nat :=
  let delta := if isFirst then delta / 700 else delta / 2
  let (n, delta) := taper 32 (delta + delta / count)
  n * base + 36 * delta / (delta + 38)

def insertAt (c : Char) (i : Nat) (cs : List Char) : List Char := cs.take i ++ c :: cs.drop i

def insertAll (text : List Char) (point i bias : Nat) (cs : List Char) : Option (List Char) :=
  match cs with
  | [] => some text
  | c :: rest =>
    match _h : number? bias i 1 0 (c :: rest) with
    | none => none
    | some (n, tail) =>
      let count := text.length + 1
      let point := point + n / count
      if point.isValidChar then
        insertAll (insertAt (Char.ofNat point) (n % count) text) point (n % count + 1)
          (adapt (n - i) count (i = 0)) tail
      else none
termination_by cs.length
decreasing_by exact length_number? _h

def splitLast (cs : List Char) : List Char × List Char :=
  let tail := (cs.reverse.takeWhile (· ≠ '-')).reverse
  match cs.take (cs.length - tail.length - 1) with
  | [] => ([], cs)
  | plain => (plain, tail)

def decode? (cs : List Char) : Option (List Char) :=
  let (plain, numbers) := splitLast cs
  if plain.all (·.toNat < 128) then insertAll plain 128 0 72 numbers else none

end Shortlink.Punycode
