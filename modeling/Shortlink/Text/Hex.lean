/-!
# Hexadecimal digits

The value of a digit and the digit of a value. Reading accepts both cases, writing uses lower case.
-/
namespace Shortlink.Hex

def digit (n : Fin 16) : Char :=
  if n.val < 10 then Char.ofNat (48 + n.val) else Char.ofNat (87 + n.val)

def value? (c : Char) : Option (Fin 16) :=
  if 48 ≤ c.toNat ∧ c.toNat ≤ 57 then some (Fin.ofNat 16 (c.toNat - 48))
  else if 97 ≤ c.toNat ∧ c.toNat ≤ 102 then some (Fin.ofNat 16 (c.toNat - 87))
  else if 65 ≤ c.toNat ∧ c.toNat ≤ 70 then some (Fin.ofNat 16 (c.toNat - 55))
  else none

theorem value?_digit (n : Fin 16) : value? (digit n) = some n := by
  revert n
  decide

def lastDigit (n : Nat) : Char := digit (Fin.ofNat 16 n)

def byte (b : UInt8) : List Char := [lastDigit (b.toNat / 16), lastDigit b.toNat]

def number? (cs : List Char) : Option Nat :=
  cs.foldl (fun n c => do return 16 * (← n) + (← value? c).val) (some 0)

def encode (bytes : List UInt8) : String :=
  String.ofList (bytes.flatMap byte)

def decode? : List Char → Option (List UInt8)
  | [] => some []
  | [_] => none
  | high :: low :: rest => do
    let h ← value? high
    let l ← value? low
    return UInt8.ofNat (16 * h.val + l.val) :: (← decode? rest)

end Shortlink.Hex
