/-!
# URL-safe base64

Three bytes become four characters of `A-Z a-z 0-9 - _`; a shorter last group becomes two or
three characters, without padding.
-/
namespace Shortlink.Base64Url

def isDigit (c : Char) : Bool := c.isAlphanum || c == '-' || c == '_'

def digit (n : Fin 64) : Char :=
  if n.val < 26 then Char.ofNat (65 + n.val)
  else if n.val < 52 then Char.ofNat (71 + n.val)
  else if n.val < 62 then Char.ofNat (n.val - 4)
  else if n.val = 62 then '-' else '_'

theorem isDigit_digit (n : Fin 64) : isDigit (digit n) = true := by
  revert n
  decide

def sextet (n : Nat) : Char := digit (Fin.ofNat 64 n)

def encode : List UInt8 → List Char
  | [] => []
  | [x] => [sextet (x.toNat / 4), sextet (x.toNat * 16)]
  | [x, y] =>
    [sextet (x.toNat / 4), sextet (x.toNat * 16 + y.toNat / 16), sextet (y.toNat * 4)]
  | x :: y :: z :: rest =>
    sextet (x.toNat / 4) :: sextet (x.toNat * 16 + y.toNat / 16) ::
      sextet (y.toNat * 4 + z.toNat / 64) :: sextet z.toNat :: encode rest

theorem isDigit_of_mem_encode {c : Char} {bytes : List UInt8} (h : c ∈ encode bytes) :
    isDigit c = true := by
  fun_induction encode bytes with
  | case1 => simp at h
  | case2 x =>
    simp only [List.mem_cons, List.not_mem_nil, or_false] at h
    rcases h with rfl | rfl <;> exact isDigit_digit _
  | case3 x y =>
    simp only [List.mem_cons, List.not_mem_nil, or_false] at h
    rcases h with rfl | rfl | rfl <;> exact isDigit_digit _
  | case4 x y z rest ih =>
    simp only [List.mem_cons] at h
    rcases h with rfl | rfl | rfl | rfl | h
    · exact isDigit_digit _
    · exact isDigit_digit _
    · exact isDigit_digit _
    · exact isDigit_digit _
    · exact ih h

theorem length_encode (bytes : List UInt8) :
    (encode bytes).length = (4 * bytes.length + 2) / 3 := by
  fun_induction encode bytes with
  | case1 => rfl
  | case2 x => simp
  | case3 x y => simp
  | case4 x y z rest ih =>
    simp only [List.length_cons, ih]
    omega

end Shortlink.Base64Url
