import Mathlib.Data.List.TakeDrop
import Shortlink.Json.Reader
/-!
# Reading scalars back

A quoted text reads back as itself whatever its characters are, and so does a number that nothing
continues. No written form holds a control character.
-/
namespace Shortlink.Json

/-! ## Strings -/

theorem quote_some (s : String) : quote (some s) = '"' :: s.toList.flatMap escape ++ ['"'] := rfl

private theorem number?_lastDigits {n : Nat} (h : n < 256) :
    Hex.number? ['0', '0', Hex.lastDigit (n / 16), Hex.lastDigit n] = some n := by
  have zero : Hex.value? '0' = some 0 := by decide
  simp only [Hex.number?, Hex.lastDigit, List.foldl_cons, List.foldl_nil, Hex.value?_digit, zero,
    Option.pure_def, Option.bind_eq_bind, Option.bind_some, Fin.val_ofNat, Fin.val_zero]
  congr 1
  omega

private theorem ofUnit_of_lt {c : Char} (h : c.toNat < 32) : Piece.ofUnit c.toNat = .char c := by
  have high : isHighHalf c.toNat = false := by simp [isHighHalf]; omega
  have low : isLowHalf c.toNat = false := by simp [isLowHalf]; omega
  simp [Piece.ofUnit, high, low]

theorem pieces?_plain {c : Char} (quoted : c ≠ '"') (plain : c ≠ '\\')
    (visible : 32 ≤ c.toNat) (rest : List Char) (acc : List Piece) :
    pieces? (c :: rest) acc = pieces? rest (.char c :: acc) := by
  have accepted : ¬ (c = '\\' ∨ c.toNat < 32) := by simp [plain, visible]
  rw [pieces?.eq_def]
  split
  case h_4 head =>
    cases head
    rw [if_neg accepted]
  all_goals simp_all

private theorem pieces?_escape (c : Char) (rest : List Char) (acc : List Piece) :
    pieces? (escape c ++ rest) acc = pieces? rest (.char c :: acc) := by
  unfold escape
  split
  · subst c
    simp [pieces?, escaped?]
  split
  · subst c
    simp [pieces?, escaped?]
  split
  case isTrue control =>
    have back : Char.ofNat c.toNat = c := Char.ofNat_toNat c
    split
    case h_6 n _ _ _ _ _ =>
      simp only [List.cons_append, List.nil_append, pieces?]
      rw [number?_lastDigits (by omega)]
      simp only [ofUnit_of_lt control]
    all_goals
      rename_i code
      rw [code] at back
      subst back
      simp [pieces?, escaped?]
  case isFalse quoted plain control => exact pieces?_plain quoted plain (by omega) rest acc

private theorem pieces?_escaped (cs rest : List Char) (acc : List Piece) :
    pieces? (cs.flatMap escape ++ '"' :: rest) acc =
      some ((cs.map Piece.char).reverse ++ acc, rest) := by
  induction cs generalizing acc with
  | nil => simp [pieces?]
  | cons c cs ih =>
    rw [List.flatMap_cons, List.append_assoc, pieces?_escape, ih]
    simp

private theorem joined?_chars (cs acc : List Char) :
    joined? (cs.map Piece.char) acc = some (cs.reverse ++ acc) := by
  induction cs generalizing acc with
  | nil => rfl
  | cons c cs ih =>
    rw [List.map_cons, joined?, ih]
    simp

theorem string?_quote (s : String) (rest : List Char) :
    string? (s.toList.flatMap escape ++ '"' :: rest) = some (some s, rest) := by
  rw [string?, pieces?_escaped, List.append_nil, ← List.map_reverse]
  simp only [joined?_chars, List.reverse_reverse, List.append_nil, Option.map_some,
    String.ofList_toList]

/-! ## Numbers -/

def endsDigits : List Char → Bool
  | [] => true
  | c :: _ => !c.isDigit

def endsNumber : List Char → Bool
  | [] => true
  | c :: _ => !(c.isDigit || c == '.' || c == 'e' || c == 'E')

theorem endsDigits_of_endsNumber {cs : List Char} (h : endsNumber cs = true) :
    endsDigits cs = true := by
  cases cs with
  | nil => rfl
  | cons c cs => simp_all [endsNumber, endsDigits]

private theorem head_toDigits {n : Nat} (h : 0 < n) :
    ∃ d ds, Nat.toDigits 10 n = d :: ds ∧ d ≠ '0' := by
  induction n using Nat.strongRecOn with
  | ind n ih =>
    rw [Nat.toDigits_eq_if (by decide)]
    split
    case isTrue small => exact ⟨_, [], rfl, by simp; omega⟩
    case isFalse large =>
      obtain ⟨d, ds, digits, nonzero⟩ := ih (n / 10) (by omega) (by omega)
      exact ⟨d, ds ++ [(n % 10).digitChar], by rw [digits, List.cons_append], nonzero⟩

theorem span_digits {digits rest : List Char} (all : ∀ d ∈ digits, d.isDigit = true)
    (ends : endsDigits rest = true) : (digits ++ rest).span Char.isDigit = (digits, rest) := by
  rw [List.span_eq_takeWhile_dropWhile]
  have stops : rest.takeWhile Char.isDigit = [] ∧ rest.dropWhile Char.isDigit = rest := by
    cases rest with
    | nil => simp
    | cons c rest =>
      have stop : c.isDigit = false := by simpa [endsDigits] using ends
      simp [stop]
  rw [List.takeWhile_append_of_pos all, List.dropWhile_append_of_pos all, stops.1, stops.2,
    List.append_nil]

private theorem fraction?_of_ends {rest : List Char} (ends : endsNumber rest = true) :
    fraction? rest = some (false, rest) := by
  cases rest with
  | nil => rfl
  | cons c rest =>
    have point : c ≠ '.' := by simp_all [endsNumber]
    simp [fraction?, point]

theorem exponent?_of_ends {rest : List Char} (ends : endsNumber rest = true) :
    exponent? rest = some (false, rest) := by
  cases rest with
  | nil => rfl
  | cons c rest =>
    have mark : ¬ (c = 'e' ∨ c = 'E') := by simp_all [endsNumber]
    simp [exponent?, mark]

private theorem unsigned?_toDigits (n : Nat) {rest : List Char} (ends : endsNumber rest = true) :
    unsigned? (Nat.toDigits 10 n ++ rest) = some (.natural n, rest) := by
  rcases Nat.eq_zero_or_pos n with rfl | positive
  · rw [Nat.toDigits_zero, List.singleton_append]
    simp [unsigned?, fraction?_of_ends ends, exponent?_of_ends ends, decimal]
  · obtain ⟨d, ds, digits, nonzero⟩ := head_toDigits positive
    have all : ∀ d ∈ Nat.toDigits 10 n, d.isDigit = true :=
      fun d hd => Nat.isDigit_of_mem_toDigits (by decide) (by decide) hd
    have read := span_digits all (endsDigits_of_endsNumber ends)
    have value : decimal (Nat.toDigits 10 n) = n := Nat.ofDigitChars_ten_toDigits
    rw [digits] at read value ⊢
    rw [List.cons_append] at read ⊢
    rw [unsigned?.eq_2 _ (by simp [nonzero]), read]
    simp [value, fraction?_of_ends ends, exponent?_of_ends ends]

theorem number?_toString (n : Nat) {rest : List Char} (ends : endsNumber rest = true) :
    number? ((toString n).toList ++ rest) = some (.natural n, rest) := by
  rw [Nat.toString_eq_repr, Nat.toList_repr]
  have read := unsigned?_toDigits n ends
  cases digits : Nat.toDigits 10 n with
  | nil => exact absurd digits Nat.toDigits_ne_nil
  | cons d ds =>
    have figure : d.isDigit = true :=
      Nat.isDigit_of_mem_toDigits (by decide) (by decide) (digits ▸ List.mem_cons_self)
    have signless : d ≠ '-' := by
      rintro rfl
      exact absurd figure (by decide)
    rw [digits, List.cons_append] at read
    rw [List.cons_append]
    simp [number?, signless, read]

/-! ## Characters -/

private theorem le_lastDigit (n : Nat) : 32 ≤ (Hex.lastDigit n).toNat := by
  have digits : ∀ d : Fin 16, 32 ≤ (Hex.digit d).toNat := by decide
  exact digits _

private theorem le_of_mem_text {cs : List Char} (all : cs.all (32 ≤ ·.toNat) = true) {d : Char}
    (h : d ∈ cs) : 32 ≤ d.toNat := by
  simpa using List.all_eq_true.mp all d h

/-- Written forms hold no control characters. -/
theorem le_of_mem_escape {c d : Char} (h : d ∈ escape c) : 32 ≤ d.toNat := by
  unfold escape at h
  split at h
  · exact le_of_mem_text rfl h
  split at h
  · exact le_of_mem_text rfl h
  split at h
  case isTrue control =>
    split at h
    case h_6 n _ _ _ _ _ => exact le_of_mem_text (by simp [le_lastDigit]) h
    all_goals exact le_of_mem_text rfl h
  case isFalse visible =>
    rw [List.mem_singleton.mp h]
    omega

theorem le_of_mem_quote {s : Option String} {d : Char} (h : d ∈ quote s) : 32 ≤ d.toNat := by
  cases s with
  | none =>
    have all : "\"\\ud800\"".toList.all (32 ≤ ·.toNat) = true := by simp
    exact le_of_mem_text all h
  | some s =>
    simp only [quote_some, List.mem_cons, List.mem_append, List.mem_flatMap, List.not_mem_nil,
      or_false] at h
    rcases h with (rfl | ⟨c, -, h⟩) | rfl
    · decide
    · exact le_of_mem_escape h
    · decide

theorem le_of_mem_scalar {v : Json} {d : Char} (h : d ∈ scalar v) : 32 ≤ d.toNat := by
  cases v with
  | natural n =>
    rw [scalar, Nat.toString_eq_repr, Nat.toList_repr] at h
    have figure := Nat.isDigit_of_mem_toDigits (by decide) (by decide) h
    simp only [Char.isDigit, Bool.and_eq_true, decide_eq_true_eq] at figure
    exact Nat.le_trans (by decide) figure.1
  | string s => exact le_of_mem_quote h
  | bool b => cases b <;> exact le_of_mem_text (by simp [scalar]) h
  | _ => exact le_of_mem_text (by simp [scalar]) h

end Shortlink.Json
