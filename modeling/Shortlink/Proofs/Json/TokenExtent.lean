import Mathlib.Data.List.TakeWhile
import Shortlink.Proofs.Json.RoundTrip
/-!
# How far a string or a number goes

The readers of strings and numbers look no further than the end of what they read: the same
characters read the same whatever follows, as long as nothing goes on with a number.
-/
namespace Shortlink.Json

def isNumber : Json → Bool
  | natural _ => true
  | otherNumber => true
  | _ => false

/-! ## Strings -/

private theorem pieces?_used {cs : List Char} {acc ps : List Piece} {rest : List Char}
    (h : pieces? cs acc = some (ps, rest)) :
    ∃ used, cs = used ++ '"' :: rest ∧
      ∀ more, pieces? (used ++ '"' :: more) acc = some (ps, more) := by
  fun_induction pieces? cs acc with
  | case1 rest' acc =>
    simp only [Option.some.injEq, Prod.mk.injEq] at h
    obtain ⟨rfl, rfl⟩ := h
    exact ⟨[], rfl, fun more => by simp [pieces?]⟩
  | case2 a b c d tail acc n unit ih =>
    obtain ⟨used, rfl, again⟩ := ih h
    refine ⟨'\\' :: 'u' :: a :: b :: c :: d :: used, rfl, fun more => ?_⟩
    simp only [List.cons_append, pieces?, unit, again]
  | case3 => simp at h
  | case4 e tail acc other c escape ih =>
    obtain ⟨used, rfl, again⟩ := ih h
    have plain : e ≠ 'u' := by
      rintro rfl
      simp [escaped?] at escape
    refine ⟨'\\' :: e :: used, rfl, fun more => ?_⟩
    rw [List.cons_append, List.cons_append, pieces?, escape]
    · exact again more
    · intro a b c d rest same
      exact absurd same plain
  | case5 => simp at h
  | case6 => simp at h
  | case7 c tail acc quoted _ _ accepted ih =>
    obtain ⟨used, rfl, again⟩ := ih h
    rw [not_or, Nat.not_lt] at accepted
    refine ⟨c :: used, rfl, fun more => ?_⟩
    rw [List.cons_append, pieces?_plain (fun same => quoted same) accepted.1 accepted.2]
    exact again more
  | case8 => simp at h

theorem string?_used {cs : List Char} {s : Option String} {rest : List Char}
    (h : string? cs = some (s, rest)) :
    ∃ used, cs = used ++ '"' :: rest ∧
      ∀ more, string? (used ++ '"' :: more) = some (s, more) := by
  rw [string?] at h
  cases read : pieces? cs [] with
  | none => simp [read] at h
  | some r =>
    obtain ⟨pieces, tail⟩ := r
    simp only [read, Option.some.injEq, Prod.mk.injEq] at h
    obtain ⟨rfl, rfl⟩ := h
    obtain ⟨used, rfl, again⟩ := pieces?_used read
    exact ⟨used, rfl, fun more => by rw [string?, again]⟩

/-! ## Numbers -/

def endsWhole : List Char → Bool
  | [] => true
  | c :: _ => !(c.isDigit || c == '.')

def Visible (used : List Char) : Prop := ∀ c ∈ used, isSpace c = false

private theorem endsWhole_of_endsNumber {cs : List Char} (h : endsNumber cs = true) :
    endsWhole cs = true := by
  cases cs with
  | nil => rfl
  | cons c cs => simp_all [endsNumber, endsWhole]

private theorem endsDigits_of_endsWhole {cs : List Char} (h : endsWhole cs = true) :
    endsDigits cs = true := by
  cases cs with
  | nil => rfl
  | cons c cs => simp_all [endsWhole, endsDigits]

private theorem visible_of_digits {used : List Char} (h : ∀ c ∈ used, c.isDigit = true) :
    Visible used := fun c hc => (space_of_digit (h c hc)).1

private theorem span_used {cs digits rest : List Char} (h : cs.span Char.isDigit = (digits, rest)) :
    cs = digits ++ rest ∧ ∀ d ∈ digits, d.isDigit = true := by
  rw [List.span_eq_takeWhile_dropWhile, Prod.mk.injEq] at h
  obtain ⟨rfl, rfl⟩ := h
  exact ⟨List.takeWhile_append_dropWhile.symm, fun d hd => List.mem_takeWhile_imp hd⟩

private theorem digits?_used {cs rest : List Char} (h : digits? cs = some rest) :
    ∃ d ds, cs = d :: ds ++ rest ∧ d.isDigit = true ∧ Visible (d :: ds) ∧
      ∀ more, endsDigits more = true → digits? (d :: ds ++ more) = some more := by
  rw [digits?] at h
  split at h
  case h_1 => simp at h
  case h_2 digits tail present split =>
    obtain rfl := Option.some.inj h
    obtain ⟨rfl, all⟩ := span_used split
    cases digits with
    | nil => exact (present rfl).elim
    | cons d ds =>
      refine ⟨d, ds, rfl, all d List.mem_cons_self, visible_of_digits all, fun more ends => ?_⟩
      rw [digits?, span_digits all ends]

private theorem fraction?_used {cs rest : List Char} {fractional : Bool}
    (h : fraction? cs = some (fractional, rest)) :
    ∃ used, cs = used ++ rest ∧ Visible used ∧ ∀ more, endsWhole more = true →
      fraction? (used ++ more) = some (fractional, more) ∧ endsDigits (used ++ more) = true := by
  rw [fraction?.eq_def] at h
  split at h
  case h_1 tail =>
    rw [Option.map_eq_some_iff] at h
    obtain ⟨rest', read, same⟩ := h
    obtain ⟨rfl, rfl⟩ := Prod.mk.inj same
    obtain ⟨d, ds, rfl, -, visible, again⟩ := digits?_used read
    refine ⟨'.' :: d :: ds, rfl, List.forall_mem_cons.mpr ⟨by decide, visible⟩, fun more ends => ?_⟩
    rw [List.cons_append, fraction?, again more (endsDigits_of_endsWhole ends)]
    exact ⟨rfl, rfl⟩
  case h_2 cs other =>
    obtain ⟨rfl, rfl⟩ := Prod.mk.inj (Option.some.inj h)
    refine ⟨[], rfl, by simp [Visible], fun more ends => ⟨?_, endsDigits_of_endsWhole ends⟩⟩
    cases more with
    | nil => rfl
    | cons c more =>
      have point : c ≠ '.' := by simp_all [endsWhole]
      simp [fraction?, point]

private theorem scale_used {e : Char} (mark : e = 'e' ∨ e = 'E') {tail rest : List Char}
    {scaled : Bool}
    (h : exponent? (e :: tail) = some (scaled, rest)) :
    ∃ used, tail = used ++ rest ∧ Visible used ∧ ∀ more, endsDigits more = true →
      exponent? (e :: used ++ more) = some (scaled, more) := by
  rw [exponent?.eq_def] at h
  simp only [mark, if_true] at h
  split at h
  all_goals
    rw [Option.map_eq_some_iff] at h
    obtain ⟨rest', read, same⟩ := h
    obtain ⟨rfl, rfl⟩ := Prod.mk.inj same
    obtain ⟨d, ds, rfl, digit, visible, again⟩ := digits?_used read
  case h_1 =>
    refine ⟨'+' :: d :: ds, rfl, List.forall_mem_cons.mpr ⟨by decide, visible⟩, fun more ends => ?_⟩
    have read := again more ends
    simp_all [exponent?]
  case h_2 =>
    refine ⟨'-' :: d :: ds, rfl, List.forall_mem_cons.mpr ⟨by decide, visible⟩, fun more ends => ?_⟩
    have read := again more ends
    simp_all [exponent?]
  case h_3 plus minus =>
    have unsigned : d ≠ '+' ∧ d ≠ '-' := by
      constructor <;> (rintro rfl; exact absurd digit (by decide))
    refine ⟨d :: ds, rfl, visible, fun more ends => ?_⟩
    have read := again more ends
    simp_all [exponent?]

private theorem exponent?_used {cs rest : List Char} {scaled : Bool}
    (h : exponent? cs = some (scaled, rest)) :
    ∃ used, cs = used ++ rest ∧ Visible used ∧ ∀ more, endsNumber more = true →
      exponent? (used ++ more) = some (scaled, more) ∧ endsWhole (used ++ more) = true := by
  have nothing : ∃ used, rest = used ++ rest ∧ Visible used ∧ ∀ more, endsNumber more = true →
      exponent? (used ++ more) = some (false, more) ∧ endsWhole (used ++ more) = true :=
    ⟨[], rfl, by simp [Visible],
      fun more ends => ⟨exponent?_of_ends ends, endsWhole_of_endsNumber ends⟩⟩
  cases cs with
  | nil =>
    obtain ⟨rfl, rfl⟩ := Prod.mk.inj (Option.some.inj h)
    exact nothing
  | cons e tail =>
    by_cases mark : e = 'e' ∨ e = 'E'
    · have letter : isSpace e = false ∧ (e.isDigit || e == '.') = false := by
        rcases mark with rfl | rfl <;> decide
      obtain ⟨used, rfl, visible, again⟩ := scale_used mark h
      refine ⟨e :: used, rfl, List.forall_mem_cons.mpr ⟨letter.1, visible⟩, fun more ends => ?_⟩
      refine ⟨again more (endsDigits_of_endsNumber ends), ?_⟩
      rw [List.cons_append, endsWhole, letter.2]
      rfl
    · rw [exponent?.eq_def] at h
      simp only [mark, if_false, Option.some.injEq, Prod.mk.injEq] at h
      obtain ⟨rfl, rfl⟩ := h
      exact nothing

/-- The number whose digits before the point have been read. -/
def scaled? (whole rest : List Char) : Option (Json × List Char) :=
  match fraction? rest with
  | none => none
  | some (fractional, rest) =>
    match exponent? rest with
    | none => none
    | some (scaled, rest) =>
      some (if fractional || scaled then .otherNumber else .natural (decimal whole), rest)

private theorem scaled?_used {whole cs rest : List Char} {v : Json}
    (h : scaled? whole cs = some (v, rest)) :
    ∃ used, cs = used ++ rest ∧ Visible used ∧ v.isNumber = true ∧ ∀ more, endsNumber more = true →
      scaled? whole (used ++ more) = some (v, more) ∧ endsDigits (used ++ more) = true := by
  rw [scaled?] at h
  cases point : fraction? cs with
  | none => simp [point] at h
  | some r =>
    obtain ⟨fractional, tail⟩ := r
    obtain ⟨first, rfl, visible, again⟩ := fraction?_used point
    cases mark : exponent? tail with
    | none => simp [point, mark] at h
    | some r =>
      obtain ⟨scaled, tail'⟩ := r
      obtain ⟨second, rfl, visible', again'⟩ := exponent?_used mark
      simp only [point, mark, Option.some.injEq, Prod.mk.injEq] at h
      obtain ⟨rfl, rfl⟩ := h
      refine ⟨first ++ second, (List.append_assoc ..).symm, ?_, ?_, fun more ends => ?_⟩
      · exact List.forall_mem_append.mpr ⟨visible, visible'⟩
      · cases fractional || scaled <;> rfl
      · obtain ⟨last, whole'⟩ := again' more ends
        obtain ⟨read, digits⟩ := again (second ++ more) whole'
        rw [List.append_assoc]
        refine ⟨?_, digits⟩
        rw [scaled?, read]
        simp only [last]

private theorem unsigned?_zero (rest : List Char) :
    unsigned? ('0' :: rest) = scaled? ['0'] rest := by
  rw [unsigned?.eq_1]
  rfl

private theorem unsigned?_digits {d : Char} {ds rest : List Char} (proper : d ≠ '0')
    (split : (d :: ds ++ rest).span Char.isDigit = (d :: ds, rest)) :
    unsigned? (d :: ds ++ rest) = scaled? (d :: ds) rest := by
  rw [List.cons_append] at split ⊢
  rw [unsigned?.eq_2 _ (by simp [proper]), split]
  rfl

private theorem unsigned?_used {cs rest : List Char} {v : Json}
    (h : unsigned? cs = some (v, rest)) :
    ∃ d used, d.isDigit = true ∧ cs = d :: used ++ rest ∧ Visible (d :: used) ∧ v.isNumber = true ∧
      ∀ more, endsNumber more = true → unsigned? (d :: used ++ more) = some (v, more) := by
  cases split : cs.span Char.isDigit with
  | mk whole tail =>
    obtain ⟨rfl, all⟩ := span_used split
    cases whole with
    | nil =>
      rw [List.nil_append] at split h
      have signed : ∀ rest, tail = '0' :: rest → False := by
        rintro rest rfl
        simp [List.span_eq_takeWhile_dropWhile] at split
      rw [unsigned?.eq_2 _ signed, split] at h
      simp at h
    | cons d ds =>
      by_cases zero : d = '0'
      · subst zero
        rw [List.cons_append, unsigned?_zero] at h
        obtain ⟨used, same, visible, number, again⟩ := scaled?_used h
        refine ⟨'0', used, rfl, ?_, List.forall_mem_cons.mpr ⟨by decide, visible⟩, number, ?_⟩
        · rw [List.cons_append, same, List.cons_append]
        · intro more ends
          rw [List.cons_append, unsigned?_zero]
          exact (again more ends).1
      · rw [unsigned?_digits zero split] at h
        obtain ⟨used, rfl, visible, number, again⟩ := scaled?_used h
        refine ⟨d, ds ++ used, all d List.mem_cons_self, by simp, ?_, number, fun more ends => ?_⟩
        · exact List.forall_mem_append.mpr ⟨visible_of_digits all, visible⟩
        · obtain ⟨read, digits⟩ := again more ends
          rw [List.cons_append, List.append_assoc, ← List.cons_append,
            unsigned?_digits zero (span_digits all digits)]
          exact read

theorem number?_used {cs rest : List Char} {v : Json} (h : number? cs = some (v, rest)) :
    ∃ c used, (c.isDigit = true ∨ c = '-') ∧ cs = c :: used ++ rest ∧ Visible (c :: used) ∧
      v.isNumber = true ∧
      ∀ more, endsNumber more = true → number? (c :: used ++ more) = some (v, more) := by
  rw [number?.eq_def] at h
  split at h
  case h_1 tail =>
    rw [Option.map_eq_some_iff] at h
    obtain ⟨r, read, same⟩ := h
    obtain ⟨rfl, rfl⟩ := Prod.mk.inj same
    obtain ⟨d, used, -, rfl, visible, -, again⟩ := unsigned?_used read
    refine ⟨'-', d :: used, .inr rfl, rfl, ?_, rfl, fun more ends => ?_⟩
    · exact List.forall_mem_cons.mpr ⟨by decide, visible⟩
    · rw [List.cons_append, number?, again more ends]
      rfl
  case h_2 plain =>
    obtain ⟨d, used, digit, rfl, visible, number, again⟩ := unsigned?_used h
    refine ⟨d, used, .inl digit, rfl, visible, number, fun more ends => ?_⟩
    have signless : d ≠ '-' := by
      rintro rfl
      exact absurd digit (by decide)
    rw [← again more ends, List.cons_append, number?]
    simp [signless]

/-! ## Spaces -/

theorem skipSpace_append {spaces : List Char} (all : spaces.all isSpace = true) (cs : List Char) :
    skipSpace (spaces ++ cs) = skipSpace cs :=
  List.dropWhile_append_of_pos (List.all_eq_true.mp all)

theorem skipSpace_used (cs : List Char) :
    ∃ spaces, cs = spaces ++ skipSpace cs ∧ spaces.all isSpace = true :=
  ⟨cs.takeWhile isSpace, List.takeWhile_append_dropWhile.symm,
    List.all_eq_true.mpr fun _ hc => List.mem_takeWhile_imp hc⟩

theorem isSpace_of_skipSpace {cs tail : List Char} {c : Char}
    (h : skipSpace cs = c :: tail) : isSpace c = false := by
  induction cs with
  | nil => simp [skipSpace] at h
  | cons d cs ih =>
    by_cases space : isSpace d = true
    · rw [skipSpace, List.dropWhile_cons_of_pos space] at h
      exact ih h
    · rw [Bool.not_eq_true] at space
      rw [skipSpace_cons space, List.cons.injEq] at h
      rw [← h.1]
      exact space

theorem endsNumber_spaces {spaces : List Char} (all : spaces.all isSpace = true)
    {rest : List Char} (ends : endsNumber rest = true) : endsNumber (spaces ++ rest) = true := by
  cases spaces with
  | nil => exact ends
  | cons c spaces =>
    have space : isSpace c = true := (Bool.and_eq_true_iff.mp all).1
    simp only [isSpace, Bool.or_eq_true, decide_eq_true_eq] at space
    rcases space with ((rfl | rfl) | rfl) | rfl <;> rfl

end Shortlink.Json
