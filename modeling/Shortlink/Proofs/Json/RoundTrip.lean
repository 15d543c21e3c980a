import Shortlink.Proofs.Json.Scalar
/-!
# Reading JSON back

A value that is made of texts and natural numbers is read back from its compact form, whatever
follows that form. The budget of the reader is the length of the form.
-/
namespace Shortlink.Json

mutual

/-- Whether every string stands for a text and every number is natural. -/
def isPlain : Json → Bool
  | null => true
  | bool _ => true
  | natural _ => true
  | otherNumber => false
  | string s => s.isSome
  | array items => arePlain items
  | object members => membersPlain members

def arePlain : List Json → Bool
  | [] => true
  | v :: rest => isPlain v && arePlain rest

def membersPlain : List (Option String × Json) → Bool
  | [] => true
  | (name, v) :: rest => name.isSome && isPlain v && membersPlain rest

end

theorem skipSpace_cons {c : Char} (h : isSpace c = false) (cs : List Char) :
    skipSpace (c :: cs) = c :: cs := by
  simp [skipSpace, h]

theorem space_of_digit {c : Char} (h : c.isDigit = true) :
    isSpace c = false ∧ c ≠ ']' ∧ c ≠ '\x7d' := by
  refine ⟨?_, ?_, ?_⟩
  · simp only [isSpace, Bool.or_eq_false_iff, decide_eq_false_iff_not]
    refine ⟨⟨⟨?_, ?_⟩, ?_⟩, ?_⟩ <;> (rintro rfl; exact absurd h (by decide))
  · rintro rfl
    exact absurd h (by decide)
  · rintro rfl
    exact absurd h (by decide)

private theorem cons_toString (n : Nat) :
    ∃ d ds, (toString n).toList = d :: ds ∧ d.isDigit = true := by
  rw [Nat.toString_eq_repr, Nat.toList_repr]
  cases digits : Nat.toDigits 10 n with
  | nil => exact absurd digits Nat.toDigits_ne_nil
  | cons d ds =>
    exact ⟨d, ds, rfl, Nat.isDigit_of_mem_toDigits (by decide) (by decide)
      (digits ▸ List.mem_cons_self)⟩

theorem cons_compact (v : Json) :
    ∃ c cs, compact v = c :: cs ∧ isSpace c = false ∧ c ≠ ']' ∧ c ≠ '\x7d' := by
  cases v with
  | natural n =>
    obtain ⟨d, ds, digits, figure⟩ := cons_toString n
    exact ⟨d, ds, by rw [compact, scalar, digits], space_of_digit figure⟩
  | string s =>
    cases s with
    | none => exact ⟨_, _, by rw [compact]; rfl, by decide, by decide, by decide⟩
    | some s => exact ⟨_, _, by rw [compact]; rfl, by decide, by decide, by decide⟩
  | array items => exact ⟨_, _, by rw [compact], by decide, by decide, by decide⟩
  | object members => exact ⟨_, _, by rw [compact], by decide, by decide, by decide⟩
  | bool b => cases b <;> exact ⟨_, _, by rw [compact]; rfl, by decide, by decide, by decide⟩
  | null => exact ⟨_, _, by rw [compact]; rfl, by decide, by decide, by decide⟩
  | otherNumber => exact ⟨_, _, by rw [compact]; rfl, by decide, by decide, by decide⟩

private theorem skipSpace_compact (v : Json) (rest : List Char) :
    skipSpace (compact v ++ rest) = compact v ++ rest := by
  obtain ⟨c, cs, form, space, -, -⟩ := cons_compact v
  rw [form, List.cons_append, skipSpace_cons space]

/-! ## Values -/

theorem value?_figure {d : Char} (h : d.isDigit = true) (fuel : Nat) (cs : List Char) :
    value? (fuel + 1) (d :: cs) = number? (d :: cs) := by
  obtain ⟨space, -, -⟩ := space_of_digit h
  rw [value?, skipSpace_cons space]
  split
  case h_7 => rfl
  all_goals
    rename_i heq
    cases heq
    exact absurd h (by decide)

private theorem value?_natural (n fuel : Nat) {rest : List Char} (ends : endsNumber rest = true) :
    value? (fuel + 1) ((toString n).toList ++ rest) = some (.natural n, rest) := by
  have read := number?_toString n ends
  obtain ⟨d, ds, digits, figure⟩ := cons_toString n
  rw [digits, List.cons_append] at read ⊢
  rw [value?_figure figure, read]

private theorem value?_string (s : String) (fuel : Nat) (rest : List Char) :
    value? (fuel + 1) (quote (some s) ++ rest) = some (.string (some s), rest) := by
  rw [quote_some, value?, List.cons_append, List.cons_append, skipSpace_cons (by decide),
    List.append_assoc, List.singleton_append]
  simp only [string?_quote, Option.map_some]

private theorem value?_array {v : Json} {fuel : Nat} {cs rest : List Char} {items : List Json}
    (starts : ∃ more, cs = compact v ++ more)
    (read : items? fuel cs [] = some (items, rest)) :
    value? (fuel + 1) ('[' :: cs) = some (.array items, rest) := by
  obtain ⟨more, rfl⟩ := starts
  obtain ⟨c, form, start, -, item, -⟩ := cons_compact v
  rw [value?, skipSpace_cons (by decide)]
  simp only [skipSpace_compact]
  split
  case h_1 heq =>
    rw [start] at heq
    cases heq
    exact absurd rfl item
  case h_2 => rw [read, Option.map_some]

private theorem value?_object {s : String} {fuel : Nat} {cs rest : List Char}
    {members : List (Option String × Json)} (starts : ∃ more, cs = quote (some s) ++ more)
    (read : members? fuel cs [] = some (members, rest)) :
    value? (fuel + 1) ('\x7b' :: cs) = some (.object members, rest) := by
  obtain ⟨more, rfl⟩ := starts
  rw [quote_some, List.cons_append, List.cons_append] at read ⊢
  rw [value?, skipSpace_cons (by decide)]
  simp only [skipSpace_cons (show isSpace '"' = false by decide)]
  split
  case h_1 heq => simp at heq
  case h_2 => rw [read, Option.map_some]

private theorem member_text (name : String) (v : Json) (tail : List Char) :
    quote (some name) ++ ':' :: compact v ++ tail =
      '"' :: (name.toList.flatMap escape ++ '"' :: ':' :: (compact v ++ tail)) := by
  simp [quote_some]

private theorem members?_more {name : String} {v : Json} {fuel : Nat} {rest : List Char}
    (read : value? fuel (compact v ++ ',' :: rest) = some (v, ',' :: rest))
    (acc : List (Option String × Json)) :
    members? (fuel + 1) (quote (some name) ++ ':' :: compact v ++ ',' :: rest) acc =
      members? fuel rest ((some name, v) :: acc) := by
  rw [member_text, members?, skipSpace_cons (by decide)]
  simp only [string?_quote, skipSpace_cons (show isSpace ':' = false by decide), read,
    skipSpace_cons (show isSpace ',' = false by decide)]

private theorem members?_last {name : String} {v : Json} {fuel : Nat} {rest : List Char}
    (read : value? fuel (compact v ++ '\x7d' :: rest) = some (v, '\x7d' :: rest))
    (acc : List (Option String × Json)) :
    members? (fuel + 1) (quote (some name) ++ ':' :: compact v ++ '\x7d' :: rest) acc =
      some (((some name, v) :: acc).reverse, rest) := by
  rw [member_text, members?, skipSpace_cons (by decide)]
  simp only [string?_quote, skipSpace_cons (show isSpace ':' = false by decide), read,
    skipSpace_cons (show isSpace '\x7d' = false by decide)]

mutual

theorem value?_compact : ∀ (v : Json) (fuel : Nat) (rest : List Char), v.isPlain = true →
    (compact v).length ≤ fuel → endsNumber rest = true →
    value? fuel (compact v ++ rest) = some (v, rest)
  | v, 0, _, _, short, _ => by
    obtain ⟨c, cs, form, -⟩ := cons_compact v
    simp [form] at short
  | .null, fuel + 1, rest, _, _, _ => by
    have form : compact .null = ['n', 'u', 'l', 'l'] := by simp [compact, scalar]
    rw [form, value?, skipSpace, List.cons_append, List.dropWhile_cons_of_neg (by decide)]
    rfl
  | .bool b, fuel + 1, rest, _, _, _ => by
    cases b with
    | true =>
      have form : compact (.bool true) = ['t', 'r', 'u', 'e'] := by simp [compact, scalar]
      rw [form, value?, skipSpace, List.cons_append, List.dropWhile_cons_of_neg (by decide)]
      rfl
    | false =>
      have form : compact (.bool false) = ['f', 'a', 'l', 's', 'e'] := by simp [compact, scalar]
      rw [form, value?, skipSpace, List.cons_append, List.dropWhile_cons_of_neg (by decide)]
      rfl
  | .natural n, fuel + 1, rest, _, _, ends => by
    rw [compact, scalar]
    exact value?_natural n fuel ends
  | .otherNumber, _ + 1, _, plain, _, _ => by simp [isPlain] at plain
  | .string none, _ + 1, _, plain, _, _ => by simp [isPlain] at plain
  | .string (some s), fuel + 1, rest, _, _, _ => by
    rw [compact, scalar]
    exact value?_string s fuel rest
  | .array [], fuel + 1, rest, _, _, _ => by
    rw [compact, compactItems, value?, skipSpace, List.cons_append,
      List.dropWhile_cons_of_neg (by decide)]
    rfl
  | .array (v :: items), fuel + 1, rest, plain, short, _ => by
    rw [isPlain] at plain
    rw [compact, List.length_cons] at short
    rw [compact, List.cons_append]
    have read := items?_compact v items fuel rest [] plain (by omega)
    refine value?_array (v := v) ?_ read
    cases items with
    | nil => exact ⟨']' :: rest, by simp [compactItems]⟩
    | cons w items => exact ⟨',' :: compactItems (w :: items) ++ rest, by simp [compactItems]⟩
  | .object [], fuel + 1, rest, _, _, _ => by
    rw [compact, compactMembers, value?, skipSpace, List.cons_append,
      List.dropWhile_cons_of_neg (by decide)]
    rfl
  | .object ((none, _) :: _), _ + 1, _, plain, _, _ => by simp [isPlain, membersPlain] at plain
  | .object ((some name, v) :: members), fuel + 1, rest, plain, short, _ => by
    rw [isPlain] at plain
    rw [compact, List.length_cons] at short
    rw [compact, List.cons_append]
    have read := members?_compact name v members fuel rest [] plain (by omega)
    refine value?_object (s := name) ?_ read
    cases members with
    | nil => exact ⟨':' :: compact v ++ '\x7d' :: rest, by simp [compactMembers]⟩
    | cons m members =>
      exact ⟨':' :: compact v ++ ',' :: compactMembers (m :: members) ++ rest,
        by simp [compactMembers]⟩

private theorem items?_compact : ∀ (v : Json) (items : List Json) (fuel : Nat) (rest : List Char)
    (acc : List Json), arePlain (v :: items) = true →
    (compactItems (v :: items)).length ≤ fuel →
    items? fuel (compactItems (v :: items) ++ rest) acc = some (acc.reverse ++ v :: items, rest)
  | v, [], 0, _, _, _, short => by simp [compactItems] at short
  | v, w :: items, 0, _, _, _, short => by simp [compactItems] at short
  | v, [], fuel + 1, rest, acc, plain, short => by
    simp only [arePlain, Bool.and_true] at plain
    simp only [compactItems, List.length_append, List.length_cons, List.length_nil] at short
    have read := value?_compact v fuel (']' :: rest) plain (by omega) rfl
    rw [compactItems, List.append_assoc, List.singleton_append, items?, read]
    simp [skipSpace_cons (show isSpace ']' = false by decide)]
  | v, w :: items, fuel + 1, rest, acc, plain, short => by
    rw [arePlain, Bool.and_eq_true] at plain
    simp only [compactItems, List.length_append, List.length_cons] at short
    have read := value?_compact v fuel (',' :: (compactItems (w :: items) ++ rest)) plain.1
      (by omega) rfl
    have others := items?_compact w items fuel rest (v :: acc) plain.2 (by omega)
    rw [compactItems, List.append_assoc, List.cons_append, items?, read]
    simp only [skipSpace_cons (show isSpace ',' = false by decide)]
    rw [others]
    simp

private theorem members?_compact :
    ∀ (name : String) (v : Json) (members : List (Option String × Json))
    (fuel : Nat) (rest : List Char) (acc : List (Option String × Json)),
    membersPlain ((some name, v) :: members) = true →
    (compactMembers ((some name, v) :: members)).length ≤ fuel →
    members? fuel (compactMembers ((some name, v) :: members) ++ rest) acc =
      some (acc.reverse ++ (some name, v) :: members, rest)
  | name, v, [], 0, _, _, _, short => by simp [compactMembers] at short
  | name, v, m :: members, 0, _, _, _, short => by simp [compactMembers] at short
  | name, v, [], fuel + 1, rest, acc, plain, short => by
    simp only [membersPlain, Option.isSome_some, Bool.true_and, Bool.and_true] at plain
    simp only [compactMembers, List.length_append, List.length_cons, List.length_nil] at short
    have read := value?_compact v fuel ('\x7d' :: rest) plain (by omega) rfl
    rw [compactMembers, List.append_assoc, List.singleton_append, members?_last read,
      List.reverse_cons]
  | name, v, (none, w) :: members, _ + 1, _, _, plain, _ => by simp [membersPlain] at plain
  | name, v, (some other, w) :: members, fuel + 1, rest, acc, plain, short => by
    rw [membersPlain, Option.isSome_some, Bool.true_and, Bool.and_eq_true] at plain
    simp only [compactMembers, List.length_append, List.length_cons] at short
    have read := value?_compact v fuel
      (',' :: (compactMembers ((some other, w) :: members) ++ rest)) plain.1 (by omega) rfl
    have others := members?_compact other w members fuel rest ((some name, v) :: acc) plain.2
      (by omega)
    have text : compactMembers ((some name, v) :: (some other, w) :: members) ++ rest =
        quote (some name) ++ ':' :: compact v ++
          ',' :: (compactMembers ((some other, w) :: members) ++ rest) := by
      simp [compactMembers]
    rw [text, members?_more read, others, List.reverse_cons, List.append_assoc,
      List.singleton_append]

end

/-- A plain value reads back from its compact form. -/
theorem parse?_compact {v : Json} (plain : v.isPlain = true) : parse? (compact v) = some v := by
  have read := value?_compact v ((compact v).length + 1) [] plain (by omega) rfl
  rw [List.append_nil] at read
  rw [parse?, read]
  simp [skipSpace]

/-! ## Characters -/

mutual

theorem le_of_mem_compact : ∀ (v : Json) {d : Char}, d ∈ compact v → 32 ≤ d.toNat
  | .null, _, h => le_of_mem_scalar (by rwa [compact] at h)
  | .bool _, _, h => le_of_mem_scalar (by rwa [compact] at h)
  | .natural _, _, h => le_of_mem_scalar (by rwa [compact] at h)
  | .otherNumber, _, h => le_of_mem_scalar (by rwa [compact] at h)
  | .string _, _, h => le_of_mem_scalar (by rwa [compact] at h)
  | .array items, _, h => by
    rw [compact, List.mem_cons] at h
    rcases h with rfl | h
    · decide
    · exact le_of_mem_compactItems items h
  | .object members, _, h => by
    rw [compact, List.mem_cons] at h
    rcases h with rfl | h
    · decide
    · exact le_of_mem_compactMembers members h

private theorem le_of_mem_compactItems : ∀ (items : List Json) {d : Char}, d ∈ compactItems items →
    32 ≤ d.toNat
  | [], _, h => by
    rw [compactItems, List.mem_singleton] at h
    subst h
    decide
  | [v], _, h => by
    rw [compactItems, List.mem_append, List.mem_singleton] at h
    rcases h with h | rfl
    · exact le_of_mem_compact v h
    · decide
  | v :: w :: items, _, h => by
    rw [compactItems, List.mem_append, List.mem_cons] at h
    rcases h with h | rfl | h
    · exact le_of_mem_compact v h
    · decide
    · exact le_of_mem_compactItems (w :: items) h

private theorem le_of_mem_compactMembers : ∀ (members : List (Option String × Json)) {d : Char},
    d ∈ compactMembers members → 32 ≤ d.toNat
  | [], _, h => by
    rw [compactMembers, List.mem_singleton] at h
    subst h
    decide
  | [(name, v)], _, h => by
    simp only [compactMembers, List.mem_append, List.mem_cons, List.not_mem_nil, or_false] at h
    rcases h with (h | rfl | h) | rfl
    · exact le_of_mem_quote h
    · decide
    · exact le_of_mem_compact v h
    · decide
  | (name, v) :: m :: members, _, h => by
    simp only [compactMembers, List.mem_append, List.mem_cons] at h
    rcases h with (h | rfl | h) | rfl | h
    · exact le_of_mem_quote h
    · decide
    · exact le_of_mem_compact v h
    · decide
    · exact le_of_mem_compactMembers (m :: members) h

end

end Shortlink.Json
