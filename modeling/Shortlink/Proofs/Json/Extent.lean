import Shortlink.Proofs.Json.TokenExtent
/-!
# How far a value goes

Reading a value takes the characters of its text and leaves the rest alone. So spaces at the end of
a text make no difference, and an object that is cut short is no value.
-/
namespace Shortlink.Json

/-- Whether a text is there and ends in something else than a space. -/
def Closed (used : List Char) : Prop := ∃ start c, used = start ++ [c] ∧ isSpace c = false

/-- The texts of a value. A text is read as far as it goes, with one step for each character. -/
structure Spells (v : Json) (used : List Char) : Prop where
  closed : Closed used
  read : ∀ fuel rest, used.length ≤ fuel → (v.isNumber = true → endsNumber rest = true) →
    value? fuel (used ++ rest) = some (v, rest)

theorem Closed.append (start : List Char) {used : List Char} (h : Closed used) :
    Closed (start ++ used) := by
  obtain ⟨before, c, rfl, visible⟩ := h
  exact ⟨start ++ before, c, by rw [List.append_assoc], visible⟩

private theorem Closed.length_pos {used : List Char} (h : Closed used) : 0 < used.length := by
  obtain ⟨before, c, rfl, -⟩ := h
  simp

theorem Spells.spaces {v : Json} {used : List Char} (h : Spells v used) {spaces : List Char}
    (all : spaces.all isSpace = true) : Spells v (spaces ++ used) where
  closed := h.closed.append spaces
  read fuel rest enough ends := by
    have long := h.closed.length_pos
    rw [List.length_append] at enough
    cases fuel with
    | zero => omega
    | succ k =>
      have read := h.read (k + 1) rest (by omega) ends
      rw [value?] at read
      rw [List.append_assoc, value?, skipSpace_append all]
      exact read

/-! ## Values -/

theorem spells_of_succ {v : Json} {used : List Char} (closed : Closed used)
    (read : ∀ k rest, used.length ≤ k + 1 → (v.isNumber = true → endsNumber rest = true) →
      value? (k + 1) (used ++ rest) = some (v, rest)) : Spells v used := by
  refine ⟨closed, fun fuel rest enough ends => ?_⟩
  have long := closed.length_pos
  cases fuel with
  | zero => omega
  | succ k => exact read k rest enough ends

private theorem spells_word {v : Json} {used : List Char} (closed : Closed used)
    (read : ∀ k rest, value? (k + 1) (used ++ rest) = some (v, rest)) : Spells v used :=
  spells_of_succ closed fun k rest _ _ => read k rest

private theorem spells_string {tail : List Char} {s : Option String}
    (read : ∀ more, string? (tail ++ '"' :: more) = some (s, more)) :
    Spells (.string s) ('"' :: tail ++ ['"']) := by
  refine spells_word ⟨'"' :: tail, '"', rfl, rfl⟩ fun k rest => ?_
  rw [value?, List.cons_append, List.cons_append, skipSpace_cons rfl, List.append_assoc,
    List.singleton_append]
  simp only [read, Option.map_some]

private theorem spells_number {v : Json} {c : Char} {used : List Char}
    (start : c.isDigit = true ∨ c = '-') (visible : Visible (c :: used))
    (read : ∀ more, endsNumber more = true → number? (c :: used ++ more) = some (v, more))
    (number : v.isNumber = true) : Spells v (c :: used) := by
  have closed : Closed (c :: used) := by
    have proper := List.cons_ne_nil c used
    exact ⟨_, _, (List.dropLast_concat_getLast proper).symm, visible _ (List.getLast_mem proper)⟩
  refine spells_of_succ closed fun k rest _ ends => ?_
  rw [← read rest (ends number), List.cons_append]
  rcases start with digit | rfl
  · exact value?_figure digit k _
  · rfl

/-- The texts of what stands before a closing bracket, that bracket included. -/
structure SpellsRest {α : Type} (read : Nat → List Char → Option (α × List Char)) (a : α)
    (used : List Char) : Prop where
  closed : Closed used
  read : ∀ fuel rest, used.length ≤ fuel → read fuel (used ++ rest) = some (a, rest)

private theorem spellsRest_of_succ {α : Type} {read : Nat → List Char → Option (α × List Char)}
    {a : α} {used : List Char} (closed : Closed used)
    (once : ∀ k rest, used.length ≤ k + 1 → read (k + 1) (used ++ rest) = some (a, rest)) :
    SpellsRest read a used := by
  refine ⟨closed, fun fuel rest enough => ?_⟩
  have long := closed.length_pos
  cases fuel with
  | zero => omega
  | succ k => exact once k rest enough

/-- What stands between brackets: nothing, or what a reader finds there. -/
def between? {α : Type} (close : Char) (inner : List Char → Option (List α × List Char))
    (cs : List Char) : Option (List α × List Char) :=
  match skipSpace cs with
  | [] => inner []
  | c :: rest => if c = close then some ([], rest) else inner (c :: rest)

theorem value?_bracket (k : Nat) (cs : List Char) :
    value? (k + 1) ('[' :: cs) = (between? ']' (items? k · []) cs).map fun r => (.array r.1, r.2) := by
  rw [value?, skipSpace_cons rfl, between?]
  simp only
  cases skipSpace cs with
  | nil => rfl
  | cons c rest =>
    by_cases close : c = ']'
    · subst close
      rfl
    · simp [close]

theorem value?_brace (k : Nat) (cs : List Char) : value? (k + 1) ('\x7b' :: cs) =
    (between? '\x7d' (members? k · []) cs).map fun r => (.object r.1, r.2) := by
  rw [value?, skipSpace_cons rfl, between?]
  simp only
  cases skipSpace cs with
  | nil => rfl
  | cons c rest =>
    by_cases close : c = '\x7d'
    · subst close
      rfl
    · simp [close]

private theorem between?_used {α : Type} {close : Char}
    (inner : Nat → List Char → Option (List α × List Char)) {k : Nat}
    (extent : ∀ {cs rest : List Char} {as : List α}, inner k cs = some (as, rest) →
      ∃ used, cs = used ++ rest ∧ SpellsRest inner as used)
    {cs rest : List Char} {as : List α} (h : between? close (inner k) cs = some (as, rest)) :
    ∃ used, cs = used ++ rest ∧ SpellsRest (fun fuel => between? close (inner fuel)) as used := by
  obtain ⟨spaces, same, all⟩ := skipSpace_used cs
  rw [between?] at h
  cases start : skipSpace cs with
  | nil =>
    rw [start] at h
    obtain ⟨used, nothing, spells⟩ := extent h
    have long := spells.closed.length_pos
    rw [List.length_pos_iff] at long
    exact absurd (List.append_eq_nil_iff.mp nothing.symm).1 long
  | cons c tail =>
    have first := isSpace_of_skipSpace start
    rw [start] at h same
    by_cases closing : c = close
    · subst closing
      simp only [if_true, Option.some.injEq, Prod.mk.injEq] at h
      obtain ⟨rfl, rfl⟩ := h
      refine ⟨spaces ++ [c], by rw [same, List.append_assoc, List.singleton_append], ?_, ?_⟩
      · exact ⟨spaces, c, rfl, first⟩
      · intro fuel rest _
        rw [List.append_assoc, List.singleton_append, between?, skipSpace_append all,
          skipSpace_cons first]
        simp only [if_true]
    · simp only [closing, if_false] at h
      obtain ⟨used, split, spells⟩ := extent h
      have long := spells.closed.length_pos
      cases used with
      | nil => simp at long
      | cons c' used =>
        obtain ⟨rfl, rfl⟩ := List.cons.inj split
        refine ⟨spaces ++ c :: used, by rw [same, List.append_assoc]; rfl, ?_, ?_⟩
        · exact spells.closed.append spaces
        · intro fuel rest enough
          rw [List.length_append] at enough
          rw [List.append_assoc, List.cons_append, between?, skipSpace_append all,
            skipSpace_cons first]
          simp only [closing, if_false]
          exact spells.read fuel rest (by omega)

private theorem spells_between {α : Type} {first close : Char} {make : List α → Json}
    {inner : Nat → List Char → Option (List α × List Char)}
    (reads : ∀ k cs, value? (k + 1) (first :: cs) =
      (between? close (inner k) cs).map fun r => (make r.1, r.2)) {k : Nat}
    (extent : ∀ {cs rest : List Char} {as : List α}, inner k cs = some (as, rest) →
      ∃ used, cs = used ++ rest ∧ SpellsRest inner as used)
    {cs rest : List Char} {v : Json} (h : value? (k + 1) (first :: cs) = some (v, rest)) :
    ∃ used, cs = used ++ rest ∧ Spells v (first :: used) := by
  rw [reads] at h
  obtain ⟨⟨as, tail⟩, read, same⟩ := Option.map_eq_some_iff.mp h
  obtain ⟨rfl, rfl⟩ := Prod.mk.inj same
  obtain ⟨used, rfl, spells⟩ := between?_used inner extent read
  refine ⟨used, rfl, spells_of_succ (spells.closed.append [first]) fun k' rest enough _ => ?_⟩
  rw [List.cons_append, reads, spells.read k' rest (by simpa using enough)]
  rfl

section
variable {v : Json} {used spaces : List Char} (spells : Spells v used)
  (all : spaces.all isSpace = true)
include spells all

private theorem Spells.followed {c : Char} {rest : List Char} (ends : endsNumber (c :: rest) = true)
    {k : Nat} (enough : used.length ≤ k) :
    value? k (used ++ (spaces ++ c :: rest)) = some (v, spaces ++ c :: rest) :=
  spells.read k _ enough fun _ => endsNumber_spaces all ends

private theorem items?_comma {k : Nat} (enough : used.length ≤ k) (rest : List Char)
    (acc : List Json) :
    items? (k + 1) (used ++ (spaces ++ ',' :: rest)) acc = items? k rest (v :: acc) := by
  rw [items?, spells.followed all rfl enough]
  simp only [skipSpace_append all, skipSpace_cons (show isSpace ',' = false by decide)]

private theorem items?_bracket {k : Nat} (enough : used.length ≤ k) (rest : List Char)
    (acc : List Json) :
    items? (k + 1) (used ++ (spaces ++ ']' :: rest)) acc = some ((v :: acc).reverse, rest) := by
  rw [items?, spells.followed all rfl enough]
  simp only [skipSpace_append all, skipSpace_cons (show isSpace ']' = false by decide)]

theorem spellsRest_item {acc vs : List Json} {more : List Char}
    (others : SpellsRest (fun fuel cs => items? fuel cs (v :: acc)) vs more) :
    SpellsRest (fun fuel cs => items? fuel cs acc) vs (used ++ (spaces ++ ',' :: more)) := by
  refine spellsRest_of_succ ?_ fun k rest enough => ?_
  · exact ((others.closed.append [',']).append spaces).append used
  · simp only [List.length_append, List.length_cons] at enough
    have layout : used ++ (spaces ++ ',' :: more) ++ rest =
        used ++ (spaces ++ ',' :: (more ++ rest)) := by simp
    rw [layout, items?_comma spells all (by omega)]
    exact others.read k rest (by omega)

theorem spellsRest_lastItem (acc : List Json) :
    SpellsRest (fun fuel cs => items? fuel cs acc) (v :: acc).reverse
      (used ++ (spaces ++ [']'])) := by
  refine spellsRest_of_succ (Closed.append used ⟨spaces, ']', rfl, rfl⟩) fun k rest enough => ?_
  simp only [List.length_append, List.length_cons] at enough
  have layout : used ++ (spaces ++ [']']) ++ rest = used ++ (spaces ++ ']' :: rest) := by simp
  rw [layout, items?_bracket spells all (by omega)]

end

/-- The texts of a name in quotes with the colon after it. -/
structure SpellsName (name : Option String) (used : List Char) : Prop where
  comma : ∀ {k v cs spaces rest acc}, spaces.all isSpace = true →
    value? k cs = some (v, spaces ++ ',' :: rest) →
    members? (k + 1) (used ++ cs) acc = members? k rest ((name, v) :: acc)
  brace : ∀ {k v cs spaces rest acc}, spaces.all isSpace = true →
    value? k cs = some (v, spaces ++ '\x7d' :: rest) →
    members? (k + 1) (used ++ cs) acc = some (((name, v) :: acc).reverse, rest)

theorem spellsName {name : Option String} {text spaces spaces' : List Char}
    (read : ∀ more, string? (text ++ '"' :: more) = some (name, more))
    (all : spaces.all isSpace = true) (all' : spaces'.all isSpace = true) :
    SpellsName name (spaces ++ '"' :: text ++ '"' :: (spaces' ++ [':'])) := by
  have layout (cs : List Char) : spaces ++ '"' :: text ++ '"' :: (spaces' ++ [':']) ++ cs =
      spaces ++ '"' :: (text ++ '"' :: (spaces' ++ ':' :: cs)) := by simp
  constructor
  · intro k v cs spaces'' rest acc all'' value
    rw [layout, members?, skipSpace_append all, skipSpace_cons (by decide)]
    simp only [read, skipSpace_append all', skipSpace_cons (show isSpace ':' = false by decide),
      value, skipSpace_append all'', skipSpace_cons (show isSpace ',' = false by decide)]
  · intro k v cs spaces'' rest acc all'' value
    rw [layout, members?, skipSpace_append all, skipSpace_cons (by decide)]
    simp only [read, skipSpace_append all', skipSpace_cons (show isSpace ':' = false by decide),
      value, skipSpace_append all'', skipSpace_cons (show isSpace '\x7d' = false by decide)]

section
variable {name : Option String} {v : Json} {start used spaces : List Char}
  (named : SpellsName name start) (spells : Spells v used) (all : spaces.all isSpace = true)
include named spells all

theorem spellsRest_member {acc ms : List (Option String × Json)} {more : List Char}
    (others : SpellsRest (fun fuel cs => members? fuel cs ((name, v) :: acc)) ms more) :
    SpellsRest (fun fuel cs => members? fuel cs acc) ms
      (start ++ (used ++ (spaces ++ ',' :: more))) := by
  refine spellsRest_of_succ ?_ fun k rest enough => ?_
  · exact (((others.closed.append [',']).append spaces).append used).append start
  · simp only [List.length_append, List.length_cons] at enough
    have layout : start ++ (used ++ (spaces ++ ',' :: more)) ++ rest =
        start ++ (used ++ (spaces ++ ',' :: (more ++ rest))) := by simp
    rw [layout, named.comma all (spells.followed all rfl (by omega))]
    exact others.read k rest (by omega)

theorem spellsRest_lastMember (acc : List (Option String × Json)) :
    SpellsRest (fun fuel cs => members? fuel cs acc) ((name, v) :: acc).reverse
      (start ++ (used ++ (spaces ++ ['\x7d']))) := by
  refine spellsRest_of_succ ?_ fun k rest enough => ?_
  · exact (Closed.append used ⟨spaces, '\x7d', rfl, rfl⟩).append start
  · simp only [List.length_append, List.length_cons] at enough
    have layout : start ++ (used ++ (spaces ++ ['\x7d'])) ++ rest =
        start ++ (used ++ (spaces ++ '\x7d' :: rest)) := by simp
    rw [layout, named.brace all (spells.followed all rfl (by omega))]

end

private theorem members?_parts {k : Nat} {cs rest : List Char}
    {acc ms : List (Option String × Json)} (h : members? (k + 1) cs acc = some (ms, rest)) :
    ∃ name used value tail v, cs = used ++ value ∧ SpellsName name used ∧
      value? k value = some (v, tail) ∧
      ((∃ more, skipSpace tail = ',' :: more ∧
          members? k more ((name, v) :: acc) = some (ms, rest)) ∨
        (skipSpace tail = '\x7d' :: rest ∧ ms = ((name, v) :: acc).reverse)) := by
  obtain ⟨spaces, same, all⟩ := skipSpace_used cs
  rw [members?] at h
  split at h
  case h_2 => simp at h
  case h_1 quoted start =>
    cases read : string? quoted with
    | none => simp [read] at h
    | some s =>
      obtain ⟨name, tail⟩ := s
      obtain ⟨text, rfl, again⟩ := string?_used read
      obtain ⟨spaces', same', all'⟩ := skipSpace_used tail
      simp only [read] at h
      split at h
      case h_2 => simp at h
      case h_1 value colon =>
        rw [start] at same
        rw [colon] at same'
        have layout : cs = spaces ++ '"' :: text ++ '"' :: (spaces' ++ [':']) ++ value := by
          rw [same, same']
          simp
        cases found : value? k value with
        | none => simp [found] at h
        | some r =>
          obtain ⟨v, tail'⟩ := r
          refine ⟨name, _, value, tail', v, layout, spellsName again all all', found, ?_⟩
          simp only [found] at h
          split at h
          case h_1 more comma => exact .inl ⟨more, comma, h⟩
          case h_2 more brace =>
            obtain ⟨rfl, rfl⟩ := Prod.mk.inj (Option.some.inj h)
            exact .inr ⟨brace, rfl⟩
          case h_3 => simp at h

mutual

/-- What has been read as a value is a text of that value. -/
theorem value?_used : ∀ {k : Nat} {cs rest : List Char} {v : Json}, value? k cs = some (v, rest) →
    ∃ used, cs = used ++ rest ∧ Spells v used
  | 0, _, _, _, h => by simp [value?] at h
  | k + 1, cs, rest, v, h => by
    obtain ⟨spaces, same, all⟩ := skipSpace_used cs
    -- the spaces in front belong to the text, so what follows is about the value proper
    suffices value : ∃ used, skipSpace cs = used ++ rest ∧ Spells v used by
      obtain ⟨used, split, spells⟩ := value
      refine ⟨spaces ++ used, ?_, spells.spaces all⟩
      rw [List.append_assoc, ← split]
      exact same
    rw [value?] at h
    split at h
    case h_1 start =>
      obtain ⟨rfl, rfl⟩ := Prod.mk.inj (Option.some.inj h)
      exact ⟨['n', 'u', 'l', 'l'], start, spells_word ⟨['n', 'u', 'l'], 'l', rfl, rfl⟩ fun _ _ => rfl⟩
    case h_2 start =>
      obtain ⟨rfl, rfl⟩ := Prod.mk.inj (Option.some.inj h)
      exact ⟨['t', 'r', 'u', 'e'], start, spells_word ⟨['t', 'r', 'u'], 'e', rfl, rfl⟩ fun _ _ => rfl⟩
    case h_3 start =>
      obtain ⟨rfl, rfl⟩ := Prod.mk.inj (Option.some.inj h)
      exact ⟨['f', 'a', 'l', 's', 'e'], start, spells_word ⟨['f', 'a', 'l', 's'], 'e', rfl, rfl⟩ fun _ _ => rfl⟩
    case h_4 tail start =>
      rw [Option.map_eq_some_iff] at h
      obtain ⟨⟨s, rest'⟩, read, same'⟩ := h
      obtain ⟨rfl, rfl⟩ := Prod.mk.inj same'
      obtain ⟨text, rfl, again⟩ := string?_used read
      exact ⟨'"' :: text ++ ['"'], by simp [start], spells_string again⟩
    case h_5 tail start =>
      have bracket : value? (k + 1) ('[' :: tail) = some (v, rest) := by
        rw [value?, skipSpace_cons rfl]
        exact h
      obtain ⟨used, rfl, spells⟩ := spells_between value?_bracket items?_used bracket
      exact ⟨'[' :: used, start, spells⟩
    case h_6 tail start =>
      have brace : value? (k + 1) ('\x7b' :: tail) = some (v, rest) := by
        rw [value?, skipSpace_cons rfl]
        exact h
      obtain ⟨used, rfl, spells⟩ := spells_between value?_brace members?_used brace
      exact ⟨'\x7b' :: used, start, spells⟩
    case h_7 =>
      obtain ⟨c, used, first, split, visible, number, again⟩ := number?_used h
      exact ⟨c :: used, split, spells_number first visible again number⟩

private theorem items?_used : ∀ {k : Nat} {cs rest : List Char} {acc vs : List Json},
    items? k cs acc = some (vs, rest) →
    ∃ used, cs = used ++ rest ∧ SpellsRest (fun fuel cs => items? fuel cs acc) vs used
  | 0, _, _, _, _, h => by simp [items?] at h
  | k + 1, cs, rest, acc, vs, h => by
    rw [items?] at h
    cases read : value? k cs with
    | none => simp [read] at h
    | some r =>
      obtain ⟨v, tail⟩ := r
      obtain ⟨text, rfl, spells⟩ := value?_used read
      obtain ⟨spaces, same, all⟩ := skipSpace_used tail
      simp only [read] at h
      split at h
      case h_1 more comma =>
        obtain ⟨used, rfl, others⟩ := items?_used h
        rw [comma] at same
        exact ⟨text ++ (spaces ++ ',' :: used), by rw [same]; simp, spellsRest_item spells all others⟩
      case h_2 more bracket =>
        obtain ⟨rfl, rfl⟩ := Prod.mk.inj (Option.some.inj h)
        rw [bracket] at same
        exact ⟨text ++ (spaces ++ [']']), by rw [same]; simp, spellsRest_lastItem spells all acc⟩
      case h_3 => simp at h

private theorem members?_used :
    ∀ {k : Nat} {cs rest : List Char} {acc ms : List (Option String × Json)},
    members? k cs acc = some (ms, rest) →
    ∃ used, cs = used ++ rest ∧ SpellsRest (fun fuel cs => members? fuel cs acc) ms used
  | 0, _, _, _, _, h => by simp [members?] at h
  | k + 1, cs, rest, acc, ms, h => by
    obtain ⟨name, start, value, tail, v, rfl, named, read, onward⟩ := members?_parts h
    obtain ⟨text, rfl, spells⟩ := value?_used read
    obtain ⟨spaces, same, all⟩ := skipSpace_used tail
    rcases onward with ⟨more, comma, later⟩ | ⟨brace, rfl⟩
    · obtain ⟨used, rfl, others⟩ := members?_used later
      rw [comma] at same
      exact ⟨start ++ (text ++ (spaces ++ ',' :: used)), by rw [same]; simp,
        spellsRest_member named spells all others⟩
    · rw [brace] at same
      exact ⟨start ++ (text ++ (spaces ++ ['\x7d'])), by rw [same]; simp,
        spellsRest_lastMember named spells all acc⟩

end

/-! ## Whole texts -/

/-- The texts of a value are the texts that are read as it, with spaces behind them or without. -/
theorem parse?_eq_some_iff {cs : List Char} {v : Json} : parse? cs = some v ↔
    ∃ used spaces, cs = used ++ spaces ∧ spaces.all isSpace = true ∧ Spells v used := by
  constructor
  · intro h
    rw [parse?] at h
    cases read : value? (cs.length + 1) cs with
    | none => simp [read] at h
    | some r =>
      obtain ⟨w, rest⟩ := r
      simp only [read, Option.ite_none_right_eq_some, Option.some.injEq] at h
      obtain ⟨ended, rfl⟩ := h
      obtain ⟨used, rfl, spells⟩ := value?_used read
      rw [skipSpace, List.dropWhile_eq_nil_iff] at ended
      exact ⟨used, rest, rfl, List.all_eq_true.mpr ended, spells⟩
  · rintro ⟨used, spaces, rfl, all, spells⟩
    have ends : endsNumber (spaces ++ []) = true := endsNumber_spaces all rfl
    rw [List.append_nil] at ends
    rw [parse?, spells.read _ _ (by rw [List.length_append]; omega) fun _ => ends]
    have skipped : skipSpace spaces = [] := List.dropWhile_eq_nil_iff.mpr (List.all_eq_true.mp all)
    simp only [skipped, if_true]

theorem parse?_append_space {c : Char} (space : isSpace c = true) (cs : List Char) :
    parse? (cs ++ [c]) = parse? cs := by
  refine Option.ext fun v => ?_
  rw [parse?_eq_some_iff, parse?_eq_some_iff]
  constructor
  · rintro ⟨used, spaces, split, all, spells⟩
    rcases List.eq_nil_or_concat spaces with rfl | ⟨spaces, d, rfl⟩
    · obtain ⟨start, d, rfl, visible⟩ := spells.closed
      rw [List.append_nil] at split
      obtain ⟨-, rfl⟩ := List.append_inj' split rfl |>.imp_right List.singleton_inj.mp
      rw [space] at visible
      contradiction
    · rw [List.concat_eq_append, ← List.append_assoc] at split
      obtain ⟨rfl, -⟩ := List.append_inj' split rfl
      rw [List.concat_eq_append, List.all_append, Bool.and_eq_true] at all
      exact ⟨used, spaces, rfl, all.1, spells⟩
  · rintro ⟨used, spaces, rfl, all, spells⟩
    refine ⟨used, spaces ++ [c], List.append_assoc .., ?_, spells⟩
    simp [all, space]

private theorem isNumber_of_brace {v : Json} {used : List Char}
    (spells : Spells v ('\x7b' :: used)) :
    v.isNumber = false := by
  have read := spells.read _ [] (Nat.le_refl _) fun _ => rfl
  rw [List.append_nil, List.length_cons, value?_brace, Option.map_eq_some_iff] at read
  obtain ⟨_, -, same⟩ := read
  rw [← (Prod.mk.inj same).1]
  rfl

theorem parse?_of_cut {members : List (Option String × Json)}
    (plain : (object members).isPlain = true) {part missing : List Char}
    (cut : compact (object members) = part ++ missing) (proper : missing ≠ []) :
    parse? part = none := by
  refine Option.eq_none_iff_forall_ne_some.mpr fun v read => ?_
  obtain ⟨used, spaces, rfl, all, spells⟩ := parse?_eq_some_iff.mp read
  rw [List.append_assoc] at cut
  have long := spells.closed.length_pos
  cases used with
  | nil => simp at long
  | cons c used =>
    have brace : c = '\x7b' := by
      rw [compact, List.cons_append] at cut
      exact (List.cons.inj cut).1.symm
    subst brace
    have within : ('\x7b' :: used).length ≤ (compact (object members)).length := by
      rw [cut, List.length_append]
      omega
    have short := spells.read _ (spaces ++ missing) within fun number => by
      rw [isNumber_of_brace spells] at number
      contradiction
    have whole := value?_compact (object members) _ [] plain (Nat.le_refl _) rfl
    rw [List.append_nil] at whole
    rw [← cut, whole, Option.some.injEq, Prod.mk.injEq] at short
    exact proper (List.append_eq_nil_iff.mp short.2.symm).2

end Shortlink.Json
