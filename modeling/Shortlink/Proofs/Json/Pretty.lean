import Shortlink.Proofs.Json.Extent
/-!
# Reading the form for people

A value that is made of texts and natural numbers is read back from the form that is laid out in
lines, as it is from the compact one.
-/
namespace Shortlink.Json

private theorem all_newLine (level : Nat) : (newLine level).all isSpace = true := by
  have line : isSpace '\n' = true := by decide
  rw [newLine, List.all_cons, line, Bool.true_and, List.all_replicate]
  split <;> rfl

private theorem all_blank : [' '].all isSpace = true := rfl

private theorem spells_compact {v : Json} (plain : v.isPlain = true) : Spells v (compact v) := by
  obtain ⟨used, same, spells⟩ := value?_used (value?_compact v _ [] plain (Nat.le_refl _) rfl)
  rw [List.append_nil, List.append_nil] at same
  rwa [same]

private theorem spellsName_quote (s : String) {spaces : List Char}
    (all : spaces.all isSpace = true) :
    SpellsName (some s) (spaces ++ quote (some s) ++ [':']) := by
  have named : SpellsName (some s) (spaces ++ '"' :: s.toList.flatMap escape ++ '"' :: ([] ++ [':'])) :=
    spellsName (string?_quote s) all rfl
  simpa [quote_some] using named

private theorem cons_pretty (level : Nat) (v : Json) :
    ∃ c cs, pretty level v = c :: cs ∧ isSpace c = false ∧ c ≠ ']' ∧ c ≠ '\x7d' := by
  cases v with
  | null => exact cons_compact null
  | bool b => exact cons_compact (bool b)
  | natural n => exact cons_compact (natural n)
  | otherNumber => exact cons_compact otherNumber
  | string s => exact cons_compact (string s)
  | array items =>
    cases items <;> exact ⟨'[', _, by rw [pretty]; rfl, by decide, by decide, by decide⟩
  | object members =>
    cases members <;> exact ⟨'\x7b', _, pretty.eq_def .., by decide, by decide, by decide⟩

private theorem spells_laidOut {α : Type} {first close c : Char} {make : List α → Json}
    {inner : Nat → List Char → Option (List α × List Char)}
    (reads : ∀ k cs, value? (k + 1) (first :: cs) =
      (between? close (inner k) cs).map fun r => (make r.1, r.2))
    {level : Nat} {as : List α} {body : List Char} (spells : SpellsRest inner as (c :: body))
    (visible : isSpace c = false) (proper : c ≠ close) :
    Spells (make as) (first :: (newLine level ++ c :: body)) := by
  have closed : Closed (first :: (newLine level ++ c :: body)) :=
    (spells.closed.append (newLine level)).append [first]
  refine spells_of_succ closed fun k rest enough _ => ?_
  simp only [List.length_cons, List.length_append] at enough
  have inside : between? close (inner k) (newLine level ++ (c :: body ++ rest)) = some (as, rest) := by
    rw [between?, skipSpace_append (all_newLine level), List.cons_append, skipSpace_cons visible]
    simp only [proper, if_false]
    exact spells.read k rest (by rw [List.length_cons]; omega)
  rw [List.cons_append, List.append_assoc, reads, inside, Option.map_some]

mutual

private theorem spells_pretty : ∀ (level : Nat) (v : Json), v.isPlain = true →
    Spells v (pretty level v)
  | _, .null, plain => spells_compact plain
  | _, .bool _, plain => spells_compact plain
  | _, .natural _, plain => spells_compact plain
  | _, .otherNumber, plain => spells_compact plain
  | _, .string _, plain => spells_compact plain
  | _, .array [], plain => by
    have spells := spells_compact plain
    rwa [compact, compactItems] at spells
  | level, .array (v :: items), plain => by
    rw [isPlain] at plain
    have body := spellsRest_prettyItems level v items plain [] rfl []
    obtain ⟨c, cs, form, visible, item, -⟩ := cons_pretty (level + 1) v
    rw [List.nil_append, form, List.cons_append] at body
    rw [pretty, form, List.cons_append, List.cons_append, List.append_assoc, List.cons_append]
    exact spells_laidOut value?_bracket body visible item
  | _, .object [], plain => by
    have spells := spells_compact plain
    rwa [compact, compactMembers] at spells
  | _, .object ((none, _) :: _), plain => by simp [isPlain, membersPlain] at plain
  | level, .object ((some name, v) :: members), plain => by
    rw [isPlain] at plain
    have body := spellsRest_prettyMembers level name v members plain [] rfl []
    simp only [quote_some, List.nil_append, List.cons_append] at body
    simp only [pretty, quote_some, List.cons_append, List.append_assoc] at body ⊢
    exact spells_laidOut value?_brace body (by decide) (by decide)
termination_by _ v => sizeOf v

private theorem spellsRest_prettyItems : ∀ (level : Nat) (v : Json) (items : List Json),
    arePlain (v :: items) = true → ∀ spaces : List Char, spaces.all isSpace = true → ∀ acc,
    SpellsRest (fun fuel cs => items? fuel cs acc) (acc.reverse ++ v :: items)
      (spaces ++ pretty (level + 1) v ++ prettyItems level items)
  | level, v, [], plain, spaces, all, acc => by
    simp only [arePlain, Bool.and_true] at plain
    have spells := (spells_pretty (level + 1) v plain).spaces all
    have last := spellsRest_lastItem spells (all_newLine level) acc
    rwa [List.reverse_cons] at last
  | level, v, w :: items, plain, spaces, all, acc => by
    rw [arePlain, Bool.and_eq_true] at plain
    have spells := (spells_pretty (level + 1) v plain.1).spaces all
    have others := spellsRest_prettyItems level w items plain.2 _ (all_newLine (level + 1)) (v :: acc)
    have more := spellsRest_item spells List.all_nil others
    rw [List.reverse_cons, List.append_assoc, List.singleton_append] at more
    rw [prettyItems]
    exact more
termination_by _ v items => sizeOf (v :: items)

private theorem spellsRest_prettyMembers : ∀ (level : Nat) (name : String) (v : Json)
    (members : List (Option String × Json)), membersPlain ((some name, v) :: members) = true →
    ∀ spaces : List Char, spaces.all isSpace = true → ∀ acc,
    SpellsRest (fun fuel cs => members? fuel cs acc) (acc.reverse ++ (some name, v) :: members)
      (spaces ++ quote (some name) ++ ": ".toList ++ pretty (level + 1) v ++
        prettyMembers level members)
  | level, name, v, [], plain, spaces, all, acc => by
    simp only [membersPlain, Option.isSome_some, Bool.true_and, Bool.and_true] at plain
    have spells := (spells_pretty (level + 1) v plain).spaces all_blank
    have last := spellsRest_lastMember (spellsName_quote name all) spells (all_newLine level) acc
    rw [List.reverse_cons] at last
    rw [prettyMembers]
    simpa using last
  | level, name, v, (none, w) :: members, plain, _, _, _ => by simp [membersPlain] at plain
  | level, name, v, (some other, w) :: members, plain, spaces, all, acc => by
    rw [membersPlain, Option.isSome_some, Bool.true_and, Bool.and_eq_true] at plain
    have spells := (spells_pretty (level + 1) v plain.1).spaces all_blank
    have others := spellsRest_prettyMembers level other w members plain.2 _
      (all_newLine (level + 1)) ((some name, v) :: acc)
    have more := spellsRest_member (spellsName_quote name all) spells List.all_nil others
    rw [List.reverse_cons, List.append_assoc, List.singleton_append] at more
    rw [prettyMembers]
    simpa using more
termination_by _ name v members => sizeOf ((some name, v) :: members)

end

/-- A plain value reads back from the form for people. -/
theorem parse?_pretty {v : Json} (plain : v.isPlain = true) (level : Nat) :
    parse? (pretty level v) = some v :=
  parse?_eq_some_iff.mpr ⟨_, [], (List.append_nil _).symm, rfl, spells_pretty level v plain⟩

end Shortlink.Json
