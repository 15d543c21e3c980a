import Shortlink.Proofs.Journal.Append
import Shortlink.Proofs.Table.Changes
/-!
# Changes of a journal

Replaying the lines that a change appends does to the table what the change does to a table.
-/
namespace Shortlink

namespace LinkTable
variable {t : LinkTable}

theorem Indexed.apply_live (h : Indexed t) {link : NewLink} (fresh : t.codeOf? link.url = none)
    (owner : Option OwnerId) : t.apply (.live link owner) = t.push (link.record owner) := by
  have absent : (t.byUrl[link.url]?).isSome = false := by rw [h.isSome_byUrl, fresh]; rfl
  simp only [apply, JournalLine.live, absent, NewLink.record]
  rfl

private theorem Indexed.code_of_ownLive? (h : Indexed t) {owner : OwnerId} {code : ShortCode}
    {r : LinkRecord} (own : t.ownLive? owner code = some r) : r.code.text = code.text := by
  rw [h.ownLive?_eq, Option.filter_eq_some_iff] at own
  simpa [hasCode] using List.find?_some own.1

theorem Indexed.apply (h : Indexed t) (l : JournalLine) : Indexed (t.apply l) := by
  rw [LinkTable.apply]
  split
  · exact h.mark l.code
  split
  · exact h
  case isFalse fresh =>
    refine h.push ?_
    rw [Bool.not_eq_true, h.isSome_byUrl, Option.isSome_eq_false_iff, Option.isNone_iff_eq_none]
      at fresh
    exact fresh

end LinkTable

namespace Journal
open LinkTable

theorem indexed_replay (text : List Char) : Indexed (replay text) := by
  have applied (ls : List JournalLine) {t : LinkTable} (h : Indexed t) :
      Indexed (ls.foldl LinkTable.apply t) := by
    induction ls generalizing t with
    | nil => exact h
    | cons l ls ih => exact ih (h.apply l)
  exact applied _ indexed_empty

section
variable {t : LinkTable} (h : Indexed t)
include h

private theorem codes_push {r : LinkRecord} (fresh : t.codeOf? r.url = none) {links : List NewLink}
    (others : r.url ∉ links.map NewLink.url) : codes (t.push r) links = codes t links := by
  apply List.map_congr_left
  intro link hlink
  have other : link.url ≠ r.url := fun same => others (same ▸ List.mem_map_of_mem hlink)
  rw [h.codeOf?_push_of_ne fresh other]

theorem fresh_push {r : LinkRecord} (new : t.codeOf? r.url = none) {links : List NewLink}
    (others : r.url ∉ links.map NewLink.url) : fresh (t.push r) links = fresh t links := by
  apply List.filter_congr
  intro link hlink
  have other : link.url ≠ r.url := fun same => others (same ▸ List.mem_map_of_mem hlink)
  rw [h.codeOf?_push_of_ne new other]

/-- A batch of distinct URLs looks at the table before it only. -/
theorem saveAll_eq (owner : Option OwnerId) {links : List NewLink}
    (unique : (links.map NewLink.url).Nodup) :
    t.saveAll owner links = (codes t links,
      ((fresh t links).map fun link => JournalLine.live link owner).foldl LinkTable.apply t) := by
  induction links generalizing t with
  | nil => rfl
  | cons link rest ih =>
    rw [List.map_cons, List.nodup_cons] at unique
    rw [LinkTable.saveAll]
    cases known : t.codeOf? link.url with
    | some code =>
      have codes_cons : codes t (link :: rest) = code :: codes t rest := by simp [codes, known]
      have fresh_cons : fresh t (link :: rest) = fresh t rest := by simp [fresh, known]
      rw [codes_cons, fresh_cons]
      simp only [ih h unique.2]
    | none =>
      have codes_cons : codes t (link :: rest) = link.code :: codes t rest := by
        simp [codes, known]
      have fresh_cons : fresh t (link :: rest) = link :: fresh t rest := by simp [fresh, known]
      have later := ih (h.push (r := link.record owner) known) unique.2
      rw [codes_push h (r := link.record owner) known unique.1,
        fresh_push h (r := link.record owner) known unique.1] at later
      rw [codes_cons, fresh_cons, List.map_cons, List.foldl_cons, h.apply_live known]
      simp only [later]

theorem foldl_tombstone (owner : OwnerId) (codes : List ShortCode) :
    ((t.deleteBatch owner codes).1.map JournalLine.tombstone).foldl LinkTable.apply t =
      (t.deleteBatch owner codes).2 := by
  induction codes generalizing t with
  | nil => rfl
  | cons code rest ih =>
    rw [LinkTable.deleteBatch]
    cases own : t.ownLive? owner code with
    | none => exact ih h
    | some r =>
      have marked : t.apply (.tombstone r) = t.mark code.text := by
        simp [LinkTable.apply, JournalLine.tombstone, h.code_of_ownLive? own]
      simp only [List.map_cons, List.foldl_cons, marked]
      exact ih (h.mark code.text)

end

end Journal
end Shortlink
