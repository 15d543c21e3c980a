import Shortlink.Proofs.Sql.Prescribed
import Shortlink.Proofs.Table.Deletion
import Shortlink.Proofs.Table.Growth
/-!
# Rows and records

The rows of a database make up a link table: one record for each row, in the order of the rows. What
statements do to rows is what the table does to its records, where each code belongs to one URL and
no code is a URL itself.
-/
namespace Shortlink

/-- Different URLs have different codes, and no code is a URL. -/
structure Unmixed (links : List NewLink) : Prop where
  codes : ∀ a ∈ links, ∀ b ∈ links, a.url ≠ b.url → a.code ≠ b.code
  apart : LinkTable.Apart links

theorem Unmixed.mono {as bs : List NewLink} (h : Unmixed bs) (subset : as ⊆ bs) : Unmixed as where
  codes a ha b hb := h.codes a (subset ha) b (subset hb)
  apart := h.apart.mono subset

namespace Sql
open LinkTable TableDatabase

/-- The record of a row. A mark that has never been set counts as not set. -/
def LinkRow.record (r : LinkRow) : LinkRecord :=
  ⟨r.code, r.url, some r.owner, r.deleted.getD false⟩

private theorem LinkRow.isLive_eq (r : LinkRow) : r.isLive = !r.record.deleted := by
  cases marked : r.deleted with
  | none => simp [isLive, record, marked]
  | some value => cases value <;> simp [isLive, record, marked]

private theorem LinkRow.record_mark (owner : OwnerId) (codes : List ShortCode) (r : LinkRow) :
    (r.mark owner codes).record = r.record.struck [⟨owner, codes⟩] := by
  have named : (∃ w ∈ [(⟨owner, codes⟩ : DeleteRequest)], w.Names r.record) ↔
      r.owner = owner ∧ r.code ∈ codes := by
    simp [DeleteRequest.Names, record]
  by_cases asked : r.owner = owner ∧ r.code ∈ codes
  · rw [LinkRecord.struck, if_pos (named.mpr asked)]
    cases live : r.isLive with
    | true =>
      rw [mark, if_pos ⟨live, asked⟩]
      rfl
    | false =>
      have gone : r.record.deleted = true := by simpa [r.isLive_eq] using live
      have unchanged : r.mark owner codes = r := by
        rw [mark, if_neg]
        simp [live]
      rw [unchanged, ← gone]
  · rw [LinkRecord.struck, if_neg (named.not.mpr asked), mark, if_neg]
    intro marked
    exact asked marked.2

private theorem LinkRow.mark_ne_iff (owner : OwnerId) (codes : List ShortCode) (r : LinkRow) :
    r.mark owner codes ≠ r ↔ r.record.deleted = false ∧ (r.mark owner codes).record.deleted = true := by
  by_cases marked : r.isLive ∧ r.owner = owner ∧ r.code ∈ codes
  · have live : r.record.deleted = false := by simpa [r.isLive_eq] using marked.1
    have gone : (r.mark owner codes).record.deleted = true := by
      rw [mark, if_pos marked]
      rfl
    refine ⟨fun _ => ⟨live, gone⟩, ?_⟩
    intro _ same
    rw [same, live] at gone
    exact Bool.noConfusion gone
  · have same : r.mark owner codes = r := by rw [mark, if_neg marked]
    rw [same]
    simp

/-- The rows make up the table. -/
structure Matches (rows : List LinkRow) (t : LinkTable) : Prop where
  indexed : Indexed t
  list : t.list = rows.map LinkRow.record
  named : ∀ r ∈ rows, r.code.text ≠ ""

theorem matches_empty : Matches [] {} := ⟨indexed_empty, rfl, List.forall_mem_nil _⟩

section
variable {rows : List LinkRow} {t : LinkTable} (h : Matches rows t)
include h

theorem Matches.find?_map (url : String) :
    (find? rows url).map LinkRow.code = t.codeOf? url := by
  rw [h.indexed.codeOf?_eq, h.list, List.find?_map, Option.map_map]
  rfl

theorem Matches.mem {r : LinkRow} (there : r ∈ rows) : r.record ∈ t.list := by
  rw [h.list]
  exact List.mem_map_of_mem there

/-! ## Saving -/

theorem Matches.push {link : NewLink} (fresh : find? rows link.url = none)
    (named : link.code.text ≠ "") (owner : OwnerId) :
    Matches (rows ++ [{ code := link.code, url := link.url, owner := owner }])
      (t.push (link.record (some owner))) := by
  have new : t.codeOf? link.url = none := by rw [← h.find?_map, fresh, Option.map_none]
  refine ⟨h.indexed.push new, ?_, ?_⟩
  · rw [list_push, h.list, List.map_append]
    rfl
  · rw [List.forall_mem_append]
    exact ⟨h.named, by simpa using named⟩

theorem Matches.upsert (owner : OwnerId) {links : List NewLink}
    (named : ∀ link ∈ links, link.code.text ≠ "") :
    Matches (upsert owner rows links).2 (t.saveAll (some owner) links).2 ∧
      (upsert owner rows links).1.map LinkRow.code = (t.saveAll (some owner) links).1 ∧
      (upsert owner rows links).1.map LinkRow.url = links.map NewLink.url := by
  induction links generalizing rows t with
  | nil => exact ⟨h, rfl, rfl⟩
  | cons link rest ih =>
    rw [List.forall_mem_cons] at named
    have code := h.find?_map link.url
    rw [TableDatabase.upsert, LinkTable.saveAll]
    cases known : find? rows link.url with
    | some r =>
      rw [known, Option.map_some] at code
      have url := (find?_eq_some known).2
      obtain ⟨kept, codes, urls⟩ := ih h named.2
      rw [← code]
      refine ⟨kept, ?_, ?_⟩
      · rw [List.map_cons, codes]
      · rw [List.map_cons, List.map_cons, urls, url]
    | none =>
      rw [known, Option.map_none] at code
      obtain ⟨kept, codes, urls⟩ := ih (h.push known named.1 owner) named.2
      rw [← code]
      refine ⟨kept, ?_, ?_⟩
      · rw [List.map_cons, codes]
      · rw [List.map_cons, List.map_cons, urls]

/-! ## Listing and counting -/

theorem Matches.ownedBy (owner : OwnerId) :
    (rows.filter fun r => r.owner = owner ∧ r.code.text ≠ "").map LinkRow.record =
      t.ownedBy owner := by
  have whole : rows.filter (fun r => r.owner = owner ∧ r.code.text ≠ "") =
      rows.filter (fun r => r.record.owner = some owner) := by
    apply List.filter_congr
    intro r there
    simp [h.named r there, LinkRow.record]
  have records : t.ownedBy owner = t.list.filter fun r => r.owner = some owner := rfl
  rw [whole, records, h.list, List.filter_map]
  rfl

theorem Matches.live :
    (t.list.filter fun r => !r.deleted) = (rows.filter LinkRow.isLive).map LinkRow.record := by
  rw [h.list, List.filter_map]
  congr 1
  apply List.filter_congr
  intro r _
  exact r.isLive_eq.symm

theorem Matches.stats {users : List OwnerId} (once : users.Nodup)
    (each : ∀ owner, owner ∈ users ↔ owner ∈ (rows.filter LinkRow.isLive).map LinkRow.owner) :
    t.stats = ⟨(rows.filter LinkRow.isLive).length, users.length⟩ := by
  have owners : ((rows.filter LinkRow.isLive).map LinkRow.record).filterMap (·.owner) =
      (rows.filter LinkRow.isLive).map LinkRow.owner := by
    rw [List.filterMap_map, ← List.filterMap_eq_map]
    rfl
  have perm : (distinct ((rows.filter LinkRow.isLive).map LinkRow.owner)).Perm users := by
    rw [List.perm_ext_iff_of_nodup (nodup_distinct _) once]
    intro owner
    rw [mem_distinct, each]
  have counted : t.stats = ⟨(t.list.filter fun r => !r.deleted).length,
      (distinct ((t.list.filter fun r => !r.deleted).filterMap (·.owner))).length⟩ := rfl
  rw [counted, h.live, owners, List.length_map, perm.length_eq]

/-! ## Marking -/

theorem Matches.markDeleted (single : t.SingleCodes) (owner : OwnerId) (codes : List ShortCode) :
    Matches (rows.map (LinkRow.mark owner codes)) (t.deleteBatch owner codes).2 ∧
      (rows.countP fun r => LinkRow.mark owner codes r ≠ r) =
        (t.deleteBatch owner codes).1.length := by
  have list : (t.deleteBatch owner codes).2.list =
      (rows.map (LinkRow.mark owner codes)).map LinkRow.record := by
    rw [deleteBatch_eq h.indexed, single.list_strike, h.list, List.map_map, List.map_map]
    apply List.map_congr_left
    intro r _
    exact (r.record_mark owner codes).symm
  refine ⟨⟨h.indexed.deleteBatch owner codes, list, ?_⟩, ?_⟩
  · rw [List.forall_mem_map]
    intro r there
    have same : (LinkRow.mark owner codes r).code = r.code := by
      rw [LinkRow.mark]
      split <;> rfl
    rw [same]
    exact h.named r there
  · rw [length_deleteBatch h.indexed, list, h.list, List.map_map, newlyMarked, List.zip_map',
      List.countP_map]
    apply List.countP_congr
    intro r _
    simpa using r.mark_ne_iff owner codes

end
end Sql

/-! ## Looking up -/

namespace LinkTable
variable {t : LinkTable} (h : Indexed t) (unmixed : Unmixed t.links)
include h unmixed

theorem singleCodes_of_unmixed : t.SingleCodes := by
  have urls := h.urls
  rw [List.Nodup, List.pairwise_map] at urls
  rw [SingleCodes, List.Nodup, List.pairwise_map]
  refine urls.imp_of_mem ?_
  intro r s hr hs apart same
  exact unmixed.codes _ (List.mem_map_of_mem hr) _ (List.mem_map_of_mem hs) apart
    (ShortCode.text_inj.mp same)

theorem find?_of_matching {r : LinkRecord} (there : r ∈ t.list) {key : String}
    (matching : r.code.text = key ∨ r.url = key) : t.find? key = some r := by
  rw [h.find?_eq]
  rcases matching with code | url
  · rw [← code, (singleCodes_of_unmixed h unmixed).find?_eq there, Option.some_or]
  · have absent : t.list.find? (hasCode key) = none := by
      rw [List.find?_eq_none]
      intro s hs same
      have clash : s.code.text = key := by simpa [hasCode] using same
      exact unmixed.apart _ (List.mem_map_of_mem hs) _ (List.mem_map_of_mem there)
        (clash.trans url.symm)
    rw [absent, Option.none_or, ← url]
    exact find?_of_nodup h.urls there

omit unmixed in
theorem find?_of_unmatched {key : String}
    (unknown : ∀ r ∈ t.list, ¬(r.code.text = key ∨ r.url = key)) : t.find? key = none := by
  rw [h.find?_eq, Option.or_eq_none_iff, List.find?_eq_none, List.find?_eq_none]
  constructor
  · intro r hr same
    exact unknown r hr (.inl (by simpa [hasCode] using same))
  · intro r hr same
    exact unknown r hr (.inr (by simpa [hasUrl] using same))

end LinkTable
end Shortlink
