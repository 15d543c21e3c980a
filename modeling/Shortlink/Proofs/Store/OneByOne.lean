import Shortlink.Proofs.Store.Batch
import Shortlink.Proofs.Store.Torn
/-!
# Batches answer what their links answer

A batch in which a URL is repeated is refused as a whole. Any other answers the codes that saving its
links one after another tells, those of conflicts included, and leaves the same store. The store in
memory looks at what the batch has stored so far, and the one in a file at what was there before.
-/
namespace Shortlink
open TableStore

/-- The code that a URL is stored under, if saving it tells: the new one, or the one of a conflict. -/
def toldCode? : Except StoreError ShortCode → Option ShortCode
  | .ok code => some code
  | .error e => e.conflictCode?.map ShortCode.mk

section
variable {σ : Type} [LinkStore σ]

def LinkStore.saveAnswers (owner : Option OwnerId) :
    List NewLink → σ → List (Except StoreError ShortCode)
  | [], _ => []
  | link :: rest, store =>
    let saved := (LinkStore.save link owner : StoreM σ ShortCode) store
    saved.1 :: LinkStore.saveAnswers owner rest saved.2

private theorem LinkStore.length_saveAnswers (owner : Option OwnerId) (links : List NewLink)
    (store : σ) :
    (LinkStore.saveAnswers owner links store).length = links.length := by
  induction links generalizing store with
  | nil => rfl
  | cons link rest ih => rw [LinkStore.saveAnswers, List.length_cons, List.length_cons, ih]

/-- A batch is refused if two of its links have the same URL, for the first one that is repeated.
Otherwise it is what its links are one by one. -/
structure BatchIsLinks (store : σ) : Prop where
  refused : ∀ links owner,
    (∃ url, (LinkStore.saveBatch links owner : StoreM σ (List ShortCode)) store =
        (.error (.duplicateInBatch url), store)) ↔ ¬(links.map NewLink.url).Nodup
  first : ∀ links owner url,
    (LinkStore.saveBatch links owner : StoreM σ (List ShortCode)) store =
        (.error (.duplicateInBatch url), store) ↔ FirstRepeated (links.map NewLink.url) url
  saved : ∀ links owner, (links.map NewLink.url).Nodup → ∃ codes,
    (LinkStore.saveBatch links owner : StoreM σ (List ShortCode)) store =
        (.ok codes, LinkStore.saveEach owner links store) ∧
      codes.length = links.length ∧
      codes.map some = (LinkStore.saveAnswers owner links store).map toldCode?

/-- It is enough that a batch with a repeated URL leaves the store, and that any other is stored. -/
theorem batchIsLinks_of_saved {store : σ}
    (refused : ∀ links owner e, ensureUnique links = .error e →
      (LinkStore.saveBatch links owner : StoreM σ (List ShortCode)) store = (.error e, store))
    (saved : ∀ links owner, (links.map NewLink.url).Nodup → ∃ codes,
      (LinkStore.saveBatch links owner : StoreM σ (List ShortCode)) store =
          (.ok codes, LinkStore.saveEach owner links store) ∧
        codes.map some = (LinkStore.saveAnswers owner links store).map toldCode?) :
    BatchIsLinks store := by
  have first (links : List NewLink) (owner : Option OwnerId) (url : String) :
      (LinkStore.saveBatch links owner : StoreM σ (List ShortCode)) store =
        (.error (.duplicateInBatch url), store) ↔ FirstRepeated (links.map NewLink.url) url := by
    constructor
    · intro answer
      cases unique : ensureUnique links with
      | ok =>
        obtain ⟨codes, stored, -⟩ := saved links owner (ensureUnique_eq_ok_iff.mp unique)
        cases (Prod.mk.inj (stored.symm.trans answer)).1
      | error e =>
        obtain ⟨repeated, rfl, there⟩ := ensureUnique_eq_error_iff.mp unique
        cases (Prod.mk.inj ((refused links owner _ unique).symm.trans answer)).1
        exact there
    · intro repeated
      exact refused links owner _ (ensureUnique_eq_error_iff.mpr ⟨url, rfl, repeated⟩)
  refine ⟨?_, first, ?_⟩
  · intro links owner
    rw [← exists_firstRepeated_iff]
    exact exists_congr (first links owner)
  · intro links owner distinct
    obtain ⟨codes, stored, told⟩ := saved links owner distinct
    have lengths := congrArg List.length told
    rw [List.length_map, List.length_map, LinkStore.length_saveAnswers] at lengths
    exact ⟨codes, stored, lengths, told⟩

private theorem Simulates.saveAnswers_eq {τ : Type} [LinkStore τ] {R : σ → τ → Prop}
    (h : Simulates R)
    {store : σ} {t : τ} (related : R store t) (owner : Option OwnerId) (links : List NewLink) :
    LinkStore.saveAnswers owner links store = LinkStore.saveAnswers owner links t := by
  induction links generalizing store t with
  | nil => rfl
  | cons link rest ih =>
    obtain ⟨same, still⟩ := h.save link owner store t related
    simp only [LinkStore.saveAnswers, same, ih still]

end

/-! ## In memory -/

namespace LinkTable

private theorem map_saveAll_codes (owner : Option OwnerId) (links : List NewLink) (t : LinkTable) :
    (t.saveAll owner links).1.map some = (LinkStore.saveAnswers owner links t).map toldCode? := by
  induction links generalizing t with
  | nil => rfl
  | cons link rest ih =>
    rw [LinkTable.saveAll, LinkStore.saveAnswers]
    cases known : t.codeOf? link.url with
    | some code =>
      simp [LinkStore.save, StoreM.change, LinkTable.save, known, ih, toldCode?,
        StoreError.conflictCode?]
    | none => simp [LinkStore.save, StoreM.change, LinkTable.save, known, ih, toldCode?]

private theorem batchIsLinks (t : LinkTable) : BatchIsLinks t := by
  refine batchIsLinks_of_saved ?_ ?_
  · intro links owner e repeated
    simp only [LinkStore.saveBatch, StoreM.change, LinkTable.saveBatch, repeated]
  · intro links owner distinct
    refine ⟨(t.saveAll owner links).1, ?_, map_saveAll_codes owner links t⟩
    simp only [LinkStore.saveBatch, StoreM.change, LinkTable.saveBatch,
      ensureUnique_eq_ok_iff.mpr distinct, saveAll_state]

end LinkTable

/-! ## In a file -/

namespace FileStore
open Journal

/-- The medium does not fail: the file is missing or has a text in it, and it can be written. -/
def Faultless (s : FileStore) : Prop :=
  (∃ j t, s.load = .ok (j, t)) ∧ ∃ disk, s.disk.write s.path .empty = .ok disk

private theorem saveBatch_refused {s : FileStore} {links : List NewLink} (owner : Option OwnerId)
    {e : StoreError} (repeated : ensureUnique links = .error e) :
    (LinkStore.saveBatch links owner : StoreM FileStore (List ShortCode)) s = (.error e, s) := by
  simp only [LinkStore.saveBatch, repeated]

private theorem Carries.batchIsLinks {s : FileStore} {text : List Char} (carries : s.Carries text) :
    BatchIsLinks s := by
  refine batchIsLinks_of_saved (fun _ owner _ => saveBatch_refused owner) ?_
  intro links owner distinct
  have held : TableStore.Holds s (replay text) := ⟨text, carries, rfl⟩
  obtain ⟨same, -⟩ := TableStore.simulates.saveBatch links owner s (replay text) held
  have state := BatchStore.saveBatch_state owner held distinct
  refine ⟨((replay text).saveAll owner links).1, Prod.ext ?_ state, ?_⟩
  · rw [same]
    simp only [LinkStore.saveBatch, StoreM.change, LinkTable.saveBatch,
      ensureUnique_eq_ok_iff.mpr distinct]
  · rw [LinkTable.map_saveAll_codes, TableStore.simulates.saveAnswers_eq held]

theorem Faultless.cases {s : FileStore} (sound : s.Faultless) :
    (∃ text, s.Carries text) ∨ s.load = .ok (.empty, {}) := by
  obtain ⟨⟨j, t, loaded⟩, -⟩ := sound
  rw [load, journal] at loaded
  cases read : s.disk.read s.path with
  | ok bytes =>
    refine .inl ?_
    by_cases valid : bytes.IsValidUTF8
    · obtain ⟨text, rfl⟩ := Text.exists_eq_bytes valid
      exact ⟨text, read⟩
    · simp [read, table?, Text.fromUTF8?_eq_none valid] at loaded
  | error e =>
    cases e with
    | notFound =>
      refine .inr ?_
      rw [load, journal, read]
      rfl
    | _ => simp [read] at loaded

private theorem extend_missing {s : FileStore} (missing : s.load = .ok (.empty, {})) {made : Disk}
    (created : s.disk.write s.path .empty = .ok made) {α : Type}
    {f : Journal → LinkTable → Except StoreError (α × Journal)} {a : α} {grown : Journal}
    (change : f .empty {} = .ok (a, grown)) (new : grown.bytes.size ≠ 0) :
    extend f s = extend f { s with disk := made } := by
  have empty : ({ s with disk := made } : FileStore).Carries [] := Disk.read_of_write created
  have loaded : ({ s with disk := made } : FileStore).load = .ok (.empty, {}) := empty.load
  have differs : ¬grown.bytes.size = Journal.empty.bytes.size := new
  obtain ⟨disk, again, -⟩ := Disk.read_write (Disk.read_of_write created) grown.bytes
  have first := again
  rw [Disk.write_write created] at first
  simp only [extend, StoreM.change, missing, loaded, change, if_neg differs, first, again]

private theorem size_append_cons_ne_zero (l : JournalLine) (ls : List JournalLine) :
    (Journal.empty.append (l :: ls)).bytes.size ≠ 0 := by
  intro nothing
  have text : Journal.empty.append (l :: ls) = ofText ((ofText []).addition (l :: ls)) :=
    append_ofText_eq [] (l :: ls)
  have size (cs : List Char) : (ofText cs).bytes.size = (Text.bytes cs).size := rfl
  rw [text, size] at nothing
  have none := Text.eq_nil_of_size_bytes nothing
  simp [addition, written] at none

/-- A missing journal takes links one by one and as a batch as an empty one does. -/
theorem Faultless.batchIsLinks {s : FileStore} (sound : s.Faultless) : BatchIsLinks s := by
  rcases sound.cases with ⟨text, carries⟩ | missing
  · exact carries.batchIsLinks
  obtain ⟨made, created⟩ := sound.2
  have empty : ({ s with disk := made } : FileStore).Carries [] := Disk.read_of_write created
  refine batchIsLinks_of_saved (fun _ owner _ => saveBatch_refused owner) ?_
  intro links owner distinct
  have unique := ensureUnique_eq_ok_iff.mpr distinct
  cases links with
  | nil =>
    refine ⟨[], ?_, rfl⟩
    simp only [LinkStore.saveBatch, unique, extend, StoreM.change, missing]
    rfl
  | cons link rest =>
    have one : (LinkStore.save link owner : StoreM FileStore ShortCode) s =
        (LinkStore.save link owner : StoreM FileStore ShortCode) { s with disk := made } :=
      extend_missing missing created rfl (size_append_cons_ne_zero _ [])
    have all : (LinkStore.saveBatch (link :: rest) owner : StoreM FileStore (List ShortCode)) s =
        (LinkStore.saveBatch (link :: rest) owner : StoreM FileStore (List ShortCode))
          { s with disk := made } := by
      simp only [LinkStore.saveBatch, unique]
      exact extend_missing missing created rfl (size_append_cons_ne_zero _ _)
    obtain ⟨codes, stored, -, told⟩ := empty.batchIsLinks.saved (link :: rest) owner distinct
    refine ⟨codes, ?_, ?_⟩
    · rw [all, stored, LinkStore.saveEach, LinkStore.saveEach, List.foldl_cons, List.foldl_cons, one]
    · rw [told, LinkStore.saveAnswers, LinkStore.saveAnswers, one]

end FileStore

/-- Whatever a store holds, a batch of any links with any owner or none is refused for the first URL
that is repeated, and then nothing changes. Every other batch answers one code for each link, the one
that saving the links one after another tells, and leaves the store that these leave: in memory the
same table, and in a file the same bytes. -/
theorem saveBatch_is_its_links (t : LinkTable) (s : FileStore) (sound : s.Faultless) :
    BatchIsLinks t ∧ BatchIsLinks s :=
  ⟨t.batchIsLinks, sound.batchIsLinks⟩

private theorem FileStore.faultless_of_missingFile : FileStore.Faultless ⟨{}, "urls.json"⟩ := by
  have parsed : DiskPath.parse "urls.json" = .ok ⟨[.name "urls.json"], false⟩ := rfl
  have missing : Disk.read {} "urls.json" = .error .notFound := by
    simp only [Disk.read, Disk.find, parsed]
    rfl
  refine ⟨⟨.empty, {}, ?_⟩, ⟨.directory [("urls.json", .file .empty)]⟩, ?_⟩
  · rw [FileStore.load, FileStore.journal, missing]
    rfl
  · simp only [Disk.write, parsed]
    rfl

open FileStore in
/-- The first URL is known, two others share a code, and the last one takes the code of the known
one. From a missing file a batch is refused that repeats two URLs, and the file stays missing. -/
theorem saveBatch_is_its_links_of_sharedCode :
    let t := LinkTable.apply {} plainLine
    let s := ofContent plainJournal.bytes
    let gone : FileStore := ⟨{}, "urls.json"⟩
    let links : List NewLink :=
      [⟨⟨"d"⟩, "http://a.b/"⟩, ⟨⟨"d"⟩, "u"⟩, ⟨⟨"d"⟩, "v"⟩, ⟨⟨"c"⟩, "w"⟩]
    let repeating : List NewLink := [⟨⟨"a"⟩, "u"⟩, ⟨⟨"b"⟩, "v"⟩, ⟨⟨"c"⟩, "v"⟩, ⟨⟨"d"⟩, "u"⟩]
    s.Faultless ∧ gone.Faultless ∧
      LinkStore.saveAnswers none links s =
        [.error (.conflict "c"), .ok ⟨"d"⟩, .ok ⟨"d"⟩, .ok ⟨"c"⟩] ∧
      LinkStore.saveBatch links none t =
        (.ok [⟨"c"⟩, ⟨"d"⟩, ⟨"d"⟩, ⟨"c"⟩], LinkStore.saveEach none links t) ∧
      LinkStore.saveBatch links none s =
        (.ok [⟨"c"⟩, ⟨"d"⟩, ⟨"d"⟩, ⟨"c"⟩], LinkStore.saveEach none links s) ∧
      LinkStore.saveBatch repeating none gone = (.error (.duplicateInBatch "v"), gone) := by
  intro t s gone links repeating
  have carries : s.Carries (Journal.written [plainLine]) := read_ofContent _
  obtain ⟨disk, written, -⟩ := Disk.read_write carries .empty
  have sound : s.Faultless := ⟨⟨_, _, carries.load⟩, disk, written⟩
  obtain ⟨memory, file⟩ := saveBatch_is_its_links t s sound
  obtain ⟨-, missing⟩ := saveBatch_is_its_links t gone faultless_of_missingFile
  have told : LinkStore.saveAnswers none links t =
      [.error (.conflict "c"), .ok ⟨"d"⟩, .ok ⟨"d"⟩, .ok ⟨"c"⟩] := rfl
  have held : TableStore.Holds s t := ⟨_, carries, Journal.replay_written _⟩
  have alike := (TableStore.simulates.saveAnswers_eq held none links).trans told
  have answered {codes : List ShortCode} (same : codes.map some = List.map toldCode?
      [.error (.conflict "c"), .ok ⟨"d"⟩, .ok ⟨"d"⟩, .ok ⟨"c"⟩]) :
      codes = [⟨"c"⟩, ⟨"d"⟩, ⟨"d"⟩, ⟨"c"⟩] :=
    (List.map_inj_right (fun _ _ => Option.some.inj)).mp same
  have distinct : (links.map NewLink.url).Nodup := by decide
  refine ⟨sound, faultless_of_missingFile, alike, ?_, ?_, ?_⟩
  · obtain ⟨codes, stored, -, same⟩ := memory.saved links none distinct
    rw [told] at same
    rw [stored, answered same]
  · obtain ⟨codes, stored, -, same⟩ := file.saved links none distinct
    rw [alike] at same
    rw [stored, answered same]
  · apply (missing.first repeating none "v").mpr
    exact ⟨["u", "v"], ["u"], rfl, by decide, by decide⟩

end Shortlink
