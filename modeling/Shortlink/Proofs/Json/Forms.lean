import Shortlink.Proofs.Journal.Line
import Shortlink.Proofs.Json.Pretty
/-!
# Values read back from their forms

A record reads the fields it has written, so every value of the library is read back from its
JSON, compact or laid out in lines. A line of a journal is moreover one line of text.
-/
namespace Shortlink
namespace Json

/-- Both written forms of a value are read as that value. -/
def ReadsBack {α : Type} [Form α] (a : α) : Prop :=
  read? (write a) = some a ∧ read? (writePretty a) = some a

private theorem readsBack_iff {α : Type} [Form α] {a : α}
    (plain : (Form.toJson a : Json).isPlain = true) :
    ReadsBack a ↔ Form.ofJson? (Form.toJson a) = some a := by
  rw [ReadsBack, read?, read?, write, writePretty, String.toList_ofList, String.toList_ofList,
    parse?_compact plain, parse?_pretty plain, Option.bind_some, and_self]

/-- The form of a value loses nothing. -/
structure Faithful {α : Type} [Form α] (a : α) : Prop where
  plain : (Form.toJson a : Json).isPlain = true
  back : Form.ofJson? (Form.toJson a) = some a

private theorem Faithful.readsBack {α : Type} [Form α] {a : α} (h : Faithful a) : ReadsBack a :=
  (readsBack_iff h.plain).mpr h.back

private theorem faithful_none {α : Type} [Form α] : Faithful (none : Option α) := ⟨rfl, rfl⟩

private theorem faithful_some {α : Type} [Form α] {a : α} (h : Faithful a)
    (present : Form.toJson a ≠ null) : Faithful (some a) where
  plain := h.plain
  back := by
    have same : (Form.ofJson? (Form.toJson a) : Option (Option α)) =
        (Form.ofJson? (Form.toJson a)).map some := by
      cases form : Form.toJson a with
      | null => exact absurd form present
      | _ => rfl
    exact same.trans (by rw [h.back, Option.map_some])

private theorem faithful_list {α : Type} [Form α] {items : List α} (h : ∀ a ∈ items, Faithful a) :
    Faithful items where
  plain := by
    show arePlain (items.map Form.toJson) = true
    induction items with
    | nil => rfl
    | cons a items ih =>
      rw [List.forall_mem_cons] at h
      rw [List.map_cons, arePlain, h.1.plain, ih h.2, Bool.and_true]
  back := by
    show (items.map Form.toJson).mapM Form.ofJson? = some items
    induction items with
    | nil => rfl
    | cons a items ih =>
      rw [List.forall_mem_cons] at h
      rw [List.map_cons, List.mapM_cons, h.1.back, ih h.2]
      rfl

/-! ## Records -/

private theorem membersPlain_map {fields : List (String × Json)}
    (h : ∀ f ∈ fields, f.2.isPlain = true) :
    membersPlain (fields.map fun f => (some f.1, f.2)) = true := by
  induction fields with
  | nil => rfl
  | cons f fields ih =>
    rw [List.forall_mem_cons] at h
    rw [List.map_cons, membersPlain, h.1, ih h.2]
    rfl

private theorem lookup?_of_mem {fields : List (String × Json)} (distinct : (fields.map (·.1)).Nodup)
    {f : String × Json} (h : f ∈ fields) :
    lookup? f.1 (fields.map fun f => (some f.1, f.2)) = some (some f.2) := by
  have only : (fields.map fun f => (some f.1, f.2)).filter (fun m => m.1 = some f.1) =
      [(some f.1, f.2)] := by
    induction fields with
    | nil => cases h
    | cons g fields ih =>
      rw [List.map_cons, List.nodup_cons] at distinct
      rcases List.mem_cons.mp h with rfl | later
      · have others : (fields.map fun g => (some g.1, g.2)).filter (fun m => m.1 = some f.1) = [] := by
          rw [List.filter_map, List.map_eq_nil_iff, List.filter_eq_nil_iff]
          intro g there same
          simp only [Function.comp_apply, Option.some.injEq, decide_eq_true_eq] at same
          exact distinct.1 (same ▸ List.mem_map_of_mem there)
        rw [List.map_cons, List.filter_cons_of_pos (by simp), others]
      · have proper : g.1 ≠ f.1 := fun same => distinct.1 (same ▸ List.mem_map_of_mem later)
        rw [List.map_cons, List.filter_cons_of_neg (by simp [proper]), ih distinct.2 later]
  rw [lookup?, only]

private theorem mapM_member? {known : List Field} {fields : List (String × Json)}
    {members : List (Option String × Json)} (names : known.map (·.name) = fields.map (·.1))
    (found : ∀ f ∈ fields, lookup? f.1 members = some (some f.2)) :
    known.mapM (member? members) = some (fields.map fun f => some f.2) := by
  induction known generalizing fields with
  | nil =>
    rw [List.map_nil, eq_comm, List.map_eq_nil_iff] at names
    subst names
    rfl
  | cons field known ih =>
    cases fields with
    | nil => simp at names
    | cons f fields =>
      rw [List.map_cons, List.map_cons, List.cons.injEq] at names
      rw [List.forall_mem_cons] at found
      have value : member? members field = some (some f.2) := by rw [member?, names.1, found.1]
      rw [List.mapM_cons, value, ih names.2 found.2]
      rfl

private theorem fields?_ofFields {known : List Field} {fields : List (String × Json)}
    (names : known.map (·.name) = fields.map (·.1)) (distinct : (known.map (·.name)).Nodup) :
    fields? known (ofFields fields) = some (fields.map fun f => some f.2) := by
  rw [names] at distinct
  have named : (fields.map fun f => (some f.1, f.2)).any (fun m => m.1.isNone) = false := by
    rw [List.any_map, List.any_eq_false]
    exact fun _ _ => Bool.false_ne_true
  rw [ofFields, fields?, named]
  exact mapM_member? names fun f there => lookup?_of_mem distinct there

private theorem lookup?_append_of_ne {name other : String} (h : name ≠ other) (v : Json)
    (members : List (Option String × Json)) :
    lookup? name (members ++ [(some other, v)]) = lookup? name members := by
  rw [lookup?, lookup?, List.filter_append, List.filter_cons_of_neg (by simp [h.symm]),
    List.filter_nil, List.append_nil]

private theorem lookup?_append_self {name : String} {members : List (Option String × Json)}
    (absent : lookup? name members = some none) (v : Json) :
    lookup? name (members ++ [(some name, v)]) = some (some v) := by
  have nowhere : members.filter (fun m => m.1 = some name) = [] := by
    rw [lookup?] at absent
    split at absent
    case h_1 nowhere => exact nowhere
    all_goals simp at absent
  rw [lookup?, List.filter_append, nowhere, List.filter_cons_of_pos (by simp), List.filter_nil,
    List.nil_append]

private theorem fields?_absent (known : List Field) {field : Field}
    {members : List (Option String × Json)}
    (absent : lookup? field.name members = some none) (optional : field.presence ≠ .required) :
    fields? (known ++ [field]) (object members) =
      (fields? known (object members)).map (· ++ [none]) := by
  have last : member? members field = some none := by rw [member?, absent]; exact if_neg optional
  rw [fields?, fields?]
  split
  · rfl
  · rw [List.mapM_append, List.mapM_cons, List.mapM_nil, last]
    cases known.mapM (member? members) <;> rfl

private theorem mapM_member?_append {known : List Field} {name : String}
    (distinct : ∀ f ∈ known, f.name ≠ name) (members : List (Option String × Json)) (v : Json) :
    known.mapM (member? (members ++ [(some name, v)])) = known.mapM (member? members) := by
  induction known with
  | nil => rfl
  | cons f known ih =>
    rw [List.forall_mem_cons] at distinct
    have same : member? (members ++ [(some name, v)]) f = member? members f := by
      rw [member?, member?, lookup?_append_of_ne distinct.1]
    rw [List.mapM_cons, List.mapM_cons, same, ih distinct.2]

private theorem fields?_given {known : List Field} {field : Field}
    {members : List (Option String × Json)}
    (absent : lookup? field.name members = some none) (distinct : ∀ f ∈ known, f.name ≠ field.name)
    (v : Json) :
    fields? (known ++ [field]) (object (members ++ [(some field.name, v)])) =
      (fields? known (object members)).map (· ++ [some v]) := by
  have last : member? (members ++ [(some field.name, v)]) field = some (some v) := by
    rw [member?, lookup?_append_self absent]
  rw [fields?, fields?, List.any_append]
  simp only [List.any_cons, Option.isNone_some, List.any_nil, Bool.or_self, Bool.or_false]
  split
  · rfl
  · rw [List.mapM_append, List.mapM_cons, List.mapM_nil, last, mapM_member?_append distinct]
    cases known.mapM (member? members) <;> rfl

end Json
open Json

private theorem ShortCode.faithful (code : ShortCode) : Faithful code := ⟨rfl, rfl⟩

private theorem OwnerId.faithful (owner : OwnerId) : Faithful owner where
  plain := rfl
  back := by
    show (Uuid.parse owner.uuid.toString).toOption.map OwnerId.mk = some owner
    rw [Uuid.parse_toString]
    rfl

private theorem ShortenStatus.faithful (status : ShortenStatus) : Faithful status := by
  cases status <;> exact ⟨rfl, rfl⟩

private theorem OwnerId.faithful_option (owner : Option OwnerId) : Faithful owner := by
  cases owner with
  | none => exact faithful_none
  | some owner => exact faithful_some owner.faithful nofun

private theorem LinkRecord.faithful (r : LinkRecord) : Faithful r where
  plain := membersPlain_map (by simp [ofText, isPlain, r.code.faithful.plain,
    (OwnerId.faithful_option r.owner).plain])
  back := by
    refine Option.bind_eq_some_iff.mpr ⟨_, fields?_ofFields rfl (by decide), ?_⟩
    show ((Form.ofJson? (Form.toJson r.owner) : Option (Option OwnerId)).bind fun owner =>
      some (⟨r.code, r.url, owner, r.deleted⟩ : LinkRecord)) = some r
    rw [(OwnerId.faithful_option r.owner).back]
    rfl

private theorem Shortened.faithful (s : Shortened) : Faithful s where
  plain := rfl
  back := by
    refine Option.bind_eq_some_iff.mpr ⟨_, fields?_ofFields rfl (by decide), ?_⟩
    show ((Form.ofJson? (Form.toJson s.status) : Option ShortenStatus).bind fun status =>
      some (⟨s.url, s.code, status⟩ : Shortened)) = some s
    rw [s.status.faithful.back]
    rfl

private theorem BatchRequest.faithful (r : BatchRequest) : Faithful r where
  plain := rfl
  back := Option.bind_eq_some_iff.mpr ⟨_, fields?_ofFields rfl (by decide), rfl⟩

private theorem BatchResponse.faithful (r : BatchResponse) : Faithful r where
  plain := rfl
  back := Option.bind_eq_some_iff.mpr ⟨_, fields?_ofFields rfl (by decide), rfl⟩

private theorem UserUrl.faithful (u : UserUrl) : Faithful u where
  plain := rfl
  back := Option.bind_eq_some_iff.mpr ⟨_, fields?_ofFields rfl (by decide), rfl⟩

/-- Counts are read back as far as 64 bits go. -/
theorem StoreStats.readsBack_iff (s : StoreStats) :
    ReadsBack s ↔ s.urls < Text.wordLimit ∧ s.users < Text.wordLimit := by
  have read : (Form.ofJson? (Form.toJson s) : Option StoreStats) =
      (word? (.natural s.urls)).bind fun urls =>
        (word? (.natural s.users)).bind fun users => some ⟨urls, users⟩ := by
    refine (congrArg (Option.bind · _) (fields?_ofFields rfl (by decide))).trans ?_
    rfl
  rw [Json.readsBack_iff rfl, read, word?, word?]
  by_cases urls : s.urls < Text.wordLimit <;> by_cases users : s.users < Text.wordLimit <;>
    simp [urls, users]

/-! ## Journal lines -/

namespace JournalLine

private theorem faithful (l : JournalLine) : Faithful l := ⟨l.isPlain_toJson, l.ofJson?_toJson⟩

/-- The text of a line fits on one line, is not passed over, and is read as the line. -/
structure Framed (l : JournalLine) : Prop where
  feed : '\n' ∉ l.encode
  carriage : '\r' ∉ l.encode
  visible : Text.isBlank l.encode = false
  back : decode? l.encode = some l

private theorem framed (l : JournalLine) : l.Framed where
  feed there := absurd (l.le_of_mem_encode there) (by decide)
  carriage there := absurd (l.le_of_mem_encode there) (by decide)
  visible := l.isBlank_encode
  back := l.decode?_encode

/-- A record of a line that leaves out the mark of deleted links, and the record with that mark
denied. -/
inductive Unmarked : Json → Json → Prop
  | object {members : List (Option String × Json)}
      (absent : lookup? "is_deleted" members = some none) :
      Unmarked (.object members) (.object (members ++ [(some "is_deleted", .bool false)]))
  | array (owner url code : Json) :
      Unmarked (.array [owner, url, code]) (.array [owner, url, code, .bool false])

private theorem unmarked_toJson_iff (l : JournalLine) :
    (∃ denied, Unmarked (Form.toJson l) denied) ↔ l.deleted = false := by
  obtain ⟨owner, url, code, deleted⟩ := l
  constructor
  · rintro ⟨denied, unmarked⟩
    cases deleted with
    | false => rfl
    | true =>
      cases unmarked with
      | object absent => simp [lookup?] at absent
  · rintro rfl
    exact ⟨_, .object (by simp [lookup?])⟩

def linkFields : List Field :=
  [⟨"user_id", .optional⟩, ⟨"original_url", .required⟩, ⟨"short_url", .required⟩]

def markField : Field := ⟨"is_deleted", .defaulted⟩

private theorem ofJson?_unmarked {v denied : Json} (h : Unmarked v denied) :
    (Form.ofJson? v : Option JournalLine) = Form.ofJson? denied := by
  cases h with
  | array owner url code => rfl
  | @object members absent =>
    have without : fields? (linkFields ++ [markField]) (object members) = _ :=
      fields?_absent linkFields absent nofun
    have given : fields? (linkFields ++ [markField])
        (object (members ++ [(some "is_deleted", .bool false)])) = _ :=
      fields?_given absent (by decide) (.bool false)
    show (fields? (linkFields ++ [markField]) _).bind _ =
      (fields? (linkFields ++ [markField]) _).bind _
    rw [without, given]
    -- a line has four values, so only behind three others does it matter what the last one is
    cases fields? linkFields (object members) with
    | none => rfl
    | some values =>
      rcases values with _ | ⟨owner, _ | ⟨url, _ | ⟨code, _ | ⟨more, _ | _⟩⟩⟩⟩ <;> rfl

end JournalLine

/-- What is written is what is read: every line of a journal, whatever its texts hold, and every
value that is shown to a caller. -/
theorem written_values_read_back :
    (∀ l : JournalLine, l.Framed ∧ ReadsBack l) ∧
    (∀ l : JournalLine, (∃ denied, JournalLine.Unmarked (Form.toJson l) denied) ↔
      l.deleted = false) ∧
    (∀ {v denied : Json}, JournalLine.Unmarked v denied →
      (Form.ofJson? v : Option JournalLine) = Form.ofJson? denied) ∧
    (∀ code : ShortCode, ReadsBack code) ∧
    (∀ owner : OwnerId, ReadsBack owner) ∧
    (∀ r : LinkRecord, ReadsBack r) ∧
    (∀ s : StoreStats, ReadsBack s ↔ s.urls < Text.wordLimit ∧ s.users < Text.wordLimit) ∧
    (∀ status : ShortenStatus, ReadsBack status) ∧
    (∀ s : Shortened, ReadsBack s) ∧
    (∀ requests : List BatchRequest, ReadsBack requests) ∧
    (∀ response : BatchResponse, ReadsBack response) ∧
    (∀ u : UserUrl, ReadsBack u) :=
  ⟨fun l => ⟨l.framed, l.faithful.readsBack⟩, JournalLine.unmarked_toJson_iff,
    JournalLine.ofJson?_unmarked, fun code => code.faithful.readsBack,
    fun owner => owner.faithful.readsBack, fun r => r.faithful.readsBack,
    StoreStats.readsBack_iff, fun status => status.faithful.readsBack,
    fun s => s.faithful.readsBack,
    fun _ => (faithful_list fun r _ => r.faithful).readsBack,
    fun response => response.faithful.readsBack, fun u => u.faithful.readsBack⟩

end Shortlink
