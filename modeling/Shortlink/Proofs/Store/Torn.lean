import Shortlink.Proofs.Journal.Cut
import Shortlink.Proofs.Store.State
/-!
# Writes that are cut short

Where the last write to a store in a file has been cut short, the store opens again. It holds what it
held before and the lines of that write that are there as a whole, and it works on as if nothing else
had ever been written. This takes that the cut falls between two characters: inside of one it leaves
bytes that are no text, and then every operation fails.
-/
namespace Shortlink

/-- The lines that a call adds to a journal, given what the journal holds. -/
def StoreCall.lines : StoreCall → LinkTable → List JournalLine
  | save link owner => FileStore.savedLines link owner
  | saveBatch links owner => FileStore.savedBatchLines links owner
  | deleteBatch owner codes => FileStore.deletedLines owner codes
  | _ => fun _ => []

/-- Calls and openings. Nobody else writes into the file. -/
def StoreEvent.IsOwn : StoreEvent → Prop
  | append _ => False
  | _ => True

namespace FileStore
open StoreEvent Journal

/-- The file holds a table, and the store answers all that happens from now on as that table does. -/
structure WorksAs (s : FileStore) (t : LinkTable) : Prop where
  holds : TableStore.Holds s t
  answers : ∀ events, (∀ e ∈ events, e.IsOwn) → answers inFile events s = answers inMemory events t

def Fails (s : FileStore) : Prop := ∀ call : StoreCall, ∃ e, call.perform s = (.error e, s)

/-! ## What calls add -/

theorem Adds.map {α β : Type} {m : StoreM FileStore α} {n : StoreM LinkTable α}
    {added : LinkTable → List JournalLine} (adds : Adds m n added) (f : α → β) :
    Adds (f <$> m) (f <$> n) added := by
  intro s text carries
  obtain ⟨after, file, grows⟩ := adds s text carries
  refine ⟨after, ?_, ?_⟩
  · rw [StoreM.map_apply, StoreM.map_apply, file]
  · rw [StoreM.map_apply]
    exact grows

theorem adds_perform (call : StoreCall) : Adds call.perform call.perform call.lines := by
  cases call with
  | save link owner => exact (adds_save link owner).map _
  | saveBatch links owner => exact (adds_saveBatch links owner).map _
  | deleteBatch owner codes => exact (adds_deleteBatch owner codes).map _
  | get key => exact (adds_ask _).map _
  | ownedBy owner => exact (adds_ask _).map _
  | stats => exact (adds_ask _).map _

theorem Holds.perform {s : FileStore} {text : List Char} (holds : s.Holds text) (call : StoreCall) :
    (call.perform s).2.Holds (text ++ written (call.lines (replay text))) := by
  obtain ⟨after, performed, grows⟩ := adds_perform call s text holds.read
  have added : (ofText text).addition (call.lines (replay text)) =
      written (call.lines (replay text)) := addition_of_ended holds.ended _
  have carries := grows.carries
  rw [added] at carries
  rw [performed]
  exact ⟨holds.ended.append (ended_written _), carries⟩

/-! ## After the cut -/

theorem alike_own {e : StoreEvent} (own : e.IsOwn) :
    StoreM.Alike (TableStore.Holds (σ := FileStore)) e.inFile e.inMemory := by
  cases e with
  | call c => exact TableStore.simulates.perform c
  | reopen =>
    intro s t held
    obtain ⟨text, carries, same⟩ := held
    obtain ⟨after, opened, read⟩ := open_of_read carries
    simp only [inFile, StoreM.change, opened]
    exact ⟨rfl, text, read, same⟩
  | append more => exact own.elim

private theorem worksAs_of_holds {s : FileStore} {t : LinkTable} (held : TableStore.Holds s t) :
    s.WorksAs t :=
  ⟨held, fun _ own => answers_eq (fun _ he => alike_own he) own held⟩

theorem fails_of_load {s : FileStore} {e : StoreError} (unreadable : s.load = .error e) :
    s.Fails := by
  have extend {α : Type} (f : Journal → LinkTable → Except StoreError (α × Journal)) :
      FileStore.extend f s = (.error e, s) := by
    rw [FileStore.extend, StoreM.change, unreadable]
  have ask {α : Type} (f : LinkTable → Except StoreError α) :
      FileStore.ask f s = (.error e, s) := by
    rw [FileStore.ask, StoreM.ask, unreadable]
  have mapped {α β : Type} {m : StoreM FileStore α} (e' : StoreError) (f : α → β)
      (failed : m s = (.error e', s)) : ∃ e, (f <$> m) s = (.error e, s) := by
    rw [StoreM.map_apply, failed]
    exact ⟨e', rfl⟩
  intro call
  cases call with
  | save link owner => exact mapped e _ (extend _)
  | saveBatch links owner =>
    cases unique : ensureUnique links with
    | error e' => exact mapped e' _ (by simp only [LinkStore.saveBatch, unique])
    | ok => exact mapped e _ (by simp only [LinkStore.saveBatch, unique, extend])
  | deleteBatch owner codes => exact mapped e _ (extend _)
  | get key => exact mapped e _ (ask _)
  | ownedBy owner => exact mapped e _ (ask _)
  | stats => exact mapped e _ (ask _)

theorem load_of_invalid {s : FileStore} {bytes : ByteArray} (read : s.disk.read s.path = .ok bytes)
    (invalid : ¬bytes.IsValidUTF8) : s.load = .error (ioError .notText) := by
  have found : s.journal = .ok ⟨bytes⟩ := by rw [journal, read]
  rw [load, found]
  simp only [table?, Text.fromUTF8?_eq_none invalid, Option.map_none]

/-- Where the cut leaves text, the lines in it make up the table of the lines that are there. -/
theorem holds_of_cut {text : List Char} {ls : List JournalLine} {n : Nat} {s : FileStore}
    (inside : n ≤ (Text.bytes ((ofText text).addition ls)).size)
    (read : s.disk.read s.path = .ok
      ((Text.bytes (text ++ (ofText text).addition ls)).extract 0 ((Text.bytes text).size + n)))
    (valid : ((Text.bytes (text ++ (ofText text).addition ls)).extract 0
      ((Text.bytes text).size + n)).IsValidUTF8) :
    TableStore.Holds s
      ((present (n - (ofText text).gap.length) ls).foldl LinkTable.apply (replay text)) := by
  obtain ⟨part, missing, cut, size, same⟩ := Text.exists_part_behind inside valid
  rw [same] at read
  refine ⟨text ++ part, read, ?_⟩
  rw [replay_part cut, size]

end FileStore

open FileStore Journal in
/-- After any calls, one more call is cut short while it writes. The store opens again. If what is left
of the file is text, the store holds what it held before and the lines of the last call that are there
as a whole, and it answers like the table of these. If it is no text, every call fails. -/
theorem works_after_torn_write {s : FileStore} {t : LinkTable} (held : TableStore.Holds s t)
    (calls : List StoreCall) (last : StoreCall) {old new : Journal}
    (before : (StoreCall.run calls s).journal = .ok old)
    (grown : (last.perform (StoreCall.run calls s)).2.journal = .ok new)
    {n : Nat} (inside : old.bytes.size + n ≤ new.bytes.size) {left : ByteArray}
    (cut : left = new.bytes.extract 0 (old.bytes.size + n)) {torn : FileStore}
    (read : torn.disk.read torn.path = .ok left) :
    ∃ s' after, FileStore.open torn.disk torn.path = (.ok s', after) ∧
      (left.IsValidUTF8 →
        s'.WorksAs ((present (n - old.gap.length) (last.lines (StoreCall.run calls t))).foldl
          LinkTable.apply (StoreCall.run calls t))) ∧
      (¬left.IsValidUTF8 → s'.Fails) := by
  -- the new journal is the old one and what the call adds, so the cut falls into the latter
  obtain ⟨text, carries, same⟩ := held.run calls
  obtain ⟨after, performed, grows⟩ := adds_perform last _ text carries
  rw [performed, grows.carries.journal, Except.ok.injEq] at grown
  rw [carries.journal, Except.ok.injEq] at before
  subst before grown cut
  obtain ⟨opened, reopened, again⟩ := open_of_read read
  refine ⟨_, _, reopened, ?_, ?_⟩
  · intro valid
    have sizes : (Text.bytes text).size + n ≤ (Text.bytes text).size +
        (Text.bytes ((ofText text).addition (last.lines (replay text)))).size := by
      rw [← ByteArray.size_append, ← Text.bytes_append]
      exact inside
    rw [← same]
    exact worksAs_of_holds (holds_of_cut (by omega) again valid)
  · intro invalid
    exact fails_of_load (load_of_invalid again invalid)

/-! ## A cut inside a character -/

namespace FileStore
open Journal

def ofContent (bytes : ByteArray) : FileStore :=
  ⟨⟨.directory [("urls.json", .file bytes)]⟩, "urls.json"⟩

theorem read_ofContent (bytes : ByteArray) :
    (ofContent bytes).disk.read (ofContent bytes).path = .ok bytes := by
  have parsed : DiskPath.parse "urls.json" = .ok ⟨[.name "urls.json"], false⟩ := rfl
  exact Disk.read_eq_ok_iff.mpr ⟨_, ["urls.json"], parsed, rfl, rfl⟩

def plainLine : JournalLine := .live ⟨⟨"c"⟩, "http://a.b/"⟩ none

/-- The URL of this line has a character of two bytes. -/
def accentedLine : JournalLine := .live ⟨⟨"d"⟩, "http://a.b/é"⟩ none

def accentStart : List Char := "\x7b\"user_id\":null,\"original_url\":\"http://a.b/".toList

private theorem encode_accentedLine : accentedLine.encode =
    accentStart ++ 'é' :: "\",\"short_url\":\"d\"\x7d".toList := by decide +kernel

private theorem size_accentStart : (Text.bytes accentStart).size = 43 := by decide +kernel

def savePlain : StoreCall := .save ⟨⟨"c"⟩, "http://a.b/"⟩ none

def saveAccented : StoreCall := .save ⟨⟨"d"⟩, "http://a.b/é"⟩ none

def plainJournal : Journal := ofText (written [plainLine])

def accentedJournal : Journal := ofText (written [plainLine, accentedLine])

/-- A file with one line and so many bytes of the other. -/
def tornFile (n : Nat) : FileStore :=
  ofContent (accentedJournal.bytes.extract 0 (plainJournal.bytes.size + n))

private theorem read_tornFile (n : Nat) : (tornFile n).disk.read (tornFile n).path =
    .ok (accentedJournal.bytes.extract 0 (plainJournal.bytes.size + n)) :=
  read_ofContent (accentedJournal.bytes.extract 0 (plainJournal.bytes.size + n))

private theorem holds_savePlain :
    (StoreCall.run [savePlain] (ofContent .empty)).Holds (written [plainLine]) := by
  have started : (ofContent .empty).Holds [] := ⟨.inl rfl, read_ofContent _⟩
  have lines : savePlain.lines (replay []) = [plainLine] := rfl
  have grown := started.perform savePlain
  rw [lines, List.nil_append] at grown
  exact grown

private theorem holds_saveAccented :
    (saveAccented.perform (StoreCall.run [savePlain] (ofContent .empty))).2.Holds
    (written [plainLine, accentedLine]) := by
  have lines : saveAccented.lines (replay (written [plainLine])) = [accentedLine] := by
    rw [replay_written]
    rfl
  have grown := holds_savePlain.perform saveAccented
  rw [lines, written, written, ← List.flatMap_append] at grown
  exact grown

private theorem bytes_accentedJournal : accentedJournal.bytes =
    plainJournal.bytes ++ (Text.bytes accentedLine.encode ++ Text.bytes ['\n']) := by
  have whole : written [plainLine, accentedLine] =
      written [plainLine] ++ (accentedLine.encode ++ ['\n']) := by simp [written]
  rw [accentedJournal, ofText, whole, Text.bytes_append, Text.bytes_append]
  rfl

end FileStore

open FileStore Journal in
/-- Only the line feed after the second line is missing. -/
theorem works_after_torn_write_of_missingFeed : ∃ s after,
    FileStore.open (tornFile (Text.bytes accentedLine.encode).size).disk
        (tornFile (Text.bytes accentedLine.encode).size).path = (.ok s, after) ∧
      s.WorksAs ([plainLine, accentedLine].foldl LinkTable.apply {}) := by
  have started : TableStore.Holds (ofContent .empty) {} := ⟨[], read_ofContent _, rfl⟩
  have before : (StoreCall.run [savePlain] (ofContent .empty)).journal = .ok plainJournal :=
    Carries.journal holds_savePlain.read
  have grown : (saveAccented.perform (StoreCall.run [savePlain] (ofContent .empty))).2.journal =
      .ok accentedJournal := Carries.journal holds_saveAccented.read
  have inside : plainJournal.bytes.size + (Text.bytes accentedLine.encode).size ≤
      accentedJournal.bytes.size := by
    rw [bytes_accentedJournal, ByteArray.size_append, ByteArray.size_append]
    omega
  have valid : (accentedJournal.bytes.extract 0
      (plainJournal.bytes.size + (Text.bytes accentedLine.encode).size)).IsValidUTF8 := by
    rw [bytes_accentedJournal, ← ByteArray.append_assoc, ← ByteArray.size_append,
      ByteArray.extract_append_eq_left rfl, plainJournal, ofText, ← Text.bytes_append]
    exact Text.isValidUTF8_bytes _
  have ended : plainJournal.gap = [] := by
    rw [plainJournal, gap, isTerminated_ofText (ended_written _), if_pos rfl]
  have lines : saveAccented.lines (StoreCall.run [savePlain] {}) = [accentedLine] := rfl
  obtain ⟨s, after, opened, works, -⟩ :=
    works_after_torn_write started [savePlain] saveAccented before grown inside rfl
      (read_tornFile _)
  have there := works valid
  rw [ended, List.length_nil, Nat.sub_zero, lines, present_encode] at there
  exact ⟨s, after, opened, there⟩

open FileStore Journal in
/-- The cut falls inside the character of two bytes, and the first link is out of reach with it. -/
theorem not_worksAs_of_cutCharacter :
    (StoreCall.run [savePlain] (ofContent .empty)).journal = .ok plainJournal ∧
      (saveAccented.perform (StoreCall.run [savePlain] (ofContent .empty))).2.journal =
        .ok accentedJournal ∧
      ¬∃ s after, FileStore.open (tornFile 44).disk (tornFile 44).path = (.ok s, after) ∧
        s.WorksAs ([plainLine].foldl LinkTable.apply {}) := by
  refine ⟨Carries.journal holds_savePlain.read, Carries.journal holds_saveAccented.read, ?_⟩
  intro survives
  obtain ⟨s, after, opened, works⟩ := survives
  obtain ⟨again, reopened, read⟩ := open_of_read (read_tornFile 44)
  obtain ⟨same, -⟩ := Prod.mk.inj (opened.symm.trans reopened)
  have invalid : ¬(accentedJournal.bytes.extract 0 (plainJournal.bytes.size + 44)).IsValidUTF8 := by
    have split : written [plainLine, accentedLine] = (written [plainLine] ++ accentStart) ++
        'é' :: ("\",\"short_url\":\"d\"\x7d".toList ++ ['\n']) := by
      simp [written, encode_accentedLine]
    have start : (Text.bytes (written [plainLine] ++ accentStart)).size =
        plainJournal.bytes.size + 43 := by
      rw [Text.bytes_append, ByteArray.size_append, size_accentStart]
      rfl
    have wide : 'é'.utf8Size = 2 := rfl
    simp only [accentedJournal, ofText, split]
    refine Text.not_isValidUTF8_of_cut ?_ ?_
    · omega
    · omega
  obtain ⟨e, failed⟩ := fails_of_load
    (load_of_invalid (s := ⟨again, (tornFile 44).path⟩) read invalid) (.get "c")
  rw [Except.ok.inj same] at works
  have found := works.answers [.call (.get "c")] (by simp [StoreEvent.IsOwn])
  rw [StoreEvent.answers, StoreEvent.inFile, failed] at found
  cases found

end Shortlink
