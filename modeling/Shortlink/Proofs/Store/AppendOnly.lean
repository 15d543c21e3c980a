import Shortlink.Proofs.Store.Batch
import Shortlink.Proofs.Store.Stability
import Shortlink.Proofs.Table.Deletion
/-!
# The file only grows

Whatever text the file has, an operation keeps that text and adds one line for each record that it
stores or marks. Where it does neither, the disk stays as it is. An unfinished last line is ended
first, and what has been added ends with a line feed.
-/
namespace Shortlink

namespace LinkTable
variable {t u : LinkTable}

/-- The lines for the records by which a table differs from an earlier one: those that have been added,
and those that have been marked. -/
def newLines (t u : LinkTable) : List JournalLine :=
  (u.list.drop t.list.length).map (fun r => JournalLine.live ⟨r.code, r.url⟩ r.owner) ++
    (marked t.list u.list).map JournalLine.tombstone

private theorem newLines_of_append {added : List LinkRecord} (grown : u.list = t.list ++ added) :
    newLines t u = added.map fun r => JournalLine.live ⟨r.code, r.url⟩ r.owner := by
  rw [newLines, grown, marked_append, List.drop_left, List.map_nil, List.append_nil]

private theorem newLines_self (t : LinkTable) : newLines t t = [] :=
  newLines_of_append (List.append_nil t.list).symm

/-! ## Saving -/

private theorem Indexed.list_saveAll (h : Indexed t) (owner : Option OwnerId) {links : List NewLink}
    (distinct : (links.map NewLink.url).Nodup) : (t.saveAll owner links).2.list =
      t.list ++ (Journal.fresh t links).map fun link => link.record owner := by
  induction links generalizing t with
  | nil => exact (List.append_nil t.list).symm
  | cons link rest ih =>
    rw [List.map_cons, List.nodup_cons] at distinct
    rw [LinkTable.saveAll]
    cases known : t.codeOf? link.url with
    | some code =>
      have others : Journal.fresh t (link :: rest) = Journal.fresh t rest := by
        simp [Journal.fresh, known]
      rw [others]
      exact ih h distinct.2
    | none =>
      have first : Journal.fresh t (link :: rest) = link :: Journal.fresh t rest := by
        simp [Journal.fresh, known]
      have later := ih (h.push (r := link.record owner) known) distinct.2
      rw [Journal.fresh_push h (r := link.record owner) known distinct.1, list_push,
        List.append_assoc] at later
      rw [first, List.map_cons]
      exact later

/-! ## Deleting -/

private theorem Indexed.newLines_deleteBatch (h : Indexed t) (owner : OwnerId)
    (codes : List ShortCode) :
    newLines t (t.deleteBatch owner codes).2 =
      (marked t.list (t.deleteBatch owner codes).2.list).map JournalLine.tombstone := by
  have length : (t.deleteBatch owner codes).2.list.length = t.list.length := by
    rw [deleteBatch_eq h, list_strike, struckFirst, List.length_mapIdx]
  rw [newLines, ← length, List.drop_length]
  rfl

private theorem Indexed.lines_perm (h : Indexed t) {call : StoreCall}
    {answer : Except StoreError StoreAnswer}
    {ls : List JournalLine} (does : call.Does t answer u ls) : ls.Perm (newLines t u) := by
  cases does with
  | @saved link owner new =>
    rw [newLines_of_append (list_push t (link.record owner))]
    exact List.Perm.refl _
  | @stored links owner distinct =>
    rw [newLines_of_append (h.list_saveAll owner distinct), List.map_map]
    exact List.Perm.refl _
  | deleted owner codes =>
    rw [h.newLines_deleteBatch]
    exact (h.marked_deleteBatch owner codes).map _
  | _ =>
    rw [newLines_self]

end LinkTable

namespace FileStore
open Journal

/-- What a call does to a file with some text, and what it answers: it adds the lines that go with its
answer, one for each record that it stores or marks. -/
structure Logged (s : FileStore) (text : List Char) (call : StoreCall) (new : List Char)
    (ls : List JournalLine) : Prop where
  carries : (call.perform s).2.Carries new
  answered : call.Does (replay text) (call.perform s).1 (replay new) ls
  changes : ls.Perm (LinkTable.newLines (replay text) (replay new))
  unchanged : ls = [] → new = text ∧ (call.perform s).2 = s
  grown : ls ≠ [] → new =
    text ++ (if Text.Ended text then [] else ['\n']) ++ ls.flatMap fun l => l.encode ++ ['\n']
  ended : ls ≠ [] → ∃ line, new = line ++ ['\n']
  wellFormed : ∀ l ∈ ls, '\n' ∉ l.encode ∧ JournalLine.decode? l.encode = some l

section
variable {s : FileStore} {text new : List Char} {call : StoreCall} {ls : List JournalLine}

private theorem gap_ofText (text : List Char) :
    (ofText text).gap = if Text.Ended text then [] else ['\n'] := by
  rw [gap]
  by_cases ended : Text.Ended text
  · rw [if_pos ended, if_pos (isTerminated_ofText ended)]
  · rw [if_neg ended, if_neg fun terminated => ended (ended_of_isTerminated terminated)]

private theorem exists_line_of_written (some : ls ≠ []) : ∃ line, written ls = line ++ ['\n'] := by
  rcases ended_written ls with nothing | ended
  · cases ls with
    | nil => contradiction
    | cons l rest => simp [written] at nothing
  · exact ended

private theorem rewrites_perform (call : StoreCall) (s : FileStore) :
    Rewrites s (call.perform s).2 := by
  cases call with
  | save link owner =>
    rw [StoreCall.perform, StoreM.map_apply]
    exact rewrites_extend _ s
  | saveBatch links owner =>
    rw [StoreCall.perform, StoreM.map_apply]
    exact rewrites_saveBatch links owner s
  | deleteBatch owner codes =>
    rw [StoreCall.perform, StoreM.map_apply]
    exact rewrites_extend _ s
  | _ =>
    rw [StoreCall.perform, StoreM.map_apply]
    exact ⟨rfl, .inl rfl⟩

/-- A call logs the lines that go with its answer. -/
theorem Carries.logged (carries : s.Carries text) (call : StoreCall) :
    Logged s text call (text ++ (ofText text).addition (call.lines (replay text)))
      (call.lines (replay text)) := by
  have rewrites := rewrites_perform call s
  have does := call.does (replay text)
  obtain ⟨after, performed, grows⟩ := adds_perform call s text carries
  have left : (call.perform s).2 = after := congrArg Prod.snd performed
  have table : (call.perform (replay text)).2 =
      replay (text ++ (ofText text).addition (call.lines (replay text))) := by
    rw [grows.table, replay_addition]
  have answer : (call.perform s).1 = (call.perform (replay text)).1 := congrArg Prod.fst performed
  rw [table, ← answer] at does
  rw [left] at rewrites
  exact {
    carries := left ▸ grows.carries
    answered := does
    changes := (indexed_replay text).lines_perm does
    unchanged := by
      intro nothing
      have same := grows.carries
      rw [nothing, addition, if_pos rfl, List.append_nil] at same ⊢
      rw [left]
      exact ⟨rfl, eq_of_rewrites rewrites ⟨rfl, .inl rfl⟩ same carries⟩
    grown := by
      intro some
      rw [addition, if_neg some, gap_ofText, List.append_assoc]
      rfl
    ended := by
      intro some
      obtain ⟨line, last⟩ := exists_line_of_written some
      refine ⟨text ++ (ofText text).gap ++ line, ?_⟩
      rw [addition, if_neg some, last, List.append_assoc, List.append_assoc]
    wellFormed := by
      intro l _
      exact ⟨fun feed => absurd (l.le_of_mem_encode feed) (by decide), l.decode?_encode⟩ }

private theorem Logged.text_kept (logged : Logged s text call new ls) : text <+: new := by
  by_cases nothing : ls = []
  · obtain ⟨rfl, -⟩ := logged.unchanged nothing
    exact List.prefix_refl new
  · rw [logged.grown nothing, List.append_assoc]
    exact List.prefix_append text _

private theorem Carries.text_kept_run (carries : s.Carries text) (calls : List StoreCall) :
    ∃ new, (StoreCall.run calls s).Carries new ∧ text <+: new := by
  induction calls generalizing s text with
  | nil => exact ⟨text, carries, List.prefix_refl text⟩
  | cons call rest ih =>
    have logged := carries.logged call
    obtain ⟨new, left, kept⟩ := ih logged.carries
    exact ⟨new, left, logged.text_kept.trans kept⟩

end

/-! ## Calls that change nothing -/

/-- Calls that neither store nor mark a record: look-ups, batches of known URLs, what answers an error
and what answers that nothing has been marked. -/
inductive Idle (s : FileStore) (text : List Char) : StoreCall → Prop where
  | get (key : String) : Idle s text (.get key)
  | ownedBy (owner : OwnerId) : Idle s text (.ownedBy owner)
  | stats : Idle s text .stats
  | failed {call : StoreCall} {e : StoreError} (answer : (call.perform s).1 = .error e) :
    Idle s text call
  | known {links : List NewLink} (owner : Option OwnerId)
      (known : ∀ link ∈ links, ∃ r ∈ (replay text).list, r.url = link.url) :
    Idle s text (.saveBatch links owner)
  | unmarked {owner : OwnerId} {codes : List ShortCode}
      (answer : ((StoreCall.deleteBatch owner codes).perform s).1 = .ok (.count 0)) :
    Idle s text (.deleteBatch owner codes)

private theorem lines_of_error {t u : LinkTable} {call : StoreCall} {e : StoreError}
    {ls : List JournalLine} (does : call.Does t (.error e) u ls) : ls = [] := by
  cases does with
  | _ => rfl

private theorem savedBatchLines_of_known {t : LinkTable} (indexed : LinkTable.Indexed t)
    {links : List NewLink} (owner : Option OwnerId)
    (known : ∀ link ∈ links, ∃ r ∈ t.list, r.url = link.url) :
    savedBatchLines links owner t = [] := by
  have none : fresh t links = [] := by
    rw [fresh, List.filter_eq_nil_iff]
    intro link there
    obtain ⟨r, stored, same⟩ := known link there
    have found : (t.list.find? (LinkTable.hasUrl link.url)).isSome :=
      List.find?_isSome.mpr ⟨r, stored, by simpa [LinkTable.hasUrl] using same⟩
    rw [indexed.codeOf?_eq, Option.isNone_map]
    simpa using found
  rw [savedBatchLines, none]
  split <;> rfl

theorem Carries.idle {s : FileStore} {text : List Char} (carries : s.Carries text)
    {call : StoreCall} (idle : Idle s text call) : (call.perform s).2 = s := by
  refine ((carries.logged call).unchanged ?_).2
  have does := call.does (replay text)
  obtain ⟨after, performed, -⟩ := adds_perform call s text carries
  cases idle with
  | failed answer =>
    have failed := (congrArg Prod.fst performed).symm.trans answer
    rw [failed] at does
    exact lines_of_error does
  | known owner known => exact savedBatchLines_of_known (indexed_replay text) owner known
  | @unmarked owner codes answer =>
    rw [performed, StoreCall.perform, StoreM.map_apply] at answer
    have nothing : ((replay text).deleteBatch owner codes).1.length = 0 := by
      simpa [LinkStore.deleteBatch, StoreM.change, Except.map] using answer
    simp only [StoreCall.lines, deletedLines, List.eq_nil_of_length_eq_zero nothing, List.map_nil]
  | _ => rfl

end FileStore

open FileStore Journal in
/-- Whatever text a file has, every call keeps it and adds the lines that go with its answer: one for
the link that it saves, one for each link of a batch whose URL is new, and one for each record that it
marks. The disk stays as it is if there are none. So it is with every run of calls. Opening the file
again and asking whether it is there change nothing. -/
theorem file_is_append_only {s : FileStore} {text : List Char} (carries : s.Carries text) :
    (∀ call : StoreCall, ∃ new,
      Logged s text call new (call.lines (replay text)) ∧ text <+: new) ∧
      (∀ calls, ∃ new, (StoreCall.run calls s).Carries new ∧ text <+: new) ∧
      (∀ call, Idle s text call → (call.perform s).2 = s) ∧
      FileStore.open s.disk s.path = (.ok s, s.disk) ∧
      ((LinkStore.ping : StoreM FileStore Unit) s).2 = s := by
  refine ⟨?_, carries.text_kept_run, fun _ => carries.idle, open_self carries, rfl⟩
  intro call
  have logged := carries.logged call
  exact ⟨_, logged, logged.text_kept⟩

namespace FileStore

def ownLine : JournalLine := .live ⟨⟨"c"⟩, "http://a.b/"⟩ (some .zero)

/-- The first URL is known already. -/
def halfKnownBatch : StoreCall :=
  .saveBatch [⟨⟨"d"⟩, "http://a.b/"⟩, ⟨⟨"c"⟩, "http://c.d/"⟩] none

/-- The code is named twice. -/
def ownDeletion : StoreCall := .deleteBatch .zero [⟨"c"⟩, ⟨"c"⟩]

private theorem not_ended_encode (l : JournalLine) : ¬Text.Ended l.encode := by
  intro ended
  cases ended with
  | inl nothing => exact Journal.encode_ne_nil l nothing
  | inr last =>
    obtain ⟨line, whole⟩ := last
    have feed : '\n' ∈ l.encode := by simp [whole]
    exact absurd (l.le_of_mem_encode feed) (by decide)

end FileStore

open FileStore Journal in
/-- The only line is not ended. A batch that stores one link and a deletion of one record end it and
add a line each, and a link that is known is refused without a trace. -/
theorem file_is_append_only_of_unfinishedLine :
    let s := ofContent (Text.bytes ownLine.encode)
    let newLine : JournalLine := .live ⟨⟨"c"⟩, "http://c.d/"⟩ none
    let mark : JournalLine := { ownLine with deleted := true }
    s.Carries ownLine.encode ∧
      (halfKnownBatch.perform s).1 = .ok (.codes [⟨"c"⟩, ⟨"c"⟩]) ∧
      (halfKnownBatch.perform s).2.Carries
        (ownLine.encode ++ ['\n'] ++ (newLine.encode ++ ['\n'])) ∧
      (ownDeletion.perform s).1 = .ok (.count 1) ∧
      (ownDeletion.perform s).2.Carries (ownLine.encode ++ ['\n'] ++ (mark.encode ++ ['\n'])) ∧
      (savePlain.perform s).2 = s := by
  intro s newLine mark
  have carries : s.Carries ownLine.encode := read_ofContent _
  have replayed : replay ownLine.encode = LinkTable.apply {} ownLine := by
    rw [replay, replayFrom, entries_encode]
    rfl
  obtain ⟨calls, -, idle, -, -⟩ := file_is_append_only carries
  have answer (call : StoreCall) :
      (call.perform s).1 = (call.perform (LinkTable.apply {} ownLine)).1 := by
    obtain ⟨after, performed, -⟩ := adds_perform call s _ carries
    rw [performed, replayed]
  have grown {call : StoreCall} {l : JournalLine}
      (lines : call.lines (LinkTable.apply {} ownLine) = [l]) :
      (call.perform s).2.Carries (ownLine.encode ++ ['\n'] ++ (l.encode ++ ['\n'])) := by
    obtain ⟨new, logged, -⟩ := calls call
    rw [replayed, lines] at logged
    have left := logged.grown (List.cons_ne_nil l [])
    rw [if_neg (not_ended_encode ownLine), List.flatMap_singleton] at left
    rw [← left]
    exact logged.carries
  refine ⟨carries, ?_, grown rfl, ?_, grown rfl, ?_⟩
  · rw [answer]
    rfl
  · rw [answer]
    rfl
  · apply idle
    apply Idle.failed (e := .conflict "c")
    rw [answer]
    rfl

end Shortlink
