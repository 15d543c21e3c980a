import Shortlink.Proofs.Store.State
/-!
# Batches and single links

A batch of links with distinct URLs leaves a store as it is left when the links are saved one after
another. In a file this holds byte for byte: the batch adds its lines with one write, and the single
links add the same lines one by one.
-/
namespace Shortlink
open LinkTable TableStore

def LinkStore.saveEach {σ : Type} [LinkStore σ] (owner : Option OwnerId) (links : List NewLink)
    (store : σ) : σ :=
  links.foldl (fun store link => ((LinkStore.save link owner : StoreM σ ShortCode) store).2) store

/-- Stores that look-ups and known URLs leave as they are, and that a batch changes as its links
do. -/
class BatchStore (σ : Type) [LinkStore σ] extends TableStore σ where
  get_state : ∀ key (store : σ), ((LinkStore.get key : StoreM σ (Option String)) store).2 = store
  save_known : ∀ {store : σ} {t link} (owner : Option OwnerId), Holds store t →
    (t.codeOf? link.url).isSome → ((LinkStore.save link owner : StoreM σ ShortCode) store).2 = store
  saveBatch_state : ∀ {store : σ} {t links} (owner : Option OwnerId), Holds store t →
    (links.map NewLink.url).Nodup →
    ((LinkStore.saveBatch links owner : StoreM σ (List ShortCode)) store).2 =
      LinkStore.saveEach owner links store

/-! ## In memory -/

theorem LinkTable.saveAll_state (owner : Option OwnerId) (links : List NewLink) (t : LinkTable) :
    (t.saveAll owner links).2 = LinkStore.saveEach owner links t := by
  induction links generalizing t with
  | nil => rfl
  | cons link rest ih =>
    rw [LinkTable.saveAll, LinkStore.saveEach, List.foldl_cons, ← LinkStore.saveEach]
    cases known : t.codeOf? link.url with
    | some code => simp [LinkStore.save, StoreM.change, LinkTable.save, known, ih]
    | none => simp [LinkStore.save, StoreM.change, LinkTable.save, known, ih]

instance : BatchStore LinkTable where
  get_state _ _ := rfl
  save_known := by
    intro store t link owner held known
    obtain ⟨rfl, -⟩ := held
    obtain ⟨code, known⟩ := Option.isSome_iff_exists.mp known
    simp [LinkStore.save, StoreM.change, LinkTable.save, known]
  saveBatch_state := by
    intro store t links owner held distinct
    have unique := ensureUnique_eq_ok_iff.mpr distinct
    simp only [LinkStore.saveBatch, StoreM.change, LinkTable.saveBatch, unique]
    exact saveAll_state owner links store

/-! ## In a file -/

namespace FileStore
open Journal

/-- At most the content of the file has changed. -/
structure Rewrites (s after : FileStore) : Prop where
  path : after.path = s.path
  disk : after.disk = s.disk ∨ ∃ bytes, s.disk.write s.path bytes = .ok after.disk

theorem rewrites_extend {α : Type} (f : Journal → LinkTable → Except StoreError (α × Journal))
    (s : FileStore) : Rewrites s (extend f s).2 := by
  rw [extend, StoreM.change]
  split
  case h_2 => exact ⟨rfl, .inl rfl⟩
  case h_1 a after changed =>
    split at changed
    · contradiction
    split at changed
    · contradiction
    split at changed
    · cases changed
      exact ⟨rfl, .inl rfl⟩
    split at changed
    · contradiction
    · next disk written =>
      cases changed
      exact ⟨rfl, .inr ⟨_, written⟩⟩

theorem rewrites_saveBatch (links : List NewLink) (owner : Option OwnerId) (s : FileStore) :
    Rewrites s ((LinkStore.saveBatch links owner : StoreM FileStore (List ShortCode)) s).2 := by
  cases unique : ensureUnique links with
  | error e =>
    simp only [LinkStore.saveBatch, unique]
    exact ⟨rfl, .inl rfl⟩
  | ok =>
    simp only [LinkStore.saveBatch, unique]
    exact rewrites_extend _ s

section
variable {s : FileStore}

private theorem write_of_rewrites {after : FileStore} (rewrites : Rewrites s after)
    {new : List Char}
    (left : after.Carries new) : s.disk.write s.path (Text.bytes new) = .ok after.disk := by
  rw [Carries, rewrites.path] at left
  rcases rewrites.disk with same | ⟨bytes, written⟩
  · rw [same] at left ⊢
    exact Disk.write_self left
  · have content : bytes = Text.bytes new :=
      Except.ok.inj ((Disk.read_of_write written).symm.trans left)
    rw [← content]
    exact written

theorem eq_of_rewrites {a b : FileStore} (first : Rewrites s a) (second : Rewrites s b)
    {new : List Char} (left : a.Carries new) (right : b.Carries new) : a = b := by
  have disks := (write_of_rewrites first left).symm.trans (write_of_rewrites second right)
  have paths := first.path.trans second.path.symm
  cases a
  cases b
  simp only [Except.ok.injEq] at disks paths
  rw [disks, paths]

theorem Rewrites.trans {between after : FileStore} (first : Rewrites s between)
    (second : Rewrites between after) : Rewrites s after := by
  refine ⟨second.path.trans first.path, ?_⟩
  have onward := second.disk
  rw [first.path] at onward
  rcases first.disk with same | ⟨bytes, written⟩
  · rwa [same] at onward
  · refine .inr ?_
    rcases onward with same | ⟨more, written'⟩
    · exact ⟨bytes, same ▸ written⟩
    · rw [Disk.write_write written] at written'
      exact ⟨more, written'⟩

theorem fresh_cons {t : LinkTable} (indexed : Indexed t) (owner : Option OwnerId) {link : NewLink}
    {rest : List NewLink} (other : link.url ∉ rest.map NewLink.url) :
    (fresh t (link :: rest)).map (fun link => .live link owner) =
      savedLines link owner t ++
        (fresh ((savedLines link owner t).foldl LinkTable.apply t) rest).map
          fun link => .live link owner := by
  cases known : t.codeOf? link.url with
  | some code => simp [savedLines, fresh, known]
  | none =>
    have line : savedLines link owner t = [.live link owner] := by simp [savedLines, known]
    have first : fresh t (link :: rest) = link :: fresh t rest := by simp [fresh, known]
    rw [line, first, List.foldl_cons, List.foldl_nil, indexed.apply_live known,
      fresh_push indexed (r := link.record owner) known other]
    rfl

/-- Links with distinct URLs that are saved one after another add the lines of those that are new. -/
theorem Carries.saveEach {text : List Char} (carries : s.Carries text) (owner : Option OwnerId)
    {links : List NewLink} (distinct : (links.map NewLink.url).Nodup) :
    Rewrites s (LinkStore.saveEach owner links s) ∧
      (LinkStore.saveEach owner links s).Carries (text ++ (ofText text).addition
        ((fresh (replay text) links).map fun link => .live link owner)) := by
  induction links generalizing s text with
  | nil =>
    refine ⟨⟨rfl, .inl rfl⟩, ?_⟩
    have nothing : (ofText text).addition [] = [] := rfl
    rw [fresh, List.filter_nil, List.map_nil, nothing, List.append_nil]
    exact carries
  | cons link rest ih =>
    rw [List.map_cons, List.nodup_cons] at distinct
    have once : Rewrites s ((LinkStore.save link owner : StoreM FileStore ShortCode) s).2 :=
      rewrites_extend _ s
    obtain ⟨after, saved, grows⟩ := adds_save link owner s text carries
    rw [saved] at once
    obtain ⟨more, left⟩ := ih grows.carries distinct.2
    have step : LinkStore.saveEach owner (link :: rest) s = LinkStore.saveEach owner rest after := by
      rw [LinkStore.saveEach, List.foldl_cons, saved, LinkStore.saveEach]
    rw [step]
    refine ⟨once.trans more, ?_⟩
    rw [fresh_cons (indexed_replay text) owner distinct.1, addition_append, ← List.append_assoc,
      ← replay_addition]
    exact left

end

end FileStore

instance : BatchStore FileStore where
  get_state _ _ := rfl
  save_known := by
    intro store t link owner held known
    obtain ⟨text, carries, rfl⟩ := held
    obtain ⟨code, known⟩ := Option.isSome_iff_exists.mp known
    simp [LinkStore.save, FileStore.extend, StoreM.change, carries.load, Journal.save, known]
  saveBatch_state := by
    intro store t links owner held distinct
    obtain ⟨text, carries, -⟩ := held
    have batch := FileStore.rewrites_saveBatch links owner store
    obtain ⟨after, saved, grows⟩ := FileStore.adds_saveBatch links owner store text carries
    obtain ⟨each, left⟩ := carries.saveEach owner distinct
    have lines : FileStore.savedBatchLines links owner (Journal.replay text) =
        (Journal.fresh (Journal.replay text) links).map fun link => .live link owner := by
      rw [FileStore.savedBatchLines, ensureUnique_eq_ok_iff.mpr distinct]
    have same := grows.carries
    rw [lines] at same
    rw [saved] at batch ⊢
    exact FileStore.eq_of_rewrites batch each same left

end Shortlink
