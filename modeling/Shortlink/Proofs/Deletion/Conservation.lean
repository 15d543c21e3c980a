import Shortlink.Proofs.Deletion.Lifecycle
import Shortlink.Proofs.Deletion.Recording
import Shortlink.Proofs.Deletion.Request
/-!
# No chunk is lost or deleted twice

Main statement: at every moment of every run the chunks of the accepted requests are distributed
over the places of the pipeline, each of them in one place.
-/
namespace Shortlink.Pipeline

section
variable (c : PipelineConfig) (actions : List Action)

theorem places_perm :
    (run c {} actions).places.Perm (chunksFrom c 0 (accepted c {} actions)) := by
  apply List.perm_iff_count.mpr
  intro chunk
  simpa [places, held, flying, recorded] using count_places_run c {} actions chunk

private theorem count_handed_le (chunk : Chunk) :
    (handed c {} actions).count chunk ≤
      (chunksFrom c 0 (accepted c {} actions)).count chunk := by
  have h := count_handed_run c {} actions chunk
  simp only [held, List.append_nil, List.flatMap_nil, List.count_nil, Nat.add_zero] at h
  omega

private theorem nodup_handed : (handed c {} actions).Nodup := by
  apply List.nodup_iff_count_le_one.mpr
  intro chunk
  have once := List.nodup_iff_count_le_one.mp
    (nodup_chunksFrom c 0 (accepted c {} actions)) chunk
  exact Nat.le_trans (count_handed_le c actions chunk) once

theorem request_of_handed {chunk : Chunk} (h : chunk ∈ handed c {} actions) :
    ∃ r, (accepted c {} actions)[chunk.request]? = some r ∧
      (r.chunks c.sizes.chunk)[chunk.index]? = some chunk.work ∧ chunk.work.owner = r.owner := by
  have present := Nat.lt_of_lt_of_le (List.count_pos_iff.mpr h) (count_handed_le c actions chunk)
  obtain ⟨i, r, hr, hn, hwork⟩ := mem_chunksFrom.mp (List.count_pos_iff.mp present)
  have hi : chunk.request = i := by omega
  exact ⟨r, hi ▸ hr, hwork, DeleteRequest.owner_of_mem_chunks (List.mem_of_getElem? hwork)⟩

private theorem flying_recorded_subset :
    (run c {} actions).flying ++ (run c {} actions).recorded ⊆ handed c {} actions := by
  intro chunk hchunk
  have h := count_flying_run c {} actions chunk
  have present := List.count_pos_iff.mpr hchunk
  rw [List.count_append] at present
  simp only [flying, recorded, List.map_nil, List.count_nil, Nat.zero_add] at h present
  apply List.count_pos_iff.mp
  omega

private theorem timedOut_of_lost (h : (run c {} actions).lost ≠ []) :
    ∃ call aborted, (run c {} actions).outcome? call = some (.timedOut aborted) := by
  have stage := stage_run c actions
  generalize firstCall? c {} actions = first at stage
  cases stage with
  | accepting idle running silent kept => exact absurd kept h
  | draining waits refusing early kept => exact absurd kept h
  | drained ended stopped empty kept answer => exact absurd kept h
  | timedOut ended stopped empty answer => exact ⟨_, _, outcome?_eq_of_mem answer⟩

theorem recorded_perm (empty : (run c {} actions).isEmpty = true)
    (kept : (run c {} actions).lost = []) :
    (run c {} actions).recorded.Perm (chunksFrom c 0 (accepted c {} actions)) := by
  obtain ⟨ready, line, called, queue, flight⟩ := isEmpty_iff.mp empty
  have everywhere := places_perm c actions
  simpa only [places, held, flying, ready, line, called, queue, flight, kept, List.append_nil,
    List.flatMap_nil, List.map_nil, List.nil_append] using everywhere

/-- When the first call answers that the pipeline is drained, every chunk has been passed to the
store, and the store has been done with every chunk. -/
theorem perm_of_drained {call : Nat} (first : firstCall? c {} actions = some call)
    (answer : (run c {} actions).outcome? call = some .drained) :
    (run c {} actions).recorded.Perm (chunksFrom c 0 (accepted c {} actions)) ∧
      (handed c {} actions).Perm (chunksFrom c 0 (accepted c {} actions)) := by
  obtain ⟨empty, kept⟩ := empty_of_drained first answer
  obtain ⟨-, -, -, -, hflight⟩ := isEmpty_iff.mp empty
  have all := recorded_perm c actions empty kept
  refine ⟨all, List.perm_iff_count.mpr fun chunk => ?_⟩
  have most := count_handed_le c actions chunk
  have least := count_flying_run c {} actions chunk
  have same := all.count_eq chunk
  rw [flying, hflight] at least
  simp only [flying, recorded, List.map_nil, List.count_nil, Nat.zero_add] at least same
  omega

end

/-- At every moment of every run each chunk of each accepted request is in one place, and the store
has been passed each chunk at most once, for its own owner. Nothing is lost unless a call ran out of
time. When the first call answers that the pipeline is drained, the store has been passed every
chunk once. The store may be any store: it is asked for the chunks on record, whether it succeeds
or fails. -/
theorem chunks_conserved {σ : Type} [LinkStore σ] (store : σ) (c : PipelineConfig)
    (actions : List Action) :
    let p := run c {} actions
    let requests := accepted c {} actions
    let chunks := chunksFrom c 0 requests
    let passed := handed c {} actions
    chunks.Nodup ∧ p.places.Perm chunks ∧
      (p.lost ≠ [] → ∃ call aborted, p.outcome? call = some (.timedOut aborted)) ∧
      passed.Nodup ∧ p.flying ++ p.recorded ⊆ passed ∧
      (∀ chunk ∈ passed, ∃ r, requests[chunk.request]? = some r ∧
        (r.chunks c.sizes.chunk)[chunk.index]? = some chunk.work ∧ chunk.work.owner = r.owner) ∧
      (Service.deleteChunks (⟨store, []⟩ : Recording σ) p.recorded).asked =
        p.recorded.map Chunk.work ∧
      ∀ call, firstCall? c {} actions = some call → p.outcome? call = some .drained →
        passed.Perm chunks ∧ p.recorded.Perm chunks := by
  intro p requests chunks passed
  refine ⟨nodup_chunksFrom c 0 requests, places_perm c actions, timedOut_of_lost c actions,
    nodup_handed c actions, flying_recorded_subset c actions, ?_, ?_, ?_⟩
  · intro chunk hchunk
    exact request_of_handed c actions hchunk
  · exact Recording.asked_deleteChunks _ _
  · intro call first answer
    exact (perm_of_drained c actions first answer).symm

end Shortlink.Pipeline
