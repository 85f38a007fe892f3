import Mathlib.Data.List.Dedup
import AsyncGateway.System.Gateway

/-!
# Tasks — the queues, and who reads them

A worker reads the queues of its pools (`queuesForPools`): the shared ones and a poll queue for each
pool, or the transfer queue alone.  What it reads it hands to the handler of that name
(`dispatchMessage`).
-/

namespace AsyncGateway

def sharedQueues : List String :=
  ["submit:default", "compensate:default", "cancel:default", "finalize:default"]

/-- The pools a worker wants, a set. -/
def wantedPools (pools : List String) : List String :=
  ((pools.map fun p => String.ofList (Text.strip p.toList)).filter (· ≠ "")).dedup

/-- `queues_for_pools`. -/
def queuesForPools (pools : List String) : List String :=
  if "transfer" ∈ wantedPools pools then [transferQueue]
  else sharedQueues ++ (wantedPools pools).map ("poll:" ++ ·)

/-- `dispatch_message`, by `HANDLERS`: `none` is the `KeyError` of an unknown name. -/
def dispatchMessage (m : Message) : Option Work :=
  if m.name = "submit_upstream" then some .submitUpstream
  else if m.name = "poll_upstream" then some .pollUpstream
  else if m.name = "finalize_task" then some .finalizeTask
  else if m.name = "cancel_upstream" then some .cancelUpstream
  else if m.name = "compensate_orphan" then some .compensateOrphan
  else if m.name = "store_result" then some (.storeResult (m.attempt.getD 1))
  else none

/-- Whether it is the transfer of a result. -/
def Work.isTransfer : Work → Bool
  | .storeResult _ => true
  | _ => false

section Pools

variable {pools : List String} {pool : String}

/-- A wanted pool has a name, without white space around it. -/
theorem strip_of_mem_wantedPools (h : pool ∈ wantedPools pools) :
    pool ≠ "" ∧ String.ofList (Text.strip pool.toList) = pool := by
  obtain ⟨hmem, hne⟩ := List.mem_filter.mp (List.mem_dedup.mp h)
  obtain ⟨p, -, rfl⟩ := List.mem_map.mp hmem
  exact ⟨of_decide_eq_true hne, by rw [String.toList_ofList, Text.strip_strip]⟩

theorem shared_mem_queuesForPools {queue : String} (h : queue ∈ sharedQueues)
    (hpools : "transfer" ∉ wantedPools pools) : queue ∈ queuesForPools pools := by
  rw [queuesForPools, if_neg hpools]
  exact List.mem_append_left _ h

/-- Only the workers of the transfers read their queue. -/
theorem transfer_mem_queuesForPools :
    transferQueue ∈ queuesForPools pools ↔ "transfer" ∈ wantedPools pools := by
  unfold queuesForPools
  split
  · next h => exact ⟨fun _ => h, fun _ => List.mem_singleton_self _⟩
  · next h =>
      refine ⟨fun hmem => ?_, fun hmem => absurd hmem h⟩
      rcases List.mem_append.mp hmem with hshared | hpoll
      · exact absurd hshared (by decide)
      · obtain ⟨p, -, hp⟩ := List.mem_map.mp hpoll
        have hhead := congrArg (fun s => s.toList.head?) hp
        simp [transferQueue] at hhead

/-- A poll queue is read by the workers of its pool that are not of the transfers. -/
theorem poll_mem_queuesForPools :
    pollQueue pool ∈ queuesForPools pools ↔
      "transfer" ∉ wantedPools pools ∧ poolOf pool ∈ wantedPools pools := by
  have hhead : ∀ {queue : String}, pollQueue pool = queue → queue.toList.head? = some 'p' := by
    rintro _ rfl
    simp [pollQueue]
  unfold queuesForPools
  split
  · next h =>
      refine ⟨fun hmem => ?_, fun hboth => absurd h hboth.1⟩
      exact absurd (hhead (List.mem_singleton.mp hmem)) (by decide)
  · next h =>
      rw [List.mem_append, List.mem_map]
      refine ⟨fun hmem => ⟨h, ?_⟩, fun hboth => .inr ⟨_, hboth.2, rfl⟩⟩
      rcases hmem with hshared | ⟨p, hp, heq⟩
      · have hnone : ∀ queue ∈ sharedQueues, queue.toList.head? ≠ some 'p' := by decide
        exact absurd (hhead rfl) (hnone _ hshared)
      · have hlist : "poll:".toList ++ p.toList = "poll:".toList ++ (poolOf pool).toList := by
          simpa [pollQueue] using congrArg String.toList heq
        rwa [String.toList_injective (List.append_cancel_left hlist)] at hp

end Pools

end AsyncGateway
