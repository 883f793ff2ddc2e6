import ServerDevLib.Foundation.Once
import ServerDevLib.ThreadPool.Pool

/-!
# The global pool

`GetGlobalThreadPool` makes the pool at its first use. Threads that got a
reference enqueue their tasks through it, and the workers of a pool run from
its construction on. The first test reads `pool` without the mutex; it is taken
to read what the last store has written, as if all accesses had one order.
-/

namespace ServerDevLib.ThreadPool

open Transition Once

namespace GlobalPool

variable {W K T : Type} [DecidableEq W] [DecidableEq K] [Fintype W]

/-- `EnqueueTask` is called through a reference, and a thread is in one call at a time. -/
def usage (W K T : Type) : Usage K (Pool W K T) (ThreadPool.Action W K T) where
  user a :=
    match a with
    | .push k _ => some k
    | _ => none
  rests s k :=
    match s.caller k with
    | .idle => true
    | .pushed => false

def getGlobalThreadPool (W K T : Type) [DecidableEq W] [DecidableEq K] [Fintype W] :
    Machine (Shared K (Pool W K T)) (Once.Action K (ThreadPool.Action W K T)) :=
  Shared.machine (Pool.machine W K T) Pool.initial (usage W K T)

variable {s : Shared K (Pool W K T)} {as : List (Once.Action K (ThreadPool.Action W K T))}

/-- However the first calls overlap, one pool is made at most, every call returns it, and what all
threads have done with their references is a run of that pool. -/
theorem one_pool (hrun : (getGlobalThreadPool W K T).run Shared.initial as = some s) :
    s.objects.length ≤ 1 ∧ (∀ k, s.caller k ≠ .null) ∧
    (∀ k i, s.caller k = .done i → i = 0 ∧ s.objects.length = 1) ∧
    ∀ pool ∈ s.objects, (Pool.machine W K T).run Pool.initial (Shared.used as) = some pool := by
  have hsingle : s.Single (Pool.machine W K T) :=
    Shared.single_of_reachable rfl (Machine.reachable_of_run rfl hrun)
  refine ⟨hsingle.length_le, fun k => (hsingle.fits k).there, fun k i hpc => ?_, fun pool hpool => ?_⟩
  · exact hsingle.full i ((hsingle.fits k).done i hpc)
  · exact Shared.run_of_mem rfl hrun hpool

/-- Two threads find no pool; the second one gets the pool of the first, and both enqueue a task. -/
def overlappingCalls : List (Once.Action Bool (ThreadPool.Action Unit Bool Nat)) :=
  [.call false, .test false, .call true, .test true, .lock false, .retest false, .make false,
    .store false, .unlock false, .lock true, .retest true, .unlock true, .read true, .read false,
    .object 0 (.push true 1), .object 0 (.find ()), .object 0 (.push false 2)]

theorem one_pool_overlapping : ∃ s, (getGlobalThreadPool Unit Bool Nat).run Shared.initial
      overlappingCalls = some s ∧ s.objects.map Pool.tasks = [[1, 2]] ∧
    s.objects.length ≤ 1 ∧ (∀ k, s.caller k ≠ .null) ∧
    (∀ k i, s.caller k = .done i → i = 0 ∧ s.objects.length = 1) ∧
    ∀ pool ∈ s.objects, (Pool.machine Unit Bool Nat).run Pool.initial
      (Shared.used overlappingCalls) = some pool := by
  obtain ⟨s, hrun, htasks⟩ : ∃ s, (getGlobalThreadPool Unit Bool Nat).run Shared.initial
      overlappingCalls = some s ∧ s.objects.map Pool.tasks = [[1, 2]] := ⟨_, rfl, rfl⟩
  exact ⟨s, hrun, htasks, one_pool hrun⟩

end GlobalPool

end ServerDevLib.ThreadPool
