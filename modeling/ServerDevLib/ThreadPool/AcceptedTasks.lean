import ServerDevLib.ThreadPool.Accounting

/-!
# What becomes of accepted tasks at a shutdown

`Shutdown` empties the queue in the section in which it marks the workers,
and joins the workers afterwards. What was pushed before that section is
discarded in it or was taken by a worker, which executes it before it can be
joined. `EnqueueTask` does not look at `_stop`; a task that is pushed after
the section is still in the queue when no worker is left.
-/

namespace ServerDevLib.ThreadPool

open Transition

universe u

namespace Pool

variable {W K T : Type u} {s : Pool W K T}

/-- `Shutdown` has not been in its section under `_queueMutex`. -/
def Accepting (s : Pool W K T) : Prop := s.shutdown = .idle ∨ s.shutdown = .stopped

/-- Tasks are pushed only before the section of `Shutdown` that clears the queue. -/
def PushedInTime (s : Pool W K T) : Action W K T → Prop
  | .push _ _ => s.Accepting
  | _ => True

instance (s : Pool W K T) : Decidable s.Accepting :=
  inferInstanceAs (Decidable (s.shutdown = .idle ∨ s.shutdown = .stopped))

instance (s : Pool W K T) (a : Action W K T) : Decidable (s.PushedInTime a) :=
  match a with
  | .push _ _ => inferInstanceAs (Decidable s.Accepting)
  | .find _ | .test _ | .clear _ | .queue _ | .wake _ | .finish _ | .notifyOne _ _ | .setStop
  | .mark | .notifyAll | .join => isTrue trivial

structure Cleared (s : Pool W K T) : Prop where
  empty : ¬ s.Accepting → s.tasks = []
  joined : s.shutdown = .returned → ∀ w, s.worker w = .exited

theorem initial_cleared : (initial : Pool W K T).Cleared where
  empty h := absurd (.inl rfl) h
  joined := nofun

variable [DecidableEq W]

/-- A worker that still moves has not been joined. -/
theorem Cleared.goto (h : s.Cleared) {w : W} {pc : WorkerPc T} (hpc : s.worker w ≠ .exited) :
    (s.goto w pc).Cleared where
  empty := h.empty
  joined hreturned := absurd (h.joined hreturned w) hpc

variable [DecidableEq K] [Fintype W]

theorem cleared_step : (machine W K T).Preserves PushedInTime Cleared := by
  intro s a s' h htime hstep
  have hmoves {w : W} {pc : WorkerPc T} (hpc : s.worker w = pc) (hne : pc ≠ .exited) :
      s.worker w ≠ .exited := by rwa [hpc]
  cases step_cases hstep with
  | findEntry hpc | findNone hpc | testActive hpc | testExit hpc | block hpc | leave hpc | wake hpc
  | finish hpc => exact h.goto (hmoves hpc nofun)
  | @clear w hpc =>
    have hset : (s.setStat w .EMPTY).Cleared := ⟨h.empty, h.joined⟩
    exact hset.goto (hmoves hpc nofun)
  | popEmpty hpc =>
    have hpop : ({ s with emptyPop := true } : Pool W K T).Cleared := ⟨h.empty, h.joined⟩
    exact hpop.goto (hmoves hpc nofun)
  | @pop w task tasks hpc htasks =>
    have hrest : ({ s with tasks := tasks }.setStat w .ACTIVE : Pool W K T).Cleared := by
      refine ⟨fun hlate => ?_, h.joined⟩
      have hempty := h.empty hlate
      rw [htasks] at hempty
      cases hempty
    exact hrest.goto (hmoves hpc nofun)
  | push => exact ⟨fun hlate => absurd htime hlate, h.joined⟩
  | @notifyBlocked k w _ hpc =>
    have hcaller : ({ s with caller := Function.update s.caller k .idle } : Pool W K T).Cleared :=
      ⟨h.empty, h.joined⟩
    exact hcaller.goto (hmoves hpc nofun)
  | notifyNone => exact ⟨h.empty, h.joined⟩
  | setStop => exact ⟨fun hlate => absurd (.inr rfl) hlate, nofun⟩
  | mark => exact ⟨fun _ => rfl, nofun⟩
  | notifyAll hmarked =>
    refine ⟨fun _ => h.empty ?_, nofun⟩
    rw [Accepting, hmarked]
    decide
  | join hjoining hexited =>
    refine ⟨fun _ => h.empty ?_, fun _ => hexited⟩
    rw [Accepting, hjoining]
    decide

theorem cleared_of_reachable (h : (machine W K T).ReachableUnder PushedInTime s) : s.Cleared := by
  refine h.invariant ?_ cleared_step
  rintro s rfl
  exact initial_cleared

end Pool

namespace Accounting

variable {W K T : Type u} [DecidableEq W] [DecidableEq K] [DecidableEq T] [Fintype W]

/-- When `Shutdown` has returned, every accepted task is executed or discarded. -/
theorem settled_of_returned (s : Accounting W K T)
    (h : (machine W K T).ReachableUnder (fun s a => s.pool.PushedInTime a) s)
    (hreturned : s.pool.shutdown = .returned) :
    s.pool.tasks = [] ∧ ∀ task ∈ s.pushed, s.Executed task ∨ task ∈ s.discarded := by
  have hbalanced := balanced_of_reachable h
  have hcleared := Pool.cleared_of_reachable (pool_of_reachable h)
  have hempty : s.pool.tasks = [] := by
    apply hcleared.empty
    rw [Pool.Accepting, hreturned]
    decide
  refine ⟨hempty, fun task hmem => ?_⟩
  have hplaces := hbalanced.balance.subset hmem
  rw [hempty, List.append_nil, List.mem_append] at hplaces
  cases hplaces with
  | inl hdequeued =>
    obtain ⟨⟨w, _⟩, htaken, rfl⟩ := List.mem_map.mp hdequeued
    cases hbalanced.mem_dequeued.mp htaken with
    | inl hexecuted => exact .inl ⟨w, hexecuted⟩
    | inr hrunning =>
      rw [hcleared.joined hreturned w] at hrunning
      cases hrunning
  | inr hdiscarded => exact .inr hdiscarded

/-- One task is executed although the shutdown has begun, the one behind it is discarded. -/
theorem settled_of_returned_busy : ∃ s, (machine Unit Unit Nat).runUnder
    (fun s a => s.pool.PushedInTime a) initial
    [.find (), .test (), .clear (), .push () 1, .notifyOne () none, .push () 2, .queue (), .setStop,
      .mark, .notifyOne () none, .notifyAll, .finish (), .test (), .join] = some s ∧
    (s.executed, s.discarded) = ([((), 1)], [2]) ∧
    s.pool.tasks = [] ∧ ∀ task ∈ s.pushed, s.Executed task ∨ task ∈ s.discarded := by
  obtain ⟨s, hs, heq⟩ : ∃ s, (machine Unit Unit Nat).runUnder
      (fun s a => s.pool.PushedInTime a) initial
      [.find (), .test (), .clear (), .push () 1, .notifyOne () none, .push () 2, .queue (),
        .setStop, .mark, .notifyOne () none, .notifyAll, .finish (), .test (), .join] = some s ∧
      (s.executed, s.discarded, s.pool.shutdown) = ([((), 1)], [2], .returned) :=
    Option.map_eq_some_iff.mp (by decide +kernel)
  simp only [Prod.mk.injEq] at heq ⊢
  exact ⟨s, hs, ⟨heq.1, heq.2.1⟩, settled_of_returned s (Machine.reachableUnder_of_runUnder rfl hs)
    heq.2.2⟩

/-- A task pushed between the clearing and the join, and one pushed after the return. -/
theorem accepted_task_stays_queued :
    (∃ s, (machine Unit Unit Nat).run initial [.find (), .test (), .clear (), .queue (), .setStop,
      .mark, .push () 1, .notifyAll, .queue (), .join] = some s ∧
      (s.pool.shutdown, s.pool.tasks, s.executed, s.discarded) = (.returned, [1], [], [])) ∧
    ∃ s, (machine Unit Unit Nat).run initial [.find (), .test (), .clear (), .queue (), .setStop,
      .mark, .notifyAll, .queue (), .join, .push () 1] = some s ∧
      (s.pool.shutdown, s.pool.tasks, s.executed, s.discarded) = (.returned, [1], [], []) :=
  ⟨Option.map_eq_some_iff.mp (by decide +kernel), Option.map_eq_some_iff.mp (by decide +kernel)⟩

end Accounting

end ServerDevLib.ThreadPool
