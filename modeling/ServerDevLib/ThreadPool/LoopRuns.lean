import ServerDevLib.ThreadPool.Pool

/-!
# A pool that is not shut down

Without `Shutdown` no worker leaves its loop, and the entry of a worker is
`EMPTY` exactly from its own store of `EMPTY` to the section in which it takes
a task. A caller that has pushed is still to notify, and a worker blocks only
on an empty queue; between them they keep a queued task from being slept
through.
-/

namespace ServerDevLib.ThreadPool

open Transition

universe u

/-- The entry of a worker that is in its loop. -/
def WorkerPc.stat {T : Type u} : WorkerPc T → Stat
  | .lock | .blocked => .EMPTY
  | .start | .test | .clear | .run _ | .exited => .ACTIVE

namespace Pool

variable {W K T : Type u} {s : Pool W K T}

def WithoutShutdown (_ : Pool W K T) : Action W K T → Prop
  | .setStop | .mark | .notifyAll | .join => False
  | _ => True

instance (s : Pool W K T) (a : Action W K T) : Decidable (WithoutShutdown s a) :=
  match a with
  | .setStop | .mark | .notifyAll | .join => isFalse id
  | .find _ | .test _ | .clear _ | .queue _ | .wake _ | .finish _ | .push _ _
  | .notifyOne _ _ => isTrue trivial

/-- A worker without an entry has not looked for it yet. -/
structure Working (s : Pool W K T) : Prop where
  running : s.stop = false
  looping : ∀ w, s.worker w ≠ .exited
  agrees : ∀ w, s.workerStat w = some (s.worker w).stat ∨ s.workerStat w = none ∧ s.worker w = .start

/-- A queued task is still to be announced, or some worker is awake. -/
def Awake (s : Pool W K T) : Prop :=
  s.tasks ≠ [] → (∃ k, s.caller k = .pushed) ∨ ∃ w, s.worker w ≠ .blocked

theorem initial_working : (initial : Pool W K T).Working where
  running := rfl
  looping _ := nofun
  agrees _ := .inl rfl

theorem Working.stat (h : s.Working) {w : W} {pc : WorkerPc T} (hpc : s.worker w = pc)
    (hstart : pc ≠ .start) : s.workerStat w = some pc.stat := by
  subst hpc
  cases h.agrees w with
  | inl hstat => exact hstat
  | inr habsent => exact absurd habsent.2 hstart

theorem initial_awake : (initial : Pool W K T).Awake := fun h => absurd rfl h

section Frames

variable [DecidableEq W]

theorem Working.goto (h : s.Working) {w : W} {pc : WorkerPc T} (hexited : pc ≠ .exited)
    (hstat : s.workerStat w = some pc.stat) : (s.goto w pc).Working where
  running := h.running
  looping v := by
    rcases eq_or_ne v w with rfl | hne
    · rw [worker_goto_self]
      exact hexited
    · rw [worker_goto_of_ne hne]
      exact h.looping v
  agrees v := by
    rcases eq_or_ne v w with rfl | hne
    · rw [worker_goto_self]
      exact .inl hstat
    · rw [worker_goto_of_ne hne]
      exact h.agrees v

/-- A worker that stores its status moves to a place where it has that status. -/
theorem Working.store (h : s.Working) (w : W) {pc : WorkerPc T} (hexited : pc ≠ .exited) :
    ((s.setStat w pc.stat).goto w pc).Working where
  running := h.running
  looping v := by
    rcases eq_or_ne v w with rfl | hne
    · rw [worker_goto_self]
      exact hexited
    · rw [worker_goto_of_ne hne]
      exact h.looping v
  agrees v := by
    change (s.setStat w pc.stat).workerStat v = _ ∨ (s.setStat w pc.stat).workerStat v = none ∧ _
    rcases eq_or_ne v w with rfl | hne
    · rw [worker_goto_self, workerStat_setStat_self]
      exact .inl rfl
    · rw [worker_goto_of_ne hne, workerStat_setStat_of_ne hne]
      exact h.agrees v

theorem Awake.goto {w : W} {pc : WorkerPc T} (hpc : pc ≠ .blocked) : (s.goto w pc).Awake := by
  intro _
  refine .inr ⟨w, ?_⟩
  rw [worker_goto_self]
  exact hpc

end Frames

variable [DecidableEq W] [DecidableEq K] [Fintype W]

theorem Working.step (h : s.Working) {a : Action W K T} {s' : Pool W K T}
    (hcond : s.WithoutShutdown a) (hfind : ∀ w, a = .find w → s.workerStat w ≠ none)
    (hstep : (machine W K T).step s a = some s') : s'.Working := by
  cases step_cases hstep with
  | @findEntry w hpc hpresent =>
    have hactive : s.workerStat w = some .ACTIVE := by
      cases h.agrees w with
      | inl hstat =>
        rw [hstat, hpc]
        rfl
      | inr habsent => exact absurd habsent.1 hpresent
    exact h.goto nofun hactive
  | @findNone w _ habsent => exact absurd habsent (hfind w rfl)
  | testActive _ hactive => exact h.goto nofun hactive
  | testExit hpc hinactive => exact absurd (h.stat hpc nofun) hinactive
  | @clear w =>
    have hlock : (WorkerPc.lock : WorkerPc T) ≠ .exited := nofun
    exact h.store w hlock
  | block hpc | wake hpc | finish hpc =>
    have hstat := h.stat hpc nofun
    exact h.goto nofun hstat
  | leave hpc hdead =>
    rw [h.stat hpc nofun] at hdead
    cases hdead
  | popEmpty _ hstop =>
    rw [h.running] at hstop
    cases hstop
  | @pop w task tasks =>
    have hrest : ({ s with tasks := tasks } : Pool W K T).Working :=
      ⟨h.running, h.looping, h.agrees⟩
    have hrun : WorkerPc.run task ≠ .exited := nofun
    exact hrest.store w hrun
  | push | notifyNone => exact ⟨h.running, h.looping, h.agrees⟩
  | @notifyBlocked k w _ hpc =>
    have hcaller : ({ s with caller := Function.update s.caller k .idle } : Pool W K T).Working :=
      ⟨h.running, h.looping, h.agrees⟩
    have hstat := h.stat hpc nofun
    exact hcaller.goto nofun hstat
  | setStop | mark | notifyAll | join => exact hcond.elim

/-- Entries are neither added nor erased by the workers. -/
theorem Working.entries (h : s.Working) {a : Action W K T} {s' : Pool W K T}
    (hcond : s.WithoutShutdown a) (hstep : (machine W K T).step s a = some s') (v : W) :
    s'.workerStat v = none ↔ s.workerStat v = none := by
  have hset {w : W} {pc : WorkerPc T} (hpc : s.worker w = pc) (hstart : pc ≠ .start)
      (stat : Stat) : (s.setStat w stat).workerStat v = none ↔ s.workerStat v = none := by
    rcases eq_or_ne v w with rfl | hne
    · rw [workerStat_setStat_self, h.stat hpc hstart]
      simp
    · rw [workerStat_setStat_of_ne hne]
  cases step_cases hstep with
  | clear hpc | pop hpc => exact hset hpc nofun _
  | setStop | mark | notifyAll | join => exact hcond.elim
  | _ => exact .rfl

/-- Every worker has an entry. -/
def Listed (s : Pool W K T) : Prop := ∀ w, s.workerStat w ≠ none

theorem working_step : (machine W K T).Preserves WithoutShutdown fun s => s.Working ∧ s.Listed := by
  intro s a s' h hcond hstep
  constructor
  · exact h.1.step hcond (fun w _ => h.2 w) hstep
  · intro w hw
    exact h.2 w ((h.1.entries hcond hstep w).mp hw)

theorem working_of_reachable (h : (machine W K T).ReachableUnder WithoutShutdown s) :
    s.Working ∧ s.Listed := by
  apply h.invariant _ working_step
  rintro s rfl
  exact ⟨initial_working, fun _ => Option.some_ne_none _⟩

theorem awake_step [Nonempty W] : (machine W K T).Preserves WithoutShutdown Awake := by
  intro s a s' h hcond hstep
  cases step_cases hstep with
  | findEntry | findNone | testActive | testExit | clear | leave | popEmpty | pop | wake | finish
  | notifyBlocked => exact Awake.goto nofun
  | block _ _ hempty => exact fun htasks => absurd hempty htasks
  | @push k => exact fun _ => .inl ⟨k, Function.update_self ..⟩
  | notifyNone _ hawake => exact fun _ => .inr ⟨Classical.arbitrary W, hawake _⟩
  | setStop | mark | notifyAll | join => exact hcond.elim

/-- No order of pushes, notifications and waits leaves a queued task with all workers asleep. -/
theorem queued_task_keeps_worker_awake [Nonempty W] (s : Pool W K T)
    (h : (machine W K T).ReachableUnder WithoutShutdown s) (htasks : s.tasks ≠ [])
    (hcallers : ∀ k, s.caller k ≠ .pushed) :
    ∃ w, s.worker w ≠ .blocked ∧ s.worker w ≠ .exited := by
  have hawake : s.Awake := by
    refine h.invariant ?_ awake_step
    rintro s rfl
    exact initial_awake
  rcases hawake htasks with ⟨k, hk⟩ | ⟨w, hw⟩
  · exact absurd hk (hcallers k)
  · exact ⟨w, hw, (working_of_reachable h).1.looping w⟩

/-- A worker that went to sleep on the empty queue is awake again for the task pushed after it. -/
theorem queued_task_keeps_worker_awake_notified : ∃ s, (machine Unit Unit Nat).runUnder
    WithoutShutdown initial [.find (), .test (), .clear (), .queue (), .push () 7,
      .notifyOne () (some ())] = some s ∧
    s.tasks = [7] ∧ ∃ w, s.worker w ≠ .blocked ∧ s.worker w ≠ .exited := by
  obtain ⟨s, hs, htasks, hcaller⟩ : ∃ s, (machine Unit Unit Nat).runUnder WithoutShutdown initial
      [.find (), .test (), .clear (), .queue (), .push () 7, .notifyOne () (some ())] = some s ∧
      s.tasks = [7] ∧ s.caller () = .idle := ⟨_, rfl, rfl, rfl⟩
  refine ⟨s, hs, htasks, queued_task_keeps_worker_awake s
    (Machine.reachableUnder_of_runUnder rfl hs) ?_ ?_⟩
  · rw [htasks]
    nofun
  · intro k hk
    rw [hcaller] at hk
    cases hk

end Pool

end ServerDevLib.ThreadPool
