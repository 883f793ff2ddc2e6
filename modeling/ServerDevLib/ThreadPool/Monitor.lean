import ServerDevLib.ThreadPool.Scaling

/-!
# The monitor

`Init` starts the timer if there may be more workers than the minimum, and
`Monitor` returns at once in just that case. A monitor that was started never
gets to the load.
-/

namespace ServerDevLib.ThreadPool

open Transition

namespace Scaling

variable {W K T : Type}

/-- `Adjust` and `GetThredShold` are private; a timer calls `Monitor` only. -/
def Event.FromTimer : Event W K T → Prop
  | .adjust _ | .getThredShold _ => False
  | _ => True

/-- A queued task, a load below the threshold that is selected for it and room for a worker. -/
def observes (c : ThreadPoolConfig) (s : Scaling W K T) (idleTime totalTime : Int) : Bool :=
  let percent := s.load idleTime totalTime
  !s.pool.tasks.isEmpty && percent.less (ThreadPool.getThredShold percent.toLong) &&
    s.workers.card < c.maxThread.toNat

/-- What each call of `Monitor` observes. -/
def observation (c : ThreadPoolConfig) (s : Scaling W K T) : Event W K T → Option Bool
  | .monitor idleTime totalTime => some (s.observes c idleTime totalTime)
  | _ => none

def Added (s s' : Scaling W K T) : Prop := ∃ w ∈ s'.workers, w ∉ s.workers

variable [DecidableEq W] [DecidableEq K] [Fintype W]

/-- More than `verify_count` consecutive calls of `Monitor` observe that a worker is wanted. -/
def Due (c : ThreadPoolConfig) (s : Scaling W K T) (events : List (Event W K T)) : Prop :=
  c.verifyCount.toNat < ((machine W K T c).outputs (observation c) s events).length ∧
    ∀ b ∈ (machine W K T c).outputs (observation c) s events, b = true

variable {c : ThreadPoolConfig} {s s' : Scaling W K T}

omit [DecidableEq W] [DecidableEq K] [Fintype W] in
/-- Where the monitor was started, `Monitor` does nothing. -/
theorem monitor_of_started (hstart : c.startsMonitor = true) (s : Scaling W K T)
    (idleTime totalTime : Int) : s.monitor c idleTime totalTime = s := by
  have hless : c.minCoreThread < c.maxThread :=
    of_decide_eq_true (Bool.and_eq_true_iff.mp hstart).2
  rw [monitor, if_pos hless]

/-- As long as nothing but the timer calls `Adjust`, no thread is started and none is erased. -/
theorem idle_step (hstart : c.startsMonitor = true) {e : Event W K T} (htimer : e.FromTimer)
    (hidle : s.adjust = .idle) (hstep : (machine W K T c).step s e = some s') :
    s'.adjust = .idle ∧ s'.workers = s.workers := by
  cases step_cases hstep with
  | pool => exact ⟨hidle, rfl⟩
  | monitor =>
    rw [monitor_of_started hstart]
    exact ⟨hidle, rfl⟩
  | getThredShold | adjust => exact htimer.elim
  | spawn hpc | insert hpc | mark hpc | eraseJoinable hpc | erase hpc | leave hpc =>
    rw [hidle] at hpc
    cases hpc

theorem workers_of_run (hstart : c.startsMonitor = true) {events : List (Event W K T)}
    (htimer : ∀ e ∈ events, e.FromTimer) (hidle : s.adjust = .idle)
    (hrun : (machine W K T c).run s events = some s') : s'.workers = s.workers := by
  have hstep : ∀ t e t', (t.adjust = .idle ∧ t.workers = s.workers) → e ∈ events →
      (machine W K T c).step t e = some t' → t'.adjust = .idle ∧ t'.workers = s.workers := by
    intro t e t' ht hmem hstep
    obtain ⟨hidle', hworkers⟩ := idle_step hstart (htimer e hmem) ht.1 hstep
    exact ⟨hidle', hworkers.trans ht.2⟩
  exact (Machine.run_invariant hstep ⟨hidle, rfl⟩ hrun).2

/-- Whatever a started monitor observes, no worker is added. -/
theorem scales_iff_not_due (hstart : c.startsMonitor = true) {events : List (Event W K T)}
    (htimer : ∀ e ∈ events, e.FromTimer) (hidle : s.adjust = .idle)
    (hrun : (machine W K T c).run s events = some s') :
    (Due c s events → Added s s') ↔ ¬ Due c s events := by
  have hnone : ¬ Added s s' := by
    rintro ⟨w, hw, hnew⟩
    rw [workers_of_run hstart htimer hidle hrun] at hw
    exact hnew hw
  exact ⟨fun hscales hdue => hnone (hscales hdue), fun hnot hdue => absurd hdue hnot⟩

/-- One worker and the monitor's thread, where three workers more are allowed. -/
def oneWorkerConfig : ThreadPoolConfig := ⟨1, 5, true, 30000, 3⟩

/-- The worker is at its task, and another task is queued. -/
def oneWorker : Scaling (Fin 6) Unit Unit where
  pool := { (Pool.initial : Pool (Fin 6) Unit Unit) with
    workerStat := fun w => if w = 0 then some .ACTIVE else none
    tasks := [()]
    worker := fun w => if w = 0 then .run () else .start }
  workers := {0, 5}
  joinable _ := true
  erased := ∅
  terminated := false
  prevIdleTime := 0
  prevTotalTime := 0
  thredShold := FIRST
  countForAdd := 0
  countForSub := 0
  adjust := .idle

/-- Each reading of the times stands for a load of 10 percent. -/
def fourTicks : List (Event (Fin 6) Unit Unit) :=
  [.monitor 90 100, .monitor 180 200, .monitor 270 300, .monitor 360 400]

theorem oneWorker_init : (machine (Fin 6) Unit Unit oneWorkerConfig).init oneWorker := by
  refine ⟨⟨by decide, fun w hclear => ?_, fun w hwait => ?_, fun _ _ => rfl⟩, rfl, rfl, rfl⟩
  · simp only [oneWorker] at hclear
    split at hclear <;> cases hclear
  · simp only [oneWorker] at hwait
    split at hwait <;> cases hwait <;> contradiction

theorem oneWorker_run :
    (machine (Fin 6) Unit Unit oneWorkerConfig).run oneWorker fourTicks = some oneWorker := rfl

theorem fourTicks_fromTimer : ∀ e ∈ fourTicks, e.FromTimer := by
  simp [fourTicks, Event.FromTimer]

theorem due_fourTicks : Due oneWorkerConfig oneWorker fourTicks :=
  ⟨by decide +kernel, by decide +kernel⟩

theorem scales_iff_not_due_fourTicks :
    (Due oneWorkerConfig oneWorker fourTicks → Added oneWorker oneWorker) ↔
      ¬ Due oneWorkerConfig oneWorker fourTicks :=
  scales_iff_not_due rfl fourTicks_fromTimer rfl oneWorker_run

/-- After four calls that observe a load of 10 percent and a queued task no worker was added. -/
theorem not_added : oneWorkerConfig.startsMonitor = true ∧
    (machine (Fin 6) Unit Unit oneWorkerConfig).init oneWorker ∧
    (machine (Fin 6) Unit Unit oneWorkerConfig).run oneWorker fourTicks = some oneWorker ∧
    Due oneWorkerConfig oneWorker fourTicks ∧ ¬ Added oneWorker oneWorker :=
  ⟨rfl, oneWorker_init, oneWorker_run, due_fourTicks, fun ⟨_, hw, hnew⟩ => hnew hw⟩

end Scaling

end ServerDevLib.ThreadPool
