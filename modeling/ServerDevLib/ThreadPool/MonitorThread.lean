import ServerDevLib.ThreadPool.Draining
import ServerDevLib.ThreadPool.Scaling
import ServerDevLib.ThreadPool.Timer

/-!
# A shutdown with the monitor's thread

`Init` files the thread that runs `Timer::Start` among the workers, and
`Shutdown` joins them all. The workers leave because `Shutdown` marks their
entries; the timer's thread has no entry and leaves because the timer is
stopped in the same section under `_queueMutex`.
-/

namespace ServerDevLib.ThreadPool

open Transition

structure Monitored (W K T : Type) where
  pool : Pool W K T
  timer : Timer Unit Unit

namespace Monitored

inductive Event (W K T : Type)
  | pool (a : Action W K T)
  | timer (a : Timer.Action Unit Unit)

namespace Event

variable {W K T : Type}

def ofWorker : Event W K T → Bool
  | .pool a => a.ofWorker
  | .timer _ => false

def ofTimer (own : Timer.Action Unit Unit → Bool) : Event W K T → Bool
  | .pool _ => false
  | .timer a => own a

/-- A step of the thread that was started for the monitor. -/
def ofMonitor : Event W K T → Bool := ofTimer (Timer.Action.moves ())

/-- `Monitor` is called. -/
def monitors : Event W K T → Bool := ofTimer (Timer.Action.calls ())

end Event

variable {W K T : Type}

/-- The pool when its constructor returns. -/
def initial (c : ThreadPoolConfig) : Monitored W K T where
  pool := Pool.initial
  timer :=
    if c.startsMonitor then
      { (Timer.initial : Timer Unit Unit) with
        interval := c.monitorPeriod.toUInt64
        cb := some () }.goto () .test
    else Timer.initial

/-- No thread runs the timer: none was started, or it is done. -/
def quiet (s : Monitored W K T) : Bool := (s.timer.thread ()).isIdle

variable [DecidableEq W] [DecidableEq K] [Fintype W]

/-- The timer is a private member: its loop runs, and the section of `Shutdown` stops it. -/
def step (s : Monitored W K T) : Event W K T → Option (Monitored W K T)
  | .pool .mark =>
    match (Pool.machine W K T).step s.pool .mark, (Timer.machine Unit Unit).step s.timer .stop with
    | some pool, some timer => some ⟨pool, timer⟩
    | _, _ => none
  | .pool .join =>
    if s.quiet then
      ((Pool.machine W K T).step s.pool .join).map fun pool => { s with pool := pool }
    else none
  | .pool a => ((Pool.machine W K T).step s.pool a).map fun pool => { s with pool := pool }
  | .timer a =>
    if a.moves () then
      ((Timer.machine Unit Unit).step s.timer a).map fun timer => { s with timer := timer }
    else none

def machine (W K T : Type) [DecidableEq W] [DecidableEq K] [Fintype W] (c : ThreadPoolConfig) :
    Machine (Monitored W K T) (Event W K T) where
  init s := s = initial c
  step := step

inductive Step (s : Monitored W K T) : Event W K T → Monitored W K T → Prop
  | mark {pool} (moved : (Pool.machine W K T).step s.pool .mark = some pool) :
      Step s (.pool .mark) ⟨pool, { s.timer with stop := true }⟩
  | pool {a pool} (moved : (Pool.machine W K T).step s.pool a = some pool) (other : a ≠ .mark)
      (joined : a = .join → s.quiet = true) : Step s (.pool a) { s with pool := pool }
  | timer {a timer} (moves : a.moves () = true)
      (moved : (Timer.machine Unit Unit).step s.timer a = some timer) :
      Step s (.timer a) { s with timer := timer }

variable {c : ThreadPoolConfig} {s s' : Monitored W K T} {e : Event W K T}

theorem step_cases (hstep : (machine W K T c).step s e = some s') : Step s e s' := by
  cases e with
  | pool a =>
    cases a with
    | mark =>
      simp only [machine, step] at hstep
      split at hstep
      · rename_i hpool htimer
        cases htimer
        cases hstep
        exact .mark hpool
      · cases hstep
    | join =>
      simp only [machine, step] at hstep
      split at hstep
      · rename_i hquiet
        obtain ⟨pool, hpool, rfl⟩ := Option.map_eq_some_iff.mp hstep
        exact .pool hpool nofun fun _ => hquiet
      · cases hstep
    | find | test | clear | queue | wake | finish | push | notifyOne | setStop | notifyAll =>
      obtain ⟨pool, hpool, rfl⟩ := Option.map_eq_some_iff.mp hstep
      exact .pool hpool nofun nofun
  | timer a =>
    simp only [machine, step] at hstep
    split at hstep
    · rename_i hmoves
      obtain ⟨timer, htimer, rfl⟩ := Option.map_eq_some_iff.mp hstep
      exact .timer hmoves htimer
    · cases hstep

/-- The condition of the pool's own runs. -/
def Orderly (s : Monitored W K T) : Event W K T → Prop
  | .pool a => s.pool.Orderly a
  | .timer _ => True

theorem pool_reachable (h : (machine W K T c).ReachableUnder Orderly s) :
    (Pool.machine W K T).ReachableUnder Pool.Orderly s.pool := by
  refine h.project (fun s : Monitored W K T => s.pool) ?_ ?_
  · rintro s rfl
    rfl
  · intro s e s' horderly hstep
    cases step_cases hstep with
    | mark hmoved => exact .inr ⟨.mark, horderly, hmoved⟩
    | @pool a _ hmoved => exact .inr ⟨a, horderly, hmoved⟩
    | timer => exact .inl rfl

/-- The section of `Shutdown` has stopped the timer, whose thread runs with its callback set, and
`Shutdown` returns only behind that thread. -/
structure Attended (s : Monitored W K T) : Prop where
  stopped : ¬ s.pool.Accepting → s.timer.stop = true
  set : s.quiet = true ∨ s.timer.cb ≠ none ∧ ¬ (s.timer.thread ()).outside
  joined : s.pool.shutdown = .returned → s.quiet = true

omit [DecidableEq W] [DecidableEq K] [Fintype W] in
theorem initial_attended (c : ThreadPoolConfig) : (initial c : Monitored W K T).Attended where
  stopped hlate := absurd (.inl rfl) hlate
  set := by
    rw [quiet, initial]
    split
    · exact .inr ⟨nofun, id⟩
    · exact .inl rfl
  joined := nofun

theorem Attended.step (h : s.Attended) (hstep : (machine W K T c).step s e = some s') :
    s'.Attended := by
  cases step_cases hstep with
  | mark hmoved =>
    refine ⟨fun _ => rfl, h.set, ?_⟩
    cases Pool.step_cases hmoved
    exact nofun
  | pool hmoved hother hjoined =>
    cases Pool.step_cases hmoved with
    | setStop => exact ⟨fun hlate => absurd (.inr rfl) hlate, h.set, nofun⟩
    | mark => exact absurd rfl hother
    | notifyAll hmarked =>
      refine ⟨fun _ => h.stopped ?_, h.set, nofun⟩
      rintro (hphase | hphase) <;> cases hphase.symm.trans hmarked
    | join hjoining =>
      refine ⟨fun _ => h.stopped ?_, h.set, fun _ => hjoined rfl⟩
      rintro (hphase | hphase) <;> cases hphase.symm.trans hjoining
    | _ => exact ⟨h.stopped, h.set, h.joined⟩
  | timer hmoves hmoved =>
    have hinside := Timer.inside_of_moves hmoves hmoved
    have hbusy : s.quiet ≠ true := fun hquiet => hinside (by rw [TimerPc.eq_idle hquiet]; trivial)
    obtain ⟨hset, _⟩ := h.set.resolve_left hbusy
    obtain ⟨hcb, hstop, hthread⟩ := Timer.moved_of_set hset hmoves hmoved
    refine ⟨fun hlate => hstop.trans (h.stopped hlate), ?_, fun hreturned => ?_⟩
    · cases hthread with
      | inl hquiet => exact .inl hquiet
      | inr hinside' => exact .inr ⟨by rw [hcb]; exact hset, hinside'⟩
    · exact absurd (h.joined hreturned) hbusy

theorem attended_of_reachable (h : (machine W K T c).ReachableUnder Orderly s) : s.Attended := by
  refine h.invariant ?_ fun _ _ _ hattended _ => hattended.step
  rintro s rfl
  exact initial_attended c

/-- `Shutdown` has notified, and the timer is stopped. -/
structure Leaving (s : Monitored W K T) : Prop where
  pool : s.pool.Leaving
  attended : s.Attended

omit [DecidableEq W] [DecidableEq K] [Fintype W] in
theorem Leaving.stopped (h : s.Leaving) : s.timer.stop = true := h.attended.stopped h.pool.late

theorem Leaving.step (h : s.Leaving) (hstep : (machine W K T c).step s e = some s') :
    s'.Leaving := by
  refine ⟨?_, h.attended.step hstep⟩
  cases step_cases hstep with
  | mark hmoved | pool hmoved => exact h.pool.step hmoved
  | timer => exact h.pool

theorem workers_pay : (machine W K T c).Pays Event.ofWorker (fun _ => false) Leaving
    fun s => s.pool.left where
  keeps _ _ _ h hstep := h.step hstep
  paid s e s' h hstep := by
    cases step_cases hstep with
    | mark hmoved | pool hmoved => exact Pool.leaving_pays.paid _ _ _ h.pool hmoved
    | timer => simp [Event.ofWorker]

/-- Nobody but the timer's thread does anything to the timer any more. -/
theorem timer_pays {own credit : Timer.Action Unit Unit → Bool} {rank : Timer Unit Unit → Nat}
    (hpays : (Timer.machine Unit Unit).Pays own credit (fun s => s.stop = true) rank)
    (hcredit : ∀ a, Timer.Action.moves () a = true → credit a = false) :
    (machine W K T c).Pays (Event.ofTimer own) (fun _ => false) Leaving fun s => rank s.timer where
  keeps _ _ _ h hstep := h.step hstep
  paid s e s' h hstep := by
    cases step_cases hstep with
    | mark hmoved =>
      cases Pool.step_cases hmoved with
      | mark hstopped => exact absurd (.inr hstopped) h.pool.late
    | pool => simp [Event.ofTimer]
    | @timer a _ hmoves hmoved =>
      have hpaid := hpays.paid _ _ _ h.stopped hmoved
      rw [hcredit a hmoves] at hpaid
      exact hpaid

theorem Leaving.progress (h : s.Leaving) : s.pool.shutdown = .returned ∨
    ∃ e, (e.ofWorker = true ∨ e.ofMonitor = true ∨ e = .pool .join) ∧
      ((machine W K T c).step s e).isSome = true := by
  by_cases hquiet : s.quiet = true
  · cases h.pool.progress with
    | inl hreturned => exact .inl hreturned
    | inr hnext =>
      obtain ⟨a, hown, henabled⟩ := hnext
      obtain ⟨pool, hpool⟩ := Option.isSome_iff_exists.mp henabled
      refine .inr ⟨.pool a, hown.imp id fun hjoin => .inr (congrArg _ hjoin), ?_⟩
      cases a with
      | mark =>
        cases Pool.step_cases hpool with
        | mark hstopped => exact absurd (.inr hstopped) h.pool.late
      | join =>
        simp only [machine, Monitored.step, if_pos hquiet, hpool]
        rfl
      | find | test | clear | queue | wake | finish | push | notifyOne | setStop | notifyAll =>
        simp only [machine, Monitored.step, hpool]
        rfl
  · obtain ⟨a, hmoves, henabled⟩ :=
      Timer.enabled_of_inside (h.attended.set.resolve_left hquiet).2
    obtain ⟨timer, htimer⟩ := Option.isSome_iff_exists.mp henabled
    refine .inr ⟨.timer a, .inr (.inl hmoves), ?_⟩
    simp only [machine, Monitored.step, if_pos hmoves, htimer]
    rfl

theorem joined_step : (machine W K T c).Preserves (fun _ _ => True)
    fun s => s.pool.shutdown = .returned → ∀ w, s.pool.worker w = .exited := by
  intro s e s' h _ hstep
  cases step_cases hstep with
  | mark hmoved | pool hmoved => exact Pool.joined_step _ _ _ h trivial hmoved
  | timer => exact h

/-- With or without the monitor, all threads come to their ends behind the notification: the
workers make at most two steps each and the monitor's thread seven, in which it may call `Monitor`
once more, and as long as `Shutdown` has not returned one of them or the join itself can go on.
When it has returned, none of them is left. -/
theorem all_threads_leave {es : List (Event W K T)}
    (h : (machine W K T c).ReachableUnder Orderly s) (hjoining : s.pool.shutdown = .joining)
    (hrun : (machine W K T c).run s es = some s') :
    (es.countP Event.ofWorker ≤ 2 * Fintype.card W ∧ es.countP Event.ofMonitor ≤ 7 ∧
      es.countP Event.monitors ≤ 1) ∧
    (s'.pool.shutdown = .returned ∨
      ∃ e, (e.ofWorker = true ∨ e.ofMonitor = true ∨ e = .pool .join) ∧
        ((machine W K T c).step s' e).isSome = true) ∧
    (s'.pool.shutdown = .returned →
      s'.quiet = true ∧ ∀ w, s'.pool.worker w = .exited) := by
  obtain ⟨hsafe, hdraining⟩ := Pool.draining_of_reachable (pool_reachable h)
  have hleaving : s.Leaving := ⟨⟨hsafe, hdraining, .inl hjoining⟩, attended_of_reachable h⟩
  have hnone : es.countP (fun _ => false) = 0 := List.countP_eq_zero.mpr nofun
  have hno (a : Timer.Action Unit Unit) (hmoves : a.moves () = true) : a.starts () = false := by
    cases a with
    | start => cases hmoves
    | _ => rfl
  obtain ⟨hleaving', hworkers⟩ := workers_pay.run hleaving hrun
  obtain ⟨_, hmoves⟩ := (timer_pays (Timer.moves_pays ()) hno).run hleaving hrun
  obtain ⟨_, hcalls⟩ := (timer_pays (Timer.calls_pays ()) fun _ _ => rfl).run hleaving hrun
  have hleft := s.pool.left_le
  have hlast : (s.timer.thread ()).left ≤ 7 := TimerPc.left_le _
  have honce : Timer.callsLeft (s.timer.thread ()) ≤ 1 := Timer.callsLeft_le _
  have hjoined : s'.pool.shutdown = .returned → ∀ w, s'.pool.worker w = .exited := by
    refine Machine.run_invariant (fun s e s' h _ => joined_step s e s' h trivial) ?_ hrun
    rw [hjoining]
    exact nofun
  refine ⟨⟨?_, ?_, ?_⟩, hleaving'.progress, fun hreturned => ?_⟩
  · omega
  · exact Nat.le_trans (Nat.le_of_add_right_le hmoves) (by omega)
  · exact Nat.le_trans (Nat.le_of_add_right_le hcalls) (by omega)
  · exact ⟨hleaving'.attended.joined hreturned, hjoined hreturned⟩

instance (s : Monitored W K T) (e : Event W K T) : Decidable (Orderly s e) :=
  match e with
  | .pool a => inferInstanceAs (Decidable (s.pool.Orderly a))
  | .timer _ => isTrue trivial

/-- The monitor's thread is asleep when `Shutdown` comes to its join, and wakes up once more. -/
theorem all_threads_leave_asleep : ∃ s s',
    (machine Unit Unit Nat ⟨1, 5, true, 30000, 3⟩).runUnder Orderly (initial ⟨1, 5, true, 30000, 3⟩)
      [.pool (.find ()), .timer (.test ()), .pool (.test ()), .timer (.sleep ()), .pool .setStop,
        .pool (.clear ()), .pool .mark, .pool .notifyAll] = some s ∧
    (machine Unit Unit Nat ⟨1, 5, true, 30000, 3⟩).run s
      [.timer (.wake ()), .timer (.check ()), .pool (.queue ()), .timer (.call ()),
        .timer (.finish ()), .timer (.count ()), .timer (.test ()), .pool .join] = some s' ∧
    (1 ≤ 2 * 1 ∧ 6 ≤ 7 ∧ 1 ≤ 1) ∧
    (s'.pool.shutdown = .returned ∨
      ∃ e, (e.ofWorker = true ∨ e.ofMonitor = true ∨ e = .pool .join) ∧
        ((machine Unit Unit Nat ⟨1, 5, true, 30000, 3⟩).step s' e).isSome = true) ∧
    (s'.pool.shutdown = .returned → s'.quiet = true ∧ ∀ w, s'.pool.worker w = .exited) := by
  obtain ⟨s, hs, hjoining⟩ : ∃ s,
      (machine Unit Unit Nat ⟨1, 5, true, 30000, 3⟩).runUnder Orderly
        (initial ⟨1, 5, true, 30000, 3⟩)
        [.pool (.find ()), .timer (.test ()), .pool (.test ()), .timer (.sleep ()), .pool .setStop,
          .pool (.clear ()), .pool .mark, .pool .notifyAll] = some s ∧
      s.pool.shutdown = .joining := ⟨_, rfl, rfl⟩
  obtain ⟨s', hs'⟩ : ∃ s', (machine Unit Unit Nat ⟨1, 5, true, 30000, 3⟩).run s
      [.timer (.wake ()), .timer (.check ()), .pool (.queue ()), .timer (.call ()),
        .timer (.finish ()), .timer (.count ()), .timer (.test ()), .pool .join] = some s' := by
    cases hs
    exact ⟨_, rfl⟩
  exact ⟨s, s', hs, hs',
    all_threads_leave (Machine.reachableUnder_of_runUnder rfl hs) hjoining hs'⟩

end Monitored

end ServerDevLib.ThreadPool
