import ServerDevLib.Reactor.Dispatcher
import ServerDevLib.ThreadPool.LoopRuns
import Mathlib.Algebra.BigOperators.Group.Finset.Basic
import Mathlib.Data.Fintype.BigOperators

/-!
# Dispatch loops on the workers of the pool

The dispatchers share one pool. `AddSlaveDispatcher` enqueues the dispatch
loop of each slave as a task, and the events of connections are enqueued as
tasks of the same queue. A dispatch loop does not return before a shutdown, so
that the worker that has taken it never takes another task.
-/

namespace ServerDevLib.Reactor

open Transition ThreadPool

inductive Job
  | dispatch (slave : Nat)
  | handle (handler : Handler) (events : Events)

def Job.isDispatch : Job → Bool
  | .dispatch _ => true
  | .handle _ _ => false

/-- The worker runs the dispatch loop of a slave. -/
def dispatching : ThreadPool.WorkerPc Job → Bool
  | .run task => task.isDispatch
  | _ => false

structure SlaveLoops (W K : Type) where
  pool : Pool W K Job
  enableSlave : Bool
  slaves : Nat
  adding : Nat

namespace SlaveLoops

inductive Action (W K : Type)
  | enableSlave (b : Bool)
  | addSlaveDispatcher (n : Int)
  | addSlave (k : K)
  | pool (a : ThreadPool.Action W K Job)

variable {W K : Type}

/-- Only `AddSlaveDispatcher` enqueues dispatch loops, and none of them returns. -/
def Enabled (s : SlaveLoops W K) : ThreadPool.Action W K Job → Prop
  | .push _ task => task.isDispatch = false
  | .finish w => dispatching (s.pool.worker w) = false
  | .setStop | .mark | .notifyAll | .join => False
  | .find _ | .test _ | .clear _ | .queue _ | .wake _ | .notifyOne _ _ => True

instance (s : SlaveLoops W K) (a : ThreadPool.Action W K Job) : Decidable (s.Enabled a) :=
  match a with
  | .push _ task => inferInstanceAs (Decidable (task.isDispatch = false))
  | .finish w => inferInstanceAs (Decidable (dispatching (s.pool.worker w) = false))
  | .setStop | .mark | .notifyAll | .join => isFalse id
  | .find _ | .test _ | .clear _ | .queue _ | .wake _ | .notifyOne _ _ => isTrue trivial

def initial : SlaveLoops W K := { pool := .initial, enableSlave := false, slaves := 0, adding := 0 }

variable [DecidableEq W] [DecidableEq K] [Fintype W]

/-- The call of `AddSlaveDispatcher` is its test followed by the rounds of its loop. -/
def step (s : SlaveLoops W K) : Action W K → Option (SlaveLoops W K)
  | .enableSlave b => some { s with enableSlave := b }
  | .addSlaveDispatcher n =>
    some (if !s.enableSlave then s else { s with adding := s.adding + n.toNat })
  | .addSlave k =>
    match s.adding with
    | 0 => none
    | n + 1 => ((Pool.machine W K Job).step s.pool (.push k (.dispatch s.slaves))).map fun pool =>
      { s with pool := pool, slaves := s.slaves + 1, adding := n }
  | .pool a =>
    if s.Enabled a then
      ((Pool.machine W K Job).step s.pool a).map fun pool => { s with pool := pool }
    else none

def machine (W K : Type) [DecidableEq W] [DecidableEq K] [Fintype W] :
    Machine (SlaveLoops W K) (Action W K) where
  init s := s = initial
  step := step

/-- A call that adds slaves leaves the pool more workers than there are slaves. -/
def Affordable (s : SlaveLoops W K) : Action W K → Prop
  | .addSlaveDispatcher n =>
    s.enableSlave = true → s.slaves + s.adding + n.toNat < Fintype.card W
  | .enableSlave _ | .addSlave _ | .pool _ => True

/-- The workers that run dispatch loops. -/
def busy (pool : Pool W K Job) : Nat := ∑ w, (dispatching (pool.worker w)).toNat

section Counting

variable (pool : Pool W K Job) {w : W}

omit [DecidableEq K]

theorem busy_goto {pc pc' : ThreadPool.WorkerPc Job} (hpc : pool.worker w = pc) :
    busy (pool.goto w pc') + (dispatching pc).toNat = busy pool + (dispatching pc').toNat := by
  have hmem : w ∈ Finset.univ := Finset.mem_univ w
  have hrest : ∑ v ∈ Finset.univ.erase w, (dispatching ((pool.goto w pc').worker v)).toNat =
      ∑ v ∈ Finset.univ.erase w, (dispatching (pool.worker v)).toNat := by
    apply Finset.sum_congr rfl
    intro v hv
    rw [Pool.worker_goto_of_ne (Finset.ne_of_mem_erase hv)]
  have hnew := Finset.add_sum_erase Finset.univ
    (fun v => (dispatching ((pool.goto w pc').worker v)).toNat) hmem
  have hold := Finset.add_sum_erase Finset.univ
    (fun v => (dispatching (pool.worker v)).toNat) hmem
  simp only [Pool.worker_goto_self, hrest] at hnew
  simp only [hpc] at hold
  simp only [busy, ← hnew, ← hold]
  omega

omit [DecidableEq W] in
theorem busy_congr {pool pool' : Pool W K Job} (h : pool'.worker = pool.worker) :
    busy pool' = busy pool := by
  rw [busy, h, busy]

/-- Moves outside of dispatch loops do not count. -/
theorem busy_goto_same {pc pc' : ThreadPool.WorkerPc Job} (hpc : pool.worker w = pc)
    (hsame : dispatching pc' = dispatching pc) : busy (pool.goto w pc') = busy pool := by
  have hcount : busy (pool.goto w pc') + (dispatching pc).toNat =
      busy pool + (dispatching pc').toNat := busy_goto pool hpc
  rw [hsame] at hcount
  exact Nat.add_right_cancel hcount

omit [DecidableEq W] in
/-- With fewer dispatch loops than workers some worker runs none. -/
theorem exists_free (h : busy pool < Fintype.card W) :
    ∃ w, dispatching (pool.worker w) = false := by
  by_contra hnone
  have hall (w : W) : dispatching (pool.worker w) = true := by
    cases hw : dispatching (pool.worker w) with
    | true => rfl
    | false => exact absurd ⟨w, hw⟩ hnone
  have hcard : busy pool = Fintype.card W := by
    simp only [busy, hall, Bool.toNat_true]
    exact Fintype.card_eq_sum_ones.symm
  omega

theorem busy_take (pool' : Pool W K Job) (task : Job) (hworker : pool'.worker = pool.worker)
    (hpc : pool.worker w = .lock) :
    busy (pool'.goto w (.run task)) = busy pool + task.isDispatch.toNat := by
  have hpc' : pool'.worker w = .lock := by
    rw [hworker]
    exact hpc
  have hcount : busy (pool'.goto w (.run task)) + (dispatching .lock).toNat =
      busy pool' + (dispatching (.run task)).toNat := busy_goto pool' hpc'
  rw [busy_congr hworker] at hcount
  exact hcount

theorem countP_single (task : Job) : [task].countP Job.isDispatch = task.isDispatch.toNat := by
  cases task <;> rfl

end Counting

/-- The dispatch loops that are queued or run. -/
def loops (pool : Pool W K Job) : Nat := busy pool + pool.tasks.countP Job.isDispatch

/-- A task keeps counting when a worker takes it, and handler tasks never count. -/
theorem loops_step {pool pool' : Pool W K Job} {a : ThreadPool.Action W K Job}
    (hcond : pool.WithoutShutdown a)
    (hfinish : ∀ w, a = .finish w → dispatching (pool.worker w) = false)
    (hstep : (Pool.machine W K Job).step pool a = some pool') :
    loops pool' = loops pool + match a with
      | .push _ task => task.isDispatch.toNat
      | _ => 0 := by
  cases Pool.step_cases hstep with
  | findEntry hpc | findNone hpc | testActive hpc | testExit hpc | block hpc | leave hpc | wake hpc =>
    exact congrArg (· + pool.tasks.countP Job.isDispatch) (busy_goto_same pool hpc rfl)
  | @clear w hpc =>
    exact congrArg (· + pool.tasks.countP Job.isDispatch)
      (busy_goto_same (pool.setStat w .EMPTY) hpc rfl)
  | popEmpty hpc =>
    exact congrArg (· + pool.tasks.countP Job.isDispatch)
      (busy_goto_same { pool with emptyPop := true } hpc rfl)
  | @pop w task tasks hpc htasks =>
    have hcount := busy_take pool ({ pool with tasks := tasks }.setStat w .ACTIVE) task rfl hpc
    change busy (({ pool with tasks := tasks }.setStat w .ACTIVE).goto w (.run task)) +
      tasks.countP Job.isDispatch = loops pool + 0
    rw [loops, htasks, ← List.singleton_append, List.countP_append, countP_single]
    omega
  | @finish w task hpc =>
    have hhandler : dispatching (.run task) = false := by
      rw [← hpc]
      exact hfinish w rfl
    exact congrArg (· + pool.tasks.countP Job.isDispatch) (busy_goto_same pool hpc hhandler.symm)
  | @push k task =>
    change busy pool + (pool.tasks ++ [task]).countP Job.isDispatch = _
    rw [List.countP_append, countP_single, ← Nat.add_assoc]
    rfl
  | @notifyBlocked k w _ hpc =>
    exact congrArg (· + pool.tasks.countP Job.isDispatch)
      (busy_goto_same { pool with caller := Function.update pool.caller k .idle } hpc rfl)
  | notifyNone => rfl
  | setStop | mark | notifyAll | join => exact hcond.elim

theorem loops_of_enabled {s : SlaveLoops W K} {a : ThreadPool.Action W K Job} {pool : Pool W K Job}
    (henabled : s.Enabled a) (hstep : (Pool.machine W K Job).step s.pool a = some pool) :
    loops pool = loops s.pool := by
  have hopen : s.pool.WithoutShutdown a := by
    cases a with
    | setStop | mark | notifyAll | join => exact henabled
    | _ => trivial
  have hfinish (w : W) (ha : a = .finish w) : dispatching (s.pool.worker w) = false := by
    subst ha
    exact henabled
  have hcounted := loops_step hopen hfinish hstep
  cases a with
  | push k task =>
    have hhandler : task.isDispatch = false := henabled
    simp only [hhandler, Bool.toNat_false, Nat.add_zero] at hcounted
    exact hcounted
  | _ => exact hcounted

structure Spared (s : SlaveLoops W K) : Prop where
  counted : loops s.pool = s.slaves
  spare : s.slaves + s.adding < Fintype.card W

omit [DecidableEq W] [DecidableEq K] in
theorem initial_spared [Nonempty W] : (initial : SlaveLoops W K).Spared where
  counted := Finset.sum_eq_zero fun _ _ => rfl
  spare := Fintype.card_pos

theorem spared_step : (machine W K).Preserves Affordable Spared := by
  intro s a s' h hcond hstep
  cases a with
  | enableSlave b =>
    cases hstep
    exact ⟨h.counted, h.spare⟩
  | addSlaveDispatcher n =>
    simp only [machine, step, Option.some.injEq] at hstep
    split at hstep
    · subst hstep
      exact h
    · rename_i henabled
      subst hstep
      have hspare := hcond (by simpa using henabled)
      exact ⟨h.counted, by rw [← Nat.add_assoc]; exact hspare⟩
  | addSlave k =>
    simp only [machine, step] at hstep
    split at hstep
    · cases hstep
    · rename_i n hadding
      obtain ⟨pool, hpool, rfl⟩ := Option.map_eq_some_iff.mp hstep
      have hopen : s.pool.WithoutShutdown (.push k (.dispatch s.slaves)) := trivial
      have hcounted := loops_step hopen nofun hpool
      have hspare := h.spare
      simp only [h.counted, Job.isDispatch, Bool.toNat_true] at hcounted
      constructor
      · exact hcounted
      · change s.slaves + 1 + n < Fintype.card W
        omega
  | pool a =>
    simp only [machine, step] at hstep
    split at hstep
    · rename_i henabled
      obtain ⟨pool, hpool, rfl⟩ := Option.map_eq_some_iff.mp hstep
      exact ⟨(loops_of_enabled henabled hpool).trans h.counted, h.spare⟩
    · cases hstep

/-- As long as the slaves are fewer than the workers, some worker runs no dispatch loop. -/
theorem worker_free_for_handlers [Nonempty W] (s : SlaveLoops W K)
    (h : (machine W K).ReachableUnder Affordable s) :
    ∃ w, ∀ slave, s.pool.worker w ≠ .run (.dispatch slave) := by
  have hspared : s.Spared := by
    apply h.invariant _ spared_step
    rintro s rfl
    exact initial_spared
  have hcounted := hspared.counted
  have hspare := hspared.spare
  rw [loops] at hcounted
  obtain ⟨w, hw⟩ := exists_free s.pool (by omega)
  refine ⟨w, fun slave hrun => ?_⟩
  rw [hrun] at hw
  cases hw

instance (s : SlaveLoops W K) (a : Action W K) : Decidable (s.Affordable a) :=
  match a with
  | .addSlaveDispatcher n => inferInstanceAs (Decidable (s.enableSlave = true →
      s.slaves + s.adding + n.toNat < Fintype.card W))
  | .enableSlave _ | .addSlave _ | .pool _ => isTrue trivial

/-- Two workers and one slave. -/
theorem worker_free_for_handlers_pair : ∃ s, (machine Bool Unit).runUnder Affordable initial
    [.enableSlave true, .addSlaveDispatcher 1, .addSlave (), .pool (.find true),
      .pool (.test true), .pool (.clear true), .pool (.queue true)] = some s ∧
    ∃ w, ∀ slave, s.pool.worker w ≠ .run (.dispatch slave) := by
  obtain ⟨s, hs⟩ : ∃ s, (machine Bool Unit).runUnder Affordable initial
      [.enableSlave true, .addSlaveDispatcher 1, .addSlave (), .pool (.find true),
        .pool (.test true), .pool (.clear true), .pool (.queue true)] = some s :=
    Option.isSome_iff_exists.mp (by decide +kernel)
  exact ⟨s, hs, worker_free_for_handlers s (Machine.reachableUnder_of_runUnder rfl hs)⟩

/-- The one worker of the default configuration runs the one slave of the default argument, and the
task of a connection stays in the queue. -/
theorem default_pool_occupied : ∃ s, (machine Unit Bool).run initial
    [.enableSlave true, .addSlaveDispatcher 1, .addSlave true, .pool (.find ()), .pool (.test ()),
      .pool (.clear ()), .pool (.queue ()), .pool (.push false (.handle (.events 0) EPOLLIN))] =
      some s ∧
    (∀ w, s.pool.worker w = .run (.dispatch 0)) ∧ s.pool.tasks = [.handle (.events 0) EPOLLIN] :=
  ⟨_, rfl, fun _ => rfl, rfl⟩

end SlaveLoops

end ServerDevLib.Reactor
