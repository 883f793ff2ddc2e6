import ServerDevLib.Foundation.ConservedStream
import ServerDevLib.ThreadPool.LoopRuns
import Mathlib.Data.List.Nodup

/-!
# Where the tasks of a pool are

Runs of the pool are recorded: what was pushed, which worker took and which
worker finished each task, and what `Shutdown` threw away. A task is the
object that `EnqueueTask` makes in its call, so that no task is pushed twice.
Whatever is done to the pool, a pushed task is in the queue, was discarded or
was taken by a worker that still runs it or has executed it.
-/

namespace ServerDevLib.ThreadPool

open Transition ConservedStream

universe u

/-- The task a worker has taken and not yet finished. -/
def WorkerPc.carried {W T : Type u} (w : W) : WorkerPc T → List (W × T)
  | .run task => [(w, task)]
  | _ => []

structure Accounting (W K T : Type u) where
  pool : Pool W K T
  pushed : List T
  dequeued : List (W × T)
  executed : List (W × T)
  discarded : List T

namespace Accounting

variable {W K T : Type u}

def record (s : Accounting W K T) (next : Pool W K T) : Action W K T → Accounting W K T
  | .push _ task => { s with pool := next, pushed := s.pushed ++ [task] }
  | .queue w => { s with pool := next, dequeued := s.dequeued ++ (next.worker w).carried w }
  | .finish w => { s with pool := next, executed := s.executed ++ (s.pool.worker w).carried w }
  | .mark => { s with pool := next, discarded := s.discarded ++ s.pool.tasks }
  | _ => { s with pool := next }

/-- The pushed object was made in this call. -/
def Fresh (s : Accounting W K T) : Action W K T → Prop
  | .push _ task => task ∉ s.pushed
  | _ => True

instance [DecidableEq T] (s : Accounting W K T) (a : Action W K T) : Decidable (s.Fresh a) :=
  match a with
  | .push _ task => inferInstanceAs (Decidable (task ∉ s.pushed))
  | .find _ | .test _ | .clear _ | .queue _ | .wake _ | .finish _ | .notifyOne _ _ | .setStop
  | .mark | .notifyAll | .join => isTrue trivial

def initial : Accounting W K T :=
  { pool := .initial, pushed := [], dequeued := [], executed := [], discarded := [] }

def Executed (s : Accounting W K T) (task : T) : Prop := ∃ w, (w, task) ∈ s.executed

def Held (s : Accounting W K T) (task : T) : Prop := ∃ w, s.pool.worker w = .run task

theorem pool_record (s : Accounting W K T) (next : Pool W K T) (a : Action W K T) :
    (s.record next a).pool = next := by
  cases a <;> rfl

theorem carried_wakeAll (pool : Pool W K T) (v : W) :
    (pool.wakeAll.worker v).carried v = (pool.worker v).carried v := by
  simp only [Pool.wakeAll]
  split
  · rename_i hblocked
    rw [WorkerPc.eq_blocked hblocked]
    rfl
  · rfl

theorem mem_carried {w : W} {pc : WorkerPc T} {task : T} :
    (w, task) ∈ pc.carried w ↔ pc = .run task := by
  cases pc <;> simp [WorkerPc.carried, eq_comm]

/-- A queue section that hands out no task is not in the record. -/
theorem record_queue_of_nil {s : Accounting W K T} {w : W} {next : Pool W K T}
    (h : (next.worker w).carried w = []) : s.record next (.queue w) = { s with pool := next } := by
  simp only [record, h, List.append_nil]

section Logs

variable [DecidableEq W] {s : Accounting W K T} {w : W}

/-- The part of a record that concerns one worker. -/
def taken (log : List (W × T)) (w : W) : List (W × T) := log.filter fun p => p.1 = w

theorem taken_append (log log' : List (W × T)) (w : W) :
    taken (log ++ log') w = taken log w ++ taken log' w :=
  List.filter_append ..

theorem taken_carried_self (w : W) (pc : WorkerPc T) : taken (pc.carried w) w = pc.carried w := by
  cases pc <;> simp [taken, WorkerPc.carried]

theorem taken_carried_of_ne {v w : W} (h : v ≠ w) (pc : WorkerPc T) :
    taken (pc.carried w) v = [] := by
  cases pc <;> simp [taken, WorkerPc.carried, h.symm]

theorem mem_taken {log : List (W × T)} {p : W × T} : p ∈ taken log p.1 ↔ p ∈ log := by
  simp [taken]

theorem count_taken [DecidableEq T] (log : List (W × T)) (p : W × T) :
    (taken log p.1).count p = log.count p := by
  rw [taken, List.count_filter]
  exact decide_eq_true rfl

structure Balanced (s : Accounting W K T) : Prop where
  fresh : s.pushed.Nodup
  balance : s.pushed.Perm (s.dequeued.map Prod.snd ++ (s.discarded ++ s.pool.tasks))
  carried : ∀ w, taken s.dequeued w = taken s.executed w ++ (s.pool.worker w).carried w

theorem initial_balanced : (initial : Accounting W K T).Balanced where
  fresh := List.nodup_nil
  balance := .refl _
  carried _ := rfl

/-- Steps that move no task. -/
theorem Balanced.move (h : s.Balanced) {next : Pool W K T} (htasks : next.tasks = s.pool.tasks)
    (hcarried : ∀ v, (next.worker v).carried v = (s.pool.worker v).carried v) :
    ({ s with pool := next } : Accounting W K T).Balanced where
  fresh := h.fresh
  balance := by
    rw [htasks]
    exact h.balance
  carried v := by
    rw [hcarried]
    exact h.carried v

theorem carried_goto (pool : Pool W K T) {pc pc' : WorkerPc T} (hpc : pool.worker w = pc)
    (hsame : pc'.carried w = pc.carried w) (v : W) :
    ((pool.goto w pc').worker v).carried v = (pool.worker v).carried v := by
  rcases eq_or_ne v w with rfl | hne
  · rw [Pool.worker_goto_self, hpc, hsame]
  · rw [Pool.worker_goto_of_ne hne]

theorem Balanced.goto (h : s.Balanced) {pc pc' : WorkerPc T} (hpc : s.pool.worker w = pc)
    (hsame : pc'.carried w = pc.carried w) :
    ({ s with pool := s.pool.goto w pc' } : Accounting W K T).Balanced :=
  h.move rfl (carried_goto s.pool hpc hsame)

theorem Balanced.pop (h : s.Balanced) {task : T} {tasks : List T} (hpc : s.pool.worker w = .lock)
    (htasks : s.pool.tasks = task :: tasks) :
    (s.record (({ s.pool with tasks := tasks }.setStat w .ACTIVE).goto w (.run task))
      (.queue w)).Balanced where
  fresh := h.fresh
  balance := by
    have hbalance := h.balance
    rw [htasks] at hbalance
    simp only [record, Pool.worker_goto_self, WorkerPc.carried, List.map_append, List.map_cons,
      List.map_nil, List.append_assoc, List.singleton_append]
    refine hbalance.trans (.append_left _ ?_)
    exact List.perm_middle
  carried v := by
    have hcarried := h.carried v
    simp only [record, taken_append, hcarried]
    rcases eq_or_ne v w with rfl | hne
    · rw [taken_carried_self, hpc, Pool.worker_goto_self]
      simp [WorkerPc.carried]
    · rw [taken_carried_of_ne hne, Pool.worker_goto_of_ne hne, List.append_nil]
      rfl

theorem Balanced.finish (h : s.Balanced) {task : T} (hpc : s.pool.worker w = .run task) :
    (s.record (s.pool.goto w .test) (.finish w)).Balanced where
  fresh := h.fresh
  balance := h.balance
  carried v := by
    have hcarried := h.carried v
    simp only [record, taken_append, hcarried]
    rcases eq_or_ne v w with rfl | hne
    · rw [taken_carried_self, Pool.worker_goto_self]
      simp [WorkerPc.carried]
    · rw [taken_carried_of_ne hne, Pool.worker_goto_of_ne hne, List.append_nil]

theorem Balanced.nodup_dequeued (h : s.Balanced) : (s.dequeued.map Prod.snd).Nodup :=
  (h.balance.nodup_iff.mp h.fresh).of_append_left

theorem Balanced.mem_dequeued (h : s.Balanced) {task : T} :
    (w, task) ∈ s.dequeued ↔ (w, task) ∈ s.executed ∨ s.pool.worker w = .run task := by
  rw [← mem_taken, h.carried, List.mem_append, mem_taken, mem_carried]

/-- No task is given to two workers. -/
theorem Balanced.dequeuer_unique (h : s.Balanced) {v w : W} {task : T}
    (hv : (v, task) ∈ s.dequeued) (hw : (w, task) ∈ s.dequeued) : v = w :=
  congrArg Prod.fst (List.inj_on_of_nodup_map h.nodup_dequeued hv hw rfl)

theorem Balanced.not_executed (h : s.Balanced) {task : T} (hpc : s.pool.worker w = .run task) :
    ¬ s.Executed task := by
  rintro ⟨v, hv⟩
  have hvw : v = w := h.dequeuer_unique (h.mem_dequeued.mpr (.inl hv)) (h.mem_dequeued.mpr (.inr hpc))
  subst hvw
  have hnodup : (taken s.dequeued v).Nodup := (h.nodup_dequeued.of_map _).filter _
  rw [h.carried, hpc, List.nodup_append] at hnodup
  exact hnodup.2.2 (v, task) (mem_taken.mpr hv) (v, task) (mem_carried.mpr rfl) rfl

theorem Balanced.nodup_executed [DecidableEq T] (h : s.Balanced) :
    (s.executed.map Prod.snd).Nodup := by
  have hsub {p : W × T} (hp : p ∈ s.executed) : p ∈ s.dequeued := h.mem_dequeued.mpr (.inl hp)
  have hnodup : s.executed.Nodup := by
    rw [List.nodup_iff_count_le_one]
    intro p
    calc
      s.executed.count p = (taken s.executed p.1).count p := (count_taken s.executed p).symm
      _ ≤ (taken s.dequeued p.1).count p := by
        rw [h.carried]
        exact (List.sublist_append_left ..).count_le p
      _ = s.dequeued.count p := count_taken s.dequeued p
      _ ≤ 1 := List.nodup_iff_count_le_one.mp (h.nodup_dequeued.of_map _) p
  exact hnodup.map_on fun p hp q hq heq =>
    List.inj_on_of_nodup_map h.nodup_dequeued (hsub hp) (hsub hq) heq

theorem Balanced.push (h : s.Balanced) {task : T} (hfresh : task ∉ s.pushed)
    {next : Pool W K T} (htasks : next.tasks = s.pool.tasks ++ [task])
    (hworker : next.worker = s.pool.worker) :
    ({ s with pool := next, pushed := s.pushed ++ [task] } : Accounting W K T).Balanced where
  fresh := by
    rw [List.nodup_append]
    refine ⟨h.fresh, List.nodup_singleton task, fun t ht t' ht' => ?_⟩
    rw [List.mem_singleton] at ht'
    rintro rfl
    exact hfresh (ht' ▸ ht)
  balance := by
    simp only [htasks]
    rw [← List.append_assoc, ← List.append_assoc, List.append_assoc _ s.discarded]
    exact h.balance.append_right [task]
  carried v := by
    rw [hworker]
    exact h.carried v

theorem Balanced.mark (h : s.Balanced) :
    (s.record { s.pool.markDead with shutdown := .marked } .mark).Balanced where
  fresh := h.fresh
  balance := by
    simp only [record, Pool.markDead, List.append_nil]
    exact h.balance
  carried := h.carried

end Logs

variable [DecidableEq W] [DecidableEq K] [DecidableEq T] [Fintype W]

def step (s : Accounting W K T) (a : Action W K T) : Option (Accounting W K T) :=
  if s.Fresh a then (s.pool.step a).map fun next => s.record next a else none

def machine (W K T : Type u) [DecidableEq W] [DecidableEq K] [DecidableEq T] [Fintype W] :
    Machine (Accounting W K T) (Action W K T) where
  init s := s = initial
  step := step

theorem step_cases {s s' : Accounting W K T} {a : Action W K T}
    (h : (machine W K T).step s a = some s') :
    s.Fresh a ∧ ∃ next, (Pool.machine W K T).step s.pool a = some next ∧ s' = s.record next a := by
  simp only [machine, step] at h
  split at h
  · rename_i hfresh
    obtain ⟨next, hnext, rfl⟩ := Option.map_eq_some_iff.mp h
    exact ⟨hfresh, next, hnext, rfl⟩
  · cases h

/-- The recorded pool runs as the pool does. -/
theorem pool_of_reachable {cond : Pool W K T → Action W K T → Prop} {s : Accounting W K T}
    (h : (machine W K T).ReachableUnder (fun s a => cond s.pool a) s) :
    (Pool.machine W K T).ReachableUnder cond s.pool := by
  apply h.project Accounting.pool
  · rintro s rfl
    rfl
  · intro s a s' hcond hstep
    obtain ⟨_, next, hnext, rfl⟩ := step_cases hstep
    refine .inr ⟨a, hcond, ?_⟩
    rw [pool_record]
    exact hnext

theorem balanced_step {cond : Accounting W K T → Action W K T → Prop} :
    (machine W K T).Preserves cond Balanced := by
  intro s a s' h _ hstep
  obtain ⟨hfresh, next, hnext, rfl⟩ := step_cases hstep
  cases Pool.step_cases hnext with
  | findEntry hpc | findNone hpc | testActive hpc | testExit hpc | wake hpc => exact h.goto hpc rfl
  | @clear w hpc => exact h.move rfl (carried_goto (s.pool.setStat w .EMPTY) hpc rfl)
  | @block w hpc | @leave w hpc =>
    rw [record_queue_of_nil (by rw [Pool.worker_goto_self]; rfl)]
    exact h.goto hpc rfl
  | popEmpty hpc =>
    rw [record_queue_of_nil (by rw [Pool.worker_goto_self]; rfl)]
    exact h.move rfl (carried_goto { s.pool with emptyPop := true } hpc rfl)
  | pop hpc htasks => exact h.pop hpc htasks
  | finish hpc => exact h.finish hpc
  | push => exact h.push hfresh rfl rfl
  | @notifyBlocked k w _ hpc =>
    exact h.move rfl
      (carried_goto { s.pool with caller := Function.update s.pool.caller k .idle } hpc rfl)
  | notifyNone | setStop | join => exact h.move rfl fun _ => rfl
  | mark => exact h.mark
  | notifyAll => exact h.move rfl (carried_wakeAll s.pool)

theorem balanced_of_reachable {cond : Accounting W K T → Action W K T → Prop}
    {s : Accounting W K T} (h : (machine W K T).ReachableUnder cond s) : s.Balanced := by
  refine h.invariant ?_ balanced_step
  rintro s rfl
  exact initial_balanced

/-- What the record of a pool that is not shut down says. -/
structure Accounted (s : Accounting W K T) : Prop where
  fifo : s.dequeued.map Prod.snd ++ s.pool.tasks = s.pushed
  dequeuedOnce : (s.dequeued.map Prod.snd).Nodup
  executedOnce : (s.executed.map Prod.snd).Nodup
  executor : ∀ w task, (w, task) ∈ s.executed → (w, task) ∈ s.dequeued
  holder : ∀ v w task, s.pool.worker v = .run task → s.pool.worker w = .run task → v = w
  union : ∀ task, task ∈ s.pushed ↔ s.Executed task ∨ s.Held task ∨ task ∈ s.pool.tasks
  disjoint : ∀ task, ¬ (s.Executed task ∧ s.Held task) ∧ ¬ (s.Executed task ∧ task ∈ s.pool.tasks) ∧
    ¬ (s.Held task ∧ task ∈ s.pool.tasks)
  active : ∀ w task, s.pool.worker w = .run task → s.pool.workerStat w = some .ACTIVE

/-- The queue as a conduit from the callers to the workers. -/
def queue (s : Accounting W K T) : Conduit T :=
  ⟨s.pushed, s.dequeued.map Prod.snd, s.pool.tasks⟩

theorem queue_moves (s : Accounting W K T) (a : Action W K T) (s' : Accounting W K T)
    (hcond : s.pool.WithoutShutdown a) (hstep : (machine W K T).step s a = some s') :
    Moves s.queue s'.queue := by
  obtain ⟨_, next, hnext, rfl⟩ := step_cases hstep
  cases Pool.step_cases hnext with
  | findEntry | findNone | testActive | testExit | clear | wake | finish | notifyBlocked
  | notifyNone => exact .refl
  | block | leave | popEmpty =>
    rw [record_queue_of_nil (by rw [Pool.worker_goto_self]; rfl)]
    exact .refl
  | @pop w task tasks _ htasks =>
    have hleave := Move.leave s.pushed (s.dequeued.map Prod.snd) s.pool.tasks 1
    rw [htasks] at hleave
    simp only [queue, record, Pool.worker_goto_self, WorkerPc.carried, List.map_append, htasks]
    exact .single hleave
  | push => exact .single (.enter _ _ _ _)
  | setStop | mark | notifyAll | join => exact hcond.elim

/-- Without `Shutdown`, tasks are taken in the order they were pushed, each by one worker, and
none is lost. -/
theorem accounted_of_reachable (s : Accounting W K T)
    (h : (machine W K T).ReachableUnder (fun s a => s.pool.WithoutShutdown a) s) :
    s.Accounted := by
  have hbalanced := balanced_of_reachable h
  have hworking := (Pool.working_of_reachable (pool_of_reachable h)).1
  have hfifo : s.dequeued.map Prod.snd ++ s.pool.tasks = s.pushed := by
    refine conserved_of_refines queue (fun _ _ => trivial) ?_ ?_ h
    · rintro s rfl
      rfl
    · exact fun s a s' _ => queue_moves s a s'
  have hsplit : (s.dequeued.map Prod.snd ++ s.pool.tasks).Nodup := hfifo ▸ hbalanced.fresh
  have hqueued {w : W} {task : T} (hdequeued : (w, task) ∈ s.dequeued) : task ∉ s.pool.tasks :=
    fun hmem => (List.nodup_append.mp hsplit).2.2 task (List.mem_map_of_mem hdequeued) task hmem rfl
  refine ⟨hfifo, hbalanced.nodup_dequeued, hbalanced.nodup_executed,
    fun w task hmem => hbalanced.mem_dequeued.mpr (.inl hmem), fun v w task hv hw => ?_,
    fun task => ?_, fun task => ⟨?_, ?_, ?_⟩, fun w task hpc => ?_⟩
  · exact hbalanced.dequeuer_unique (hbalanced.mem_dequeued.mpr (.inr hv))
      (hbalanced.mem_dequeued.mpr (.inr hw))
  · rw [← hfifo, List.mem_append, ← or_assoc]
    apply or_congr_left
    constructor
    · intro hmem
      obtain ⟨⟨w, _⟩, hdequeued, rfl⟩ := List.mem_map.mp hmem
      exact (hbalanced.mem_dequeued.mp hdequeued).imp (fun hw => ⟨w, hw⟩) fun hw => ⟨w, hw⟩
    · rintro (⟨w, hw⟩ | ⟨w, hw⟩)
      · exact List.mem_map_of_mem (hbalanced.mem_dequeued.mpr (.inl hw))
      · exact List.mem_map_of_mem (hbalanced.mem_dequeued.mpr (.inr hw))
  · rintro ⟨hexecuted, w, hw⟩
    exact hbalanced.not_executed hw hexecuted
  · rintro ⟨⟨w, hw⟩, hmem⟩
    exact hqueued (hbalanced.mem_dequeued.mpr (.inl hw)) hmem
  · rintro ⟨⟨w, hw⟩, hmem⟩
    exact hqueued (hbalanced.mem_dequeued.mpr (.inr hw)) hmem
  · exact hworking.stat hpc nofun

/-- Two workers, one of which has executed the first of three tasks while the other runs the
second. -/
theorem accounted_two_workers : ∃ s, (machine Bool Unit Nat).runUnder
    (fun s a => s.pool.WithoutShutdown a) initial
    [.find true, .test true, .clear true, .find false, .test false, .clear false, .push () 1,
      .notifyOne () none, .push () 2, .notifyOne () none, .push () 3, .queue true, .queue false,
      .finish true] = some s ∧
    (s.executed, s.dequeued, s.pool.tasks) = ([(true, 1)], [(true, 1), (false, 2)], [3]) ∧
    s.Accounted := by
  obtain ⟨s, hs, heq⟩ : ∃ s, (machine Bool Unit Nat).runUnder
      (fun s a => s.pool.WithoutShutdown a) initial
      [.find true, .test true, .clear true, .find false, .test false, .clear false, .push () 1,
        .notifyOne () none, .push () 2, .notifyOne () none, .push () 3, .queue true, .queue false,
        .finish true] = some s ∧
      (s.executed, s.dequeued, s.pool.tasks) = ([(true, 1)], [(true, 1), (false, 2)], [3]) :=
    Option.map_eq_some_iff.mp (by decide +kernel)
  exact ⟨s, hs, heq, accounted_of_reachable s (Machine.reachableUnder_of_runUnder rfl hs)⟩

end Accounting

end ServerDevLib.ThreadPool
