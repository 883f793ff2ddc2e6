import ServerDevLib.Foundation.Transition
import Mathlib.Data.Fintype.Basic

/-!
# The thread pool as a step relation

Workers, callers of `EnqueueTask` and one call of `Shutdown` take turns. A
section under `_queueMutex`, an access to the worker's own status and an
access to `_stop` are single steps. Waiting on the condition variable is
split where the mutex is released: the section that finds its predicate false
blocks the worker, and a notification or a spurious wake-up sends it back to
the lock. The call of `Shutdown` is the one that sets `_stop`; any other returns
at its first test. `front` and `pop` on an empty queue have no defined effect; the
model records that they were executed.
-/

namespace ServerDevLib.ThreadPool

open Transition

universe u

inductive Stat
  | EMPTY
  | ACTIVE
  | DEAD
  deriving DecidableEq

/-- Where a worker is in `WorkerThread`; from `test` on it holds the iterator to its entry. -/
inductive WorkerPc (T : Type u)
  | start
  | test
  | clear
  | lock
  | blocked
  | run (task : T)
  | exited

def WorkerPc.isBlocked {T : Type u} : WorkerPc T → Bool
  | .blocked => true
  | _ => false

def WorkerPc.isExited {T : Type u} : WorkerPc T → Bool
  | .exited => true
  | _ => false

theorem WorkerPc.eq_blocked {T : Type u} {pc : WorkerPc T} (h : pc.isBlocked = true) :
    pc = .blocked := by
  cases pc with
  | blocked => rfl
  | start | test | clear | lock | run task | exited => cases h

theorem WorkerPc.eq_exited {T : Type u} {pc : WorkerPc T} (h : pc.isExited = true) :
    pc = .exited := by
  cases pc with
  | exited => rfl
  | start | test | clear | lock | blocked | run task => cases h

inductive CallerPc
  | idle
  | pushed

inductive ShutdownPc
  | idle
  | stopped
  | marked
  | joining
  | returned
  deriving DecidableEq

structure Pool (W K T : Type u) where
  workerStat : W → Option Stat
  tasks : List T
  stop : Bool
  worker : W → WorkerPc T
  caller : K → CallerPc
  shutdown : ShutdownPc
  emptyPop : Bool

inductive Action (W K T : Type u)
  | find (w : W)
  | test (w : W)
  | clear (w : W)
  | queue (w : W)
  | wake (w : W)
  | finish (w : W)
  | push (k : K) (task : T)
  | notifyOne (k : K) (w : Option W)
  | setStop
  | mark
  | notifyAll
  | join

namespace Pool

variable {W K T : Type u} [DecidableEq W] [DecidableEq K]

def goto (s : Pool W K T) (w : W) (pc : WorkerPc T) : Pool W K T :=
  { s with worker := Function.update s.worker w pc }

def setStat (s : Pool W K T) (w : W) (stat : Stat) : Pool W K T :=
  { s with workerStat := Function.update s.workerStat w (some stat) }

/-- The section of `WorkerThread` under `_queueMutex`. -/
def queueSection (s : Pool W K T) (w : W) : Pool W K T :=
  if s.stop || !s.tasks.isEmpty then
    if s.workerStat w = some .DEAD then s.goto w .exited
    else
      match s.tasks with
      | [] => { s with emptyPop := true }.goto w .exited
      | task :: tasks => ({ s with tasks := tasks }.setStat w .ACTIVE).goto w (.run task)
  else s.goto w .blocked

def markDead (s : Pool W K T) : Pool W K T :=
  { s with tasks := [], workerStat := fun w => (s.workerStat w).map fun _ => .DEAD }

def wakeAll (s : Pool W K T) : Pool W K T :=
  { s with worker := fun w => if (s.worker w).isBlocked then .lock else s.worker w }

def step [Fintype W] (s : Pool W K T) : Action W K T → Option (Pool W K T)
  | .find w =>
    match s.worker w with
    | .start => some (s.goto w (if (s.workerStat w).isSome then .test else .exited))
    | _ => none
  | .test w =>
    match s.worker w with
    | .test => some (s.goto w (if s.workerStat w = some .ACTIVE then .clear else .exited))
    | _ => none
  | .clear w =>
    match s.worker w with
    | .clear => some ((s.setStat w .EMPTY).goto w .lock)
    | _ => none
  | .queue w =>
    match s.worker w with
    | .lock => some (s.queueSection w)
    | _ => none
  | .wake w =>
    match s.worker w with
    | .blocked => some (s.goto w .lock)
    | _ => none
  | .finish w =>
    match s.worker w with
    | .run _ => some (s.goto w .test)
    | _ => none
  | .push k task =>
    match s.caller k with
    | .idle => some { s with
        tasks := s.tasks ++ [task]
        caller := Function.update s.caller k .pushed }
    | .pushed => none
  | .notifyOne k woken =>
    match s.caller k with
    | .idle => none
    | .pushed =>
      let s := { s with caller := Function.update s.caller k .idle }
      match woken with
      | some w => if (s.worker w).isBlocked then some (s.goto w .lock) else none
      | none => if ∀ w, (s.worker w).isBlocked = false then some s else none
  | .setStop => if s.shutdown = .idle then some { s with stop := true, shutdown := .stopped } else none
  | .mark => if s.shutdown = .stopped then some { s.markDead with shutdown := .marked } else none
  | .notifyAll => if s.shutdown = .marked then some { s.wakeAll with shutdown := .joining } else none
  | .join =>
    if s.shutdown = .joining ∧ ∀ w, (s.worker w).isExited = true then
      some { s with shutdown := .returned }
    else none

/-- The pool that `Init` leaves behind, before its workers have done anything. -/
def initial : Pool W K T :=
  { workerStat := fun _ => some .ACTIVE, tasks := [], stop := false, worker := fun _ => .start,
    caller := fun _ => .idle, shutdown := .idle, emptyPop := false }

def machine (W K T : Type u) [DecidableEq W] [DecidableEq K] [Fintype W] :
    Machine (Pool W K T) (Action W K T) where
  init s := s = initial
  step := step

/-- What each action does, with the guards it has passed. -/
inductive Step (s : Pool W K T) : Action W K T → Pool W K T → Prop
  | findEntry {w} (start : s.worker w = .start) (present : s.workerStat w ≠ none) :
      Step s (.find w) (s.goto w .test)
  | findNone {w} (start : s.worker w = .start) (absent : s.workerStat w = none) :
      Step s (.find w) (s.goto w .exited)
  | testActive {w} (test : s.worker w = .test) (active : s.workerStat w = some .ACTIVE) :
      Step s (.test w) (s.goto w .clear)
  | testExit {w} (test : s.worker w = .test) (inactive : s.workerStat w ≠ some .ACTIVE) :
      Step s (.test w) (s.goto w .exited)
  | clear {w} (clear : s.worker w = .clear) :
      Step s (.clear w) ((s.setStat w .EMPTY).goto w .lock)
  | block {w} (lock : s.worker w = .lock) (running : s.stop = false) (empty : s.tasks = []) :
      Step s (.queue w) (s.goto w .blocked)
  | leave {w} (lock : s.worker w = .lock) (dead : s.workerStat w = some .DEAD) :
      Step s (.queue w) (s.goto w .exited)
  | popEmpty {w} (lock : s.worker w = .lock) (stopped : s.stop = true) (empty : s.tasks = [])
      (live : s.workerStat w ≠ some .DEAD) :
      Step s (.queue w) ({ s with emptyPop := true }.goto w .exited)
  | pop {w task tasks} (lock : s.worker w = .lock) (queued : s.tasks = task :: tasks)
      (live : s.workerStat w ≠ some .DEAD) :
      Step s (.queue w) (({ s with tasks := tasks }.setStat w .ACTIVE).goto w (.run task))
  | wake {w} (blocked : s.worker w = .blocked) : Step s (.wake w) (s.goto w .lock)
  | finish {w task} (running : s.worker w = .run task) : Step s (.finish w) (s.goto w .test)
  | push {k task} (idle : s.caller k = .idle) :
      Step s (.push k task) { s with
        tasks := s.tasks ++ [task]
        caller := Function.update s.caller k .pushed }
  | notifyBlocked {k w} (pushed : s.caller k = .pushed) (blocked : s.worker w = .blocked) :
      Step s (.notifyOne k (some w))
        ({ s with caller := Function.update s.caller k .idle }.goto w .lock)
  | notifyNone {k} (pushed : s.caller k = .pushed) (awake : ∀ w, s.worker w ≠ .blocked) :
      Step s (.notifyOne k none) { s with caller := Function.update s.caller k .idle }
  | setStop (idle : s.shutdown = .idle) :
      Step s .setStop { s with stop := true, shutdown := .stopped }
  | mark (stopped : s.shutdown = .stopped) : Step s .mark { s.markDead with shutdown := .marked }
  | notifyAll (marked : s.shutdown = .marked) :
      Step s .notifyAll { s.wakeAll with shutdown := .joining }
  | join (joining : s.shutdown = .joining) (exited : ∀ w, s.worker w = .exited) :
      Step s .join { s with shutdown := .returned }

theorem queueSection_cases {s : Pool W K T} {w : W} (hpc : s.worker w = .lock) :
    Step s (.queue w) (s.queueSection w) := by
  simp only [queueSection]
  split
  · rename_i hpass
    split
    · rename_i hdead
      exact .leave hpc hdead
    · rename_i hlive
      split
      · rename_i hempty
        have hstop : s.stop = true := by simpa [hempty] using hpass
        exact .popEmpty hpc hstop hempty hlive
      · rename_i task tasks hcons
        exact .pop hpc hcons hlive
  · rename_i hpass
    have hboth : s.stop = false ∧ s.tasks = [] := by simpa using hpass
    exact .block hpc hboth.1 hboth.2

theorem step_cases [Fintype W] {s s' : Pool W K T} {a : Action W K T}
    (hstep : (machine W K T).step s a = some s') : Step s a s' := by
  cases a with
  | find w =>
    simp only [machine, step] at hstep
    split at hstep <;> cases hstep
    rename_i hpc
    cases hstat : s.workerStat w with
    | none => exact .findNone hpc hstat
    | some stat => exact .findEntry hpc (by rw [hstat]; exact Option.some_ne_none stat)
  | test w =>
    simp only [machine, step] at hstep
    split at hstep <;> cases hstep
    rename_i hpc
    split
    · rename_i hactive
      exact .testActive hpc hactive
    · rename_i hinactive
      exact .testExit hpc hinactive
  | clear w =>
    simp only [machine, step] at hstep
    split at hstep <;> cases hstep
    rename_i hpc
    exact .clear hpc
  | queue w =>
    simp only [machine, step] at hstep
    split at hstep <;> cases hstep
    rename_i hpc
    exact queueSection_cases hpc
  | wake w =>
    simp only [machine, step] at hstep
    split at hstep <;> cases hstep
    rename_i hpc
    exact .wake hpc
  | finish w =>
    simp only [machine, step] at hstep
    split at hstep <;> cases hstep
    rename_i hpc
    exact .finish hpc
  | push k task =>
    simp only [machine, step] at hstep
    split at hstep <;> cases hstep
    rename_i hidle
    exact .push hidle
  | notifyOne k woken =>
    simp only [machine, step] at hstep
    split at hstep
    · cases hstep
    · rename_i hpushed
      cases woken with
      | some w =>
        simp only at hstep
        split at hstep <;> cases hstep
        rename_i hblocked
        exact .notifyBlocked hpushed (WorkerPc.eq_blocked hblocked)
      | none =>
        simp only at hstep
        split at hstep <;> cases hstep
        rename_i hawake
        refine .notifyNone hpushed fun w hw => ?_
        have hfalse := hawake w
        rw [hw] at hfalse
        cases hfalse
  | setStop =>
    simp only [machine, step] at hstep
    split at hstep <;> cases hstep
    rename_i hidle
    exact .setStop hidle
  | mark =>
    simp only [machine, step] at hstep
    split at hstep <;> cases hstep
    rename_i hstopped
    exact .mark hstopped
  | notifyAll =>
    simp only [machine, step] at hstep
    split at hstep <;> cases hstep
    rename_i hmarked
    exact .notifyAll hmarked
  | join =>
    simp only [machine, step] at hstep
    split at hstep <;> cases hstep
    rename_i hjoin
    exact .join hjoin.1 fun w => WorkerPc.eq_exited (hjoin.2 w)

section Frames

omit [DecidableEq K]

variable {s : Pool W K T}

theorem worker_goto_self (w : W) (pc : WorkerPc T) : (s.goto w pc).worker w = pc :=
  Function.update_self ..

theorem worker_goto_of_ne {v w : W} (h : v ≠ w) (pc : WorkerPc T) :
    (s.goto w pc).worker v = s.worker v :=
  Function.update_of_ne h ..

theorem workerStat_setStat_self (w : W) (stat : Stat) :
    (s.setStat w stat).workerStat w = some stat :=
  Function.update_self ..

theorem workerStat_setStat_of_ne {v w : W} (h : v ≠ w) (stat : Stat) :
    (s.setStat w stat).workerStat v = s.workerStat v :=
  Function.update_of_ne h ..

end Frames

end Pool

end ServerDevLib.ThreadPool
