import ServerDevLib.ThreadPool.LoopRuns
import Mathlib.Algebra.Ring.Int.Defs
import Mathlib.Data.Fintype.Card
import Mathlib.Data.Rat.Defs

/-!
# Growing and shrinking the pool

`Monitor` reads the load of the machine and calls `Adjust`, which starts a
worker or marks the idle ones, notifies them under the mutex and then erases
their threads and their entries. The workers and the callers go on in the
meantime as the pool has it. A joinable thread that is destroyed ends the
process. `workers` are the keys of `_workers`, the monitor's own thread among
them. In a configuration for which `Init` starts the timer, `Monitor` returns
before it comes to `Adjust`; `Adjust` is followed on its own all the same.
-/

namespace ServerDevLib.ThreadPool

open Transition

structure ThreadPoolConfig where
  minCoreThread : UInt32
  maxThread : UInt32
  startMonitorTimer : Bool
  monitorPeriod : UInt32
  verifyCount : UInt8

/-- `Init` starts the timer. -/
def ThreadPoolConfig.startsMonitor (c : ThreadPoolConfig) : Bool :=
  c.startMonitorTimer && c.minCoreThread < c.maxThread

def FIRST : Int := 50

def SECOND : Int := 70

def THIRD : Int := 90

/-- A value of `double`, without its rounding. -/
inductive Load
  | nan
  | negInf
  | posInf
  | value (q : Rat)

namespace Load

def less : Load → Int → Bool
  | .value q, t => q < t
  | .negInf, _ => true
  | .nan, _ | .posInf, _ => false

/-- The cast to `long`, with the value that stands for all others. -/
def toLong : Load → Int
  | .value q => q.num.tdiv q.den
  | .nan | .negInf | .posInf => -2 ^ 63

/-- `(1.0 - (idle_diff * 1.0 / total_diff)) * 100.0` -/
def percent (idleDiff totalDiff : Int) : Load :=
  if totalDiff = 0 then
    if idleDiff = 0 then .nan else if 0 < idleDiff then .negInf else .posInf
  else .value ((1 - idleDiff / totalDiff) * 100)

end Load

def getThredShold (d : Int) : Int :=
  if d < FIRST then FIRST else if d < SECOND then SECOND else THIRD

/-- Where the thread of the timer is in `Adjust`; `ids` is what is left of `vec`. -/
inductive AdjustPc (W : Type)
  | idle
  | growing
  | inserting (w : W)
  | shrinking
  | erasing (ids : Finset W)

/-- `erased` records whose thread and entry `Adjust` has gone to erase. -/
structure Scaling (W K T : Type) where
  pool : Pool W K T
  workers : Finset W
  joinable : W → Bool
  erased : Finset W
  terminated : Bool
  prevIdleTime : Int
  prevTotalTime : Int
  thredShold : Int
  countForAdd : UInt8
  countForSub : UInt8
  adjust : AdjustPc W

namespace Scaling

inductive Event (W K T : Type)
  | pool (a : Action W K T)
  | monitor (idleTime totalTime : Int)
  | getThredShold (d : Int)
  | adjust (d : Load)
  | spawn (w : W)
  | insert
  | mark
  | erase (w : W)
  | leave

variable {W K T : Type}

/-- The tests of `Adjust` outside of the mutex. -/
def adjustTest (c : ThreadPoolConfig) (s : Scaling W K T) (d : Load) : Scaling W K T :=
  if d.less s.thredShold && !s.pool.tasks.isEmpty then
    let s := { s with countForAdd := s.countForAdd + 1 }
    if s.countForAdd > c.verifyCount ∧ s.workers.card < c.maxThread.toNat then
      { s with adjust := .growing }
    else s
  else if d.less s.thredShold && s.pool.tasks.isEmpty then
    let s := { s with countForSub := s.countForSub + 1 }
    if s.countForSub > c.verifyCount ∧ s.workers.card > c.minCoreThread.toNat then
      { s with countForSub := 0, adjust := .shrinking }
    else s
  else s

/-- The load that a reading of the CPU's times stands for. -/
def load (s : Scaling W K T) (idleTime totalTime : Int) : Load :=
  .percent (idleTime - s.prevIdleTime) (totalTime - s.prevTotalTime)

def monitor (c : ThreadPoolConfig) (s : Scaling W K T) (idleTime totalTime : Int) : Scaling W K T :=
  if c.minCoreThread < c.maxThread then s
  else
    let percent := s.load idleTime totalTime
    adjustTest c { s with
      prevIdleTime := idleTime
      prevTotalTime := totalTime
      thredShold := ThreadPool.getThredShold percent.toLong } percent

section Steps

variable [DecidableEq W]

/-- Threads of the pool run, and nobody calls `Shutdown`. -/
def Enabled (s : Scaling W K T) : Action W K T → Prop
  | .find w | .test w | .clear w | .queue w | .wake w | .finish w => w ∈ s.workers
  | .push _ _ | .notifyOne _ _ => True
  | .setStop | .mark | .notifyAll | .join => False

instance (s : Scaling W K T) (a : Action W K T) : Decidable (s.Enabled a) :=
  match a with
  | .find w | .test w | .clear w | .queue w | .wake w | .finish w =>
    inferInstanceAs (Decidable (w ∈ s.workers))
  | .push _ _ | .notifyOne _ _ => isTrue trivial
  | .setStop | .mark | .notifyAll | .join => isFalse id

/-- Where no task is queued, the idle workers are marked. -/
def markIdle (s : Scaling W K T) : W → Option Stat := fun w =>
  if s.pool.workerStat w = some .EMPTY ∧ s.pool.tasks = [] then some .DEAD
  else s.pool.workerStat w

variable [Fintype W]

/-- The ids that the loop over `_workerStat` collects. -/
def idle (s : Scaling W K T) : Finset W :=
  Finset.univ.filter fun w => s.pool.workerStat w = some .EMPTY ∧ s.pool.tasks = []

variable [DecidableEq K]

def step (c : ThreadPoolConfig) (s : Scaling W K T) (e : Event W K T) : Option (Scaling W K T) :=
  if s.terminated then none
  else
    match e with
    | .pool a =>
      if s.Enabled a then
        ((Pool.machine W K T).step s.pool a).map fun pool => { s with pool := pool }
      else none
    | .monitor idleTime totalTime =>
      match s.adjust with
      | .idle => some (s.monitor c idleTime totalTime)
      | _ => none
    | .getThredShold d =>
      match s.adjust with
      | .idle => some { s with thredShold := ThreadPool.getThredShold d }
      | _ => none
    | .adjust d =>
      match s.adjust with
      | .idle => some (s.adjustTest c d)
      | _ => none
    | .spawn w =>
      match s.adjust with
      | .growing =>
        if w ∉ s.workers ∧ s.pool.workerStat w = none then
          some { s with
            pool := s.pool.goto w .start
            workers := insert w s.workers
            joinable := Function.update s.joinable w true
            adjust := .inserting w }
        else none
      | _ => none
    | .insert =>
      match s.adjust with
      | .inserting w => some { s with
          pool := if s.pool.workerStat w = none then s.pool.setStat w .ACTIVE else s.pool
          countForAdd := 0
          adjust := .idle }
      | _ => none
    | .mark =>
      match s.adjust with
      | .shrinking => some { s with
          pool := { s.pool with workerStat := s.markIdle }.wakeAll
          adjust := .erasing s.idle }
      | _ => none
    | .erase w =>
      match s.adjust with
      | .erasing ids =>
        if w ∈ ids then
          if s.joinable w then some { s with erased := insert w s.erased, terminated := true }
          else some { s with
            pool := { s.pool with workerStat := Function.update s.pool.workerStat w none }
            workers := s.workers.erase w
            erased := insert w s.erased
            adjust := .erasing (ids.erase w) }
        else none
      | _ => none
    | .leave =>
      match s.adjust with
      | .erasing ids => if ids = ∅ then some { s with adjust := .idle } else none
      | _ => none

/-- What the threads rely on: every entry belongs to a thread, an entry is not marked while its
worker is on its way to clear it, and there is an entry behind every wait. -/
structure Running (s : Scaling W K T) : Prop where
  listed : ∀ w, s.pool.workerStat w ≠ none → w ∈ s.workers
  clear : ∀ w, s.pool.worker w = .clear → s.pool.workerStat w = some .ACTIVE
  entry : ∀ w, s.pool.worker w = .lock ∨ s.pool.worker w = .blocked → s.pool.workerStat w ≠ none
  joinable : ∀ w ∈ s.workers, s.joinable w = true

/-- `Adjust` may be called for the first time in any state in which the threads run. -/
def machine (W K T : Type) [DecidableEq W] [DecidableEq K] [Fintype W] (c : ThreadPoolConfig) :
    Machine (Scaling W K T) (Event W K T) where
  init s := s.Running ∧ s.adjust = .idle ∧ s.terminated = false ∧ s.erased = ∅
  step := step c

/-- What each event does, with the guards it has passed. -/
inductive Step (c : ThreadPoolConfig) (s : Scaling W K T) : Event W K T → Scaling W K T → Prop
  | pool {a pool} (enabled : s.Enabled a) (moved : Pool.Step s.pool a pool) :
      Step c s (.pool a) { s with pool := pool }
  | monitor {idleTime totalTime} (idle : s.adjust = .idle) :
      Step c s (.monitor idleTime totalTime) (s.monitor c idleTime totalTime)
  | getThredShold {d} (idle : s.adjust = .idle) :
      Step c s (.getThredShold d) { s with thredShold := ThreadPool.getThredShold d }
  | adjust {d} (idle : s.adjust = .idle) : Step c s (.adjust d) (s.adjustTest c d)
  | spawn {w} (growing : s.adjust = .growing) (new : w ∉ s.workers)
      (absent : s.pool.workerStat w = none) :
      Step c s (.spawn w) { s with
        pool := s.pool.goto w .start
        workers := insert w s.workers
        joinable := Function.update s.joinable w true
        adjust := .inserting w }
  | insert {w} (inserting : s.adjust = .inserting w) :
      Step c s .insert { s with
        pool := if s.pool.workerStat w = none then s.pool.setStat w .ACTIVE else s.pool
        countForAdd := 0
        adjust := .idle }
  | mark (shrinking : s.adjust = .shrinking) :
      Step c s .mark { s with
        pool := { s.pool with workerStat := s.markIdle }.wakeAll
        adjust := .erasing s.idle }
  | eraseJoinable {w ids} (erasing : s.adjust = .erasing ids) (found : w ∈ ids)
      (joinable : s.joinable w = true) :
      Step c s (.erase w) { s with erased := Insert.insert w s.erased, terminated := true }
  | erase {w ids} (erasing : s.adjust = .erasing ids) (found : w ∈ ids)
      (joined : s.joinable w = false) :
      Step c s (.erase w) { s with
        pool := { s.pool with workerStat := Function.update s.pool.workerStat w none }
        workers := s.workers.erase w
        erased := Insert.insert w s.erased
        adjust := .erasing (ids.erase w) }
  | leave (erasing : s.adjust = .erasing ∅) : Step c s .leave { s with adjust := .idle }

variable {c : ThreadPoolConfig} {s s' : Scaling W K T} {e : Event W K T}

theorem step_cases (hstep : (machine W K T c).step s e = some s') : Step c s e s' := by
  simp only [machine, step] at hstep
  split at hstep
  · cases hstep
  · cases e with
    | pool a =>
      simp only at hstep
      split at hstep
      · rename_i henabled
        obtain ⟨pool, hpool, rfl⟩ := Option.map_eq_some_iff.mp hstep
        exact .pool henabled (Pool.step_cases hpool)
      · cases hstep
    | monitor idleTime totalTime =>
      simp only at hstep
      split at hstep <;> cases hstep
      exact .monitor ‹_›
    | getThredShold d =>
      simp only at hstep
      split at hstep <;> cases hstep
      exact .getThredShold ‹_›
    | adjust d =>
      simp only at hstep
      split at hstep <;> cases hstep
      exact .adjust ‹_›
    | spawn w =>
      simp only at hstep
      split at hstep
      · rename_i hgrowing
        split at hstep <;> cases hstep
        rename_i hnew
        exact .spawn hgrowing hnew.1 hnew.2
      · cases hstep
    | insert =>
      simp only at hstep
      split at hstep <;> cases hstep
      exact .insert ‹_›
    | mark =>
      simp only at hstep
      split at hstep <;> cases hstep
      exact .mark ‹_›
    | erase w =>
      simp only at hstep
      split at hstep
      · rename_i herasing
        split at hstep
        · rename_i hfound
          split at hstep <;> cases hstep
          · exact .eraseJoinable herasing hfound ‹_›
          · exact .erase herasing hfound (Bool.eq_false_iff.mpr ‹_›)
        · cases hstep
      · cases hstep
    | leave =>
      simp only at hstep
      split at hstep
      · rename_i herasing
        split at hstep <;> cases hstep
        rename_i hempty
        exact .leave (hempty ▸ herasing)
      · cases hstep

theorem alive_of_step (hstep : (machine W K T c).step s e = some s') : s.terminated = false := by
  simp only [machine, step] at hstep
  split at hstep
  · cases hstep
  · exact Bool.eq_false_iff.mpr ‹_›

end Steps

section Tests

variable {c : ThreadPoolConfig} {s t : Scaling W K T}

/-- The tests of `Adjust` look and count, and decide where it goes on. -/
structure Tested (c : ThreadPoolConfig) (s t : Scaling W K T) : Prop where
  pool : t.pool = s.pool
  workers : t.workers = s.workers
  joinable : t.joinable = s.joinable
  erased : t.erased = s.erased
  terminated : t.terminated = s.terminated
  adjust : t.adjust = s.adjust ∨ t.adjust = .growing ∧ t.workers.card < c.maxThread.toNat ∨
    t.adjust = .shrinking

theorem tested_adjustTest (c : ThreadPoolConfig) (s : Scaling W K T) (d : Load) :
    Tested c s (s.adjustTest c d) := by
  rw [adjustTest]
  split
  · dsimp only
    split
    · rename_i hgrow
      exact ⟨rfl, rfl, rfl, rfl, rfl, .inr (.inl ⟨rfl, hgrow.2⟩)⟩
    · exact ⟨rfl, rfl, rfl, rfl, rfl, .inl rfl⟩
  · split
    · dsimp only
      split
      · exact ⟨rfl, rfl, rfl, rfl, rfl, .inr (.inr rfl)⟩
      · exact ⟨rfl, rfl, rfl, rfl, rfl, .inl rfl⟩
    · exact ⟨rfl, rfl, rfl, rfl, rfl, .inl rfl⟩

theorem tested_monitor (c : ThreadPoolConfig) (s : Scaling W K T) (idleTime totalTime : Int) :
    Tested c s (s.monitor c idleTime totalTime) := by
  rw [monitor]
  split
  · exact ⟨rfl, rfl, rfl, rfl, rfl, .inl rfl⟩
  · have htested := tested_adjustTest c { s with
      prevIdleTime := idleTime
      prevTotalTime := totalTime
      thredShold := ThreadPool.getThredShold (s.load idleTime totalTime).toLong }
      (s.load idleTime totalTime)
    exact ⟨htested.pool, htested.workers, htested.joinable, htested.erased, htested.terminated,
      htested.adjust⟩

end Tests

end Scaling

end ServerDevLib.ThreadPool
