import ServerDevLib.Reactor.ShutdownState
import ServerDevLib.Reactor.SlaveLoops
import ServerDevLib.ThreadPool.Draining
import ServerDevLib.ThreadPool.Startup

/-!
# Shutting down with the pool

`Shutdown` stops the dispatcher and its slaves, and if there is a master
descriptor it shuts the pool down before it comes to the channels. The pool
joins its workers, and the dispatch loop of a slave is a task of the pool: it
waits in `epoll_wait` without a timeout and does not look at `_stop` before
something is reported to it. `_slaves.clear()` destroys the slaves while their
loops are still queued or under way; what such a loop reads in `_stop` may be
anything, and nothing is reported to it any more. An application cannot get at
a slave, so that only the master has a `_masterfd`. The other tasks of the pool
return, and no other dispatcher has slaves on it.
-/

namespace ServerDevLib.Reactor

open Transition ThreadPool

namespace Dispatchers

/-- `Shutdown` up to the test of `_masterfd`. -/
def stopAll (s : Dispatchers) : Dispatchers :=
  let closed := fun fd => (s.master.handlers fd).isSome ||
    (s.master.enableSlave && s.slaves.any fun d => (d.handlers fd).isSome)
  { s with
    master := { s.master.removeFds closed with stop := true, handlers := fun _ => none }
    slaves := if s.master.enableSlave then [] else s.slaves.map fun d => d.removeFds closed
    isOpen := fun fd => s.isOpen fd && !closed fd }

/-- What it does behind `_pool.Shutdown()`. -/
def inactivate (s : Dispatchers) : Dispatchers :=
  { s with
    chan := fun c =>
      if s.allChannel (s.chan c).fd = some c then (s.chan c).inactive else s.chan c
    allChannel := fun _ => none }

/-- `_demultiplexer.Shutdown()` of the master. -/
def closeEpoll (s : Dispatchers) : Dispatchers :=
  { s with master := { s.master with
    demultiplexer := { s.master.demultiplexer with interest := fun _ => none } } }

theorem clears_iff {s : Dispatchers} (hslaves : ∀ d ∈ s.slaves, d.masterfd = 0) :
    s.clears = true ↔ s.master.masterfd ≠ 0 := by
  have hnone : (s.slaves.any fun d => decide (d.masterfd ≠ 0)) = false := by
    simpa using hslaves
  rw [clears, hnone, Bool.and_false, Bool.or_false, decide_eq_true_iff]

/-- The steps of the call together are the call that comes to its end. -/
theorem shutdown_eq {s : Dispatchers} (hstop : s.master.stop = false)
    (hslaves : ∀ d ∈ s.slaves, d.masterfd = 0) : s.shutdown =
      if s.master.masterfd ≠ 0 then s.stopAll.inactivate.closeEpoll else s.stopAll.closeEpoll := by
  rw [shutdown, hstop, if_neg Bool.false_ne_true]
  by_cases hfd : s.master.masterfd ≠ 0
  · rw [if_pos hfd]
    simp only [(clears_iff hslaves).mpr hfd, if_true]
    rfl
  · rw [if_neg hfd]
    simp only [Bool.eq_false_iff.mpr fun hclears => hfd ((clears_iff hslaves).mp hclears),
      Bool.false_eq_true, if_false]
    rfl

end Dispatchers

namespace Serving

def stopAll (s : Serving) : Serving :=
  { s with
    dispatchers := s.dispatchers.stopAll
    former := if s.dispatchers.master.enableSlave then
        s.former ++ s.dispatchers.slaves.map Dispatcher.shutdown
      else s.former }

def inactivate (s : Serving) : Serving := s.put s.dispatchers.inactivate

def closeEpoll (s : Serving) : Serving := s.put s.dispatchers.closeEpoll

/-- One round of `AddSlaveDispatcher`. -/
def addSlave (s : Serving) : Serving :=
  s.put { s.dispatchers with slaves := s.dispatchers.slaves ++ [.create] }

theorem shutdown_eq {s : Serving} (hstop : s.dispatchers.master.stop = false)
    (hslaves : ∀ d ∈ s.dispatchers.slaves, d.masterfd = 0) : s.shutdown =
      if s.dispatchers.master.masterfd ≠ 0 then s.stopAll.inactivate.closeEpoll
      else s.stopAll.closeEpoll := by
  rw [shutdown, Dispatchers.shutdown_eq hstop hslaves, hstop]
  split <;> rfl

end Serving

section Masters

variable {A : Text.Allocator}

def Dispatchers.masterfds (s : Dispatchers) : List Int := s.slaves.map Dispatcher.masterfd

theorem Dispatchers.masterfds_modify (s : Dispatchers) {i : Nat} {f : Dispatcher → Dispatcher}
    (hf : i = 0 ∨ ∀ d, (f d).masterfd = d.masterfd) : (s.modify i f).masterfds = s.masterfds := by
  cases i with
  | zero => rfl
  | succ i =>
    have hf := hf.resolve_left (Nat.succ_ne_zero i)
    apply List.ext_getElem?
    intro j
    simp only [masterfds, Dispatchers.modify, List.getElem?_map, List.getElem?_modify]
    cases s.slaves[j]? with
    | none => rfl
    | some d =>
      change some (Dispatcher.masterfd (if i = j then f d else d)) = some d.masterfd
      split
      · rw [hf d]
      · rfl

/-- No call before `Shutdown` but `AddSlaveDispatcher` concerns the list of slaves, and the master
descriptor is that of the master. -/
theorem Serving.masterfds_step {s s' : Serving} {call : Serving.Call} (h : s.Preceding call)
    (hmaster : ∀ i fd ok, call = .setMasterFD i fd ok → i = 0)
    (hfixed : ∀ n, call ≠ .addSlaveDispatcher n)
    (hstep : (Serving.machine A).step s call = some s') :
    s'.dispatchers.masterfds = s.dispatchers.masterfds := by
  have hregister (d : Dispatcher) (fd : Int) (handler : Handler) (ok : Bool) :
      (d.registerHandler fd handler ok).masterfd = d.masterfd :=
    (Dispatchers.masterfd_registerHandler d fd handler ok).1
  cases Serving.step_cases hstep with
  | @setMasterFD i fd ok =>
    exact s.dispatchers.masterfds_modify (.inl (hmaster i fd ok rfl))
  | @registerHandler i fd handler ok =>
    exact s.dispatchers.masterfds_modify (.inr fun d => hregister d fd handler ok)
  | @removeHandler i fd stale =>
    have hmodified := (s.dispatchers.eraseChannel fd stale).masterfds_modify (i := i)
      (f := fun d => d.eraseHandler fd) (.inr fun _ => rfl)
    refine hmodified.trans ?_
    simp only [Dispatchers.masterfds, Dispatchers.eraseChannel]
    split <;> rfl
  | failedConnection | handleNewConnection =>
    change (Dispatchers.handleNewConnection ..).masterfds = _
    rw [Dispatchers.handleNewConnection_eq]
    exact Dispatchers.masterfds_modify _ (.inr fun d => hregister d ..)
  | addSlaveDispatcher | addSlaveDispatcherRefused => exact absurd rfl (hfixed _)
  | enableSlave | enableSlaveStopped | setMasterFDRefused | removeHandlerRefused | openFd => rfl
  | handleUnexpected | handleExpected | extractExistedChannel | restoreAllChannel | pend | pendSlave
  | shutdown | shutdownStopped | closeFd => exact h.elim

end Masters

inductive ShutdownPhase
  | idle
  | pool
  | returned
  deriving DecidableEq

/-- `waiting` has the workers that wait in `epoll_wait` for a slave. -/
structure Teardown (W K : Type) where
  serving : Serving
  pool : Pool W K Job
  waiting : W → Bool
  adding : Nat
  phase : ShutdownPhase

namespace Teardown

inductive Event (W K : Type)
  | call (call : Serving.Call)
  | addSlave (k : K)
  | wait (w : W)
  | report (w : W)
  | pool (a : ThreadPool.Action W K Job)
  | conclude

variable {W K : Type}

/-- No call is under way. -/
def Free (s : Teardown W K) : Prop := s.phase = .idle ∧ s.adding = 0

instance (s : Teardown W K) : Decidable s.Free := inferInstanceAs (Decidable (_ ∧ _))

/-- `Shutdown` clears `_slaves` as a whole. -/
def gone (s : Teardown W K) : Bool := s.serving.dispatchers.slaves.isEmpty

/-- `Shutdown` alone shuts the pool down, and a dispatch loop returns if it finds `_stop` set. -/
def Enabled (s : Teardown W K) : ThreadPool.Action W K Job → Prop
  | .push _ task => task.isDispatch = false
  | .finish w => dispatching (s.pool.worker w) = true → s.waiting w = false ∧ s.gone = true
  | .setStop | .mark | .notifyAll | .join => s.phase = .pool
  | .find _ | .test _ | .clear _ | .queue _ | .wake _ | .notifyOne _ _ => True

instance (s : Teardown W K) (a : ThreadPool.Action W K Job) : Decidable (s.Enabled a) :=
  match a with
  | .push _ task => inferInstanceAs (Decidable (task.isDispatch = false))
  | .finish w => inferInstanceAs (Decidable
      (dispatching (s.pool.worker w) = true → s.waiting w = false ∧ s.gone = true))
  | .setStop | .mark | .notifyAll | .join => inferInstanceAs (Decidable (s.phase = .pool))
  | .find _ | .test _ | .clear _ | .queue _ | .wake _ | .notifyOne _ _ => isTrue trivial

def shutdown (s : Teardown W K) : Teardown W K :=
  if s.serving.dispatchers.master.stop then { s with phase := .returned }
  else if s.serving.dispatchers.master.masterfd ≠ 0 then
    { s with serving := s.serving.stopAll, phase := .pool }
  else { s with serving := s.serving.stopAll.closeEpoll, phase := .returned }

variable [DecidableEq W] [DecidableEq K] [Fintype W]

def step (A : Text.Allocator) (s : Teardown W K) : Event W K → Option (Teardown W K)
  | .call (.addSlaveDispatcher n) =>
    if s.Free then some { s with
      adding := if s.serving.dispatchers.master.stop || !s.serving.dispatchers.master.enableSlave
        then 0 else n.toNat }
    else none
  | .call .shutdown => if s.Free then some s.shutdown else none
  | .call call =>
    if s.Free then (Serving.step A s.serving call).map fun serving => { s with serving := serving }
    else none
  | .addSlave k =>
    match s.adding with
    | 0 => none
    | n + 1 =>
      ((Pool.machine W K Job).step s.pool
        (.push k (.dispatch s.serving.dispatchers.slaves.length))).map fun pool =>
          { s with serving := s.serving.addSlave, pool := pool, adding := n }
  | .wait w =>
    -- in a slave that is destroyed the loop may have found anything
    if dispatching (s.pool.worker w) && !s.waiting w then
      some { s with waiting := Function.update s.waiting w true }
    else none
  | .report w =>
    if s.waiting w && !s.gone then some { s with waiting := Function.update s.waiting w false }
    else none
  | .pool a =>
    if s.Enabled a then
      ((Pool.machine W K Job).step s.pool a).map fun pool => { s with pool := pool }
    else none
  | .conclude =>
    if s.phase = .pool ∧ s.pool.shutdown = .returned then
      some { s with serving := s.serving.inactivate.closeEpoll, phase := .returned }
    else none

def initial (A : Text.Allocator) : Teardown W K :=
  { serving := .initial A, pool := .initial, waiting := fun _ => false, adding := 0,
    phase := .idle }

def machine (A : Text.Allocator) (W K : Type) [DecidableEq W] [DecidableEq K] [Fintype W] :
    Machine (Teardown W K) (Event W K) where
  init s := s = initial A
  step := step A

/-- What each event does, with the guards it has passed. -/
inductive Step (A : Text.Allocator) (s : Teardown W K) : Event W K → Teardown W K → Prop
  | addSlaveDispatcher {n adding} (free : s.Free)
      (enabled : adding ≠ 0 → s.serving.dispatchers.master.stop = false ∧
        s.serving.dispatchers.master.enableSlave = true) :
      Step A s (.call (.addSlaveDispatcher n)) { s with adding := adding }
  | shutdown (free : s.Free) : Step A s (.call .shutdown) s.shutdown
  | call {call serving} (free : s.Free) (plain : call ≠ .shutdown)
      (fixed : ∀ n, call ≠ .addSlaveDispatcher n)
      (called : (Serving.machine A).step s.serving call = some serving) :
      Step A s (.call call) { s with serving := serving }
  | addSlave {k n pool} (adding : s.adding = n + 1)
      (pushed : (Pool.machine W K Job).step s.pool
        (.push k (.dispatch s.serving.dispatchers.slaves.length)) = some pool) :
      Step A s (.addSlave k) { s with serving := s.serving.addSlave, pool := pool, adding := n }
  | wait {w} (loop : dispatching (s.pool.worker w) = true) (awake : s.waiting w = false) :
      Step A s (.wait w) { s with waiting := Function.update s.waiting w true }
  | report {w} (there : s.gone = false) :
      Step A s (.report w) { s with waiting := Function.update s.waiting w false }
  | pool {a pool} (enabled : s.Enabled a)
      (moved : (Pool.machine W K Job).step s.pool a = some pool) :
      Step A s (.pool a) { s with pool := pool }
  | conclude (phase : s.phase = .pool) (joined : s.pool.shutdown = .returned) :
      Step A s .conclude { s with
        serving := s.serving.inactivate.closeEpoll
        phase := .returned }

variable {A : Text.Allocator} {s s' : Teardown W K} {e : Event W K}

theorem step_cases (hstep : (machine A W K).step s e = some s') : Step A s e s' := by
  cases e with
  | call call =>
    cases call with
    | addSlaveDispatcher n =>
      simp only [machine, step] at hstep
      split at hstep <;> cases hstep
      rename_i hfree
      refine .addSlaveDispatcher hfree fun hadding => ?_
      split at hadding
      · exact absurd rfl hadding
      · rename_i hguard
        simpa using hguard
    | shutdown =>
      simp only [machine, step] at hstep
      split at hstep <;> cases hstep
      rename_i hfree
      exact .shutdown hfree
    | _ =>
      simp only [machine, step] at hstep
      split at hstep
      · rename_i hfree
        obtain ⟨serving, hserving, rfl⟩ := Option.map_eq_some_iff.mp hstep
        exact .call hfree nofun nofun hserving
      · cases hstep
  | addSlave k =>
    simp only [machine, step] at hstep
    split at hstep
    · cases hstep
    · rename_i n hadding
      obtain ⟨pool, hpool, rfl⟩ := Option.map_eq_some_iff.mp hstep
      exact .addSlave hadding hpool
  | wait w =>
    simp only [machine, step] at hstep
    split at hstep <;> cases hstep
    rename_i hguard
    simp only [Bool.and_eq_true, Bool.not_eq_true'] at hguard
    exact .wait hguard.1 hguard.2
  | report w =>
    simp only [machine, step] at hstep
    split at hstep <;> cases hstep
    rename_i hguard
    simp only [Bool.and_eq_true, Bool.not_eq_true'] at hguard
    exact .report hguard.2
  | pool a =>
    simp only [machine, step] at hstep
    split at hstep
    · rename_i henabled
      obtain ⟨pool, hpool, rfl⟩ := Option.map_eq_some_iff.mp hstep
      exact .pool henabled hpool
    · cases hstep
  | conclude =>
    simp only [machine, step] at hstep
    split at hstep <;> cases hstep
    rename_i hguard
    exact .conclude hguard.1 hguard.2

/-- The calls before `Shutdown` and those of its steps that the pool can take. -/
def Orderly (s : Teardown W K) : Event W K → Prop
  | .call .shutdown => True
  | .call (.setMasterFD i _ _) => i = 0
  | .call call => s.serving.Preceding call
  | .pool a => s.pool.Orderly a
  | .addSlave _ | .wait _ | .report _ | .conclude => True

omit [DecidableEq K] in
instance (s : Teardown W K) (e : Event W K) : Decidable (s.Orderly e) :=
  match e with
  | .call .shutdown => isTrue trivial
  | .call (.setMasterFD i _ _) => inferInstanceAs (Decidable (i = 0))
  | .call (.enableSlave _) | .call (.addSlaveDispatcher _) | .call (.registerHandler _ _ _ _)
  | .call (.handleNewConnection _ _) | .call (.openFd _) => isTrue trivial
  | .call (.removeHandler _ fd stale) =>
    inferInstanceAs (Decidable (stale = s.serving.allChannel fd))
  | .call (.handleUnexpected _ _ _) | .call .extractExistedChannel | .call (.restoreAllChannel _ _)
  | .call (.addPendingFunctor _) | .call (.closeFd _) => isFalse id
  | .pool a => inferInstanceAs (Decidable (s.pool.Orderly a))
  | .addSlave _ | .wait _ | .report _ | .conclude => isTrue trivial

/-- Where the dispatcher and the pool are before `Shutdown` is called. -/
structure Before (A : Text.Allocator) (s : Teardown W K) : Prop where
  serving : (Serving.machine A).ReachableUnder Serving.Preceding s.serving
  master : ∀ d ∈ s.serving.dispatchers.slaves, d.masterfd = 0
  working : s.pool.Working ∧ s.pool.Listed
  quiet : s.pool.shutdown = .idle
  counted : SlaveLoops.loops s.pool = s.serving.dispatchers.slaves.length
  adding : s.adding ≠ 0 → s.serving.dispatchers.master.stop = false ∧
    s.serving.dispatchers.master.enableSlave = true

omit [DecidableEq W] [DecidableEq K] in
theorem initial_before : (initial A : Teardown W K).Before A where
  serving := .init rfl
  master := nofun
  working := ⟨Pool.initial_working, fun _ => Option.some_ne_none _⟩
  quiet := rfl
  counted := Finset.sum_eq_zero fun _ _ => rfl
  adding h := absurd rfl h

omit [DecidableEq W] [DecidableEq K] [Fintype W] in
theorem phase_shutdown (s : Teardown W K) : s.shutdown.phase ≠ .idle := by
  rw [shutdown]
  split
  · nofun
  · split <;> nofun

omit [DecidableEq W] [DecidableEq K] in
theorem Before.call (h : s.Before A) {call : Serving.Call} {serving : Serving}
    (hfree : s.Free) (hc : s.Orderly (.call call)) (hplain : call ≠ .shutdown)
    (hfixed : ∀ n, call ≠ .addSlaveDispatcher n)
    (hcalled : (Serving.machine A).step s.serving call = some serving) :
    ({ s with serving := serving } : Teardown W K).Before A := by
  have hpreceding : s.serving.Preceding call := by
    cases call with
    | setMasterFD => trivial
    | shutdown => exact absurd rfl hplain
    | _ => exact hc
  have hmaster (i : Nat) (fd : Int) (ok : Bool) (heq : call = .setMasterFD i fd ok) : i = 0 := by
    subst heq
    exact hc
  have hfds := Serving.masterfds_step hpreceding hmaster hfixed hcalled
  refine ⟨h.serving.step hpreceding hcalled, fun d hd => ?_, h.working, h.quiet, ?_,
    fun hadding => absurd hfree.2 hadding⟩
  · have hmem : d.masterfd ∈ s.serving.dispatchers.masterfds := by
      rw [← hfds]
      exact List.mem_map_of_mem hd
    obtain ⟨d', hd', heq⟩ := List.mem_map.mp hmem
    rw [← heq]
    exact h.master d' hd'
  · have hlength := congrArg List.length hfds
    rw [Dispatchers.masterfds, Dispatchers.masterfds, List.length_map, List.length_map] at hlength
    exact h.counted.trans hlength.symm

theorem Before.addSlave (h : s.Before A) {k : K} {n : Nat} {pool : Pool W K Job}
    (hadding : s.adding = n + 1)
    (hpushed : (Pool.machine W K Job).step s.pool
      (.push k (.dispatch s.serving.dispatchers.slaves.length)) = some pool) :
    ({ s with serving := s.serving.addSlave, pool := pool, adding := n } :
      Teardown W K).Before A := by
  obtain ⟨hstop, henabled⟩ := h.adding (by rw [hadding]; exact Nat.succ_ne_zero n)
  have hround : (Serving.machine A).step s.serving (.addSlaveDispatcher 1) =
      some s.serving.addSlave := by
    change (Dispatchers.step A s.serving.dispatchers (.addSlaveDispatcher 1)).map _ = _
    rw [Dispatchers.step, hstop, henabled]
    rfl
  have hopen : s.pool.WithoutShutdown
      (.push k (.dispatch s.serving.dispatchers.slaves.length)) := trivial
  have hcounted := SlaveLoops.loops_step hopen (fun _ h => by cases h) hpushed
  refine ⟨h.serving.step (a := .addSlaveDispatcher 1) trivial hround, fun d hd => ?_,
    Pool.working_step s.pool _ pool h.working hopen hpushed, ?_, ?_, fun _ => ⟨hstop, henabled⟩⟩
  · cases List.mem_append.mp hd with
    | inl hold => exact h.master d hold
    | inr hnew =>
      cases List.mem_singleton.mp hnew
      rfl
  · cases Pool.step_cases hpushed
    exact h.quiet
  · change SlaveLoops.loops pool = (s.serving.dispatchers.slaves ++ [Dispatcher.create]).length
    rw [hcounted, h.counted, List.length_append]
    rfl

omit [DecidableEq W] [DecidableEq K] in
theorem dispatching_of_loops_eq_zero {pool : Pool W K Job} (h : SlaveLoops.loops pool = 0) (w : W) :
    dispatching (pool.worker w) = false := by
  rw [SlaveLoops.loops, Nat.add_eq_zero_iff] at h
  have hzero := Finset.sum_eq_zero_iff.mp h.1 w (Finset.mem_univ w)
  cases hw : dispatching (pool.worker w) with
  | false => rfl
  | true =>
    rw [hw] at hzero
    cases hzero

/-- Before `Shutdown` the slaves are there, and their loops do not return. -/
theorem Before.pool (h : s.Before A) {a : ThreadPool.Action W K Job} {pool : Pool W K Job}
    (hphase : s.phase = .idle) (henabled : s.Enabled a)
    (hmoved : (Pool.machine W K Job).step s.pool a = some pool) :
    ({ s with pool := pool } : Teardown W K).Before A := by
  have hopen : s.pool.WithoutShutdown a := by
    cases a with
    | setStop | mark | notifyAll | join =>
      have hpool : s.phase = .pool := henabled
      rw [hphase] at hpool
      cases hpool
    | _ => trivial
  have hfinish (w : W) (heq : a = .finish w) : dispatching (s.pool.worker w) = false := by
    subst heq
    rw [Bool.eq_false_iff]
    intro hloop
    have hnone : s.serving.dispatchers.slaves = [] := List.isEmpty_iff.mp (henabled hloop).2
    have hcounted := h.counted
    rw [hnone] at hcounted
    have hquiet := dispatching_of_loops_eq_zero hcounted w
    rw [hloop] at hquiet
    cases hquiet
  have hcounted := SlaveLoops.loops_step hopen hfinish hmoved
  refine ⟨h.serving, h.master, Pool.working_step s.pool a pool h.working hopen hmoved, ?_, ?_,
    h.adding⟩
  · cases Pool.step_cases hmoved with
    | setStop | mark | notifyAll | join => exact hopen.elim
    | _ => exact h.quiet
  · rw [hcounted]
    cases a with
    | push k task =>
      have hhandler : task.isDispatch = false := henabled
      simp only [hhandler, Bool.toNat_false, Nat.add_zero]
      exact h.counted
    | _ => exact h.counted

theorem before_step : (machine A W K).Preserves Orderly fun s => s.phase = .idle → s.Before A := by
  intro s e s' h hc hstep hphase
  cases step_cases hstep with
  | addSlaveDispatcher hfree henabled =>
    have hbefore := h hphase
    exact ⟨hbefore.serving, hbefore.master, hbefore.working, hbefore.quiet, hbefore.counted,
      henabled⟩
  | shutdown => exact absurd hphase s.phase_shutdown
  | call hfree hplain hfixed hcalled => exact (h hphase).call hfree hc hplain hfixed hcalled
  | addSlave hadding hpushed => exact (h hphase).addSlave hadding hpushed
  | wait | report =>
    have hbefore := h hphase
    exact ⟨hbefore.serving, hbefore.master, hbefore.working, hbefore.quiet, hbefore.counted,
      hbefore.adding⟩
  | pool henabled hmoved => exact (h hphase).pool hphase henabled hmoved
  | conclude => cases hphase

theorem before_of_reachable (h : (machine A W K).ReachableUnder Orderly s)
    (hphase : s.phase = .idle) : s.Before A := by
  refine h.invariant ?_ before_step hphase
  rintro s rfl _
  exact initial_before

/-- What the events do to the pool is a run of the pool. -/
theorem pool_of_reachable (h : (machine A W K).ReachableUnder Orderly s) :
    s.pool.Safe ∧ s.pool.Draining := by
  refine Pool.draining_of_reachable (h.project Teardown.pool ?_ ?_)
  · rintro s rfl
    rfl
  · intro s e s' hc hstep
    cases step_cases hstep with
    | addSlaveDispatcher | call | wait | report | conclude => exact .inl rfl
    | shutdown =>
      rw [shutdown]
      split
      · exact .inl rfl
      · split <;> exact .inl rfl
    | @addSlave k n pool _ hpushed =>
      exact .inr ⟨.push k (.dispatch s.serving.dispatchers.slaves.length), trivial, hpushed⟩
    | @pool a pool _ hmoved => exact .inr ⟨a, hc, hmoved⟩

section Loops

variable {pool pool' : Pool W K Job} {a : ThreadPool.Action W K Job} {w : W}

/-- No dispatch loop is queued or under way. -/
structure Loopless (pool : Pool W K Job) : Prop where
  workers : ∀ w, dispatching (pool.worker w) = false
  tasks : ∀ task ∈ pool.tasks, task.isDispatch = false

omit [DecidableEq W] [DecidableEq K] in
theorem loopless_of_loops_eq_zero (h : SlaveLoops.loops pool = 0) : Loopless pool where
  workers := dispatching_of_loops_eq_zero h
  tasks task hmem := by
    rw [SlaveLoops.loops, Nat.add_eq_zero_iff] at h
    exact Bool.eq_false_iff.mpr (List.countP_eq_zero.mp h.2 task hmem)

omit [DecidableEq K] [Fintype W] in
theorem Loopless.goto (h : Loopless pool) {pc : ThreadPool.WorkerPc Job}
    (hpc : dispatching pc = false) : Loopless (pool.goto w pc) where
  workers v := by
    rcases eq_or_ne v w with rfl | hne
    · rw [Pool.worker_goto_self, hpc]
    · rw [Pool.worker_goto_of_ne hne, h.workers]
  tasks := h.tasks

theorem Loopless.step (h : Loopless pool)
    (hpush : ∀ k task, a = .push k task → task.isDispatch = false)
    (hstep : (Pool.machine W K Job).step pool a = some pool') : Loopless pool' := by
  have hsame {p : Pool W K Job} (hworker : p.worker = pool.worker) (htasks : p.tasks = pool.tasks) :
      Loopless p := ⟨fun w => hworker ▸ h.workers w, fun task hmem => h.tasks task (htasks ▸ hmem)⟩
  cases Pool.step_cases hstep with
  | findEntry | findNone | testActive | testExit | block | leave | wake | finish => exact h.goto rfl
  | @clear w => exact (hsame (p := pool.setStat w .EMPTY) rfl rfl).goto rfl
  | popEmpty => exact (hsame (p := { pool with emptyPop := true }) rfl rfl).goto rfl
  | @pop w task tasks _ hqueued =>
    have hrest : Loopless ({ pool with tasks := tasks }.setStat w .ACTIVE) :=
      ⟨h.workers, fun t hmem => h.tasks t (hqueued ▸ List.mem_cons_of_mem task hmem)⟩
    exact hrest.goto (h.tasks task (hqueued ▸ List.mem_cons_self ..))
  | @push k task =>
    refine ⟨h.workers, fun t hmem => ?_⟩
    cases List.mem_append.mp hmem with
    | inl hold => exact h.tasks t hold
    | inr hnew =>
      cases List.mem_singleton.mp hnew
      exact hpush k task rfl
  | @notifyBlocked k =>
    have hnotified := hsame (p := { pool with caller := Function.update pool.caller k .idle })
    exact (hnotified rfl rfl).goto rfl
  | notifyNone | setStop | join => exact hsame rfl rfl
  | mark => exact ⟨h.workers, nofun⟩
  | notifyAll =>
    refine ⟨fun w => ?_, h.tasks⟩
    change dispatching (if (pool.worker w).isBlocked then .lock else pool.worker w) = false
    split
    · rfl
    · exact h.workers w

/-- Only its end takes a worker out of a dispatch loop. -/
theorem dispatching_step (hloop : dispatching (pool.worker w) = true) (hfinish : a ≠ .finish w)
    (hstep : (Pool.machine W K Job).step pool a = some pool') :
    dispatching (pool'.worker w) = true := by
  have hother {v : W} {pc pc' : ThreadPool.WorkerPc Job} (hv : pool.worker v = pc)
      (hpc : dispatching pc = false) :
      dispatching (Function.update pool.worker v pc' w) = true := by
    have hne : w ≠ v := by
      rintro rfl
      rw [hv, hpc] at hloop
      cases hloop
    rw [Function.update_of_ne hne]
    exact hloop
  cases Pool.step_cases hstep with
  | findEntry hv | findNone hv | testActive hv | testExit hv | clear hv | block hv | leave hv
  | popEmpty hv | pop hv | wake hv | notifyBlocked _ hv => exact hother hv rfl
  | @finish v =>
    have hne : w ≠ v := fun heq => hfinish (heq ▸ rfl)
    rw [Pool.worker_goto_of_ne hne]
    exact hloop
  | push | notifyNone | setStop | mark | join => exact hloop
  | notifyAll =>
    change dispatching (if (pool.worker w).isBlocked then .lock else pool.worker w) = true
    split
    · rename_i hblocked
      rw [WorkerPc.eq_blocked hblocked] at hloop
      cases hloop
    · exact hloop

/-- A step of a worker that ends no dispatch loop. -/
def Harmless (pool : Pool W K Job) (a : ThreadPool.Action W K Job) : Prop :=
  a.ofWorker = true ∧ ∀ w, a = .finish w → dispatching (pool.worker w) = false

/-- The pool before its shutdown, with a dispatch loop in it. -/
structure Looping (pool : Pool W K Job) : Prop where
  working : pool.Working ∧ pool.Listed
  quiet : pool.shutdown = .idle
  loops : 0 < SlaveLoops.loops pool

theorem Looping.step (h : Looping pool) (ha : Harmless pool a)
    (hstep : (Pool.machine W K Job).step pool a = some pool') : Looping pool' := by
  have hopen : pool.WithoutShutdown a := by
    cases a with
    | setStop | mark | notifyAll | join => cases ha.1
    | _ => trivial
  have hcounted := SlaveLoops.loops_step hopen ha.2 hstep
  refine ⟨Pool.working_step pool a pool' h.working hopen hstep, ?_, ?_⟩
  · cases Pool.step_cases hstep with
    | setStop | mark | notifyAll | join => cases ha.1
    | _ => exact h.quiet
  · rw [hcounted]
    exact Nat.lt_of_lt_of_le h.loops (Nat.le_add_right ..)

/-- How far a worker is from the front of the queue. -/
def toQueue : ThreadPool.WorkerPc Job → Nat
  | .exited => 0
  | .lock => 1
  | .clear | .blocked => 2
  | .test => 3
  | .start | .run _ => 4

/-- A worker that runs no dispatch loop works itself through to the first one in the queue. -/
theorem Looping.can_take [Nonempty W] (h : Looping pool) :
    (Pool.machine W K Job).CanReach Harmless
      (fun pool => Looping pool ∧ ∃ w, dispatching (pool.worker w) = true) pool := by
  obtain ⟨w⟩ := ‹Nonempty W›
  refine Machine.CanReach.of_rank
    (fun pool => 6 * pool.tasks.length + toQueue (pool.worker w))
    (fun pool h hnone => ?_) h
  have hfree (v : W) : dispatching (pool.worker v) = false :=
    Bool.eq_false_iff.mpr fun hloop => hnone ⟨v, hloop⟩
  have hidle : SlaveLoops.busy pool = 0 :=
    Finset.sum_eq_zero fun v _ => congrArg Bool.toNat (hfree v)
  have hqueued : pool.tasks ≠ [] := by
    intro hnil
    have hloops := h.loops
    rw [SlaveLoops.loops, hidle, hnil] at hloops
    exact Nat.lt_irrefl 0 hloops
  have hmove {a : ThreadPool.Action W K Job} {p : Pool W K Job} (ha : a.ofWorker = true)
      (hstep : (Pool.machine W K Job).step pool a = some p)
      (hrank : 6 * p.tasks.length + toQueue (p.worker w) <
        6 * pool.tasks.length + toQueue (pool.worker w)) :
      ∃ a p, Harmless pool a ∧ (Pool.machine W K Job).step pool a = some p ∧
        Looping p ∧ 6 * p.tasks.length + toQueue (p.worker w) <
          6 * pool.tasks.length + toQueue (pool.worker w) :=
    ⟨a, p, ⟨ha, fun v _ => hfree v⟩, hstep, h.step ⟨ha, fun v _ => hfree v⟩ hstep, hrank⟩
  have hgoto {pc : ThreadPool.WorkerPc Job} (hlt : toQueue pc < toQueue (pool.worker w)) :
      6 * pool.tasks.length + toQueue ((pool.goto w pc).worker w) <
        6 * pool.tasks.length + toQueue (pool.worker w) := by
    rw [Pool.worker_goto_self]
    omega
  obtain ⟨pc, hpc⟩ : ∃ pc, pool.worker w = pc := ⟨_, rfl⟩
  cases pc with
  | start =>
    refine hmove (a := .find w) rfl (Pool.step_find hpc (h.working.2 w)) (hgoto ?_)
    rw [hpc]
    decide
  | test =>
    have hactive : pool.workerStat w = some .ACTIVE := h.working.1.stat hpc (fun h => by cases h)
    refine hmove (a := .test w) rfl (Pool.step_test hpc hactive) (hgoto ?_)
    rw [hpc]
    decide
  | clear =>
    refine hmove (a := .clear w) (p := (pool.setStat w .EMPTY).goto w .lock) rfl ?_ (hgoto ?_)
    · simp only [Pool.machine, Pool.step, hpc]
    · rw [hpc]
      decide
  | lock =>
    have hstat : pool.workerStat w = some .EMPTY := h.working.1.stat hpc (fun h => by cases h)
    obtain ⟨task, tasks, htasks⟩ := List.exists_cons_of_ne_nil hqueued
    refine hmove (a := .queue w)
      (p := ({ pool with tasks := tasks }.setStat w .ACTIVE).goto w (.run task)) rfl ?_ ?_
    · simp [Pool.machine, Pool.step, hpc, Pool.queueSection, htasks, hstat]
    · rw [Pool.worker_goto_self, htasks, hpc, List.length_cons]
      simp only [Pool.goto, Pool.setStat, toQueue]
      omega
  | blocked =>
    refine hmove (a := .wake w) (p := pool.goto w .lock) rfl ?_ (hgoto ?_)
    · simp only [Pool.machine, Pool.step, hpc]
    · rw [hpc]
      decide
  | run task =>
    refine hmove (a := .finish w) (p := pool.goto w .test) rfl ?_ (hgoto ?_)
    · simp only [Pool.machine, Pool.step, hpc]
    · rw [hpc]
      simp only [toQueue]
      omega
  | exited => exact absurd hpc (h.working.1.looping w)

end Loops

section Call

variable {c before : Serving}

/-- `Shutdown` has come to the shutdown of the pool. -/
structure Closing (c : Serving) (s : Teardown W K) : Prop where
  phase : s.phase = .pool
  adding : s.adding = 0
  serving : s.serving = c

structure Returned (c : Serving) (s : Teardown W K) : Prop where
  phase : s.phase = .returned
  adding : s.adding = 0
  serving : s.serving = c

omit [DecidableEq W] [DecidableEq K] [Fintype W] in
theorem not_free (hphase : s.phase ≠ .idle) : ¬ s.Free := fun hfree => hphase hfree.1

/-- Once `Shutdown` is called, nothing but its own end concerns the dispatchers. -/
theorem called_step (hphase : s.phase ≠ .idle) (hadding : s.adding = 0)
    (hstep : (machine A W K).step s e = some s') :
    (s'.phase = s.phase ∧ s'.adding = 0 ∧ s'.serving = s.serving) ∨
      (s.phase = .pool ∧ s'.phase = .returned ∧ s'.adding = 0 ∧
        s'.serving = s.serving.inactivate.closeEpoll) := by
  cases step_cases hstep with
  | addSlaveDispatcher hfree | shutdown hfree | call hfree => exact absurd hfree (not_free hphase)
  | addSlave hcount => cases hadding.symm.trans hcount
  | wait | report | pool => exact .inl ⟨rfl, hadding, rfl⟩
  | conclude hpool => exact .inr ⟨hpool, rfl, hadding, rfl⟩

theorem Returned.step (h : s.Returned c) (hstep : (machine A W K).step s e = some s') :
    s'.Returned c := by
  have hcalled : s.phase ≠ .idle := by rw [h.phase]; nofun
  rcases called_step hcalled h.adding hstep with ⟨hphase, hadding, hserving⟩ | ⟨hpool, _⟩
  · exact ⟨hphase.trans h.phase, hadding, hserving.trans h.serving⟩
  · cases h.phase.symm.trans hpool

theorem Closing.step (h : s.Closing c) (hstep : (machine A W K).step s e = some s') :
    s'.Closing c ∨ s'.Returned c.inactivate.closeEpoll := by
  have hcalled : s.phase ≠ .idle := by rw [h.phase]; nofun
  rcases called_step hcalled h.adding hstep with
    ⟨hphase, hadding, hserving⟩ | ⟨_, hphase, hadding, hserving⟩
  · exact .inl ⟨hphase.trans h.phase, hadding, hserving.trans h.serving⟩
  · rw [h.serving] at hserving
    exact .inr ⟨hphase, hadding, hserving⟩

/-- The events of the pool that its own machine can take. -/
theorem Closing.pool_step (h : s.Closing c) {a : ThreadPool.Action W K Job} {pool : Pool W K Job}
    (henabled : s.Enabled a) (hmoved : (Pool.machine W K Job).step s.pool a = some pool) :
    (machine A W K).step s (.pool a) = some { s with pool := pool } ∧
      ({ s with pool := pool } : Teardown W K).Closing c := by
  refine ⟨?_, h.phase, h.adding, h.serving⟩
  simp only [machine, Teardown.step, if_pos henabled, hmoved, Option.map_some]

/-- With no dispatch loop in it the pool can be joined. -/
theorem Closing.can_return (h : s.Closing c) (hpool : s.pool.Safe ∧ s.pool.Draining)
    (hloopless : Loopless s.pool) :
    (machine A W K).CanReach Orderly (fun s => s.phase = .returned) s := by
  have hjoined : (machine A W K).CanReach Orderly (fun t => ∃ pool,
      (t.pool = pool ∧ t.Closing c ∧ Loopless pool) ∧ pool.shutdown = .returned) s :=
    (Pool.can_return hpool.1 hpool.2).lift (f := .pool)
    (fun pool t a pool' ⟨heq, ht, hloopless⟩ ha hmoved => by
      subst heq
      have henabled : t.Enabled a := by
        cases a with
        | push => cases ha.2
        | finish w =>
          intro hloop
          rw [hloopless.workers w] at hloop
          cases hloop
        | setStop | mark | notifyAll | join => exact ht.phase
        | find | test | clear | queue | wake | notifyOne => trivial
      have hlater : Loopless pool' := by
        refine hloopless.step (fun k task heq => ?_) hmoved
        subst heq
        cases ha.2
      obtain ⟨hstep, hclosing⟩ := ht.pool_step (A := A) henabled hmoved
      exact ⟨_, ha.1, hstep, rfl, hclosing, hlater⟩) ⟨rfl, h, hloopless⟩
  refine hjoined.trans fun t ⟨pool, ⟨heq, ht, _⟩, hreturned⟩ => ?_
  subst heq
  have hconclude : (machine A W K).step t .conclude =
      some { t with serving := t.serving.inactivate.closeEpoll, phase := .returned } :=
    if_pos ⟨ht.phase, hreturned⟩
  exact .step (a := .conclude) trivial hconclude (.here rfl)

/-- `Shutdown` joins a worker that waits for a slave whose `_stop` nobody sets, or for one that is
gone. -/
structure Stuck (w : W) (s : Teardown W K) : Prop where
  phase : s.phase = .pool
  adding : s.adding = 0
  loop : dispatching (s.pool.worker w) = true
  held : s.gone = true → s.waiting w = true
  joining : s.pool.shutdown ≠ .returned

theorem Stuck.step {w : W} (h : s.Stuck w) (hstep : (machine A W K).step s e = some s') :
    s'.Stuck w := by
  have hcalled : s.phase ≠ .idle := by rw [h.phase]; nofun
  cases step_cases hstep with
  | addSlaveDispatcher hfree | shutdown hfree | call hfree => exact absurd hfree (not_free hcalled)
  | addSlave hadding => cases h.adding.symm.trans hadding
  | @wait v =>
    refine ⟨h.phase, h.adding, h.loop, fun hgone => ?_, h.joining⟩
    rcases eq_or_ne w v with rfl | hne
    · exact Function.update_self ..
    · exact (Function.update_of_ne hne ..).trans (h.held hgone)
  | report hthere =>
    refine ⟨h.phase, h.adding, h.loop, fun hgone => ?_, h.joining⟩
    cases hthere.symm.trans hgone
  | @pool a pool henabled hmoved =>
    have hfinish : a ≠ .finish w := by
      rintro rfl
      obtain ⟨hawake, hgone⟩ := henabled h.loop
      cases hawake.symm.trans (h.held hgone)
    refine ⟨h.phase, h.adding, dispatching_step h.loop hfinish hmoved, h.held, ?_⟩
    cases Pool.step_cases hmoved with
    | join _ hexited =>
      have hloop := h.loop
      rw [hexited w] at hloop
      cases hloop
    | setStop | mark | notifyAll => nofun
    | _ => exact h.joining
  | conclude _ hjoined => exact absurd hjoined h.joining

theorem Stuck.not_canReach {w : W} (h : s.Stuck w)
    {cond : Teardown W K → Event W K → Prop} :
    ¬ (machine A W K).CanReach cond (fun s => s.phase = .returned) s :=
  Machine.not_canReach (fun _ _ _ (h : Stuck w _) hstep => h.step hstep)
    (fun s h hreturned => by cases h.phase.symm.trans hreturned) h

omit [DecidableEq W] [DecidableEq K] in
theorem Looping.orderly {pool : Pool W K Job} {a : ThreadPool.Action W K Job} (h : Looping pool)
    (ha : a.ofWorker = true) : pool.Orderly a := by
  cases a with
  | mark => cases ha
  | queue => exact fun hstopped => nomatch h.quiet.symm.trans hstopped
  | _ => trivial

/-- With a dispatch loop in it the pool may never be joined. -/
theorem Closing.can_stick [Nonempty W] (h : s.Closing c) (hlooping : Looping s.pool) :
    (machine A W K).CanReach Orderly (fun s => ∃ w, s.Stuck w) s := by
  have htaken : (machine A W K).CanReach Orderly (fun t => ∃ pool,
      (t.pool = pool ∧ t.Closing c ∧ Looping pool) ∧
        Looping pool ∧ ∃ w, dispatching (pool.worker w) = true) s :=
    hlooping.can_take.lift (f := .pool)
    (fun pool t a pool' ⟨heq, ht, hlooping⟩ ha hmoved => by
      subst heq
      have henabled : t.Enabled a := by
        cases a with
        | push | notifyOne | setStop | mark | notifyAll | join => cases ha.1
        | finish w =>
          intro hloop
          rw [ha.2 w rfl] at hloop
          cases hloop
        | find | test | clear | queue | wake => trivial
      obtain ⟨hstep, hclosing⟩ := ht.pool_step (A := A) henabled hmoved
      exact ⟨_, hlooping.orderly ha.1, hstep, rfl, hclosing, hlooping.step ha hmoved⟩)
    ⟨rfl, h, hlooping⟩
  refine htaken.trans fun t ⟨pool, ⟨heq, ht, hlooping⟩, _, w, hloop⟩ => ?_
  subst heq
  have hjoining : t.pool.shutdown ≠ .returned := fun hreturned =>
    nomatch hlooping.quiet.symm.trans hreturned
  cases hwaiting : t.waiting w with
  | true => exact .here ⟨w, ht.phase, ht.adding, hloop, fun _ => hwaiting, hjoining⟩
  | false =>
    have hwait : (machine A W K).step t (.wait w) =
        some { t with waiting := Function.update t.waiting w true } := by
      simp only [machine, Teardown.step, hloop, hwaiting, Bool.not_false, Bool.and_self, if_true]
    exact .step (a := .wait w) trivial hwait
      (.here ⟨w, ht.phase, ht.adding, hloop, fun _ => Function.update_self .., hjoining⟩)

/-- However it goes on, `Shutdown` can return, and what it has done by then is complete. -/
structure Completes (A : Text.Allocator) (before : Serving) (s : Teardown W K) : Prop where
  returns : ∀ es s', (machine A W K).run s es = some s' → (machine A W K).AllSteps Orderly s es →
    (machine A W K).CanReach Orderly (fun s => s.phase = .returned) s'
  complete : ∀ es s', (machine A W K).run s es = some s' → (machine A W K).AllSteps Orderly s es →
    s'.phase = .returned → before.ShutDown s'.serving

theorem Returned.completes_iff (h : s.Returned c) :
    s.Completes A before ↔ before.ShutDown c := by
  have hstays : (machine A W K).Preserves Orderly (Returned c) :=
    fun _ _ _ h _ hstep => h.step hstep
  constructor
  · intro hall
    rw [← h.serving]
    exact hall.complete [] s rfl trivial h.phase
  · intro hshut
    refine ⟨fun es s' hrun hall => .here (hall.invariant hstays h hrun).phase,
      fun es s' hrun hall _ => ?_⟩
    rw [(hall.invariant hstays h hrun).serving]
    exact hshut

/-- No dispatch loop is added after `Shutdown` has been called. -/
theorem Closing.loopless_step (h : s.Closing c) (hloopless : Loopless s.pool)
    (hstep : (machine A W K).step s e = some s') : Loopless s'.pool := by
  cases step_cases hstep with
  | addSlave hadding => cases h.adding.symm.trans hadding
  | pool henabled hmoved =>
    refine hloopless.step (fun k task heq => ?_) hmoved
    subst heq
    exact henabled
  | shutdown hfree => cases h.phase.symm.trans hfree.1
  | addSlaveDispatcher | call | wait | report | conclude => exact hloopless

theorem Closing.completes (h : s.Closing c) (hreachable : (machine A W K).ReachableUnder Orderly s)
    (hloopless : Loopless s.pool) (hshut : before.ShutDown c.inactivate.closeEpoll) :
    s.Completes A before := by
  have hends : (machine A W K).Preserves Orderly fun s =>
      (s.Closing c ∧ Loopless s.pool) ∨ s.Returned c.inactivate.closeEpoll := by
    intro s e s' h _ hstep
    cases h with
    | inl h =>
      have hlater := h.1.loopless_step h.2 hstep
      exact (h.1.step hstep).imp_left fun hclosing => ⟨hclosing, hlater⟩
    | inr h => exact .inr (h.step hstep)
  constructor
  · intro es s' hrun hall
    have hpool := pool_of_reachable (hreachable.of_allSteps hall hrun)
    cases hall.invariant hends (.inl ⟨h, hloopless⟩) hrun with
    | inl hclosing => exact hclosing.1.can_return hpool hclosing.2
    | inr hreturned => exact .here hreturned.phase
  · intro es s' hrun hall hphase
    cases hall.invariant hends (.inl ⟨h, hloopless⟩) hrun with
    | inl hclosing => cases hclosing.1.phase.symm.trans hphase
    | inr hreturned =>
      rw [hreturned.serving]
      exact hshut

theorem Closing.not_completes [Nonempty W] (h : s.Closing c) (hlooping : Looping s.pool) :
    ¬ s.Completes A before := by
  intro hall
  obtain ⟨es, s', hrun, horderly, w, hstuck⟩ := (h.can_stick (A := A) hlooping).exists_run
  exact hstuck.not_canReach (hall.returns es s' hrun horderly)

omit [DecidableEq W] [DecidableEq K] in
theorem Before.running (h : s.Before A) : s.serving.Running :=
  Serving.running_of_reachable h.serving

omit [DecidableEq W] [DecidableEq K] in
theorem Before.closing_shutdown (h : s.Before A) (hfree : s.Free)
    (hmaster : s.serving.dispatchers.master.masterfd ≠ 0) :
    s.shutdown = { s with serving := s.serving.stopAll, phase := .pool } ∧
      s.shutdown.Closing s.serving.stopAll ∧
      s.serving.shutdown = s.serving.stopAll.inactivate.closeEpoll := by
  have hstop : s.serving.dispatchers.master.stop = false := h.running.running 0 _ rfl
  have heq : s.shutdown = { s with serving := s.serving.stopAll, phase := .pool } := by
    rw [shutdown, hstop, if_neg Bool.false_ne_true, if_pos hmaster]
  refine ⟨heq, ?_, ?_⟩
  · rw [heq]
    exact ⟨rfl, hfree.2, rfl⟩
  · rw [Serving.shutdown_eq hstop h.master, if_pos hmaster]

omit [DecidableEq W] [DecidableEq K] in
theorem Before.returned_shutdown (h : s.Before A) (hfree : s.Free)
    (hmaster : s.serving.dispatchers.master.masterfd = 0) :
    s.shutdown.Returned s.serving.shutdown := by
  have hstop : s.serving.dispatchers.master.stop = false := h.running.running 0 _ rfl
  have heq : s.shutdown =
      { s with serving := s.serving.stopAll.closeEpoll, phase := .returned } := by
    rw [shutdown, hstop, if_neg Bool.false_ne_true, if_neg (not_not.mpr hmaster)]
  rw [heq, Serving.shutdown_eq hstop h.master, if_neg (not_not.mpr hmaster)]
  exact ⟨rfl, hfree.2, rfl⟩

omit [DecidableEq W] [DecidableEq K] in
theorem Before.looping (h : s.Before A) (hslaves : s.serving.dispatchers.slaves ≠ []) :
    Looping s.pool where
  working := h.working
  quiet := h.quiet
  loops := by
    rw [h.counted]
    exact List.length_pos_iff.mpr hslaves

/-- `Shutdown` does all that it is there for, and returns, exactly if there is a master descriptor
and no slave, or no master descriptor, no slave that it passes over and no connection. -/
theorem shutdown_completes_iff (A : Text.Allocator) [Nonempty W] (s s' : Teardown W K)
    (h : (machine A W K).ReachableUnder Orderly s)
    (hcall : (machine A W K).step s (.call .shutdown) = some s') :
    s'.Completes A s.serving ↔
      (s.serving.dispatchers.master.masterfd ≠ 0 ∧ s.serving.dispatchers.slaves = []) ∨
      (s.serving.dispatchers.master.masterfd = 0 ∧
        (s.serving.dispatchers.master.enableSlave = true ∨ s.serving.dispatchers.slaves = []) ∧
        ∀ fd c, s.serving.allChannel fd = some c → fd ≤ 0) := by
  cases step_cases hcall with
  | call _ hplain => exact absurd rfl hplain
  | shutdown hfree =>
    have hbefore : s.Before A := before_of_reachable h hfree.1
    have hshut := Serving.shutDown_shutdown_iff A s.serving hbefore.serving
    have hclears := Dispatchers.clears_iff hbefore.master
    by_cases hmaster : s.serving.dispatchers.master.masterfd = 0
    · have hkeeps : ¬ s.serving.dispatchers.clears = true := fun hclear => hclears.mp hclear hmaster
      rw [(hbefore.returned_shutdown hfree hmaster).completes_iff, hshut, or_iff_right hkeeps]
      simp only [hmaster, ne_eq, not_true_eq_false, false_and, true_and, false_or]
    · obtain ⟨heq, hclosing, hlast⟩ := hbefore.closing_shutdown hfree hmaster
      have hpool : s.shutdown.pool = s.pool := by rw [heq]
      by_cases hslaves : s.serving.dispatchers.slaves = []
      · have hloops : SlaveLoops.loops s.pool = 0 := by
          rw [hbefore.counted, hslaves]
          rfl
        refine iff_of_true ?_ (.inl ⟨hmaster, hslaves⟩)
        refine hclosing.completes (h.step (a := .call .shutdown) trivial hcall) ?_ ?_
        · rw [hpool]
          exact loopless_of_loops_eq_zero hloops
        · rw [← hlast]
          exact hshut.mpr ⟨.inr hslaves, .inl (hclears.mpr hmaster)⟩
      · refine iff_of_false (hclosing.not_completes ?_) ?_
        · rw [hpool]
          exact hbefore.looping hslaves
        · rintro (⟨_, hnone⟩ | ⟨hzero, _⟩)
          · exact hslaves hnone
          · exact hmaster hzero

theorem shutdown_completes_iff_connection : ∃ s s' : Teardown Unit Unit,
    (machine .doubling Unit Unit).run (initial .doubling)
      [.call (.setMasterFD 0 3 true), .call (.handleNewConnection 5 true)] = some s ∧
    (machine .doubling Unit Unit).step s (.call .shutdown) = some s' ∧
    s'.Completes .doubling s.serving := by
  obtain ⟨s, s', hrun, hcall, hunder, hmaster, hslaves⟩ : ∃ s s' : Teardown Unit Unit,
      (machine .doubling Unit Unit).run (initial .doubling)
        [.call (.setMasterFD 0 3 true), .call (.handleNewConnection 5 true)] = some s ∧
      (machine .doubling Unit Unit).step s (.call .shutdown) = some s' ∧
      (machine .doubling Unit Unit).runUnder Orderly (initial .doubling)
        [.call (.setMasterFD 0 3 true), .call (.handleNewConnection 5 true)] = some s ∧
      s.serving.dispatchers.master.masterfd = 3 ∧ s.serving.dispatchers.slaves = [] :=
    ⟨_, _, rfl, rfl, rfl, rfl, rfl⟩
  refine ⟨s, s', hrun, hcall, ?_⟩
  refine (shutdown_completes_iff .doubling s s' (Machine.reachableUnder_of_runUnder rfl hunder)
    hcall).mpr (.inl ⟨?_, hslaves⟩)
  rw [hmaster]
  decide

/-- A slave is left running if slaves are disabled again, a channel is left active if there is no
master descriptor, and `Shutdown` does not return from a pool with a slave's dispatch loop. -/
theorem shutdown_incomplete :
    (∃ s s' : Teardown Unit Unit, (machine .doubling Unit Unit).run (initial .doubling)
        [.call (.enableSlave true), .call (.addSlaveDispatcher 1), .addSlave (),
          .call (.enableSlave false)] = some s ∧
      (machine .doubling Unit Unit).step s (.call .shutdown) = some s' ∧ s'.phase = .returned ∧
      ¬ s.serving.ShutDown s'.serving) ∧
    (∃ s s' : Teardown Unit Unit, (machine .doubling Unit Unit).run (initial .doubling)
        [.call (.handleNewConnection 5 true)] = some s ∧
      (machine .doubling Unit Unit).step s (.call .shutdown) = some s' ∧ s'.phase = .returned ∧
      ¬ s.serving.ShutDown s'.serving) ∧
    ∃ s s' : Teardown Unit Unit, (machine .doubling Unit Unit).run (initial .doubling)
        [.call (.setMasterFD 0 3 true), .call (.enableSlave true), .call (.addSlaveDispatcher 1),
          .addSlave (), .call (.handleNewConnection 5 true), .pool (.find ()), .pool (.test ()),
          .pool (.clear ()), .pool (.queue ()), .wait ()] = some s ∧
      (machine .doubling Unit Unit).step s (.call .shutdown) = some s' ∧
      ¬ s.serving.ShutDown s'.serving ∧
      ¬ (machine .doubling Unit Unit).CanReach (fun _ _ => True)
        (fun s => s.phase = .returned) s' := by
  refine ⟨⟨_, _, rfl, rfl, rfl, fun h => ?_⟩, ⟨_, _, rfl, rfl, rfl, fun h => ?_⟩,
    ⟨_, _, rfl, rfl, fun h => ?_, Stuck.not_canReach (w := ()) ?_⟩⟩
  · exact Bool.false_ne_true (h.stopped _ (List.mem_singleton_self _))
  · exact Bool.false_ne_true (h.inactive 0 (by decide)).symm
  · exact Bool.false_ne_true (h.inactive 0 (by decide)).symm
  · exact ⟨rfl, rfl, rfl, fun _ => rfl, nofun⟩

end Call

end Teardown

end ServerDevLib.Reactor
