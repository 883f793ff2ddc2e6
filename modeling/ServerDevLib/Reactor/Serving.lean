import ServerDevLib.Reactor.Dispatch

/-!
# The calls of a dispatcher and its slaves

The state has everything that the member functions of the master and its slaves
read and write, and each call of one of them is a step. `HandleUnexpected` is
called by a dispatch loop for a descriptor whose handler it has found. What
`epoll_ctl` returns is part of the call. `RemoveHandler` reads the node of
`_allChannel` after it has erased it, which the language leaves undefined: the
channel that it makes inactive there, if any, is part of the call as well.

A map that `ExtractExistedChannel` has returned stays with the application
until it is given back, and `former` has the slaves that `Shutdown` has let go.
The application opens and closes descriptors of its own. A call of `Shutdown`
here is one that returns; what it does before it shuts the pool down and what
after that is told apart in `PoolShutdown`.
-/

namespace ServerDevLib.Reactor

open Transition

structure Serving where
  dispatchers : Dispatchers
  waitToRemovedChannel : Nat → List Int
  extracted : List ChannelMap
  pendingFn : Nat → List Nat
  former : List Dispatcher

namespace Dispatchers

/-- The dispatcher that `HandleNewConnection` registers the connection with. -/
def assignee (s : Dispatchers) : Nat :=
  if !s.master.enableSlave || s.slaves.length = 0 then 0 else dispatchToSlave s.slaves.length + 1

/-- The erasure in `RemoveHandler`, followed by the read of the erased node. -/
def eraseChannel (s : Dispatchers) (fd : Int) (stale : Option Nat) : Dispatchers :=
  match s.allChannel fd, stale with
  | none, _ => s
  | some _, none => { s with allChannel := s.allChannel.erase fd }
  | some _, some c => { s.setChan c (s.chan c).inactive with allChannel := s.allChannel.erase fd }

def removeHandler (s : Dispatchers) (i : Nat) (fd : Int) (stale : Option Nat) :
    Option Dispatchers :=
  match s.dispatcher i with
  | some d => some (if d.stop || fd < 0 then s
    else (s.eraseChannel fd stale).modify i fun d => d.eraseHandler fd)
  | none => none

def setMasterFD (s : Dispatchers) (i : Nat) (fd : Int) (ok : Bool) : Dispatchers :=
  if fd < 0 then s
  else s.modify i fun d => { d with masterfd := fd }.registerHandler fd .accept ok

/-- A property of the master and of each of its slaves. -/
def Everywhere (Q : Dispatcher → Prop) (s : Dispatchers) : Prop :=
  ∀ i d, s.dispatcher i = some d → Q d

section Everywhere

variable {Q : Dispatcher → Prop} {s : Dispatchers}

theorem dispatcher_modify (s : Dispatchers) (i j : Nat) (f : Dispatcher → Dispatcher) :
    (s.modify i f).dispatcher j = (s.dispatcher j).map fun d => if i = j then f d else d := by
  cases i with
  | zero =>
    cases j with
    | zero => rfl
    | succ j => exact Option.map_id'.symm
  | succ i =>
    cases j with
    | zero => rfl
    | succ j =>
      simp only [modify, dispatcher, List.getElem?_cons_succ, List.getElem?_modify,
        Nat.add_right_cancel_iff]
      split
      · rfl
      · rfl

theorem dispatcher_close (s : Dispatchers) (fd : Int) (j : Nat) :
    (s.close fd).dispatcher j = (s.dispatcher j).map fun d => d.removeFd fd := by
  cases j with
  | zero => rfl
  | succ j => exact List.getElem?_map ..

theorem dispatcher_dropChannel (s : Dispatchers) (fd : Int) (j : Nat) :
    (s.dropChannel fd).dispatcher j = s.dispatcher j := by
  rw [dropChannel]
  split <;> rfl

theorem dispatcher_eraseChannel (s : Dispatchers) (fd : Int) (stale : Option Nat) (j : Nat) :
    (s.eraseChannel fd stale).dispatcher j = s.dispatcher j := by
  simp only [eraseChannel]
  split <;> rfl

theorem dispatcher_handleUnexpected (s : Dispatchers) (i : Nat) (fd : Int) (j : Nat) :
    (s.handleUnexpected i fd).dispatcher j = (s.dispatcher j).map fun d =>
      (if i = j then (d.eraseHandler fd).removeFd fd else d).removeFd fd := by
  rw [handleUnexpected, dispatcher_dropChannel, dispatcher_close, dispatcher_modify]
  exact Option.map_map ..

theorem handleNewConnection_eq (A : Text.Allocator) (s : Dispatchers) (fd : Int) (ok : Bool) :
    s.handleNewConnection A fd ok =
      ({ s.setChan s.nextChan (.create A fd (some 0)) with
        nextChan := s.nextChan + 1
        allChannel := s.allChannel.emplace fd s.nextChan } : Dispatchers).modify s.assignee
          fun d => d.registerHandler fd (.events s.nextChan) ok := by
  simp only [handleNewConnection]
  split <;> rename_i hmaster
  · exact congrArg (Dispatchers.modify _ · _) (if_pos hmaster).symm
  · exact congrArg (Dispatchers.modify _ · _) (if_neg hmaster).symm

/-- The connection is registered with one dispatcher, and the others are left alone. -/
theorem dispatcher_handleNewConnection (A : Text.Allocator) (s : Dispatchers) (fd : Int)
    (ok : Bool) (j : Nat) : (s.handleNewConnection A fd ok).dispatcher j =
      (s.dispatcher j).map fun d =>
        if s.assignee = j then d.registerHandler fd (.events s.nextChan) ok else d := by
  rw [handleNewConnection_eq]
  exact dispatcher_modify ..

theorem master_shutdown (hstop : s.master.stop = false) :
    s.shutdown.master = s.master.shutdown := by
  rw [shutdown, hstop, if_neg Bool.false_ne_true]

/-- `Shutdown` lets the slaves go if they are enabled; else they lose what the master closes from
their interest lists. -/
theorem slaves_shutdown (hstop : s.master.stop = false) :
    s.shutdown.slaves = if s.master.enableSlave then []
      else s.slaves.map fun d => d.removeFds fun fd => (s.master.handlers fd).isSome := by
  rw [shutdown, hstop, if_neg Bool.false_ne_true]
  cases henabled : s.master.enableSlave with
  | true => rfl
  | false => simp only [Bool.false_eq_true, if_false, Bool.false_and, Bool.or_false]

theorem everywhere_initial (A : Text.Allocator) (h : Q .create) : (initial A).Everywhere Q := by
  intro i d hd
  cases i with
  | zero =>
    cases hd
    exact h
  | succ i => cases hd

theorem everywhere_master (h : s.Everywhere Q) {d : Dispatcher} (hd : Q d) :
    ({ s with master := d } : Dispatchers).Everywhere Q := by
  intro i d' hd'
  cases i with
  | zero =>
    cases hd'
    exact hd
  | succ i => exact h (i + 1) d' hd'

theorem everywhere_map {t : Dispatchers} {f : Nat → Dispatcher → Dispatcher}
    (ht : ∀ j, t.dispatcher j = (s.dispatcher j).map (f j)) :
    t.Everywhere Q ↔ ∀ j d, s.dispatcher j = some d → Q (f j d) := by
  constructor
  · intro h j d hd
    apply h j
    rw [ht, hd]
    rfl
  · intro hf j d hd
    rw [ht] at hd
    obtain ⟨d', hd', rfl⟩ := Option.map_eq_some_iff.mp hd
    exact hf j d' hd'

theorem everywhere_modify (h : s.Everywhere Q) (i : Nat) (f : Dispatcher → Dispatcher) :
    (s.modify i f).Everywhere Q ↔ ∀ d, s.dispatcher i = some d → Q (f d) := by
  apply (everywhere_map (s.dispatcher_modify i · f)).trans
  constructor
  · intro h' d hd
    have hi := h' i d hd
    rwa [if_pos rfl] at hi
  · intro hf j d hd
    split
    · rename_i hij
      subst hij
      exact hf d hd
    · exact h j d hd

theorem everywhere_handleNewConnection (h : s.Everywhere Q) (A : Text.Allocator) (fd : Int)
    (ok : Bool) : (s.handleNewConnection A fd ok).Everywhere Q ↔
      ∀ d, s.dispatcher s.assignee = some d →
        Q (d.registerHandler fd (.events s.nextChan) ok) := by
  rw [handleNewConnection_eq]
  exact everywhere_modify (s := { s.setChan s.nextChan (.create A fd (some 0)) with
    nextChan := s.nextChan + 1
    allChannel := s.allChannel.emplace fd s.nextChan }) h s.assignee _

theorem everywhere_shutdown (hstop : s.master.stop = false) :
    s.shutdown.Everywhere Q ↔ Q s.master.shutdown ∧ (s.master.enableSlave = false →
      ∀ j d, s.dispatcher (j + 1) = some d →
        Q (d.removeFds fun fd => (s.master.handlers fd).isSome)) := by
  have hmaster : s.shutdown.dispatcher 0 = some s.master.shutdown :=
    congrArg some (master_shutdown hstop)
  have hslaves (j : Nat) : s.shutdown.dispatcher (j + 1) = s.shutdown.slaves[j]? := rfl
  rw [slaves_shutdown hstop] at hslaves
  constructor
  · intro h
    refine ⟨h 0 _ hmaster, fun hdisabled j d hd => h (j + 1) _ ?_⟩
    rw [hslaves, if_neg (Bool.eq_false_iff.mp hdisabled), List.getElem?_map]
    exact congrArg _ hd
  · rintro ⟨h, hdisabled⟩ j d hd
    cases j with
    | zero =>
      obtain rfl := Option.some.inj (hmaster.symm.trans hd)
      exact h
    | succ j =>
      rw [hslaves] at hd
      split at hd
      · cases hd
      · rename_i hnot
        rw [List.getElem?_map] at hd
        obtain ⟨d', hd', rfl⟩ := Option.map_eq_some_iff.mp hd
        exact hdisabled (Bool.eq_false_iff.mpr hnot) j d' hd'

theorem everywhere_append (h : s.Everywhere Q) {n : Nat} :
    ({ s with slaves := s.slaves ++ List.replicate n .create } : Dispatchers).Everywhere Q ↔
      (n ≠ 0 → Q .create) := by
  constructor
  · intro h' hn
    apply h' (s.slaves.length + 1)
    change (s.slaves ++ List.replicate n Dispatcher.create)[s.slaves.length]? = _
    rw [List.getElem?_append_right (Nat.le_refl _), Nat.sub_self, List.getElem?_replicate,
      if_pos (Nat.pos_of_ne_zero hn)]
  · intro hnew i d hd
    cases i with
    | zero => exact h 0 d hd
    | succ i =>
      cases List.mem_append.mp (List.mem_of_getElem? hd) with
      | inl hold =>
        obtain ⟨j, hj⟩ := List.mem_iff_getElem?.mp hold
        exact h (j + 1) d hj
      | inr hadded =>
        obtain ⟨hn, rfl⟩ := List.mem_replicate.mp hadded
        exact hnew hn

theorem everywhere_congr {t : Dispatchers} (ht : ∀ j, t.dispatcher j = s.dispatcher j) :
    t.Everywhere Q ↔ s.Everywhere Q := by
  simp only [Everywhere, ht]

end Everywhere

end Dispatchers

namespace Serving

inductive Call
  | enableSlave (b : Bool)
  | addSlaveDispatcher (n : Int)
  | setMasterFD (i : Nat) (fd : Int) (ok : Bool)
  | registerHandler (i : Nat) (fd : Int) (handler : Handler) (ok : Bool)
  | removeHandler (i : Nat) (fd : Int) (stale : Option Nat)
  | handleNewConnection (fd : Int) (ok : Bool)
  | handleUnexpected (i : Nat) (fd : Int) (events : Events)
  | extractExistedChannel
  | restoreAllChannel (i k : Nat)
  | addPendingFunctor (fn : Nat)
  | shutdown
  | openFd (fd : Int)
  | closeFd (fd : Int)

def dispatcher (s : Serving) (i : Nat) : Option Dispatcher := s.dispatchers.dispatcher i

def allChannel (s : Serving) : ChannelMap := s.dispatchers.allChannel

def handleUnexpected (s : Serving) (i : Nat) (fd : Int) (events : Events) : Serving :=
  if events.unexpected then
    { s with
      dispatchers := s.dispatchers.handleUnexpected i fd
      waitToRemovedChannel := if s.allChannel fd = none then
          Function.update s.waitToRemovedChannel i (s.waitToRemovedChannel i ++ [fd])
        else s.waitToRemovedChannel }
  else s

def extractExistedChannel (s : Serving) : Serving :=
  { s with
    dispatchers := { s.dispatchers with allChannel := fun _ => none }
    extracted := s.extracted ++ [s.allChannel] }

/-- `insert` keeps the channel that is filed under a number already. -/
def restoreAllChannel (s : Serving) (i : Nat) (channels : ChannelMap) : Serving :=
  let channels : ChannelMap := fun fd =>
    if fd ∈ s.waitToRemovedChannel i then none else channels fd
  { s with
    waitToRemovedChannel := Function.update s.waitToRemovedChannel i []
    dispatchers := { s.dispatchers with
      allChannel := fun fd => (s.allChannel fd).or (channels fd) } }

def pend (s : Serving) (i fn : Nat) : Serving :=
  { s with pendingFn := Function.update s.pendingFn i (s.pendingFn i ++ [fn]) }

/-- A slave has no slaves of its own. A remainder by zero has no result. -/
def addPendingFunctor (s : Serving) (fn : Nat) : Option Serving :=
  if !s.dispatchers.master.enableSlave then some (s.pend 0 fn)
  else if s.dispatchers.slaves.length = 0 then none
  else some (s.pend (Dispatchers.dispatchToSlave s.dispatchers.slaves.length + 1) fn)

def shutdown (s : Serving) : Serving :=
  { s with
    dispatchers := s.dispatchers.shutdown
    former := if !s.dispatchers.master.stop && s.dispatchers.master.enableSlave then
        s.former ++ s.dispatchers.slaves.map Dispatcher.shutdown
      else s.former }

def put (s : Serving) (d : Dispatchers) : Serving := { s with dispatchers := d }

def step (A : Text.Allocator) (s : Serving) : Call → Option Serving
  | .enableSlave b => (Dispatchers.step A s.dispatchers (.enableSlave b)).map s.put
  | .addSlaveDispatcher n =>
    (Dispatchers.step A s.dispatchers (.addSlaveDispatcher n.toNat)).map s.put
  | .setMasterFD i fd ok => some (s.put (s.dispatchers.setMasterFD i fd ok))
  | .registerHandler i fd handler ok =>
    some (s.put (s.dispatchers.modify i fun d => d.registerHandler fd handler ok))
  | .removeHandler i fd stale => (s.dispatchers.removeHandler i fd stale).map s.put
  | .handleNewConnection fd ok =>
    (Dispatchers.step A s.dispatchers (.handleNewConnection fd ok)).map s.put
  | .handleUnexpected i fd events =>
    if ((s.dispatcher i).bind fun d => d.handlers fd).isSome then
      some (s.handleUnexpected i fd events)
    else none
  | .extractExistedChannel => some s.extractExistedChannel
  | .restoreAllChannel i k =>
    match s.extracted[k]? with
    | some channels =>
      some ({ s with extracted := s.extracted.eraseIdx k }.restoreAllChannel i channels)
    | none => none
  | .addPendingFunctor fn => s.addPendingFunctor fn
  | .shutdown => some s.shutdown
  | .openFd fd =>
    if 0 ≤ fd ∧ s.dispatchers.isOpen fd = false then
      some (s.put { s.dispatchers with isOpen := Function.update s.dispatchers.isOpen fd true })
    else none
  | .closeFd fd =>
    if s.dispatchers.isOpen fd then some (s.put (s.dispatchers.close fd)) else none

def initial (A : Text.Allocator) : Serving :=
  { dispatchers := .initial A, waitToRemovedChannel := fun _ => [], extracted := [],
    pendingFn := fun _ => [], former := [] }

def machine (A : Text.Allocator) : Machine Serving Call where
  init s := s = initial A
  step := step A

/-- What each call does, with the guards it has passed. -/
inductive Step (A : Text.Allocator) (s : Serving) : Call → Serving → Prop
  | enableSlave {b} (running : s.dispatchers.master.stop = false) :
      Step A s (.enableSlave b) (s.put { s.dispatchers with
        master := { s.dispatchers.master with enableSlave := b } })
  | enableSlaveStopped {b} (stopped : s.dispatchers.master.stop = true) :
      Step A s (.enableSlave b) s
  | addSlaveDispatcher {n} (running : s.dispatchers.master.stop = false)
      (enabled : s.dispatchers.master.enableSlave = true) :
      Step A s (.addSlaveDispatcher n) (s.put { s.dispatchers with
        slaves := s.dispatchers.slaves ++ List.replicate n.toNat .create })
  | addSlaveDispatcherRefused {n}
      (refused : s.dispatchers.master.stop = true ∨ s.dispatchers.master.enableSlave = false) :
      Step A s (.addSlaveDispatcher n) s
  | setMasterFD {i fd ok} (nonneg : 0 ≤ fd) :
      Step A s (.setMasterFD i fd ok) (s.put (s.dispatchers.modify i fun d =>
        { d with masterfd := fd }.registerHandler fd .accept ok))
  | setMasterFDRefused {i fd ok} (neg : fd < 0) : Step A s (.setMasterFD i fd ok) s
  | registerHandler {i fd handler ok} :
      Step A s (.registerHandler i fd handler ok)
        (s.put (s.dispatchers.modify i fun d => d.registerHandler fd handler ok))
  | removeHandler {i fd stale d} (present : s.dispatcher i = some d) (running : d.stop = false)
      (nonneg : 0 ≤ fd) :
      Step A s (.removeHandler i fd stale)
        (s.put ((s.dispatchers.eraseChannel fd stale).modify i fun d => d.eraseHandler fd))
  | removeHandlerRefused {i fd stale d} (present : s.dispatcher i = some d)
      (refused : d.stop = true ∨ fd < 0) : Step A s (.removeHandler i fd stale) s
  | failedConnection {fd ok} (neg : fd < 0) :
      Step A s (.handleNewConnection fd ok) (s.put (s.dispatchers.handleNewConnection A fd ok))
  | handleNewConnection {fd ok} (nonneg : 0 ≤ fd) (unused : s.dispatchers.isOpen fd = false) :
      Step A s (.handleNewConnection fd ok) (s.put (({ s.dispatchers with
        isOpen := Function.update s.dispatchers.isOpen fd true } : Dispatchers).handleNewConnection
          A fd ok))
  | handleUnexpected {i fd events d handler} (present : s.dispatcher i = some d)
      (handled : d.handlers fd = some handler) (unexpected : events.unexpected = true) :
      Step A s (.handleUnexpected i fd events) { s with
        dispatchers := s.dispatchers.handleUnexpected i fd
        waitToRemovedChannel := if s.allChannel fd = none then
            Function.update s.waitToRemovedChannel i (s.waitToRemovedChannel i ++ [fd])
          else s.waitToRemovedChannel }
  | handleExpected {i fd events} (expected : events.unexpected = false) :
      Step A s (.handleUnexpected i fd events) s
  | extractExistedChannel : Step A s .extractExistedChannel s.extractExistedChannel
  | restoreAllChannel {i k channels} (extracted : s.extracted[k]? = some channels) :
      Step A s (.restoreAllChannel i k)
        ({ s with extracted := s.extracted.eraseIdx k }.restoreAllChannel i channels)
  | pend {fn} (disabled : s.dispatchers.master.enableSlave = false) :
      Step A s (.addPendingFunctor fn) (s.pend 0 fn)
  | pendSlave {fn} (enabled : s.dispatchers.master.enableSlave = true)
      (nonempty : s.dispatchers.slaves.length ≠ 0) :
      Step A s (.addPendingFunctor fn)
        (s.pend (Dispatchers.dispatchToSlave s.dispatchers.slaves.length + 1) fn)
  | shutdown (running : s.dispatchers.master.stop = false) : Step A s .shutdown s.shutdown
  | shutdownStopped (stopped : s.dispatchers.master.stop = true) : Step A s .shutdown s
  | openFd {fd} (unused : s.dispatchers.isOpen fd = false) :
      Step A s (.openFd fd)
        (s.put { s.dispatchers with isOpen := Function.update s.dispatchers.isOpen fd true })
  | closeFd {fd} (used : s.dispatchers.isOpen fd = true) :
      Step A s (.closeFd fd) (s.put (s.dispatchers.close fd))

variable {A : Text.Allocator} {s s' : Serving}

theorem shutdown_of_stopped (h : s.dispatchers.master.stop = true) : s.shutdown = s := by
  have hsame : s.dispatchers.shutdown = s.dispatchers := if_pos h
  rw [shutdown, hsame, h]
  rfl

theorem step_cases {call : Call} (hstep : (machine A).step s call = some s') :
    Step A s call s' := by
  cases call with
  | enableSlave b =>
    simp only [machine, step, Dispatchers.step, Option.map_some, Option.some.injEq] at hstep
    split at hstep <;> subst hstep
    · rename_i hstop
      exact .enableSlaveStopped hstop
    · rename_i hstop
      exact .enableSlave (Bool.eq_false_iff.mpr hstop)
  | addSlaveDispatcher n =>
    simp only [machine, step, Dispatchers.step, Option.map_some, Option.some.injEq] at hstep
    split at hstep <;> subst hstep <;> rename_i hguard
    · simp only [Bool.or_eq_true, Bool.not_eq_true'] at hguard
      exact .addSlaveDispatcherRefused hguard
    · simp only [Bool.or_eq_true, Bool.not_eq_true', not_or, Bool.not_eq_true,
        Bool.not_eq_false] at hguard
      exact .addSlaveDispatcher hguard.1 hguard.2
  | setMasterFD i fd ok =>
    simp only [machine, step, Dispatchers.setMasterFD, Option.some.injEq] at hstep
    split at hstep <;> subst hstep
    · rename_i hneg
      exact .setMasterFDRefused hneg
    · rename_i hnonneg
      exact .setMasterFD (Int.not_lt.mp hnonneg)
  | registerHandler i fd handler ok =>
    cases hstep
    exact .registerHandler
  | removeHandler i fd stale =>
    simp only [machine, step, Dispatchers.removeHandler] at hstep
    split at hstep
    · rename_i d hd
      simp only [Option.map_some, Option.some.injEq] at hstep
      split at hstep <;> subst hstep <;> rename_i hguard
      · simp only [Bool.or_eq_true, decide_eq_true_eq] at hguard
        exact .removeHandlerRefused hd hguard
      · simp only [Bool.or_eq_true, decide_eq_true_eq, not_or, Bool.not_eq_true,
          Int.not_lt] at hguard
        exact .removeHandler hd hguard.1 hguard.2
    · cases hstep
  | handleNewConnection fd ok =>
    simp only [machine, step, Dispatchers.step] at hstep
    split at hstep
    · rename_i hneg
      cases hstep
      exact .failedConnection hneg
    · rename_i hnonneg
      split at hstep <;> cases hstep
      rename_i hunused
      exact .handleNewConnection (Int.not_lt.mp hnonneg) (Bool.eq_false_iff.mpr hunused)
  | handleUnexpected i fd events =>
    simp only [machine, step, handleUnexpected] at hstep
    split at hstep
    · rename_i hhandled
      obtain ⟨handler, hhandler⟩ := Option.isSome_iff_exists.mp hhandled
      obtain ⟨d, hd, hhandler⟩ := Option.bind_eq_some_iff.mp hhandler
      split at hstep <;> cases hstep <;> rename_i hevents
      · exact .handleUnexpected hd hhandler hevents
      · exact .handleExpected (Bool.eq_false_iff.mpr hevents)
    · cases hstep
  | extractExistedChannel =>
    cases hstep
    exact .extractExistedChannel
  | restoreAllChannel i k =>
    simp only [machine, step] at hstep
    split at hstep <;> cases hstep
    rename_i hk
    exact .restoreAllChannel hk
  | addPendingFunctor fn =>
    simp only [machine, step, addPendingFunctor] at hstep
    split at hstep
    · rename_i hdisabled
      cases hstep
      exact .pend (by simpa using hdisabled)
    · rename_i henabled
      split at hstep <;> cases hstep
      rename_i hnonempty
      exact .pendSlave (by simpa using henabled) hnonempty
  | shutdown =>
    cases hstep
    cases hstop : s.dispatchers.master.stop with
    | true =>
      rw [shutdown_of_stopped hstop]
      exact .shutdownStopped hstop
    | false => exact .shutdown hstop
  | openFd fd =>
    simp only [machine, step] at hstep
    split at hstep <;> cases hstep
    rename_i hguard
    exact .openFd hguard.2
  | closeFd fd =>
    simp only [machine, step] at hstep
    split at hstep <;> cases hstep
    rename_i hopen
    exact .closeFd hopen

end Serving

end ServerDevLib.Reactor
