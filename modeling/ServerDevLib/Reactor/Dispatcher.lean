import ServerDevLib.Foundation.Transition
import ServerDevLib.Reactor.Channel
import ServerDevLib.Reactor.Demultiplexer

/-!
# A master dispatcher and its slaves

The master accepts connections, makes a channel and a handler for each and
registers the handler with itself or with a slave. `_allChannel` is shared by
all dispatchers. Dispatcher 0 is the master and `i + 1` the slave number `i`;
a demultiplexer has the number of its dispatcher, and a channel is the number
of its object. The kernel keeps the set of open descriptors and takes a closed
descriptor out of every interest list. `_waitToRemovedChannel` is read by
`RestoreAllChannel` alone, which comes with the other calls in `Serving`.
-/

namespace ServerDevLib.Reactor

open Transition

abbrev ChannelMap := Int → Option Nat

namespace ChannelMap

def emplace (m : ChannelMap) (fd : Int) (c : Nat) : ChannelMap :=
  if m fd = none then Function.update m fd (some c) else m

def erase (m : ChannelMap) (fd : Int) : ChannelMap :=
  Function.update m fd none

theorem emplace_cases {m : ChannelMap} {fd fd' : Int} {c c' : Nat}
    (h : m.emplace fd c fd' = some c') : m fd' = some c' ∨ m fd = none ∧ fd' = fd ∧ c' = c := by
  simp only [emplace] at h
  split at h
  · rename_i hnone
    rcases eq_or_ne fd' fd with rfl | hne
    · rw [Function.update_self] at h
      cases h
      exact .inr ⟨hnone, rfl, rfl⟩
    · rw [Function.update_of_ne hne] at h
      exact .inl h
  · exact .inl h

theorem emplace_self {m : ChannelMap} {fd : Int} (h : m fd = none) (c : Nat) :
    m.emplace fd c fd = some c := by
  rw [emplace, if_pos h, Function.update_self]

theorem emplace_of_some {m : ChannelMap} {fd fd' : Int} {c c' : Nat} (h : m fd' = some c') :
    m.emplace fd c fd' = some c' := by
  simp only [emplace]
  split
  · rename_i hnone
    have hne : fd' ≠ fd := by
      rintro rfl
      rw [hnone] at h
      cases h
    rw [Function.update_of_ne hne, h]
  · exact h

theorem erase_cases {m : ChannelMap} {fd fd' : Int} {c : Nat} (h : m.erase fd fd' = some c) :
    fd' ≠ fd ∧ m fd' = some c := by
  rcases eq_or_ne fd' fd with rfl | hne
  · rw [erase, Function.update_self] at h
    cases h
  · rw [erase, Function.update_of_ne hne] at h
    exact ⟨hne, h⟩

theorem erase_of_ne {m : ChannelMap} {fd fd' : Int} (h : fd' ≠ fd) : m.erase fd fd' = m fd' := by
  rw [erase, Function.update_of_ne h]

theorem erase_of_none {m : ChannelMap} {fd fd' : Int} (h : m fd' = none) :
    m.erase fd fd' = none := by
  rcases eq_or_ne fd' fd with rfl | hne
  · rw [erase, Function.update_self]
  · rw [erase_of_ne hne, h]

end ChannelMap

/-- Opening a descriptor leaves the others open. -/
theorem open_stays_open {isOpen : Int → Bool} {fd fd' : Int} (h : isOpen fd' = true) :
    Function.update isOpen fd true fd' = true := by
  rcases eq_or_ne fd' fd with rfl | hne
  · exact Function.update_self ..
  · rw [Function.update_of_ne hne, h]

/-- `other` is what the application registers of its own, a null pointer included. -/
inductive Handler
  | accept
  | events (channel : Nat)
  | other

structure Dispatcher where
  stop : Bool
  enableSlave : Bool
  masterfd : Int
  demultiplexer : Demultiplexer
  handlers : Int → Option Handler

namespace Dispatcher

def create : Dispatcher :=
  { stop := false, enableSlave := false, masterfd := 0, demultiplexer := .create,
    handlers := fun _ => none }

def registerHandler (d : Dispatcher) (fd : Int) (handler : Handler) (ok : Bool) : Dispatcher :=
  if d.stop || fd < 0 then d
  else { d with
    demultiplexer := d.demultiplexer.registerFd fd ok
    handlers := if (d.handlers fd).isNone then Function.update d.handlers fd (some handler)
      else d.handlers }

def eraseHandler (d : Dispatcher) (fd : Int) : Dispatcher :=
  { d with handlers := Function.update d.handlers fd none }

def removeFd (d : Dispatcher) (fd : Int) : Dispatcher :=
  { d with demultiplexer := d.demultiplexer.removeFd fd }

def shutdown (d : Dispatcher) : Dispatcher :=
  { d with
    stop := true
    handlers := fun _ => none
    demultiplexer := { d.demultiplexer with interest := fun _ => none } }

def removeFds (d : Dispatcher) (closed : Int → Bool) : Dispatcher :=
  { d with demultiplexer := { d.demultiplexer with
    interest := fun fd => if closed fd then none else d.demultiplexer.interest fd } }

end Dispatcher

structure Dispatchers where
  master : Dispatcher
  slaves : List Dispatcher
  allChannel : ChannelMap
  chan : Nat → Channel
  nextChan : Nat
  isOpen : Int → Bool

namespace Dispatchers

inductive Action
  | enableSlave (b : Bool)
  | addSlaveDispatcher (n : Nat)
  | setMasterFD (fd : Int) (ok : Bool)
  | handleNewConnection (fd : Int) (ok : Bool)
  | handleUnexpected (i : Nat) (fd : Int)
  | removeHandler (i : Nat) (fd : Int)
  | shutdown

/-- Dispatcher 0 is the master. -/
def dispatcher (s : Dispatchers) (i : Nat) : Option Dispatcher := (s.master :: s.slaves)[i]?

def modify (s : Dispatchers) (i : Nat) (f : Dispatcher → Dispatcher) : Dispatchers :=
  match i with
  | 0 => { s with master := f s.master }
  | i + 1 => { s with slaves := s.slaves.modify i f }

/-- `cur++ % count` of the variable `cur`, which starts at 0 in every call. -/
def dispatchToSlave (count : Nat) : Nat := 0 % count

/-- `::close`, which takes the descriptor out of every interest list. -/
def close (s : Dispatchers) (fd : Int) : Dispatchers :=
  { s with
    isOpen := Function.update s.isOpen fd false
    master := s.master.removeFd fd
    slaves := s.slaves.map fun d => d.removeFd fd }

def setChan (s : Dispatchers) (c : Nat) (ch : Channel) : Dispatchers :=
  { s with chan := Function.update s.chan c ch }

/-- The erasure from `_allChannel`, which deactivates the channel. -/
def dropChannel (s : Dispatchers) (fd : Int) : Dispatchers :=
  match s.allChannel fd with
  | some c => { s.setChan c (s.chan c).inactive with allChannel := s.allChannel.erase fd }
  | none => s

def handleNewConnection (A : Text.Allocator) (s : Dispatchers) (fd : Int) (ok : Bool) :
    Dispatchers :=
  let c := s.nextChan
  let s := { s.setChan c (Channel.create A fd (some 0)) with
    nextChan := c + 1
    allChannel := s.allChannel.emplace fd c }
  if !s.master.enableSlave || s.slaves.length = 0 then
    s.modify 0 fun d => d.registerHandler fd (.events c) ok
  else
    s.modify (dispatchToSlave s.slaves.length + 1) fun d => d.registerHandler fd (.events c) ok

def handleUnexpected (s : Dispatchers) (i : Nat) (fd : Int) : Dispatchers :=
  ((s.modify i fun d => (d.eraseHandler fd).removeFd fd).close fd).dropChannel fd

/-- A dispatcher that is shut down with the master has a `_masterfd` and empties `_allChannel`. -/
def clears (s : Dispatchers) : Bool :=
  s.master.masterfd ≠ 0 || (s.master.enableSlave && s.slaves.any fun d => d.masterfd ≠ 0)

/-- A call of `Shutdown` of the master that returns. Between the slaves and `_allChannel` it shuts
the pool down, which need not return: the steps of the call are those of `Teardown`. -/
def shutdown (s : Dispatchers) : Dispatchers :=
  if s.master.stop then s
  else
    let closed := fun fd => (s.master.handlers fd).isSome ||
      (s.master.enableSlave && s.slaves.any fun d => (d.handlers fd).isSome)
    { s with
      master := s.master.shutdown
      slaves := if s.master.enableSlave then [] else s.slaves.map fun d => d.removeFds closed
      isOpen := fun fd => s.isOpen fd && !closed fd
      chan := if s.clears then fun c =>
          if s.allChannel (s.chan c).fd = some c then (s.chan c).inactive else s.chan c
        else s.chan
      allChannel := if s.clears then fun _ => none else s.allChannel }

def step (A : Text.Allocator) (s : Dispatchers) : Action → Option Dispatchers
  | .enableSlave b =>
    some (if s.master.stop then s else { s with master := { s.master with enableSlave := b } })
  | .addSlaveDispatcher n =>
    some (if s.master.stop || !s.master.enableSlave then s
      else { s with slaves := s.slaves ++ List.replicate n .create })
  | .setMasterFD fd ok =>
    some (if fd < 0 then s
      else { s with
        master := { s.master with masterfd := fd }.registerHandler fd .accept ok
        isOpen := Function.update s.isOpen fd true })
  | .handleNewConnection fd ok =>
    if fd < 0 then some (s.handleNewConnection A fd ok)
    else if s.isOpen fd then none
    else some ({ s with isOpen := Function.update s.isOpen fd true }.handleNewConnection A fd ok)
  | .handleUnexpected i fd =>
    if ((s.dispatcher i).bind fun d => d.handlers fd).isSome then some (s.handleUnexpected i fd)
    else none
  | .removeHandler i fd =>
    match s.dispatcher i with
    | some d => some (if d.stop || fd < 0 then s
      else (s.dropChannel fd).modify i fun d => d.eraseHandler fd)
    | none => none
  | .shutdown => some s.shutdown

def initial (A : Text.Allocator) : Dispatchers :=
  { master := .create, slaves := [], allChannel := fun _ => none,
    chan := fun _ => Channel.create A (-1) none, nextChan := 0, isOpen := fun _ => false }

def machine (A : Text.Allocator) : Machine Dispatchers Action where
  init s := s = initial A
  step := step A

theorem handlers_registerHandler {d : Dispatcher} {fd : Int} {handler : Handler} {ok : Bool}
    (hstop : d.stop = false) (hfd : 0 ≤ fd) (hnone : d.handlers fd = none) :
    (d.registerHandler fd handler ok).handlers fd = some handler := by
  rw [Dispatcher.registerHandler, hstop, decide_eq_false (Int.not_lt.mpr hfd), hnone]
  exact Function.update_self ..

theorem demultiplexer_registerHandler {d : Dispatcher} {fd : Int} {handler : Handler} {ok : Bool}
    (hstop : d.stop = false) (hfd : 0 ≤ fd) :
    (d.registerHandler fd handler ok).demultiplexer = d.demultiplexer.registerFd fd ok := by
  rw [Dispatcher.registerHandler, hstop, decide_eq_false (Int.not_lt.mpr hfd)]
  rfl

/-- A registration concerns the handler and the interest in its descriptor alone. -/
theorem registerHandler_cases (d : Dispatcher) (fd : Int) (handler : Handler) (ok : Bool) :
    d.registerHandler fd handler ok = d ∨
      d.stop = false ∧ 0 ≤ fd ∧ ∃ handlers, d.registerHandler fd handler ok = { d with
          demultiplexer := d.demultiplexer.registerFd fd ok
          handlers := handlers } ∧
        ∀ fd' h, handlers fd' = some h → d.handlers fd' = some h ∨ fd' = fd ∧ h = handler := by
  simp only [Dispatcher.registerHandler]
  split
  · exact .inl rfl
  · rename_i hguard
    simp only [Bool.or_eq_true, decide_eq_true_eq, not_or, Bool.not_eq_true, Int.not_lt] at hguard
    refine .inr ⟨hguard.1, hguard.2, _, rfl, fun fd' h hh => ?_⟩
    split at hh
    · rcases eq_or_ne fd' fd with rfl | hne
      · rw [Function.update_self] at hh
        exact .inr ⟨rfl, (Option.some.inj hh).symm⟩
      · rw [Function.update_of_ne hne] at hh
        exact .inl hh
    · exact .inl hh

theorem isSome_interest_registerFd {d : Demultiplexer} {fd fd' : Int} {ok : Bool}
    (h : (d.interest fd').isSome = true) : ((d.registerFd fd ok).interest fd').isSome = true := by
  rcases eq_or_ne fd' fd with rfl | hne
  · cases Int.lt_or_le fd' 0 with
    | inl hneg => rwa [Demultiplexer.registerFd, if_pos hneg]
    | inr hfd => rw [Demultiplexer.interest_registerFd_self ok hfd, h, Bool.or_true]
  · rwa [Demultiplexer.interest_registerFd_of_ne hne]

variable {A : Text.Allocator} {s : Dispatchers}

theorem handleNewConnection_master {fd : Int} {ok : Bool}
    (h : s.master.enableSlave = false ∨ s.slaves = []) :
    s.handleNewConnection A fd ok = { s.setChan s.nextChan (.create A fd (some 0)) with
      master := s.master.registerHandler fd (.events s.nextChan) ok
      nextChan := s.nextChan + 1
      allChannel := s.allChannel.emplace fd s.nextChan } := by
  have hguard : (!s.master.enableSlave || decide (s.slaves.length = 0)) = true := by
    rcases h with h | h <;> simp [h]
  exact if_pos hguard

/-- `DispatchToSlave` always chooses the first slave. -/
theorem handleNewConnection_slave {fd : Int} {ok : Bool} {d : Dispatcher} {ds : List Dispatcher}
    (henabled : s.master.enableSlave = true) (hslaves : s.slaves = d :: ds) :
    s.handleNewConnection A fd ok = { s.setChan s.nextChan (.create A fd (some 0)) with
      slaves := d.registerHandler fd (.events s.nextChan) ok :: ds
      nextChan := s.nextChan + 1
      allChannel := s.allChannel.emplace fd s.nextChan } := by
  have hguard : ¬ (!s.master.enableSlave || decide (s.slaves.length = 0)) = true := by
    simp [henabled, hslaves]
  apply (if_neg hguard).trans
  simp only [Dispatchers.modify, setChan, hslaves, dispatchToSlave, Nat.zero_mod,
    List.modify_zero_cons]

/-- Handlers of other descriptors are left alone. -/
theorem handlers_registerHandler_of_ne (d : Dispatcher) {fd fd' : Int} (h : fd' ≠ fd)
    (handler : Handler) (ok : Bool) :
    (d.registerHandler fd handler ok).handlers fd' = d.handlers fd' := by
  simp only [Dispatcher.registerHandler]
  split
  · rfl
  · split
    · exact Function.update_of_ne h ..
    · rfl

theorem interest_registerHandler_of_ne (d : Dispatcher) {fd fd' : Int} (h : fd' ≠ fd)
    (handler : Handler) (ok : Bool) :
    (d.registerHandler fd handler ok).demultiplexer.interest fd' = d.demultiplexer.interest fd' := by
  simp only [Dispatcher.registerHandler]
  split
  · rfl
  · exact Demultiplexer.interest_registerFd_of_ne h ok

/-- `try_emplace` keeps the handler that is there. -/
theorem handlers_registerHandler_of_some {d : Dispatcher} {fd : Int} {handler : Handler}
    (h : d.handlers fd = some handler) (handler' : Handler) (ok : Bool) :
    (d.registerHandler fd handler' ok).handlers fd = some handler := by
  simp only [Dispatcher.registerHandler, h]
  split
  · exact h
  · exact h

theorem masterfd_registerHandler (d : Dispatcher) (fd : Int) (handler : Handler) (ok : Bool) :
    (d.registerHandler fd handler ok).masterfd = d.masterfd ∧
      (d.registerHandler fd handler ok).stop = d.stop := by
  simp only [Dispatcher.registerHandler]
  split
  · exact ⟨rfl, rfl⟩
  · exact ⟨rfl, rfl⟩

/-- After `HandleUnexpected` nothing is filed under the descriptor, and it is closed. -/
theorem handleUnexpected_eq (s : Dispatchers) (fd : Int) : ∃ chan,
    s.handleUnexpected 0 fd = { s with
      master := ((s.master.eraseHandler fd).removeFd fd).removeFd fd
      slaves := s.slaves.map fun d => d.removeFd fd
      allChannel := s.allChannel.erase fd
      chan := chan
      isOpen := Function.update s.isOpen fd false } := by
  simp only [handleUnexpected, dropChannel]
  split
  · exact ⟨_, rfl⟩
  · rename_i hnone
    have hsame : s.allChannel.erase fd = s.allChannel :=
      Function.update_eq_self_iff.mpr hnone.symm
    rw [hsame]
    exact ⟨s.chan, rfl⟩

end Dispatchers

end ServerDevLib.Reactor
