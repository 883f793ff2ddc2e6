import ServerDevLib.Reactor.Dispatch

/-!
# The pool at work on events

The workers of the pool run `EventsHandler::HandleEvent` while the thread of
`Dispatch` closes connections and accepts new ones. Each test of `_active`,
each system call and each locked section is a step of its own. `owner` has the
connection that an open number belongs to, as the kernel knows it, and `accept`
returns any number that belongs to none. Other threads append to the channels
and take what was received.
-/

namespace ServerDevLib.Reactor

open Transition

inductive Direction
  | receive
  | send

/-- What follows the last call of `DisableReceive` or `DisableSend`. -/
inductive Afterwards
  | done
  | inactivate
  | unlock

/-- Where a worker is in `HandleEvent`; a `Test` is one of `_active`. -/
inductive EventPc
  | idle
  | handlerTest (c : Nat) (events : Events)
  | readTest (c : Nat)
  | readLock (c : Nat)
  | reading (c : Nat) (chunks : List (List UInt8))
  | writeTest (c : Nat)
  | writeLock (c : Nat)
  | writing (c : Nat)
  | disableTest (c : Nat) (d : Direction) (rest : List Direction) (next : Afterwards)
  | shutting (c : Nat) (d : Direction) (rest : List Direction) (next : Afterwards)
  | inactivating (c : Nat)
  | unlocking (c : Nat)

namespace EventPc

def disable (c : Nat) : List Direction → Afterwards → EventPc
  | d :: rest, next => .disableTest c d rest next
  | [], .done => .idle
  | [], .inactivate => .inactivating c
  | [], .unlock => .unlocking c

/-- The branches of `HandleEvent`. -/
def handleEvent (c : Nat) (events : Events) : EventPc :=
  if events.unexpected then disable c [.send, .receive] .done
  else if events.has EPOLLIN then .readTest c
  else if events.has EPOLLOUT then .writeTest c
  else .idle

/-- The channel that the worker is at work for. -/
def channel : EventPc → Option Nat
  | .idle => none
  | .handlerTest c _ | .readTest c | .readLock c | .reading c _ | .writeTest c | .writeLock c
  | .writing c | .disableTest c _ _ _ | .shutting c _ _ _ | .inactivating c | .unlocking c =>
    some c

/-- The worker makes its system call without another test of `_active`. -/
def Committed (c : Nat) : EventPc → Prop
  | .readLock c' | .reading c' _ | .writeLock c' | .writing c' | .shutting c' _ _ _ => c' = c
  | _ => False

variable {c c' : Nat} {pc : EventPc}

theorem channel_of_committed (h : pc.Committed c) : pc.channel = some c := by
  cases pc with
  | readLock c' | reading c' | writeLock c' | writing c' | shutting c' =>
    cases h
    rfl
  | idle | handlerTest | readTest | writeTest | disableTest | inactivating | unlocking => exact h.elim

/-- After a call of `DisableReceive` or `DisableSend` the next thing is a test, if anything. -/
theorem not_committed_disable (c : Nat) (ds : List Direction) (next : Afterwards) :
    ¬ (disable c ds next).Committed c' := by
  cases ds with
  | nil => cases next <;> exact id
  | cons d rest => exact id

theorem channel_disable {ds : List Direction} {next : Afterwards}
    (h : (disable c ds next).channel = some c') : c = c' := by
  cases ds with
  | nil =>
    cases next with
    | done => cases h
    | inactivate | unlock => exact Option.some.inj h
  | cons d rest => exact Option.some.inj h

theorem not_committed_handleEvent (c : Nat) (events : Events) :
    ¬ (handleEvent c events).Committed c' := by
  rw [handleEvent]
  split
  · exact not_committed_disable c _ _
  · split
    · exact id
    · split <;> exact id

theorem channel_handleEvent {events : Events} (h : (handleEvent c events).channel = some c') :
    c = c' := by
  rw [handleEvent] at h
  split at h
  · exact channel_disable h
  · split at h
    · exact Option.some.inj h
    · split at h
      · exact Option.some.inj h
      · cases h

end EventPc

inductive DispatchPc
  | waiting
  | unexpected (fd : Int)
  | closed (fd : Int)
  | accepted (fd : Int)
  deriving DecidableEq

structure EventPool (W : Type) where
  chan : Nat → Channel
  nextChan : Nat
  owner : Int → Option Nat
  handlers : ChannelMap
  allChannel : ChannelMap
  tasks : List (Nat × Events)
  dispatch : DispatchPc
  worker : W → EventPc
  receiveMutex : Nat → Bool
  sendMutex : Nat → Bool

namespace EventPool

inductive Action (W : Type)
  | event (fd : Int) (events : Events)
  | close
  | drop
  | accept (fd : Int)
  | register
  | start (w : W)
  | test (w : W)
  | lock (w : W)
  | read (w : W) (chunk : List UInt8)
  | readEnd (w : W) (ended : ReadEnd)
  | write (w : W) (sent : Int)
  | shutdown (w : W)
  | leave (w : W)
  | notifyWriteEvent (c : Nat) (data : List UInt8)
  | getReceivedData (c : Nat)

section Steps

variable {W : Type} [DecidableEq W]

def goto (s : EventPool W) (w : W) (pc : EventPc) : EventPool W :=
  { s with worker := Function.update s.worker w pc }

def setChan (s : EventPool W) (c : Nat) (ch : Channel) : EventPool W :=
  { s with chan := Function.update s.chan c ch }

def setReceiveMutex (s : EventPool W) (c : Nat) (locked : Bool) : EventPool W :=
  { s with receiveMutex := Function.update s.receiveMutex c locked }

def setSendMutex (s : EventPool W) (c : Nat) (locked : Bool) : EventPool W :=
  { s with sendMutex := Function.update s.sendMutex c locked }

/-- Where the test of `_active` leads. -/
def test (s : EventPool W) : EventPc → Option EventPc
  | .handlerTest c events =>
    some (if (s.chan c).active then .handleEvent c events else .idle)
  | .readTest c => some (if (s.chan c).active then .readLock c else .idle)
  | .writeTest c => some (if (s.chan c).active then .writeLock c else .idle)
  | .disableTest c d rest next =>
    some (if (s.chan c).active then .shutting c d rest next else .disable c rest next)
  | _ => none

def step (A : Text.Allocator) (s : EventPool W) : Action W → Option (EventPool W)
  | .event fd events =>
    match s.dispatch, s.handlers fd with
    | .waiting, some c => some { s with
        tasks := s.tasks ++ [(c, events)]
        dispatch := if events.unexpected then .unexpected fd else .waiting }
    | _, _ => none
  | .close =>
    match s.dispatch with
    | .unexpected fd => some { s with
        handlers := s.handlers.erase fd
        owner := Function.update s.owner fd none
        dispatch := .closed fd }
    | _ => none
  | .drop =>
    match s.dispatch with
    | .closed fd =>
      match s.allChannel fd with
      | some c => some { s.setChan c (s.chan c).inactive with
          allChannel := s.allChannel.erase fd
          dispatch := .waiting }
      | none => some { s with dispatch := .waiting }
    | _ => none
  | .accept fd =>
    if s.dispatch = .waiting ∧ 0 ≤ fd ∧ s.owner fd = none then
      some { s with
        owner := Function.update s.owner fd (some s.nextChan)
        dispatch := .accepted fd }
    else none
  | .register =>
    match s.dispatch with
    | .accepted fd => some { s.setChan s.nextChan (.create A fd (some 0)) with
        nextChan := s.nextChan + 1
        allChannel := s.allChannel.emplace fd s.nextChan
        handlers := s.handlers.emplace fd s.nextChan
        dispatch := .waiting }
    | _ => none
  | .start w =>
    match s.worker w, s.tasks with
    | .idle, (c, events) :: tasks => some ({ s with tasks := tasks }.goto w (.handlerTest c events))
    | _, _ => none
  | .test w => (s.test (s.worker w)).map fun pc => s.goto w pc
  | .lock w =>
    match s.worker w with
    | .readLock c =>
      if s.receiveMutex c then none
      else some ((s.setReceiveMutex c true).goto w (.reading c []))
    | .writeLock c =>
      if s.sendMutex c then none
      else if (s.chan c).sendingBuf.size < 1 then some (s.goto w .idle)
      else some ((s.setSendMutex c true).goto w (.writing c))
    | _ => none
  | .read w chunk =>
    match s.worker w with
    | .reading c chunks =>
      if ((s.chan c).receive A (chunks ++ [chunk])).isSome then
        some (s.goto w (.reading c (chunks ++ [chunk])))
      else none
    | _ => none
  | .readEnd w ended =>
    match s.worker w with
    | .reading c chunks => ((s.chan c).receive A chunks).map fun ch =>
      ((s.setChan c ch).setReceiveMutex c false).goto w
        (match ended with
          | .eof => .disable c [.receive, .send] .inactivate
          | .error => .idle)
    | _ => none
  | .write w sent =>
    match s.worker w with
    | .writing c =>
      if sent > (s.chan c).sendingBuf.size then none
      else if sent > 0 then
        some (((s.setChan c ((s.chan c).eraseSent A sent.toNat)).setSendMutex c false).goto w .idle)
      else if sent = 0 then some ((s.setSendMutex c false).goto w .idle)
      else some (s.goto w (.disable c [.send] .unlock))
    | _ => none
  | .shutdown w =>
    match s.worker w with
    | .shutting c _ rest next => some (s.goto w (.disable c rest next))
    | _ => none
  | .leave w =>
    match s.worker w with
    | .inactivating c => some ((s.setChan c (s.chan c).inactive).goto w .idle)
    | .unlocking c => some ((s.setSendMutex c false).goto w .idle)
    | _ => none
  | .notifyWriteEvent c data =>
    if c < s.nextChan ∧ s.sendMutex c = false then
      some (s.setChan c ((s.chan c).appendToSend A data))
    else none
  | .getReceivedData c =>
    if c < s.nextChan ∧ s.receiveMutex c = false then
      some (s.setChan c (s.chan c).getReceivedData.1)
    else none

def initial (A : Text.Allocator) : EventPool W :=
  { chan := fun _ => Channel.create A (-1) none, nextChan := 0, owner := fun _ => none,
    handlers := fun _ => none, allChannel := fun _ => none, tasks := [], dispatch := .waiting,
    worker := fun _ => .idle, receiveMutex := fun _ => false, sendMutex := fun _ => false }

def machine (W : Type) [DecidableEq W] (A : Text.Allocator) : Machine (EventPool W) (Action W) where
  init s := s = initial A
  step := step A

/-- What each action does, with the guards it has passed. -/
inductive Step (A : Text.Allocator) (s : EventPool W) : Action W → EventPool W → Prop
  | event {fd events c} (waiting : s.dispatch = .waiting) (handled : s.handlers fd = some c) :
      Step A s (.event fd events) { s with
        tasks := s.tasks ++ [(c, events)]
        dispatch := if events.unexpected then .unexpected fd else .waiting }
  | close {fd} (unexpected : s.dispatch = .unexpected fd) :
      Step A s .close { s with
        handlers := s.handlers.erase fd
        owner := Function.update s.owner fd none
        dispatch := .closed fd }
  | dropSome {fd c} (closed : s.dispatch = .closed fd) (filed : s.allChannel fd = some c) :
      Step A s .drop { s.setChan c (s.chan c).inactive with
        allChannel := s.allChannel.erase fd
        dispatch := .waiting }
  | dropNone {fd} (closed : s.dispatch = .closed fd) (unfiled : s.allChannel fd = none) :
      Step A s .drop { s with dispatch := .waiting }
  | accept {fd} (waiting : s.dispatch = .waiting) (unused : s.owner fd = none) :
      Step A s (.accept fd) { s with
        owner := Function.update s.owner fd (some s.nextChan)
        dispatch := .accepted fd }
  | register {fd} (accepted : s.dispatch = .accepted fd) :
      Step A s .register { s.setChan s.nextChan (.create A fd (some 0)) with
        nextChan := s.nextChan + 1
        allChannel := s.allChannel.emplace fd s.nextChan
        handlers := s.handlers.emplace fd s.nextChan
        dispatch := .waiting }
  | start {w c events tasks} (idle : s.worker w = .idle) (queued : s.tasks = (c, events) :: tasks) :
      Step A s (.start w) ({ s with tasks := tasks }.goto w (.handlerTest c events))
  | test {w pc} (tested : s.test (s.worker w) = some pc) : Step A s (.test w) (s.goto w pc)
  | lockReceive {w c} (pc : s.worker w = .readLock c) (free : s.receiveMutex c = false) :
      Step A s (.lock w) ((s.setReceiveMutex c true).goto w (.reading c []))
  | lockEmpty {w c} (pc : s.worker w = .writeLock c) (free : s.sendMutex c = false) :
      Step A s (.lock w) (s.goto w .idle)
  | lockSend {w c} (pc : s.worker w = .writeLock c) (free : s.sendMutex c = false) :
      Step A s (.lock w) ((s.setSendMutex c true).goto w (.writing c))
  | read {w chunk c chunks} (pc : s.worker w = .reading c chunks) :
      Step A s (.read w chunk) (s.goto w (.reading c (chunks ++ [chunk])))
  | readEnd {w ended c chunks ch pc'} (pc : s.worker w = .reading c chunks)
      (received : (s.chan c).receive A chunks = some ch)
      (next : pc' = .idle ∨ pc' = .disable c [.receive, .send] .inactivate) :
      Step A s (.readEnd w ended) (((s.setChan c ch).setReceiveMutex c false).goto w pc')
  | writeSome {w sent c} (pc : s.worker w = .writing c) :
      Step A s (.write w sent)
        (((s.setChan c ((s.chan c).eraseSent A sent.toNat)).setSendMutex c false).goto w .idle)
  | writeNone {w sent c} (pc : s.worker w = .writing c) :
      Step A s (.write w sent) ((s.setSendMutex c false).goto w .idle)
  | writeFails {w sent c} (pc : s.worker w = .writing c) :
      Step A s (.write w sent) (s.goto w (.disable c [.send] .unlock))
  | shutdown {w c d rest next} (pc : s.worker w = .shutting c d rest next) :
      Step A s (.shutdown w) (s.goto w (.disable c rest next))
  | inactivate {w c} (pc : s.worker w = .inactivating c) :
      Step A s (.leave w) ((s.setChan c (s.chan c).inactive).goto w .idle)
  | unlock {w c} (pc : s.worker w = .unlocking c) :
      Step A s (.leave w) ((s.setSendMutex c false).goto w .idle)
  | notifyWriteEvent {c data} (created : c < s.nextChan) :
      Step A s (.notifyWriteEvent c data) (s.setChan c ((s.chan c).appendToSend A data))
  | getReceivedData {c} (created : c < s.nextChan) :
      Step A s (.getReceivedData c) (s.setChan c (s.chan c).getReceivedData.1)

variable {A : Text.Allocator} {s s' : EventPool W} {a : Action W}

theorem step_cases (hstep : (machine W A).step s a = some s') : Step A s a s' := by
  cases a with
  | event fd events =>
    simp only [machine, step] at hstep
    split at hstep <;> cases hstep
    rename_i hwaiting hhandled
    exact .event hwaiting hhandled
  | close =>
    simp only [machine, step] at hstep
    split at hstep <;> cases hstep
    rename_i hunexpected
    exact .close hunexpected
  | drop =>
    simp only [machine, step] at hstep
    split at hstep
    · rename_i fd hclosed
      split at hstep <;> cases hstep
      · rename_i hfiled
        exact .dropSome hclosed hfiled
      · rename_i hunfiled
        exact .dropNone hclosed hunfiled
    · cases hstep
  | accept fd =>
    simp only [machine, step] at hstep
    split at hstep <;> cases hstep
    rename_i hguard
    exact .accept hguard.1 hguard.2.2
  | register =>
    simp only [machine, step] at hstep
    split at hstep <;> cases hstep
    rename_i haccepted
    exact .register haccepted
  | start w =>
    simp only [machine, step] at hstep
    split at hstep <;> cases hstep
    rename_i hidle hqueued
    exact .start hidle hqueued
  | test w =>
    obtain ⟨pc, hpc, rfl⟩ := Option.map_eq_some_iff.mp hstep
    exact .test hpc
  | lock w =>
    simp only [machine, step] at hstep
    split at hstep
    · rename_i hpc
      split at hstep <;> cases hstep
      rename_i hfree
      exact .lockReceive hpc (Bool.eq_false_iff.mpr hfree)
    · rename_i hpc
      split at hstep
      · cases hstep
      · rename_i hfree
        split at hstep <;> cases hstep
        · exact .lockEmpty hpc (Bool.eq_false_iff.mpr hfree)
        · exact .lockSend hpc (Bool.eq_false_iff.mpr hfree)
    · cases hstep
  | read w chunk =>
    simp only [machine, step] at hstep
    split at hstep
    · rename_i hpc
      split at hstep <;> cases hstep
      exact .read hpc
    · cases hstep
  | readEnd w ended =>
    simp only [machine, step] at hstep
    split at hstep
    · rename_i hpc
      obtain ⟨ch, hreceive, rfl⟩ := Option.map_eq_some_iff.mp hstep
      refine .readEnd hpc hreceive ?_
      cases ended with
      | eof => exact .inr rfl
      | error => exact .inl rfl
    · cases hstep
  | write w sent =>
    simp only [machine, step] at hstep
    split at hstep
    · rename_i hpc
      split at hstep
      · cases hstep
      · split at hstep
        · cases hstep
          exact .writeSome hpc
        · split at hstep <;> cases hstep
          · exact .writeNone hpc
          · exact .writeFails hpc
    · cases hstep
  | shutdown w =>
    simp only [machine, step] at hstep
    split at hstep <;> cases hstep
    rename_i hpc
    exact .shutdown hpc
  | leave w =>
    simp only [machine, step] at hstep
    split at hstep <;> cases hstep <;> rename_i hpc
    · exact .inactivate hpc
    · exact .unlock hpc
  | notifyWriteEvent c data =>
    simp only [machine, step] at hstep
    split at hstep <;> cases hstep
    rename_i hguard
    exact .notifyWriteEvent hguard.1
  | getReceivedData c =>
    simp only [machine, step] at hstep
    split at hstep <;> cases hstep
    rename_i hguard
    exact .getReceivedData hguard.1

end Steps

variable {W : Type} {A : Text.Allocator} {s s' : EventPool W}

theorem committed_of_test {pc pc' : EventPc} {c : Nat} (h : s.test pc = some pc')
    (hc : pc'.Committed c) : (s.chan c).active = true := by
  cases pc with
  | handlerTest c' events =>
    cases h
    split at hc
    · exact absurd hc (EventPc.not_committed_handleEvent c' events)
    · exact hc.elim
  | readTest c' | writeTest c' =>
    cases h
    split at hc
    · rename_i hactive
      cases hc
      exact hactive
    · exact hc.elim
  | disableTest c' d rest next =>
    cases h
    split at hc
    · rename_i hactive
      cases hc
      exact hactive
    · exact absurd hc (EventPc.not_committed_disable c' rest next)
  | idle | readLock | reading | writeLock | writing | shutting | inactivating | unlocking => cases h

theorem channel_of_test {pc pc' : EventPc} {c : Nat} (h : s.test pc = some pc')
    (hc : pc'.channel = some c) : pc.channel = some c := by
  cases pc with
  | handlerTest c' events =>
    cases h
    split at hc
    · exact congrArg some (EventPc.channel_handleEvent hc)
    · cases hc
  | readTest c' | writeTest c' =>
    cases h
    split at hc
    · exact hc
    · cases hc
  | disableTest c' d rest next =>
    cases h
    split at hc
    · exact hc
    · exact congrArg some (EventPc.channel_disable hc)
  | idle | readLock | reading | writeLock | writing | shutting | inactivating | unlocking => cases h

end EventPool

end ServerDevLib.Reactor
