import Mathlib.Data.List.Basic
import Mathlib.Logic.Function.Basic
import ServerDevLib.Foundation.Transition

/-!
# The logger

`Buffering` appends a message to `_buf` under `_mx` and notifies outside of it.
The flush thread swaps the two buffers under the mutex and delivers the
messages of `_backup_buf` outside of it. `~Logger` stores to `_stop` and
notifies without the mutex. Each test, each locked section and each delivery is
a step of its own; a sink is an entry of `_dest_vec`.
-/

namespace ServerDevLib.Logging

open Transition

universe u

inductive LogLevel
  | INFO
  | WARN
  | ERROR
  | FATAL
  deriving DecidableEq

/-- `ticket` is the number of the call of `Buffering` that has brought the message. -/
structure LogMessage where
  ticket : Nat
  level : LogLevel
  text : List UInt8
  deriving DecidableEq

/-- What is still to be done of the branch for a `FATAL` message. -/
inductive FatalStage
  | setStop
  | clearBuf
  | clearBackup
  | clearDest
  | abort
  deriving DecidableEq

/-- Where the flush thread is. `predicate`, `blocking` and `blocked` are parts of
the wait, with a time-out where their argument is `true`; `relock` is on its way
back to the mutex. `writing i j` is at message `i` and sink `j`. -/
inductive FlushPc
  | loopTest
  | lock
  | mode
  | predicate (timed : Bool)
  | blocking (timed : Bool)
  | blocked (timed : Bool)
  | relock (timed timedOut : Bool)
  | stopTest
  | swap
  | writing (i j : Nat)
  | fatal (i : Nat) (stage : FatalStage)
  | clear
  | returned
  | aborted
  deriving DecidableEq

namespace FlushPc

def holds : FlushPc → Bool
  | .mode | .predicate _ | .blocking _ | .stopTest | .swap => true
  | _ => false

/-- The branch for a `FATAL` message has been entered. -/
def inFatal : FlushPc → Bool
  | .fatal _ _ | .aborted => true
  | _ => false

/-- That branch has executed `_buf.clear()`. -/
def cleared : FlushPc → Bool
  | .fatal _ .clearBackup | .fatal _ .clearDest | .fatal _ .abort | .aborted => true
  | _ => false

end FlushPc

inductive CallerPc
  | idle
  | push (msg : LogMessage)
  | notify (msg : LogMessage)

inductive Destructor
  | idle
  | entered
  | stopped
  | notified
  | returned
  deriving DecidableEq

/-- `entered`, `completed` and `delivered` record what has entered `_buf`, whose
`Buffering` has returned and what each sink was given; `before` has the completed
messages at the entry of `~Logger`. -/
structure Logger (K : Type u) where
  stop : Bool
  logWithWaiting : Bool
  buf : List LogMessage
  backupBuf : List LogMessage
  destVec : Nat
  flush : FlushPc
  caller : K → CallerPc
  destructor : Destructor
  nextTicket : Nat
  entered : List LogMessage
  completed : List LogMessage
  before : List LogMessage
  delivered : Nat → List LogMessage

namespace Logger

/-- `flush` is the next step of the flush thread, `wake` the end of its wait by a
spurious wake-up or a time-out. -/
inductive Action (K : Type u)
  | logWithWaiting (b : Bool)
  | call (k : K) (level : LogLevel) (text : List UInt8)
  | push (k : K)
  | notifyOne (k : K)
  | flush
  | wake (timedOut : Bool)
  | destroy
  | setStop
  | notifyAll
  | join

variable {K : Type u}

def ready (s : Logger K) (timed : Bool) : Bool :=
  if timed then 0 < s.buf.length else s.stop || 0 < s.buf.length

/-- A notification of `_cv`, on which the flush thread alone waits. -/
def notify (s : Logger K) : Logger K :=
  match s.flush with
  | .blocked timed => { s with flush := .relock timed false }
  | _ => s

def deliver (s : Logger K) (j : Nat) (msg : LogMessage) : Logger K :=
  { s with delivered := Function.update s.delivered j (s.delivered j ++ [msg]) }

def flushStep (s : Logger K) : Option (Logger K) :=
  match s.flush with
  | .loopTest => some { s with flush := if s.stop then .returned else .lock }
  | .lock => some { s with flush := .mode }
  | .mode => some { s with flush := .predicate s.logWithWaiting }
  | .predicate timed => some { s with
      flush := if s.ready timed then .stopTest else .blocking timed }
  | .blocking timed => some { s with flush := .blocked timed }
  | .blocked _ => none
  | .relock timed timedOut => some { s with
      flush := if timedOut then .stopTest else .predicate timed }
  | .stopTest => some { s with flush := if s.stop then .returned else .swap }
  | .swap =>
    if 0 < s.buf.length then
      some { s with buf := s.backupBuf, backupBuf := s.buf, flush := .writing 0 0 }
    else some { s with flush := .writing 0 0 }
  | .writing i j =>
    match s.backupBuf[i]? with
    | none => some { s with flush := .clear }
    | some msg =>
      if j < s.destVec then some { s.deliver j msg with flush := .writing i (j + 1) }
      else if msg.level = .FATAL then some { s with flush := .fatal i .setStop }
      else some { s with flush := .writing (i + 1) 0 }
  | .clear => some { s with backupBuf := [], flush := .loopTest }
  | .fatal i .setStop => some { s with stop := true, flush := .fatal i .clearBuf }
  | .fatal i .clearBuf => some { s with buf := [], flush := .fatal i .clearBackup }
  | .fatal i .clearBackup => some { s with backupBuf := [], flush := .fatal i .clearDest }
  | .fatal i .clearDest => some { s with destVec := 0, flush := .fatal i .abort }
  | .fatal _ .abort => some { s with flush := .aborted }
  | .returned | .aborted => none

section Steps

variable [DecidableEq K]

def setCaller (s : Logger K) (k : K) (pc : CallerPc) : Logger K :=
  { s with caller := Function.update s.caller k pc }

/-- Nothing happens once the process has aborted or the logger is destroyed. -/
def step (s : Logger K) (a : Action K) : Option (Logger K) :=
  if s.flush = .aborted ∨ s.destructor = .returned then none
  else
    match a with
    | .logWithWaiting b => some { s with logWithWaiting := b }
    | .call k level text =>
      match s.caller k with
      | .idle => some ({ s with nextTicket := s.nextTicket + 1 }.setCaller k
          (.push ⟨s.nextTicket, level, text⟩))
      | _ => none
    | .push k =>
      match s.caller k with
      | .push msg =>
        if s.flush.holds then none
        else some ({ s with buf := s.buf ++ [msg], entered := s.entered ++ [msg] }.setCaller k
          (.notify msg))
      | _ => none
    | .notifyOne k =>
      match s.caller k with
      | .notify msg =>
        some ({ (if s.logWithWaiting then s else s.notify) with
          completed := s.completed ++ [msg] }.setCaller k .idle)
      | _ => none
    | .flush => s.flushStep
    | .wake timedOut =>
      match s.flush with
      | .blocked timed =>
        if timedOut && !timed then none else some { s with flush := .relock timed timedOut }
      | _ => none
    | .destroy =>
      match s.destructor with
      | .idle => some { s with destructor := .entered, before := s.completed }
      | _ => none
    | .setStop =>
      match s.destructor with
      | .entered => some { s with stop := true, destructor := .stopped }
      | _ => none
    | .notifyAll =>
      match s.destructor with
      | .stopped => some { s.notify with destructor := .notified }
      | _ => none
    | .join =>
      match s.destructor, s.flush with
      | .notified, .returned => some { s with destructor := .returned }
      | _, _ => none

def initial (sinks : Nat) : Logger K :=
  { stop := false, logWithWaiting := false, buf := [], backupBuf := [], destVec := sinks,
    flush := .loopTest, caller := fun _ => .idle, destructor := .idle, nextTicket := 0,
    entered := [], completed := [], before := [], delivered := fun _ => [] }

def machine (K : Type u) [DecidableEq K] (sinks : Nat) : Machine (Logger K) (Action K) where
  init s := s = initial sinks
  step := step

end Steps

/-- What the flush thread does, with the tests it has passed. -/
inductive FlushStep (s : Logger K) : Logger K → Prop
  | enterLoop (pc : s.flush = .loopTest) (running : s.stop = false) :
      FlushStep s { s with flush := .lock }
  | leaveLoop (pc : s.flush = .loopTest) (stopped : s.stop = true) :
      FlushStep s { s with flush := .returned }
  | lock (pc : s.flush = .lock) : FlushStep s { s with flush := .mode }
  | mode (pc : s.flush = .mode) : FlushStep s { s with flush := .predicate s.logWithWaiting }
  | ready {timed} (pc : s.flush = .predicate timed) (ready : s.ready timed = true) :
      FlushStep s { s with flush := .stopTest }
  | unready {timed} (pc : s.flush = .predicate timed) (unready : s.ready timed = false) :
      FlushStep s { s with flush := .blocking timed }
  | block {timed} (pc : s.flush = .blocking timed) : FlushStep s { s with flush := .blocked timed }
  | retest {timed} (pc : s.flush = .relock timed false) :
      FlushStep s { s with flush := .predicate timed }
  | timeOut {timed} (pc : s.flush = .relock timed true) : FlushStep s { s with flush := .stopTest }
  | stopReturn (pc : s.flush = .stopTest) (stopped : s.stop = true) :
      FlushStep s { s with flush := .returned }
  | stopPass (pc : s.flush = .stopTest) (running : s.stop = false) :
      FlushStep s { s with flush := .swap }
  | swap (pc : s.flush = .swap) (some_buf : 0 < s.buf.length) :
      FlushStep s { s with buf := s.backupBuf, backupBuf := s.buf, flush := .writing 0 0 }
  | swapNone (pc : s.flush = .swap) (no_buf : s.buf = []) :
      FlushStep s { s with flush := .writing 0 0 }
  | deliver {i j msg} (pc : s.flush = .writing i j) (found : s.backupBuf[i]? = some msg)
      (sink : j < s.destVec) : FlushStep s { s.deliver j msg with flush := .writing i (j + 1) }
  | fatal {i j msg} (pc : s.flush = .writing i j) (found : s.backupBuf[i]? = some msg)
      (sinks : s.destVec ≤ j) (level : msg.level = .FATAL) :
      FlushStep s { s with flush := .fatal i .setStop }
  | next {i j msg} (pc : s.flush = .writing i j) (found : s.backupBuf[i]? = some msg)
      (sinks : s.destVec ≤ j) : FlushStep s { s with flush := .writing (i + 1) 0 }
  | endBatch {i j} (pc : s.flush = .writing i j) (done : s.backupBuf.length ≤ i) :
      FlushStep s { s with flush := .clear }
  | clear (pc : s.flush = .clear) : FlushStep s { s with backupBuf := [], flush := .loopTest }
  | fatalStop {i} (pc : s.flush = .fatal i .setStop) :
      FlushStep s { s with stop := true, flush := .fatal i .clearBuf }
  | fatalClearBuf {i} (pc : s.flush = .fatal i .clearBuf) :
      FlushStep s { s with buf := [], flush := .fatal i .clearBackup }
  | fatalClearBackup {i} (pc : s.flush = .fatal i .clearBackup) :
      FlushStep s { s with backupBuf := [], flush := .fatal i .clearDest }
  | fatalClearDest {i} (pc : s.flush = .fatal i .clearDest) :
      FlushStep s { s with destVec := 0, flush := .fatal i .abort }
  | abort {i} (pc : s.flush = .fatal i .abort) : FlushStep s { s with flush := .aborted }

/-- What each action does, with the guards it has passed. -/
inductive Step [DecidableEq K] (s : Logger K) : Action K → Logger K → Prop
  | logWithWaiting {b} : Step s (.logWithWaiting b) { s with logWithWaiting := b }
  | call {k level text} (idle : s.caller k = .idle) :
      Step s (.call k level text) ({ s with nextTicket := s.nextTicket + 1 }.setCaller k
        (.push ⟨s.nextTicket, level, text⟩))
  | push {k msg} (pc : s.caller k = .push msg) (free : s.flush.holds = false) :
      Step s (.push k) ({ s with buf := s.buf ++ [msg], entered := s.entered ++ [msg] }.setCaller k
        (.notify msg))
  | notifyOne {k msg} (pc : s.caller k = .notify msg) :
      Step s (.notifyOne k) ({ s.notify with
        completed := s.completed ++ [msg] }.setCaller k .idle)
  | notifyNone {k msg} (pc : s.caller k = .notify msg) (waiting : s.logWithWaiting = true) :
      Step s (.notifyOne k) ({ s with completed := s.completed ++ [msg] }.setCaller k .idle)
  | flush {s'} (moved : FlushStep s s') : Step s .flush s'
  | wake {timed timedOut} (pc : s.flush = .blocked timed) :
      Step s (.wake timedOut) { s with flush := .relock timed timedOut }
  | destroy (idle : s.destructor = .idle) :
      Step s .destroy { s with destructor := .entered, before := s.completed }
  | setStop (entered : s.destructor = .entered) :
      Step s .setStop { s with stop := true, destructor := .stopped }
  | notifyAll (stopped : s.destructor = .stopped) :
      Step s .notifyAll { s.notify with destructor := .notified }
  | join (notified : s.destructor = .notified) (pc : s.flush = .returned) :
      Step s .join { s with destructor := .returned }

variable {s s' : Logger K}

theorem flush_cases (hstep : s.flushStep = some s') : FlushStep s s' := by
  simp only [flushStep] at hstep
  split at hstep
  · rename_i hpc
    cases hstep
    split
    · exact .leaveLoop hpc ‹_›
    · exact .enterLoop hpc (Bool.eq_false_iff.mpr ‹_›)
  · cases hstep
    exact .lock ‹_›
  · cases hstep
    exact .mode ‹_›
  · rename_i timed hpc
    cases hstep
    split
    · exact .ready hpc ‹_›
    · exact .unready hpc (Bool.eq_false_iff.mpr ‹_›)
  · cases hstep
    exact .block ‹_›
  · cases hstep
  · rename_i timed timedOut hpc
    cases timedOut <;> cases hstep
    · exact .retest hpc
    · exact .timeOut hpc
  · rename_i hpc
    cases hstep
    split
    · exact .stopReturn hpc ‹_›
    · exact .stopPass hpc (Bool.eq_false_iff.mpr ‹_›)
  · rename_i hpc
    split at hstep <;> cases hstep
    · exact .swap hpc ‹_›
    · exact .swapNone hpc (List.length_eq_zero_iff.mp (Nat.eq_zero_of_not_pos ‹_›))
  · rename_i i j hpc
    split at hstep
    · cases hstep
      exact .endBatch hpc (List.getElem?_eq_none_iff.mp ‹_›)
    · rename_i msg hmsg
      split at hstep
      · cases hstep
        exact .deliver hpc hmsg ‹_›
      · rename_i hsinks
        split at hstep <;> cases hstep
        · exact .fatal hpc hmsg (Nat.le_of_not_lt hsinks) ‹_›
        · exact .next hpc hmsg (Nat.le_of_not_lt hsinks)
  · cases hstep
    exact .clear ‹_›
  · cases hstep
    exact .fatalStop ‹_›
  · cases hstep
    exact .fatalClearBuf ‹_›
  · cases hstep
    exact .fatalClearBackup ‹_›
  · cases hstep
    exact .fatalClearDest ‹_›
  · cases hstep
    exact .abort ‹_›
  · cases hstep
  · cases hstep

/-- A notification ends the wait of the flush thread and changes nothing else. -/
theorem exists_notify (s : Logger K) : ∃ pc, s.notify = { s with flush := pc } ∧
    (pc = s.flush ∨ ∃ timed, s.flush = .blocked timed ∧ pc = .relock timed false) := by
  rw [notify]
  split
  · rename_i timed hpc
    exact ⟨_, rfl, .inr ⟨timed, hpc, rfl⟩⟩
  · exact ⟨s.flush, rfl, .inl rfl⟩

variable [DecidableEq K] {sinks : Nat} {a : Action K}

theorem step_cases (hstep : (machine K sinks).step s a = some s') : Step s a s' := by
  simp only [machine, step] at hstep
  split at hstep
  · cases hstep
  · cases a with
    | logWithWaiting b =>
      cases hstep
      exact .logWithWaiting
    | call k level text =>
      simp only at hstep
      split at hstep <;> cases hstep
      exact .call ‹_›
    | push k =>
      simp only at hstep
      split at hstep
      · rename_i hpc
        split at hstep <;> cases hstep
        exact .push hpc (Bool.eq_false_iff.mpr ‹_›)
      · cases hstep
    | notifyOne k =>
      simp only at hstep
      split at hstep
      · rename_i hpc
        cases hwaiting : s.logWithWaiting <;> simp only [hwaiting] at hstep <;> cases hstep
        · exact .notifyOne hpc
        · exact .notifyNone hpc hwaiting
      · cases hstep
    | flush => exact .flush (flush_cases hstep)
    | wake timedOut =>
      simp only at hstep
      split at hstep
      · rename_i hpc
        split at hstep <;> cases hstep
        exact .wake hpc
      · cases hstep
    | destroy =>
      simp only at hstep
      split at hstep <;> cases hstep
      exact .destroy ‹_›
    | setStop =>
      simp only at hstep
      split at hstep <;> cases hstep
      exact .setStop ‹_›
    | notifyAll =>
      simp only at hstep
      split at hstep <;> cases hstep
      exact .notifyAll ‹_›
    | join =>
      simp only at hstep
      split at hstep <;> cases hstep
      exact .join ‹_› ‹_›

theorem alive_of_step (hstep : (machine K sinks).step s a = some s') :
    s.flush ≠ .aborted ∧ s.destructor ≠ .returned := by
  simp only [machine, step] at hstep
  split at hstep
  · cases hstep
  · rename_i halive
    exact not_or.mp halive

end Logger

end ServerDevLib.Logging
