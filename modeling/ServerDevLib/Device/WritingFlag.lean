import Mathlib.Data.List.Basic
import Mathlib.Logic.Function.Basic
import ServerDevLib.Device.File
import ServerDevLib.Foundation.Transition

/-!
# The writing flag of a file

Threads call `write`, `read` and `Close` on one file. The mutex is held from
the lock to the way out, and a `read` gives it up while it waits; `Close` does
not take it. A stream operation may fail at any time.
-/

namespace ServerDevLib.Device

open FileStream Transition

universe u

/-- Where a thread is in a call; the names are those of what it does next. -/
inductive FilePc
  | idle
  | writeLock (buf : List UInt8) (offset size : Nat)
  | writeGuard (buf : List UInt8) (offset size : Nat)
  | writeTransfer (buf : List UInt8) (offset size : Nat)
  | writeRestore (getPos : Int) (offset : Nat)
  | writeUnlock
  | writeNotify
  | readLock (offset size : Nat)
  | readGuard (offset size : Nat)
  | readTest (offset validSize : Nat)
  | readWaiting (offset validSize : Nat)
  | readRelock (offset validSize : Nat)

namespace FilePc

def holds : FilePc → Bool
  | .writeGuard .. | .writeTransfer .. | .writeRestore .. | .writeUnlock | .readGuard ..
  | .readTest .. => true
  | _ => false

def inWrite : FilePc → Bool
  | .writeLock .. | .writeGuard .. | .writeTransfer .. | .writeRestore .. | .writeUnlock
  | .writeNotify => true
  | _ => false

def raised : FilePc → Bool
  | .writeTransfer .. | .writeRestore .. => true
  | _ => false

def waits : FilePc → Bool
  | .readWaiting .. => true
  | _ => false

theorem holds_of_raised {pc : FilePc} (h : pc.raised = true) : pc.holds = true := by
  cases pc <;> first | rfl | cases h

theorem inWrite_of_raised {pc : FilePc} (h : pc.raised = true) : pc.inWrite = true := by
  cases pc <;> first | rfl | cases h

end FilePc

/-- `waiting` has the threads that are blocked on `_cv`. -/
structure SharedFile (K : Type u) where
  file : File
  lock : Option K
  waiting : List K
  thread : K → FilePc

namespace SharedFile

/-- `broken` says whether a stream operation of the step fails on its own account. -/
inductive Action (K : Type u)
  | callWrite (k : K) (buf : List UInt8) (offset size : Nat)
  | callRead (k : K) (offset size : Nat)
  | close (k : K) (broken : Bool)
  | lock (k : K)
  | guard (k : K)
  | transfer (k : K) (broken : Bool) (room : Nat)
  | restore (k : K) (broken : Bool)
  | unlock (k : K)
  | notify (k : K) (woken : Option K)
  | test (k : K) (broken : Bool)
  | wake (k : K)

variable {K : Type u}

section Steps

variable [DecidableEq K]

def setThread (s : SharedFile K) (k : K) (pc : FilePc) : SharedFile K :=
  { s with thread := Function.update s.thread k pc }

/-- A `return` gives the mutex up. -/
def leave (s : SharedFile K) (k : K) : SharedFile K := { s with lock := none }.setThread k .idle

def setStream (s : SharedFile K) (stream : Stream) : SharedFile K :=
  { s with file := { s.file with stream := stream } }

def setWriting (s : SharedFile K) (b : Bool) : SharedFile K :=
  { s with file := { s.file with writing := b } }

def transferred (s : SharedFile K) (buf : List UInt8) (offset size : Nat) (broken : Bool)
    (room : Nat) : Stream :=
  ((s.file.seekpTo offset).disturb broken).write (buf.take size) room

def unblock (s : SharedFile K) (k : K) : Option (SharedFile K) :=
  match s.thread k with
  | .readWaiting offset validSize =>
    some ({ s with waiting := s.waiting.erase k }.setThread k (.readRelock offset validSize))
  | _ => none

def step (s : SharedFile K) : Action K → Option (SharedFile K)
  | .callWrite k buf offset size =>
    match s.thread k with
    | .idle => some (s.setThread k (.writeLock buf offset size))
    | _ => none
  | .callRead k offset size =>
    match s.thread k with
    | .idle => some (s.setThread k (.readLock offset size))
    | _ => none
  | .close k broken =>
    match s.thread k with
    | .idle => some (s.setStream (s.file.close.stream.disturb broken))
    | _ => none
  | .lock k =>
    match s.lock, s.thread k with
    | none, .writeLock buf offset size =>
      some ({ s with lock := some k }.setThread k (.writeGuard buf offset size))
    | none, .readLock offset size =>
      some ({ s with lock := some k }.setThread k (.readGuard offset size))
    | none, .readRelock offset validSize =>
      some ({ s with lock := some k }.setThread k (.readTest offset validSize))
    | _, _ => none
  | .guard k =>
    match s.thread k with
    | .writeGuard buf offset size =>
      if !s.file.access || size == 0 then some (s.leave k)
      else some ((s.setWriting true).setThread k (.writeTransfer buf offset size))
    | .readGuard offset size =>
      if !s.file.access || size == 0 || decide (offset > s.file.size) then some (s.leave k)
      else some (s.setThread k
        (.readTest offset (if size < s.file.size then size else s.file.size)))
    | _ => none
  | .transfer k broken room =>
    match s.thread k with
    | .writeTransfer buf offset size =>
      let written := s.transferred buf offset size broken room
      if written.fail then some ((s.setStream written).leave k)
      else some ((s.setStream written).setThread k
        (.writeRestore ((s.file.seekpTo offset).disturb broken).tell offset))
    | _ => none
  | .restore k broken =>
    match s.thread k with
    | .writeRestore getPos offset =>
      some (((s.setStream ((File.restore s.file.stream getPos offset).disturb broken)).setWriting
        false).setThread k .writeUnlock)
    | _ => none
  | .unlock k =>
    match s.thread k with
    | .writeUnlock => some ({ s with lock := none }.setThread k .writeNotify)
    | _ => none
  | .notify k woken =>
    match s.thread k, woken with
    | .writeNotify, none => if s.waiting = [] then some (s.setThread k .idle) else none
    | .writeNotify, some j => if j ∈ s.waiting then (s.setThread k .idle).unblock j else none
    | _, _ => none
  | .test k broken =>
    match s.thread k with
    | .readTest offset validSize =>
      if s.file.writing then
        some ({ s with lock := none, waiting := k :: s.waiting }.setThread k
          (.readWaiting offset validSize))
      else
        let got := ((s.file.seekTo offset).disturb broken).read validSize
        some ((s.setStream got.2).leave k)
    | _ => none
  | .wake k => s.unblock k

def machine (K : Type u) [DecidableEq K] : Machine (SharedFile K) (Action K) where
  init s := ∃ content, s = ⟨File.create content, none, [], fun _ => .idle⟩
  step := step

end Steps

/-- The flag is down where no write is in progress, and no read waits for it. -/
structure Lowered (s : SharedFile K) : Prop where
  flag : (∀ k, (s.thread k).inWrite = false) → s.file.writing = false
  passes : ∀ k, (s.thread k).waits = false

/-- A holder has the mutex, and the flag is up only on behalf of a holder. -/
structure Guarded (s : SharedFile K) : Prop where
  holder : ∀ k, (s.thread k).holds = true → s.lock = some k
  flag : s.file.writing = true → ∃ k, (s.thread k).raised = true
  noWait : ∀ k, (s.thread k).waits = false

variable {s s' : SharedFile K} {k : K} {pc : FilePc}

theorem Guarded.lowered (h : s.Guarded) : s.Lowered where
  flag hidle := by
    cases hwriting : s.file.writing with
    | false => rfl
    | true =>
      obtain ⟨k, hraised⟩ := h.flag hwriting
      have hin := FilePc.inWrite_of_raised hraised
      rw [hidle k] at hin
      cases hin
  passes := h.noWait

/-- A holder that has not raised the flag finds it down. -/
theorem Guarded.writing_eq_false (h : s.Guarded) (hholds : (s.thread k).holds = true)
    (hraised : (s.thread k).raised = false) : s.file.writing = false := by
  cases hwriting : s.file.writing with
  | false => rfl
  | true =>
    obtain ⟨j, hj⟩ := h.flag hwriting
    have hsame : j = k := Option.some.inj
      ((h.holder j (FilePc.holds_of_raised hj)).symm.trans (h.holder k hholds))
    rw [hsame, hraised] at hj
    cases hj

/-- The same for a holder of which it is known where it is. -/
theorem Guarded.holding (h : s.Guarded) (hpc : s.thread k = pc) (hholds : pc.holds = true)
    (hraised : pc.raised = false) : (s.thread k).holds = true ∧ s.file.writing = false := by
  subst hpc
  exact ⟨hholds, h.writing_eq_false hholds hraised⟩

theorem Guarded.alone (h : s.Guarded) (hholds : (s.thread k).holds = true) {j : K} (hne : j ≠ k) :
    (s.thread j).holds = false := by
  cases hj : (s.thread j).holds with
  | false => rfl
  | true => exact absurd (Option.some.inj ((h.holder j hj).symm.trans (h.holder k hholds))) hne

theorem Guarded.setStream (h : s.Guarded) (stream : Stream) : (s.setStream stream).Guarded :=
  ⟨h.holder, h.flag, h.noWait⟩

/-- The stream of a write is good after its data. -/
def streamGood (s : SharedFile K) : Action K → Bool
  | .transfer k broken room =>
    match s.thread k with
    | .writeTransfer buf offset size => !(s.transferred buf offset size broken room).fail
    | _ => true
  | _ => true

def Succeeds (s : SharedFile K) (a : Action K) : Prop := s.streamGood a = true

instance (s : SharedFile K) (a : Action K) : Decidable (s.Succeeds a) :=
  inferInstanceAs (Decidable (_ = true))

/-- The data goes through exactly if no failure was left behind or comes up, the file is open, the
offset is a position and the stream takes the data. -/
theorem succeeds_transfer_iff {buf : List UInt8} {offset size room : Nat} {broken : Bool}
    (hpc : s.thread k = .writeTransfer buf offset size) (hne : buf.take size ≠ [])
    (hoffset : offset < 2 ^ 64) : s.Succeeds (.transfer k broken room) ↔
      ((s.file.stream.usable = true ∧ offset < 2 ^ 63) ∧ broken = false) ∧
        (buf.take size).length ≤ room := by
  have hfail := @Stream.fail_write_iff ((s.file.seekpTo offset).disturb broken) _ room hne
  rw [Stream.usable_disturb, File.usable_seekpTo _ hoffset, Bool.and_eq_true, Bool.and_eq_true,
    decide_eq_true_iff, Bool.not_eq_true'] at hfail
  simp only [Succeeds, streamGood, hpc, Bool.not_eq_true']
  exact hfail

variable [DecidableEq K]

theorem Guarded.move (h : s.Guarded) (hthread : s'.thread = Function.update s.thread k pc)
    (hwaits : pc.waits = false) (hheld : pc.holds = true → s'.lock = some k)
    (hothers : ∀ j, j ≠ k → (s.thread j).holds = true → s'.lock = some j)
    (hflag : s'.file.writing = true → pc.raised = true ∨ ∃ j, j ≠ k ∧ (s.thread j).raised = true) :
    s'.Guarded := by
  constructor
  · intro j hj
    rw [hthread] at hj
    by_cases heq : j = k
    · rw [heq, Function.update_self] at hj
      rw [heq, hheld hj]
    · rw [Function.update_of_ne heq] at hj
      exact hothers j heq hj
  · intro hwriting
    cases hflag hwriting with
    | inl hraised =>
      refine ⟨k, ?_⟩
      rw [hthread, Function.update_self, hraised]
    | inr hother =>
      obtain ⟨j, hne, hraised⟩ := hother
      refine ⟨j, ?_⟩
      rw [hthread, Function.update_of_ne hne, hraised]
  · intro j
    rw [hthread]
    by_cases heq : j = k
    · rw [heq, Function.update_self, hwaits]
    · rw [Function.update_of_ne heq, h.noWait]

theorem Guarded.setThread (h : s.Guarded) (hold : (s.thread k).raised = false)
    (hwaits : pc.waits = false) (hholds : pc.holds = true → (s.thread k).holds = true) :
    (s.setThread k pc).Guarded := by
  apply h.move rfl hwaits
  · exact fun hpc => h.holder k (hholds hpc)
  · exact fun j _ hj => h.holder j hj
  · intro hwriting
    obtain ⟨j, hj⟩ := h.flag hwriting
    refine .inr ⟨j, ?_, hj⟩
    rintro rfl
    rw [hold] at hj
    cases hj

theorem Guarded.take (h : s.Guarded) (hfree : s.lock = none) (hwaits : pc.waits = false) :
    ({ s with lock := some k }.setThread k pc).Guarded := by
  have hnone (j : K) (hj : (s.thread j).holds = true) : False := by
    have hlock := h.holder j hj
    rw [hfree] at hlock
    cases hlock
  apply h.move rfl hwaits
  · exact fun _ => rfl
  · exact fun j _ hj => (hnone j hj).elim
  · intro hwriting
    obtain ⟨j, hj⟩ := h.flag hwriting
    exact (hnone j (FilePc.holds_of_raised hj)).elim

theorem Guarded.release (h : s.Guarded) (hold : (s.thread k).holds = true)
    (hdown : s.file.writing = false) (hwaits : pc.waits = false) (hholds : pc.holds = false) :
    ({ s with lock := none }.setThread k pc).Guarded := by
  apply h.move rfl hwaits
  · intro hpc
    rw [hholds] at hpc
    cases hpc
  · intro j hne hj
    rw [h.alone hold hne] at hj
    cases hj
  · intro hwriting
    change s.file.writing = true at hwriting
    rw [hdown] at hwriting
    cases hwriting

theorem Guarded.setWriting (h : s.Guarded) (hold : (s.thread k).holds = true)
    (hholds : pc.holds = true) {b : Bool} (hraised : b = true → pc.raised = true) :
    ((s.setWriting b).setThread k pc).Guarded := by
  apply h.move rfl
  · cases pc <;> first | rfl | cases hholds
  · exact fun _ => h.holder k hold
  · exact fun j _ hj => h.holder j hj
  · exact fun hwriting => .inl (hraised hwriting)

variable {a : Action K}

theorem Guarded.unblock (h : s.Guarded) (j : K) : s.unblock j = none := by
  have hwaits := h.noWait j
  simp only [SharedFile.unblock]
  split
  · rename_i hpc
    rw [hpc] at hwaits
    cases hwaits
  · rfl

/-- Where no write fails, every step keeps the flag with its holder. -/
theorem guarded_step (h : s.Guarded) (hcond : s.Succeeds a)
    (hstep : (machine K).step s a = some s') : s'.Guarded := by
  cases a with
  | callWrite k buf offset size =>
    simp only [machine, step] at hstep
    split at hstep <;> cases hstep
    rename_i hpc
    exact h.setThread (by rw [hpc]; rfl) rfl nofun
  | callRead k offset size =>
    simp only [machine, step] at hstep
    split at hstep <;> cases hstep
    rename_i hpc
    exact h.setThread (by rw [hpc]; rfl) rfl nofun
  | close k broken =>
    simp only [machine, step] at hstep
    split at hstep <;> cases hstep
    exact h.setStream _
  | lock k =>
    simp only [machine, step] at hstep
    split at hstep <;> cases hstep
    · exact h.take ‹_› rfl
    · exact h.take ‹_› rfl
    · exact h.take ‹_› rfl
  | guard k =>
    simp only [machine, step] at hstep
    split at hstep
    · rename_i hpc
      obtain ⟨hholds, hdown⟩ := h.holding hpc rfl rfl
      split at hstep <;> cases hstep
      · exact h.release hholds hdown rfl rfl
      · exact h.setWriting hholds rfl fun _ => rfl
    · rename_i hpc
      obtain ⟨hholds, hdown⟩ := h.holding hpc rfl rfl
      split at hstep <;> cases hstep
      · exact h.release hholds hdown rfl rfl
      · exact h.setThread (by rw [hpc]; rfl) rfl fun _ => hholds
    · cases hstep
  | transfer k broken room =>
    simp only [machine, step] at hstep
    split at hstep
    · rename_i buf offset size hpc
      have hholds : (s.thread k).holds = true := by rw [hpc]; rfl
      simp only [Succeeds, streamGood, hpc, Bool.not_eq_true'] at hcond
      rw [hcond] at hstep
      cases hstep
      apply h.move rfl rfl
      · exact fun _ => h.holder k hholds
      · exact fun j _ hj => h.holder j hj
      · exact fun _ => .inl rfl
    · cases hstep
  | restore k broken =>
    simp only [machine, step] at hstep
    split at hstep <;> cases hstep
    rename_i getPos offset hpc
    have hholds : (s.thread k).holds = true := by rw [hpc]; rfl
    have hrestored := h.setStream ((File.restore s.file.stream getPos offset).disturb broken)
    exact hrestored.setWriting hholds rfl nofun
  | unlock k =>
    simp only [machine, step] at hstep
    split at hstep <;> cases hstep
    rename_i hpc
    obtain ⟨hholds, hdown⟩ := h.holding hpc rfl rfl
    exact h.release hholds hdown rfl rfl
  | notify k woken =>
    simp only [machine, step] at hstep
    split at hstep
    · rename_i hpc
      split at hstep <;> cases hstep
      exact h.setThread (by rw [hpc]; rfl) rfl nofun
    · rename_i j hpc
      have hidle : (s.setThread k .idle).Guarded := h.setThread (by rw [hpc]; rfl) rfl nofun
      rw [hidle.unblock, ite_self] at hstep
      cases hstep
    · cases hstep
  | test k broken =>
    simp only [machine, step] at hstep
    split at hstep
    · rename_i hpc
      obtain ⟨hholds, hdown⟩ := h.holding hpc rfl rfl
      rw [hdown] at hstep
      cases hstep
      exact (h.setStream _).release hholds hdown rfl rfl
    · cases hstep
  | wake k =>
    simp only [machine, step, h.unblock] at hstep
    cases hstep

/-- In a run without a failing write the flag is up for a write in progress only, and no read
waits for it. -/
theorem lowered_of_reachable (h : (machine K).ReachableUnder Succeeds s) : s.Lowered := by
  have hguarded : s.Guarded := by
    apply h.invariant
    · rintro s ⟨content, rfl⟩
      refine ⟨nofun, fun hwriting => ?_, fun _ => rfl⟩
      cases content <;> cases hwriting
    · exact fun s a s' hs hcond hstep => guarded_step hs hcond hstep
  exact hguarded.lowered

/-- The steps of a call of `write` with no other thread in between. -/
def writeSteps (k : K) (buf : List UInt8) (offset size room : Nat) : List (Action K) :=
  [.callWrite k buf offset size, .lock k, .guard k, .transfer k false room, .restore k false,
    .unlock k, .notify k none]

/-- A call that is not interrupted does what the call on the file alone does. -/
theorem run_writeSteps {buf : List UInt8} {offset size room : Nat} (hidle : s.thread k = .idle)
    (hfree : s.lock = none) (hwaiting : s.waiting = []) (haccess : s.file.access = true)
    (hsize : 0 < size)
    (hok : ((s.file.seekpTo offset).write (buf.take size) room).fail = false) :
    ∃ s', (machine K).run s (writeSteps k buf offset size room) = some s' ∧
      s'.file = (s.file.writeAt buf offset size room).1 ∧ s'.lock = none ∧
      s'.thread k = .idle := by
  have hwrite : (s.file.writeAt buf offset size room).1 = { s.file with
      writing := false
      stream := File.restore ((s.file.seekpTo offset).write (buf.take size) room)
        (s.file.seekpTo offset).tell offset } := by
    simp only [File.writeAt, File.guard_eq_false haccess hsize, hok, Bool.false_eq_true, if_false]
  have hseek (access writing : Bool) :
      File.seekpTo ⟨access, writing, s.file.stream⟩ offset = s.file.seekpTo offset := rfl
  simp [writeSteps, Machine.run, machine, step, hidle, hfree, haccess, Nat.ne_of_gt hsize,
    setThread, setWriting, setStream, transferred, hseek, hok, hwaiting, hwrite]

def start (content : List UInt8) : SharedFile Unit :=
  ⟨File.create (some content), none, [], fun _ => .idle⟩

theorem lowered_of_reachable_write : ∃ s, (machine Unit).runUnder Succeeds (start [])
    (writeSteps () [1] 0 1 1) = some s ∧ s.file.stream.content = [1] ∧ s.Lowered := by
  obtain ⟨s, hrun, hcontent⟩ : ∃ s, (machine Unit).runUnder Succeeds (start [])
      (writeSteps () [1] 0 1 1) = some s ∧ s.file.stream.content = [1] := ⟨_, rfl, rfl⟩
  exact ⟨s, hrun, hcontent, lowered_of_reachable
    (Machine.reachableUnder_of_runUnder ⟨some [], rfl⟩ hrun)⟩

/-- A write to a file that is closed, and a read. -/
def failedWrite : List (Action Unit) :=
  [.close () false, .callWrite () [1] 0 1, .lock (), .guard (), .transfer () false 1,
    .callRead () 0 1, .lock (), .guard (), .test () false]

/-- The flag stays up after the failed write, and the read waits. -/
theorem not_lowered : ∃ s, (machine Unit).Reachable s ∧ (∀ k, (s.thread k).inWrite = false) ∧
    s.file.writing = true ∧ ∃ k, (s.thread k).waits = true := by
  obtain ⟨s, hrun, hidle, hwriting, hwaits⟩ : ∃ s, (machine Unit).run (start [5]) failedWrite =
      some s ∧ (∀ k, (s.thread k).inWrite = false) ∧ s.file.writing = true ∧
      (s.thread ()).waits = true := ⟨_, rfl, fun _ => rfl, rfl, rfl⟩
  exact ⟨s, Machine.reachable_of_run ⟨some [5], rfl⟩ hrun, hidle, hwriting, (), hwaits⟩

end SharedFile

end ServerDevLib.Device
