import ServerDevLib.Logging.Destruction

/-!
# The wake-up of the flush thread

The flush thread tests the predicate of its wait and blocks while it holds
`_mx`, but `~Logger` stores to `_stop` and notifies without the mutex. A
notification between the test and the block wakes nobody, and the flush thread
then blocks although `_stop` is set.
-/

namespace ServerDevLib.Logging

open Transition

universe u

namespace Logger

variable {K : Type u}

/-- `~Logger` has notified, and the flush thread waits for another notification. -/
def Hung (s : Logger K) : Prop :=
  s.stop = true ∧ s.destructor = .notified ∧ s.flush = .blocked false

/-- `notify_all` does not fall between a test of the predicate and the block. -/
def OutsideWindow (s : Logger K) : Action K → Prop
  | .notifyAll => s.flush ≠ .blocking false
  | _ => True

instance (s : Logger K) (a : Action K) : Decidable (s.OutsideWindow a) :=
  match a with
  | .notifyAll => inferInstanceAs (Decidable (s.flush ≠ .blocking false))
  | .logWithWaiting _ | .call _ _ _ | .push _ | .notifyOne _ | .flush | .wake _ | .destroy
  | .setStop | .join => isTrue trivial

def Awake (s : Logger K) : Prop :=
  s.destructor = .notified → s.flush ≠ .blocking false ∧ s.flush ≠ .blocked false

variable {sinks : Nat} {s s' : Logger K}

theorem awake_flush (hstop : s.destructor.stopping = true → s.stop = true) (h : s.Awake)
    (hstep : FlushStep s s') : s'.Awake := by
  cases hstep with
  | @unready timed hpc hready =>
    intro hnotified
    refine ⟨?_, nofun⟩
    rintro ⟨⟩
    have hstopped : s.stop = true := hstop (by rw [hnotified]; rfl)
    rw [ready, hstopped] at hready
    cases hready
  | @block timed hpc =>
    intro hnotified
    refine ⟨nofun, ?_⟩
    rintro ⟨⟩
    exact (h hnotified).1 hpc
  | _ => exact fun _ => ⟨nofun, nofun⟩

theorem awake_notify (h : s.flush ≠ .blocking false) :
    s.notify.flush ≠ .blocking false ∧ s.notify.flush ≠ .blocked false := by
  rw [notify]
  split
  · constructor <;> rintro ⟨⟩
  · rename_i hother
    exact ⟨h, fun hblocked => hother false hblocked⟩

variable [DecidableEq K] {a : Action K}

theorem awake_step (hr : (machine K sinks).Reachable s) (h : s.Awake) (hcond : s.OutsideWindow a)
    (hstep : (machine K sinks).step s a = some s') : s'.Awake := by
  cases step_cases hstep with
  | logWithWaiting | call | push | notifyNone => exact h
  | notifyOne =>
    obtain ⟨pc, heq, _⟩ := exists_notify s
    intro hnotified
    refine awake_notify (h ?_).1
    rw [heq] at hnotified
    exact hnotified
  | flush hmoved => exact awake_flush (registered_of_reachable hr).stopped h hmoved
  | wake => exact fun _ => ⟨nofun, nofun⟩
  | destroy | setStop | join => exact nofun
  | notifyAll => exact fun _ => awake_notify hcond

/-- The flush thread does not block for good if `notify_all` falls outside of the window. -/
theorem not_hung_of_outsideWindow (h : (machine K sinks).ReachableUnder OutsideWindow s) :
    ¬ s.Hung := by
  have hinit (s : Logger K) (hs : (machine K sinks).init s) : s.Awake := by
    cases hs
    exact nofun
  have hawake : s.Awake :=
    h.invariant_on (fun _ hr => hr.reachable) hinit fun s a s' hr ha hcond hs =>
      awake_step hr ha hcond hs
  rintro ⟨_, hnotified, hblocked⟩
  exact (hawake hnotified).2 hblocked

/-- If it falls into the window, the flush thread blocks for good with its next step. -/
theorem hung_of_window (hr : (machine K sinks).Reachable s) (hpc : s.flush = .blocking false)
    (hstep : (machine K sinks).step s .notifyAll = some s') :
    ∃ t, (machine K sinks).step s' .flush = some t ∧ t.Hung := by
  cases step_cases hstep with
  | notifyAll hstopped =>
    have hstop : s.stop = true := (registered_of_reachable hr).stopped (by rw [hstopped]; rfl)
    have hsame : s.notify = s := by rw [notify, hpc]
    refine ⟨{ s with destructor := .notified, flush := .blocked false }, ?_, hstop, rfl, rfl⟩
    rw [hsame]
    simp only [machine, step, flushStep, hpc]
    rfl

/-- The window is passed before `~Logger` is called, in the mode without waiting. -/
theorem not_hung_of_outsideWindow_blocked : ∃ s, (machine Unit 1).runUnder OutsideWindow (initial 1)
    (List.replicate 5 .flush ++ [.destroy, .setStop, .notifyAll]) = some s ∧
    s.flush = .relock false false ∧ ¬ s.Hung := by
  obtain ⟨s, hrun, hpc⟩ : ∃ s, (machine Unit 1).runUnder OutsideWindow (initial 1)
    (List.replicate 5 .flush ++ [.destroy, .setStop, .notifyAll]) = some s ∧
      s.flush = .relock false false := ⟨_, rfl, rfl⟩
  exact ⟨s, hrun, hpc, not_hung_of_outsideWindow (Machine.reachableUnder_of_runUnder rfl hrun)⟩

/-- The store and the notification fall between the test and the block. -/
theorem hung_in_window : ∃ s, (machine Unit 1).run (initial 1)
    (List.replicate 4 .flush ++ [.destroy, .setStop, .notifyAll, .flush]) = some s ∧ s.Hung :=
  ⟨_, rfl, rfl, rfl, rfl⟩

end Logger

end ServerDevLib.Logging
