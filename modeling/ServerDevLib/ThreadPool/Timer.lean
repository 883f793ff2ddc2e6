import ServerDevLib.Foundation.Progress

/-!
# Timers

A thread in `Start` sleeps and calls back in turns until it finds `_stop` set,
and nothing clears `_stop`. In one turn `_cb` is read by the test and once
more by the call; other threads may set it, the interval and `_stop` in
between, so each access is a step of its own. An empty function that is
called throws out of `Start`, which the thread may call again; a function that
is set returns.
-/

namespace ServerDevLib.ThreadPool

open Transition

/-- Where a thread is in `Start`. -/
inductive TimerPc (C : Type)
  | idle
  | test
  | sleep
  | asleep (interval : UInt64)
  | check
  | call
  | calling (cb : C)
  | count
  | thrown

namespace TimerPc

variable {C : Type}

/-- The thread has passed the test of `_stop`, and its callback is still to come. -/
def armed : TimerPc C → Bool
  | .sleep | .asleep _ | .check | .call => true
  | .idle | .test | .calling _ | .count | .thrown => false

/-- How many steps a thread has left once `_stop` is set. -/
def left : TimerPc C → Nat
  | .idle | .thrown => 0
  | .test => 1
  | .count => 2
  | .calling _ => 3
  | .call => 4
  | .check => 5
  | .asleep _ => 6
  | .sleep => 7

theorem left_le (pc : TimerPc C) : pc.left ≤ 7 := by cases pc <;> simp [left]

/-- The thread is not in `Start`. -/
def outside : TimerPc C → Prop
  | .idle | .thrown => True
  | .test | .sleep | .asleep _ | .check | .call | .calling _ | .count => False

theorem left_of_outside {pc : TimerPc C} (h : pc.outside) : pc.left = 0 := by
  cases pc with
  | idle | thrown => rfl
  | test | sleep | asleep | check | call | calling | count => exact h.elim

def isIdle : TimerPc C → Bool
  | .idle => true
  | .test | .sleep | .asleep _ | .check | .call | .calling _ | .count | .thrown => false

theorem eq_idle {pc : TimerPc C} (h : pc.isIdle = true) : pc = .idle := by
  cases pc with
  | idle => rfl
  | test | sleep | asleep | check | call | calling | count | thrown => cases h

end TimerPc

structure Timer (P C : Type) where
  interval : UInt64
  stop : Bool
  shotedCount : UInt64
  cb : Option C
  thread : P → TimerPc C

namespace Timer

/-- The steps of a thread in `Start`, and the other members. -/
inductive Action (P C : Type)
  | start (p : P)
  | test (p : P)
  | sleep (p : P)
  | wake (p : P)
  | check (p : P)
  | call (p : P)
  | finish (p : P)
  | count (p : P)
  | stop
  | setInterval (interval : UInt64)
  | setCallback (interval : UInt64) (cb : Option C)
  | reset (interval : UInt64) (cb : Option C)

namespace Action

variable {P C : Type} [DecidableEq P]

/-- The thread goes on in its call of `Start`. -/
def moves (p : P) : Action P C → Bool
  | .test q | .sleep q | .wake q | .check q | .call q | .finish q | .count q => q = p
  | .start _ | .stop | .setInterval _ | .setCallback _ _ | .reset _ _ => false

def calls (p : P) : Action P C → Bool
  | .call q => q = p
  | _ => false

def starts (p : P) : Action P C → Bool
  | .start q => q = p
  | _ => false

end Action

variable {P C : Type} [DecidableEq P]

def goto (s : Timer P C) (p : P) (pc : TimerPc C) : Timer P C :=
  { s with thread := Function.update s.thread p pc }

def step (s : Timer P C) : Action P C → Option (Timer P C)
  | .start p =>
    match s.thread p with
    | .idle | .thrown => some (s.goto p .test)
    | _ => none
  | .test p =>
    match s.thread p with
    | .test => some (s.goto p (if s.stop then .idle else .sleep))
    | _ => none
  | .sleep p =>
    match s.thread p with
    | .sleep => some (s.goto p (.asleep s.interval))
    | _ => none
  | .wake p =>
    match s.thread p with
    | .asleep _ => some (s.goto p .check)
    | _ => none
  | .check p =>
    match s.thread p with
    | .check => some (s.goto p (if s.cb.isSome then .call else .count))
    | _ => none
  | .call p =>
    match s.thread p with
    | .call =>
      match s.cb with
      | some cb => some (s.goto p (.calling cb))
      | none => some (s.goto p .thrown)
    | _ => none
  | .finish p =>
    match s.thread p with
    | .calling _ => some (s.goto p .count)
    | _ => none
  | .count p =>
    match s.thread p with
    | .count => some ({ s with shotedCount := s.shotedCount + 1 }.goto p .test)
    | _ => none
  | .stop => some { s with stop := true }
  | .setInterval interval => some { s with interval := interval }
  | .setCallback interval cb =>
    some { s with interval := interval, cb := cb, shotedCount := 0 }
  | .reset interval cb => some { s with interval := interval, cb := cb }

/-- The default constructor. -/
def initial : Timer P C :=
  { interval := 0, stop := false, shotedCount := 0, cb := none, thread := fun _ => .idle }

def machine (P C : Type) [DecidableEq P] : Machine (Timer P C) (Action P C) where
  init s := s = initial
  step := step

/-- What each action does, with the guards it has passed. -/
inductive Step (s : Timer P C) : Action P C → Timer P C → Prop
  | start {p} (outside : (s.thread p).outside) : Step s (.start p) (s.goto p .test)
  | leave {p} (test : s.thread p = .test) (stopped : s.stop = true) :
      Step s (.test p) (s.goto p .idle)
  | turn {p} (test : s.thread p = .test) (running : s.stop = false) :
      Step s (.test p) (s.goto p .sleep)
  | sleep {p} (sleep : s.thread p = .sleep) : Step s (.sleep p) (s.goto p (.asleep s.interval))
  | wake {p interval} (asleep : s.thread p = .asleep interval) : Step s (.wake p) (s.goto p .check)
  | checkSet {p} (check : s.thread p = .check) (set : s.cb ≠ none) :
      Step s (.check p) (s.goto p .call)
  | checkEmpty {p} (check : s.thread p = .check) (empty : s.cb = none) :
      Step s (.check p) (s.goto p .count)
  | call {p cb} (call : s.thread p = .call) (set : s.cb = some cb) :
      Step s (.call p) (s.goto p (.calling cb))
  | throw {p} (call : s.thread p = .call) (empty : s.cb = none) :
      Step s (.call p) (s.goto p .thrown)
  | finish {p cb} (calling : s.thread p = .calling cb) : Step s (.finish p) (s.goto p .count)
  | count {p} (count : s.thread p = .count) :
      Step s (.count p) ({ s with shotedCount := s.shotedCount + 1 }.goto p .test)
  | stop : Step s .stop { s with stop := true }
  | setInterval {interval} : Step s (.setInterval interval) { s with interval := interval }
  | setCallback {interval cb} :
      Step s (.setCallback interval cb) { s with interval := interval, cb := cb, shotedCount := 0 }
  | reset {interval cb} : Step s (.reset interval cb) { s with interval := interval, cb := cb }

variable {s s' : Timer P C} {a : Action P C}

theorem step_cases (hstep : (machine P C).step s a = some s') : Step s a s' := by
  cases a with
  | start p =>
    simp only [machine, step] at hstep
    split at hstep <;> cases hstep <;> rename_i hpc
    · exact .start (by rw [hpc]; trivial)
    · exact .start (by rw [hpc]; trivial)
  | test p =>
    simp only [machine, step] at hstep
    split at hstep <;> cases hstep
    rename_i hpc
    cases hstop : s.stop with
    | true => exact .leave hpc hstop
    | false => exact .turn hpc hstop
  | sleep p =>
    simp only [machine, step] at hstep
    split at hstep <;> cases hstep
    exact .sleep ‹_›
  | wake p =>
    simp only [machine, step] at hstep
    split at hstep <;> cases hstep
    exact .wake ‹_›
  | check p =>
    simp only [machine, step] at hstep
    split at hstep <;> cases hstep
    rename_i hpc
    cases hcb : s.cb with
    | none => exact .checkEmpty hpc hcb
    | some cb => exact .checkSet hpc (by rw [hcb]; exact Option.some_ne_none cb)
  | call p =>
    simp only [machine, step] at hstep
    split at hstep
    · rename_i hpc
      split at hstep <;> cases hstep
      · rename_i cb hcb
        exact .call hpc hcb
      · rename_i hcb
        exact .throw hpc hcb
    · cases hstep
  | finish p =>
    simp only [machine, step] at hstep
    split at hstep <;> cases hstep
    exact .finish ‹_›
  | count p =>
    simp only [machine, step] at hstep
    split at hstep <;> cases hstep
    exact .count ‹_›
  | stop =>
    cases hstep
    exact .stop
  | setInterval interval =>
    cases hstep
    exact .setInterval
  | setCallback interval cb =>
    cases hstep
    exact .setCallback
  | reset interval cb =>
    cases hstep
    exact .reset

theorem thread_goto_self (p : P) (pc : TimerPc C) : (s.goto p pc).thread p = pc :=
  Function.update_self ..

theorem thread_goto_of_ne {p q : P} (h : p ≠ q) (pc : TimerPc C) :
    (s.goto q pc).thread p = s.thread p :=
  Function.update_of_ne h ..

/-- Only the thread that moves changes what it has left. -/
theorem paid_goto {rank : TimerPc C → Nat} {n : Nat} {p q : P} {pc : TimerPc C}
    (h : n + rank pc ≤ rank (s.thread q)) :
    (if decide (q = p) then n else 0) + rank ((s.goto q pc).thread p) ≤ rank (s.thread p) := by
  rcases eq_or_ne p q with rfl | hne
  · rw [thread_goto_self, decide_eq_true rfl, if_pos rfl]
    exact h
  · rw [thread_goto_of_ne hne, decide_eq_false hne.symm]
    simp

theorem stop_step (h : s.stop = true) (hstep : (machine P C).step s a = some s') :
    s'.stop = true := by
  cases step_cases hstep with
  | stop => rfl
  | _ => exact h

theorem moves_pays (p : P) : (machine P C).Pays (Action.moves p) (Action.starts p)
    (fun s => s.stop = true) fun s => (s.thread p).left where
  keeps _ _ _ h hstep := stop_step h hstep
  paid s a s' h hstep := by
    have hmove {q : P} {pc : TimerPc C} (hlt : 1 + pc.left ≤ (s.thread q).left) :
        (if decide (q = p) then 1 else 0) + ((s.goto q pc).thread p).left ≤
          0 + (s.thread p).left := by
      rw [Nat.zero_add]
      exact paid_goto hlt
    cases step_cases hstep with
    | @start q hpc =>
      simp only [Action.moves, Action.starts]
      rcases eq_or_ne p q with rfl | hne
      · rw [thread_goto_self, TimerPc.left_of_outside hpc]
        simp [TimerPc.left]
      · rw [thread_goto_of_ne hne]
        simp
    | turn _ hrunning =>
      rw [h] at hrunning
      cases hrunning
    | leave hpc | sleep hpc | wake hpc | checkSet hpc | checkEmpty hpc | call hpc | throw hpc
    | finish hpc | count hpc =>
      refine hmove ?_
      rw [hpc]
      simp [TimerPc.left]
    | stop | setInterval | setCallback | reset => simp [Action.moves, Action.starts]

/-- How many calls a thread has left once `_stop` is set. -/
def callsLeft (pc : TimerPc C) : Nat := if pc.armed then 1 else 0

theorem callsLeft_le (pc : TimerPc C) : callsLeft pc ≤ 1 := by
  simp only [callsLeft]
  split <;> omega

theorem calls_pays (p : P) : (machine P C).Pays (Action.calls p) (fun _ => false)
    (fun s => s.stop = true) fun s => callsLeft (s.thread p) where
  keeps _ _ _ h hstep := stop_step h hstep
  paid s a s' h hstep := by
    have hmove {n : Nat} {q : P} {pc : TimerPc C}
        (hle : n + callsLeft pc ≤ callsLeft (s.thread q)) :
        (if decide (q = p) then n else 0) + callsLeft ((s.goto q pc).thread p) ≤
          0 + callsLeft (s.thread p) := by
      rw [Nat.zero_add]
      exact paid_goto hle
    have hkeep {q : P} {pc : TimerPc C} (hle : callsLeft pc ≤ callsLeft (s.thread q)) :
        (if false then 1 else 0) + callsLeft ((s.goto q pc).thread p) ≤
          0 + callsLeft (s.thread p) := by
      have hzero : 0 + callsLeft pc ≤ callsLeft (s.thread q) := by omega
      simpa using hmove hzero
    cases step_cases hstep with
    | turn _ hrunning =>
      rw [h] at hrunning
      cases hrunning
    | call hpc | throw hpc =>
      refine hmove ?_
      rw [hpc]
      simp [callsLeft, TimerPc.armed]
    | start | leave =>
      refine hkeep ?_
      simp [callsLeft, TimerPc.armed]
    | sleep hpc | wake hpc | checkSet hpc | checkEmpty hpc | finish hpc | count hpc =>
      refine hkeep ?_
      rw [hpc]
      simp [callsLeft, TimerPc.armed]
    | stop | setInterval | setCallback | reset => simp [Action.calls]

/-- A thread in `Start` can take its next step. -/
theorem enabled_of_inside {p : P} (h : ¬ (s.thread p).outside) :
    ∃ a, Action.moves p a = true ∧ ((machine P C).step s a).isSome = true := by
  cases hpc : s.thread p with
  | idle | thrown =>
    rw [hpc] at h
    exact absurd trivial h
  | test => exact ⟨.test p, decide_eq_true rfl, by simp [machine, step, hpc]⟩
  | sleep => exact ⟨.sleep p, decide_eq_true rfl, by simp [machine, step, hpc]⟩
  | asleep interval => exact ⟨.wake p, decide_eq_true rfl, by simp [machine, step, hpc]⟩
  | check => exact ⟨.check p, decide_eq_true rfl, by simp [machine, step, hpc]⟩
  | call => cases hcb : s.cb with
    | none => exact ⟨.call p, decide_eq_true rfl, by simp [machine, step, hpc, hcb]⟩
    | some cb => exact ⟨.call p, decide_eq_true rfl, by simp [machine, step, hpc, hcb]⟩
  | calling cb => exact ⟨.finish p, decide_eq_true rfl, by simp [machine, step, hpc]⟩
  | count => exact ⟨.count p, decide_eq_true rfl, by simp [machine, step, hpc]⟩

theorem inside_of_moves {p : P} (hmoves : a.moves p = true)
    (hstep : (machine P C).step s a = some s') : ¬ (s.thread p).outside := by
  intro hout
  cases step_cases hstep with
  | leave hpc | turn hpc | sleep hpc | wake hpc | checkSet hpc | checkEmpty hpc | call hpc
  | throw hpc | finish hpc | count hpc =>
    cases of_decide_eq_true hmoves
    rw [hpc] at hout
    exact hout
  | start | stop | setInterval | setCallback | reset => cases hmoves

/-- With the callback set, a thread that moves leaves `Start` by its test only. -/
theorem moved_of_set {p : P} (hset : s.cb ≠ none) (hmoves : a.moves p = true)
    (hstep : (machine P C).step s a = some s') : s'.cb = s.cb ∧ s'.stop = s.stop ∧
      ((s'.thread p).isIdle = true ∨ ¬ (s'.thread p).outside) := by
  have hmove {pc : TimerPc C} (hpc : pc.isIdle = true ∨ ¬ pc.outside) :
      ((s.goto p pc).thread p).isIdle = true ∨ ¬ ((s.goto p pc).thread p).outside := by
    rw [thread_goto_self]
    exact hpc
  cases step_cases hstep with
  | leave =>
    cases of_decide_eq_true hmoves
    exact ⟨rfl, rfl, hmove (.inl rfl)⟩
  | turn | sleep | wake | checkSet | checkEmpty | call | finish | count =>
    cases of_decide_eq_true hmoves
    exact ⟨rfl, rfl, hmove (.inr id)⟩
  | throw _ hempty => exact absurd hempty hset
  | start | stop | setInterval | setCallback | reset => cases hmoves

/-- After `Stop` a thread calls back at most once more, and only if it had passed its test; it
leaves `Start` after at most seven steps and one for each further call of `Start`. -/
theorem quiet_after_stop {as : List (Action P C)} (hstop : s.stop = true)
    (hrun : (machine P C).run s as = some s') (p : P) :
    as.countP (Action.calls p) ≤ (if (s.thread p).armed then 1 else 0) ∧
      as.countP (Action.moves p) ≤ 7 + as.countP (Action.starts p) ∧
      ((s'.thread p).outside ∨
        ∃ a, Action.moves p a = true ∧ ((machine P C).step s' a).isSome = true) := by
  obtain ⟨_, hcalls⟩ := (calls_pays p).run hstop hrun
  obtain ⟨_, hmoves⟩ := (moves_pays p).run hstop hrun
  have hnone : as.countP (fun _ => false) = 0 := List.countP_eq_zero.mpr nofun
  simp only [callsLeft] at hcalls
  have hleft := (s.thread p).left_le
  refine ⟨by omega, by omega, ?_⟩
  by_cases hout : (s'.thread p).outside
  · exact .inl hout
  · exact .inr (enabled_of_inside hout)

/-- A thread that passed its test just before `Stop` goes through a whole turn, and a second call
of `Start` leaves at once. -/
theorem quiet_after_stop_late : ∃ s s', (machine Unit Unit).run initial
      [.setCallback 5 (some ()), .start (), .test (), .stop] = some s ∧
    (machine Unit Unit).run s [.sleep (), .wake (), .check (), .call (), .finish (), .count (),
      .test (), .start (), .test ()] = some s' ∧ 1 ≤ 1 ∧ 8 ≤ 7 + 1 ∧
    ((s'.thread ()).outside ∨
      ∃ a, Action.moves () a = true ∧ ((machine Unit Unit).step s' a).isSome = true) := by
  obtain ⟨s, hs, hstop, harmed⟩ : ∃ s, (machine Unit Unit).run initial
      [.setCallback 5 (some ()), .start (), .test (), .stop] = some s ∧ s.stop = true ∧
      (s.thread ()).armed = true := ⟨_, rfl, rfl, rfl⟩
  obtain ⟨s', hs'⟩ : ∃ s', (machine Unit Unit).run s [.sleep (), .wake (), .check (), .call (),
      .finish (), .count (), .test (), .start (), .test ()] = some s' := by
    cases hs
    exact ⟨_, rfl⟩
  have hquiet := quiet_after_stop hstop hs' ()
  rw [harmed] at hquiet
  exact ⟨s, s', hs, hs', hquiet⟩

end Timer

end ServerDevLib.ThreadPool
