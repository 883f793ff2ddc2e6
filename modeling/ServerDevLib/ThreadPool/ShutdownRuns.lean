import ServerDevLib.ThreadPool.Pool

/-!
# Shutting down a pool with busy workers

`Shutdown` publishes `_stop` before it takes the mutex, and marks every entry
`DEAD` inside it. A worker that passes its wait because of `_stop` is kept
from an empty queue by that mark alone. Two placements of the shutdown defeat
it: a queue section between the store to `_stop` and the marking, and a
worker that has read `ACTIVE` before the marking and stores `EMPTY` after it.
Runs without these two never pop an empty queue.
-/

namespace ServerDevLib.ThreadPool

open Transition

universe u

def WorkerPc.holdsEntry {T : Type u} : WorkerPc T → Prop
  | .start | .exited => False
  | _ => True

namespace Pool

variable {W K T : Type u} {s : Pool W K T}

structure Safe (s : Pool W K T) : Prop where
  running : s.shutdown = .idle → s.stop = false
  entry : ∀ w, (s.worker w).holdsEntry → s.workerStat w ≠ none
  dead : s.shutdown ≠ .idle → s.shutdown ≠ .stopped →
    ∀ w stat, s.workerStat w = some stat → stat = .DEAD
  popped : s.emptyPop = false

/-- No worker overwrites a `DEAD` mark, and none enters its queue section with an empty queue
between the store to `_stop` and the marking. -/
def Spaced (s : Pool W K T) : Action W K T → Prop
  | .clear w => s.workerStat w ≠ some .DEAD
  | .queue _ => s.shutdown = .stopped → s.tasks ≠ []
  | _ => True

theorem initial_safe : (initial : Pool W K T).Safe where
  running _ := rfl
  entry _ h := h.elim
  dead h := absurd rfl h
  popped := rfl

theorem Safe.goto [DecidableEq W] (h : s.Safe) {w : W} {pc : WorkerPc T}
    (hentry : pc.holdsEntry → s.workerStat w ≠ none) : (s.goto w pc).Safe where
  running := h.running
  entry v hv := by
    by_cases hvw : v = w
    · subst hvw
      rw [worker_goto_self] at hv
      exact hentry hv
    · rw [worker_goto_of_ne hvw] at hv
      exact h.entry v hv
  dead := h.dead
  popped := h.popped

theorem Safe.setStat [DecidableEq W] (h : s.Safe) {w : W} {stat : Stat}
    (hdead : s.shutdown ≠ .idle → s.shutdown ≠ .stopped → stat = .DEAD) :
    (s.setStat w stat).Safe where
  running := h.running
  entry v hv := by
    by_cases hvw : v = w
    · subst hvw
      rw [workerStat_setStat_self]
      exact Option.some_ne_none stat
    · rw [workerStat_setStat_of_ne hvw]
      exact h.entry v hv
  dead hidle hstopped v stat' hv := by
    by_cases hvw : v = w
    · subst hvw
      rw [workerStat_setStat_self] at hv
      exact Option.some.inj hv ▸ hdead hidle hstopped
    · rw [workerStat_setStat_of_ne hvw] at hv
      exact h.dead hidle hstopped v stat' hv
  popped := h.popped

/-- A worker that sees `_stop` after the marking finds its own entry marked. -/
theorem Safe.marked_of_stop (h : s.Safe) {w : W} (hentry : s.workerStat w ≠ none)
    (hstop : s.stop = true) (hwindow : s.shutdown ≠ .stopped) : s.workerStat w = some .DEAD := by
  have hidle : s.shutdown ≠ .idle := by
    intro hidle
    rw [h.running hidle] at hstop
    cases hstop
  obtain ⟨stat, hstat⟩ := Option.ne_none_iff_exists'.mp hentry
  rw [hstat, h.dead hidle hwindow w stat hstat]

/-- A worker that takes a task while its entry is not marked does so before the marking. -/
theorem Safe.unmarked (h : s.Safe) {w : W} (hentry : s.workerStat w ≠ none)
    (hlive : s.workerStat w ≠ some .DEAD) : s.shutdown = .idle ∨ s.shutdown = .stopped := by
  by_contra hlate
  obtain ⟨hidle, hstopped⟩ := not_or.mp hlate
  obtain ⟨stat, hstat⟩ := Option.ne_none_iff_exists'.mp hentry
  rw [hstat, h.dead hidle hstopped w stat hstat] at hlive
  exact hlive rfl

theorem Safe.markDead (h : s.Safe) : ({ s.markDead with shutdown := .marked } : Pool W K T).Safe where
  running hidle := by cases hidle
  entry w hw := by
    have hentry := h.entry w hw
    simpa [Pool.markDead] using hentry
  dead _ _ w stat hstat := by
    obtain ⟨_, _, heq⟩ := Option.map_eq_some_iff.mp hstat
    exact heq.symm
  popped := h.popped

theorem Safe.wakeAll (h : s.Safe) (hmarked : s.shutdown = .marked) :
    ({ s.wakeAll with shutdown := .joining } : Pool W K T).Safe where
  running hidle := by cases hidle
  entry w hw := by
    apply h.entry w
    simp only [Pool.wakeAll] at hw
    cases hpc : s.worker w <;> simp_all [WorkerPc.isBlocked, WorkerPc.holdsEntry]
  dead _ _ := h.dead (by rw [hmarked]; decide) (by rw [hmarked]; decide)
  popped := h.popped

variable [DecidableEq W] [DecidableEq K] [Fintype W]

theorem safe_step : (machine W K T).Preserves Spaced Safe := by
  intro s a s' h hspaced hstep
  have hheld {w : W} {pc : WorkerPc T} (hpc : s.worker w = pc) (hholds : pc.holdsEntry) :
      s.workerStat w ≠ none := h.entry w (by rw [hpc]; exact hholds)
  cases step_cases hstep with
  | findEntry _ hpresent => exact h.goto fun _ => hpresent
  | findNone | testExit | leave => exact h.goto False.elim
  | testActive hpc | block hpc | wake hpc | finish hpc => exact h.goto fun _ => hheld hpc trivial
  | clear hpc =>
    have hentry := hheld hpc trivial
    apply (h.setStat _).goto
    · rw [workerStat_setStat_self]
      exact fun _ => Option.some_ne_none _
    · intro hidle hstopped
      exact ((h.unmarked hentry hspaced).elim hidle hstopped).elim
  | popEmpty hpc hstop hempty hlive =>
    -- the predicate passed on `_stop` alone, so the entry would carry the mark
    exact absurd (h.marked_of_stop (hheld hpc trivial) hstop fun hwin => hspaced hwin hempty) hlive
  | @pop w task tasks hpc _ hlive =>
    have hrest : ({ s with tasks := tasks } : Pool W K T).Safe :=
      ⟨h.running, h.entry, h.dead, h.popped⟩
    apply (hrest.setStat _).goto
    · rw [workerStat_setStat_self]
      exact fun _ => Option.some_ne_none _
    · intro hidle hstopped
      exact ((h.unmarked (hheld hpc trivial) hlive).elim hidle hstopped).elim
  | push | notifyNone => exact ⟨h.running, h.entry, h.dead, h.popped⟩
  | @notifyBlocked k _ _ hpc =>
    have hcaller : ({ s with caller := Function.update s.caller k .idle } : Pool W K T).Safe :=
      ⟨h.running, h.entry, h.dead, h.popped⟩
    exact hcaller.goto fun _ => hheld hpc trivial
  | setStop => exact ⟨nofun, h.entry, fun _ hstopped => absurd rfl hstopped, h.popped⟩
  | mark => exact h.markDead
  | notifyAll hmarked => exact h.wakeAll hmarked
  | join hjoining =>
    have hdead := h.dead (by rw [hjoining]; decide) (by rw [hjoining]; decide)
    exact ⟨nofun, h.entry, fun _ _ => hdead, h.popped⟩

theorem never_pops_empty (s : Pool W K T) (h : (machine W K T).ReachableUnder Spaced s) :
    s.emptyPop = false := by
  have hsafe : s.Safe := by
    refine h.invariant ?_ safe_step
    rintro s rfl
    exact initial_safe
  exact hsafe.popped

instance (s : Pool W K T) (a : Action W K T) : Decidable (Spaced s a) :=
  match a with
  | .clear w => inferInstanceAs (Decidable (s.workerStat w ≠ some .DEAD))
  | .queue _ =>
    match h : s.tasks with
    | [] => decidable_of_iff (s.shutdown ≠ .stopped) (by simp [Spaced, h])
    | _ :: _ => isTrue (by simp [Spaced, h])
  | .find _ | .test _ | .wake _ | .finish _ | .push _ _ | .notifyOne _ _ | .setStop | .mark
  | .notifyAll | .join => isTrue trivial

/-- One worker takes and finishes a task and leaves its loop on the mark of the shutdown. -/
theorem never_pops_empty_orderly : ∃ s, (machine Unit Unit Unit).runUnder Spaced initial
    [.find (), .test (), .clear (), .push () (), .queue (), .setStop, .mark, .finish (), .test ()] =
      some s ∧ s.emptyPop = false := by
  obtain ⟨s, hs⟩ : ∃ s, (machine Unit Unit Unit).runUnder Spaced initial
      [.find (), .test (), .clear (), .push () (), .queue (), .setStop, .mark, .finish (),
        .test ()] = some s := ⟨_, rfl⟩
  exact ⟨s, hs, never_pops_empty s (Machine.reachableUnder_of_runUnder rfl hs)⟩

/-- The store of `EMPTY` after the marking, and the queue section before it. -/
theorem pops_empty_queue :
    (∃ s, (machine Unit Unit Unit).run initial
      [.find (), .test (), .setStop, .mark, .clear (), .queue ()] = some s ∧ s.emptyPop = true) ∧
    ∃ s, (machine Unit Unit Unit).run initial
      [.find (), .test (), .clear (), .setStop, .queue ()] = some s ∧ s.emptyPop = true :=
  ⟨⟨_, rfl, rfl⟩, _, rfl, rfl⟩

end Pool

end ServerDevLib.ThreadPool
