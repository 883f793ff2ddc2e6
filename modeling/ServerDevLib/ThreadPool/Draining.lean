import ServerDevLib.Foundation.Progress
import ServerDevLib.ThreadPool.ShutdownRuns
import ServerDevLib.ThreadPool.AcceptedTasks

/-!
# How a shutdown comes to its end

`Shutdown` joins its workers, so it returns only when each of them has left
its loop. If no worker stands between its test and its store of `EMPTY` when
the entries are marked, the marks stay. From the notification on nobody
blocks any more, and a worker has at most two steps left: to the test of its
own entry, or to the queue section that looks at it, and out of the loop.
-/

namespace ServerDevLib.ThreadPool

open Transition

universe u

def Action.ofWorker {W K T : Type u} : Action W K T → Bool
  | .find _ | .test _ | .clear _ | .queue _ | .wake _ | .finish _ => true
  | .push _ _ | .notifyOne _ _ | .setStop | .mark | .notifyAll | .join => false

def Action.ofCaller {W K T : Type u} : Action W K T → Bool
  | .push _ _ | .notifyOne _ _ => true
  | .find _ | .test _ | .clear _ | .queue _ | .wake _ | .finish _ | .setStop | .mark | .notifyAll
  | .join => false

theorem Action.ofCaller_of_ofWorker {W K T : Type u} {a : Action W K T}
    (h : a.ofWorker = true) : a.ofCaller = false := by
  cases a <;> first | rfl | cases h

/-- The store of `EMPTY` is the next step. -/
def WorkerPc.clearing {T : Type u} : WorkerPc T → Nat
  | .clear => 1
  | .start | .test | .lock | .blocked | .run _ | .exited => 0

/-- How many steps a worker has left once its entry is marked. -/
def WorkerPc.left {T : Type u} : WorkerPc T → Nat
  | .start | .clear | .blocked | .run _ => 2
  | .test | .lock => 1
  | .exited => 0

namespace Pool

variable {W K T : Type u} {s s' : Pool W K T}

/-- The entries are marked while no worker is about to overwrite its own, and none enters its
queue section with an empty queue between the store to `_stop` and the marking. -/
def Orderly (s : Pool W K T) : Action W K T → Prop
  | .mark => ∀ w, s.worker w ≠ .clear
  | .queue _ => s.shutdown = .stopped → s.tasks ≠ []
  | _ => True

/-- A step of a worker or of `Shutdown`. -/
def Unaided (s : Pool W K T) (a : Action W K T) : Prop := s.Orderly a ∧ a.ofCaller = false

structure Draining (s : Pool W K T) : Prop where
  stopped : s.shutdown ≠ .idle → s.stop = true
  alive : s.Accepting → ∀ w, s.workerStat w ≠ some .DEAD
  stored : ¬ s.Accepting → ∀ w, s.worker w ≠ .clear
  woken : s.shutdown = .joining ∨ s.shutdown = .returned → ∀ w, s.worker w ≠ .blocked

theorem initial_draining : (initial : Pool W K T).Draining where
  stopped h := absurd rfl h
  alive _ _ := nofun
  stored h := absurd (.inl rfl) h
  woken := nofun

/-- The marks stay where they are. -/
theorem Draining.spaced (h : s.Draining) {a : Action W K T} (horderly : s.Orderly a)
    (hclear : ∀ w, a = .clear w → s.worker w = .clear) : s.Spaced a := by
  cases a with
  | clear w =>
    have haccepting : s.Accepting := by
      by_contra hlate
      exact h.stored hlate w (hclear w rfl)
    exact h.alive haccepting w
  | queue w => exact horderly
  | find | test | wake | finish | push | notifyOne | setStop | mark | notifyAll | join => trivial

variable [DecidableEq W]

theorem Draining.goto (h : s.Draining) {w : W} {pc : WorkerPc T}
    (hstored : pc = .clear → s.Accepting) (hwoken : pc = .blocked → s.shutdown = .idle) :
    (s.goto w pc).Draining where
  stopped := h.stopped
  alive := h.alive
  stored hlate v := by
    rcases eq_or_ne v w with rfl | hne
    · rw [worker_goto_self]
      exact fun hpc => hlate (hstored hpc)
    · rw [worker_goto_of_ne hne]
      exact h.stored hlate v
  woken hjoining v := by
    rcases eq_or_ne v w with rfl | hne
    · rw [worker_goto_self]
      intro hpc
      change s.shutdown = .joining ∨ s.shutdown = .returned at hjoining
      rw [hwoken hpc] at hjoining
      rcases hjoining with hjoining | hjoining <;> cases hjoining
    · rw [worker_goto_of_ne hne]
      exact h.woken hjoining v

theorem Draining.setStat (h : s.Draining) (w : W) {stat : Stat} (hstat : stat ≠ .DEAD) :
    (s.setStat w stat).Draining where
  stopped := h.stopped
  alive haccepting v := by
    rcases eq_or_ne v w with rfl | hne
    · rw [workerStat_setStat_self]
      exact fun heq => hstat (Option.some.inj heq)
    · rw [workerStat_setStat_of_ne hne]
      exact h.alive haccepting v
  stored := h.stored
  woken := h.woken

omit [DecidableEq W] in
/-- Of the steps of `Shutdown` the marking and the notification change the workers. -/
theorem Draining.mark (h : s.Draining) (hstopped : s.shutdown = .stopped)
    (hclear : ∀ w, s.worker w ≠ .clear) :
    ({ s.markDead with shutdown := .marked } : Pool W K T).Draining where
  stopped _ := h.stopped (by rw [hstopped]; decide)
  alive haccepting := by rcases haccepting with hphase | hphase <;> cases hphase
  stored _ := hclear
  woken hjoining := by rcases hjoining with hphase | hphase <;> cases hphase

omit [DecidableEq W] in
theorem Draining.notifyAll (h : s.Draining) (hmarked : s.shutdown = .marked) :
    ({ s.wakeAll with shutdown := .joining } : Pool W K T).Draining where
  stopped _ := h.stopped (by rw [hmarked]; decide)
  alive haccepting := by rcases haccepting with hphase | hphase <;> cases hphase
  stored _ w := by
    have hclear := h.stored (by rw [Accepting, hmarked]; decide) w
    simp only [wakeAll]
    split
    · intro hlock
      cases hlock
    · exact hclear
  woken _ w := by
    simp only [wakeAll]
    split
    · intro hlock
      cases hlock
    · rename_i hawake
      intro hpc
      rw [hpc] at hawake
      exact hawake rfl

variable [DecidableEq K] [Fintype W]

theorem draining_step : (machine W K T).Preserves Orderly fun s => s.Safe ∧ s.Draining := by
  rintro s a s' ⟨hsafe, h⟩ horderly hstep
  refine ⟨safe_step s a s' hsafe (h.spaced horderly ?_) hstep, ?_⟩
  · rintro w rfl
    cases step_cases hstep with
    | clear hpc => exact hpc
  cases step_cases hstep with
  | findEntry | findNone | testExit | leave | wake | finish => exact h.goto nofun nofun
  | @testActive w hpc hactive =>
    refine h.goto (fun _ => hsafe.unmarked (w := w) ?_ ?_) nofun
    · rw [hactive]
      exact Option.some_ne_none _
    · rw [hactive]
      decide
  | block _ hrunning =>
    refine h.goto nofun fun _ => ?_
    by_contra hidle
    rw [h.stopped hidle] at hrunning
    cases hrunning
  | @clear w => exact (h.setStat w (by decide)).goto nofun nofun
  | popEmpty =>
    have hpop : ({ s with emptyPop := true } : Pool W K T).Draining :=
      ⟨h.stopped, h.alive, h.stored, h.woken⟩
    exact hpop.goto nofun nofun
  | @pop w task tasks =>
    have hrest : ({ s with tasks := tasks } : Pool W K T).Draining :=
      ⟨h.stopped, h.alive, h.stored, h.woken⟩
    exact (hrest.setStat w (by decide)).goto nofun nofun
  | push | notifyNone => exact ⟨h.stopped, h.alive, h.stored, h.woken⟩
  | @notifyBlocked k w =>
    have hcaller : ({ s with caller := Function.update s.caller k .idle } : Pool W K T).Draining :=
      ⟨h.stopped, h.alive, h.stored, h.woken⟩
    exact hcaller.goto nofun nofun
  | setStop hidle =>
    exact ⟨fun _ => rfl, fun _ => h.alive (.inl hidle), fun hlate => absurd (.inr rfl) hlate, nofun⟩
  | mark hstopped => exact h.mark hstopped horderly
  | notifyAll hmarked => exact h.notifyAll hmarked
  | join hjoining =>
    have hlate : ¬ s.Accepting := by
      rw [Accepting, hjoining]
      decide
    refine ⟨fun _ => h.stopped (by rw [hjoining]; decide), ?_, fun _ => h.stored hlate,
      fun _ => h.woken (.inl hjoining)⟩
    intro haccepting
    rcases haccepting with hphase | hphase <;> cases hphase

theorem draining_of_reachable (h : (machine W K T).ReachableUnder Orderly s) :
    s.Safe ∧ s.Draining := by
  refine h.invariant ?_ draining_step
  rintro s rfl
  exact ⟨initial_safe, initial_draining⟩

/-- `Shutdown` has notified, and what it left behind holds. -/
structure Leaving (s : Pool W K T) : Prop where
  safe : s.Safe
  draining : s.Draining
  notified : s.shutdown = .joining ∨ s.shutdown = .returned

def left (s : Pool W K T) : Nat := ∑ w, (s.worker w).left

omit [DecidableEq W] [DecidableEq K] in
theorem left_le (s : Pool W K T) : s.left ≤ 2 * Fintype.card W := by
  have hone (w : W) : (s.worker w).left ≤ 2 := by cases s.worker w <;> simp [WorkerPc.left]
  calc s.left ≤ ∑ _ : W, 2 := Finset.sum_le_sum fun w _ => hone w
    _ = 2 * Fintype.card W := by simp [Finset.sum_const, mul_comm]

section Phase

omit [DecidableEq W] [DecidableEq K] [Fintype W]

theorem Leaving.late (h : s.Leaving) : ¬ s.Accepting := by
  rintro (hphase | hphase) <;>
    · have hnotified := h.notified
      rw [hphase] at hnotified
      rcases hnotified with hnotified | hnotified <;> cases hnotified

theorem Leaving.not_marked (h : s.Leaving) : s.shutdown ≠ .marked := by
  intro hphase
  have hnotified := h.notified
  rw [hphase] at hnotified
  rcases hnotified with hnotified | hnotified <;> cases hnotified

/-- Every entry that a worker still looks at carries the mark. -/
theorem Leaving.dead (h : s.Leaving) {w : W} {pc : WorkerPc T} (hpc : s.worker w = pc)
    (hholds : pc.holdsEntry) : s.workerStat w = some .DEAD := by
  obtain ⟨stat, hstat⟩ := Option.ne_none_iff_exists'.mp (h.safe.entry w (by rw [hpc]; exact hholds))
  rw [hstat, h.safe.dead (fun hidle => h.late (.inl hidle)) (fun hstopped => h.late (.inr hstopped))
    w stat hstat]

end Phase

theorem Leaving.orderly (h : s.Leaving) {a : Action W K T}
    (hstep : (machine W K T).step s a = some s') : s.Orderly a := by
  cases step_cases hstep with
  | mark hstopped => exact absurd (.inr hstopped) h.late
  | block | leave | popEmpty | pop => exact fun hstopped => absurd (.inr hstopped) h.late
  | _ => trivial

/-- What is still possible: a worker moves towards its end, or somebody else moves no worker. -/
theorem Leaving.step_cases (h : s.Leaving) {a : Action W K T}
    (hstep : (machine W K T).step s a = some s') :
    (a.ofWorker = true ∧ ∃ w pc, s' = s.goto w pc ∧ pc.left < (s.worker w).left) ∨
      a.ofWorker = false ∧ s'.worker = s.worker := by
  cases Pool.step_cases hstep with
  | @findEntry w hpc | @findNone w hpc | @testExit w hpc | @leave w hpc | @finish w _ hpc =>
    refine .inl ⟨rfl, w, _, rfl, ?_⟩
    rw [hpc]
    simp [WorkerPc.left]
  | testActive hpc hactive =>
    have hdead := h.dead hpc trivial
    rw [hactive] at hdead
    cases hdead
  | @clear w hpc => exact absurd hpc (h.draining.stored h.late w)
  | block hpc hrunning =>
    have hstop := h.draining.stopped fun hidle => h.late (.inl hidle)
    rw [hrunning] at hstop
    cases hstop
  | popEmpty hpc _ _ hlive | pop hpc _ hlive => exact absurd (h.dead hpc trivial) hlive
  | @wake w hpc | @notifyBlocked _ w _ hpc => exact absurd hpc (h.draining.woken h.notified w)
  | push | notifyNone | setStop | mark | join => exact .inr ⟨rfl, rfl⟩
  | notifyAll hmarked => exact absurd hmarked h.not_marked

theorem Leaving.step (h : s.Leaving) {a : Action W K T}
    (hstep : (machine W K T).step s a = some s') : s'.Leaving := by
  obtain ⟨hsafe, hdraining⟩ := draining_step s a s' ⟨h.safe, h.draining⟩ (h.orderly hstep) hstep
  refine ⟨hsafe, hdraining, ?_⟩
  have hphase := h.notified
  cases Pool.step_cases hstep with
  | setStop hidle => exact absurd (.inl hidle) h.late
  | mark hstopped => exact absurd (.inr hstopped) h.late
  | notifyAll => exact .inl rfl
  | join => exact .inr rfl
  | _ => exact hphase

theorem leaving_pays :
    (machine W K T).Pays Action.ofWorker (fun _ => false) Leaving left where
  keeps _ _ _ h hstep := h.step hstep
  paid s a s' h hstep := by
    rcases h.step_cases hstep with ⟨hown, w, pc, rfl, hlt⟩ | ⟨hother, hworker⟩
    · have hdown : (s.goto w pc).left < s.left := by
        refine Machine.sum_lt_of_one (i := w) (fun v hne => ?_) ?_
        · rw [worker_goto_of_ne hne]
        · rw [worker_goto_self]
          exact hlt
      simp only [hown, if_true, Bool.false_eq_true, if_false]
      omega
    · simp only [hother, left, hworker, Bool.false_eq_true, if_false]
      exact le_rfl

/-- A worker that has not left its loop can take its next step. -/
theorem Leaving.enabled (h : s.Leaving) {w : W} (hpc : s.worker w ≠ .exited) :
    ∃ a, Action.ofWorker a = true ∧ ((machine W K T).step s a).isSome = true := by
  cases hworker : s.worker w with
  | start => exact ⟨.find w, rfl, by simp [machine, Pool.step, hworker]⟩
  | test => exact ⟨.test w, rfl, by simp [machine, Pool.step, hworker]⟩
  | clear => exact absurd hworker (h.draining.stored h.late w)
  | lock => exact ⟨.queue w, rfl, by simp [machine, Pool.step, hworker]⟩
  | blocked => exact absurd hworker (h.draining.woken h.notified w)
  | run task => exact ⟨.finish w, rfl, by simp [machine, Pool.step, hworker]⟩
  | exited => exact absurd hworker hpc

theorem Leaving.progress (h : s.Leaving) : s.shutdown = .returned ∨
    ∃ a, (Action.ofWorker a = true ∨ a = .join) ∧ ((machine W K T).step s a).isSome = true := by
  cases h.notified with
  | inr hreturned => exact .inl hreturned
  | inl hjoining =>
    right
    by_cases hall : ∀ w, s.worker w = .exited
    · refine ⟨.join, .inr rfl, ?_⟩
      simp [machine, Pool.step, hjoining, hall, WorkerPc.isExited]
    · obtain ⟨w, hw⟩ := not_forall.mp hall
      obtain ⟨a, hown, henabled⟩ := h.enabled hw
      exact ⟨a, .inl hown, henabled⟩

theorem Leaving.can_return (h : s.Leaving) :
    (machine W K T).CanReach Unaided (fun s => s.shutdown = .returned) s := by
  have hexits : (machine W K T).CanReach Unaided
      (fun s => s.Leaving ∧ ∀ w, s.worker w = .exited) s := by
    refine Machine.CanReach.of_rank left (fun s h hsome => ?_) h
    obtain ⟨w, hw⟩ := not_forall.mp hsome
    obtain ⟨a, hown, henabled⟩ := h.enabled hw
    obtain ⟨s', hstep⟩ := Option.isSome_iff_exists.mp henabled
    have hpaid := leaving_pays.paid s a s' h hstep
    rw [hown] at hpaid
    refine ⟨a, s', ⟨h.orderly hstep, Action.ofCaller_of_ofWorker hown⟩, hstep, h.step hstep, ?_⟩
    simpa [Nat.lt_iff_add_one_le, Nat.add_comm] using hpaid
  refine hexits.trans fun t ⟨ht, hexited⟩ => ?_
  cases ht.notified with
  | inr hreturned => exact .here hreturned
  | inl hjoining =>
    have hjoin : (machine W K T).step t .join = some { t with shutdown := .returned } :=
      if_pos ⟨hjoining, fun w => by rw [hexited w]; rfl⟩
    exact .step (a := .join) ⟨trivial, rfl⟩ hjoin (.here rfl)

theorem can_return_of_marked (hsafe : s.Safe) (h : s.Draining) (hmarked : s.shutdown = .marked) :
    (machine W K T).CanReach Unaided (fun s => s.shutdown = .returned) s := by
  have hnotify : (machine W K T).step s .notifyAll =
      some { s.wakeAll with shutdown := .joining } := if_pos hmarked
  obtain ⟨hsafe', hdraining⟩ := draining_step s .notifyAll _ ⟨hsafe, h⟩ trivial hnotify
  exact .step (a := .notifyAll) ⟨trivial, rfl⟩ hnotify
    (Leaving.can_return ⟨hsafe', hdraining, .inl rfl⟩)

/-- The workers that are about to store `EMPTY` do so before the marking. -/
theorem can_return_of_stopped (hsafe : s.Safe) (h : s.Draining) (hstopped : s.shutdown = .stopped) :
    (machine W K T).CanReach Unaided (fun s => s.shutdown = .returned) s := by
  have hclears : (machine W K T).CanReach Unaided
      (fun s => ((s.Safe ∧ s.Draining) ∧ s.shutdown = .stopped) ∧ ∀ w, s.worker w ≠ .clear) s := by
    refine Machine.CanReach.of_rank (fun s => ∑ w, (s.worker w).clearing)
      (fun s hs hsome => ?_) ⟨⟨hsafe, h⟩, hstopped⟩
    obtain ⟨w, hw⟩ := not_forall.mp hsome
    have hclear : s.worker w = .clear := not_not.mp hw
    have hstep : (machine W K T).step s (.clear w) = some ((s.setStat w .EMPTY).goto w .lock) := by
      simp only [machine, Pool.step, hclear]
    have hnext := draining_step s (.clear w) _ hs.1 trivial hstep
    refine ⟨.clear w, _, ⟨trivial, rfl⟩, hstep, ⟨hnext, hs.2⟩, ?_⟩
    refine Machine.sum_lt_of_one (i := w) (fun v hne => ?_) ?_
    · rw [worker_goto_of_ne hne]
      rfl
    · rw [worker_goto_self, hclear]
      exact Nat.zero_lt_one
  refine hclears.trans ?_
  rintro t ⟨⟨ht, hphase⟩, hstored⟩
  have hmark : (machine W K T).step t .mark = some { t.markDead with shutdown := .marked } :=
    if_pos hphase
  obtain ⟨hsafe', hdraining⟩ := draining_step t .mark _ ht hstored hmark
  exact .step (a := .mark) ⟨hstored, rfl⟩ hmark (can_return_of_marked hsafe' hdraining rfl)

/-- A pool whose shutdown may come or go on can have it return. -/
theorem can_return (hsafe : s.Safe) (h : s.Draining) :
    (machine W K T).CanReach Unaided (fun s => s.shutdown = .returned) s := by
  cases hphase : s.shutdown with
  | idle =>
    have hstop : (machine W K T).step s .setStop =
        some { s with stop := true, shutdown := .stopped } := if_pos hphase
    obtain ⟨hsafe', hdraining⟩ := draining_step s .setStop _ ⟨hsafe, h⟩ trivial hstop
    exact .step (a := .setStop) ⟨trivial, rfl⟩ hstop (can_return_of_stopped hsafe' hdraining rfl)
  | stopped => exact can_return_of_stopped hsafe h hphase
  | marked => exact can_return_of_marked hsafe h hphase
  | joining => exact Leaving.can_return ⟨hsafe, h, .inl hphase⟩
  | returned => exact .here hphase

instance (s : Pool W K T) (w : W) : Decidable (s.worker w ≠ .clear) :=
  match s.worker w with
  | .clear => isFalse fun hne => hne rfl
  | .start | .test | .lock | .blocked | .run _ | .exited => isTrue nofun

instance (s : Pool W K T) (a : Action W K T) : Decidable (Orderly s a) :=
  match a with
  | .mark => inferInstanceAs (Decidable (∀ w, s.worker w ≠ .clear))
  | .queue _ => inferInstanceAs (Decidable (s.shutdown = .stopped → s.tasks ≠ []))
  | .find _ | .test _ | .clear _ | .wake _ | .finish _ | .push _ _ | .notifyOne _ _ | .setStop
  | .notifyAll | .join => isTrue trivial

theorem joined_step : (machine W K T).Preserves (fun _ _ => True)
    fun s => s.shutdown = .returned → ∀ w, s.worker w = .exited := by
  intro s a s' h _ hstep
  have hmoves {w : W} {pc : WorkerPc T} (hpc : s.worker w = pc) (hne : pc ≠ .exited)
      (hreturned : s.shutdown = .returned) : False := hne (hpc.symm.trans (h hreturned w))
  cases step_cases hstep with
  | findEntry hpc | findNone hpc | testActive hpc | testExit hpc | clear hpc | block hpc | leave hpc
  | popEmpty hpc | pop hpc | wake hpc | finish hpc | notifyBlocked _ hpc =>
    exact fun hreturned => (hmoves hpc nofun hreturned).elim
  | push | notifyNone => exact h
  | setStop | mark | notifyAll => exact nofun
  | join _ hexited => exact fun _ => hexited

theorem joined_of_reachable (h : (machine W K T).Reachable s) (hreturned : s.shutdown = .returned) :
    ∀ w, s.worker w = .exited := by
  refine h.invariant ?_ joined_step hreturned
  rintro s rfl
  exact nofun

/-- With no worker left, callers push and find nobody to notify. -/
theorem step_of_returned (hreturned : s.shutdown = .returned) (hexited : ∀ w, s.worker w = .exited)
    {a : Action W K T} (hstep : (machine W K T).step s a = some s') :
    (∃ k task, a = .push k task ∧ s' = { s with
        tasks := s.tasks ++ [task]
        caller := Function.update s.caller k .pushed }) ∨
      ∃ k, a = .notifyOne k none ∧ s' = { s with caller := Function.update s.caller k .idle } := by
  have hmoves {w : W} {pc : WorkerPc T} (hpc : s.worker w = pc) (hne : pc ≠ .exited) : False :=
    hne (hpc.symm.trans (hexited w))
  cases step_cases hstep with
  | findEntry hpc | findNone hpc | testActive hpc | testExit hpc | clear hpc | block hpc | leave hpc
  | popEmpty hpc | pop hpc | wake hpc | finish hpc | notifyBlocked _ hpc =>
    exact (hmoves hpc nofun).elim
  | @push k task => exact .inl ⟨k, task, rfl, rfl⟩
  | @notifyNone k => exact .inr ⟨k, rfl, rfl⟩
  | setStop hphase | mark hphase | notifyAll hphase | join hphase =>
    rw [hreturned] at hphase
    cases hphase

end Pool

end ServerDevLib.ThreadPool
