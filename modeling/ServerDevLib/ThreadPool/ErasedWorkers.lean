import ServerDevLib.ThreadPool.WorkerCount

/-!
# The workers that are erased

`Adjust` erases the thread of every worker that it has marked, and nothing has
joined or detached one of them. Whether the worker is awake does not matter:
a worker that is marked is a worker whose thread is destroyed while it is
joinable. The pool is safe exactly as long as `Adjust` finds no idle worker.
-/

namespace ServerDevLib.ThreadPool

open Transition

namespace Scaling

variable {W K T : Type}

/-- No joinable thread was destroyed, and no worker is left without its entry. -/
structure Safe (s : Scaling W K T) : Prop where
  alive : s.terminated = false
  left : ∀ w ∈ s.erased, s.pool.worker w = .exited ∧ s.joinable w = false

def Settled (s : Scaling W K T) : Prop := ∀ ids, s.adjust = .erasing ids → ids = ∅

def MarksNobody (s : Scaling W K T) : Event W K T → Prop
  | .mark => s.pool.tasks ≠ [] ∨ ∀ w, s.pool.workerStat w ≠ some .EMPTY
  | _ => True

instance [Fintype W] (s : Scaling W K T) (e : Event W K T) : Decidable (s.MarksNobody e) :=
  match e with
  | .mark => inferInstanceAs (Decidable (_ ∨ _))
  | .pool _ | .monitor _ _ | .getThredShold _ | .adjust _ | .spawn _ | .insert | .erase _
  | .leave => isTrue trivial

def Doomed (s : Scaling W K T) : Prop :=
  s.terminated = true ∨ ∃ ids, s.adjust = .erasing ids ∧ ids ≠ ∅

structure Intact (s : Scaling W K T) : Prop where
  alive : s.terminated = false
  kept : s.erased = ∅
  settled : s.Settled

theorem Intact.safe {s : Scaling W K T} (h : s.Intact) : s.Safe where
  alive := h.alive
  left w hw := by
    rw [h.kept] at hw
    exact absurd hw (Finset.notMem_empty w)

theorem not_doomed {s : Scaling W K T} (hsafe : s.Safe) (hsettled : s.Settled) : ¬ s.Doomed := by
  rintro (hterminated | ⟨ids, herasing, hne⟩)
  · rw [hsafe.alive] at hterminated
    cases hterminated
  · exact hne (hsettled ids herasing)

theorem settled_of_not_erasing {s : Scaling W K T} (h : ∀ ids, s.adjust ≠ .erasing ids) :
    s.Settled :=
  fun ids hids => absurd hids (h ids)

theorem Intact.tested {c : ThreadPoolConfig} {s t : Scaling W K T} (h : s.Intact)
    (hidle : s.adjust = .idle) (htested : Tested c s t) : t.Intact where
  alive := htested.terminated.trans h.alive
  kept := htested.erased.trans h.kept
  settled := by
    refine settled_of_not_erasing fun ids hids => ?_
    rcases htested.adjust with hsame | ⟨hgrowing, -⟩ | hshrinking
    · cases hids.symm.trans (hsame.trans hidle)
    · cases hids.symm.trans hgrowing
    · cases hids.symm.trans hshrinking

variable [DecidableEq W] [DecidableEq K] [Fintype W]
variable {c : ThreadPoolConfig} {s s' : Scaling W K T} {e : Event W K T}

omit [DecidableEq W] [DecidableEq K] in
theorem idle_eq_empty : s.idle = ∅ ↔ s.MarksNobody .mark := by
  simp only [idle, Finset.filter_eq_empty_iff, Finset.mem_univ, forall_const, not_and, MarksNobody]
  constructor
  · intro h
    by_cases hempty : s.pool.tasks = []
    · exact .inr fun w hw => h hw hempty
    · exact .inl hempty
  · rintro (hqueued | hnone) w hw
    · exact hqueued
    · exact absurd hw (hnone w)

/-- As long as `Adjust` marks nobody, it erases nothing. -/
theorem intact_step (h : s.Intact) (hnobody : s.MarksNobody e) (hstep : Step c s e s') :
    s'.Intact := by
  cases hstep with
  | pool | getThredShold => exact ⟨h.alive, h.kept, h.settled⟩
  | monitor hidle => exact h.tested hidle (tested_monitor c s _ _)
  | adjust hidle => exact h.tested hidle (tested_adjustTest c s _)
  | spawn | insert | leave => exact ⟨h.alive, h.kept, settled_of_not_erasing nofun⟩
  | mark hshrinking =>
    refine ⟨h.alive, h.kept, ?_⟩
    rintro _ ⟨⟩
    exact idle_eq_empty.mpr hnobody
  | @eraseJoinable w ids herasing hfound | @erase w ids herasing hfound =>
    rw [h.settled ids herasing] at hfound
    exact absurd hfound (Finset.notMem_empty w)

/-- Whoever is marked is joinable when his turn comes. -/
theorem doomed_step (hrunning : s.Running) (hadjust : s.Adjusting c) (halive : s.terminated = false)
    (h : s.Doomed) (hstep : Step c s e s') : s'.Doomed := by
  rcases h with hterminated | ⟨ids, herasing, hne⟩
  · rw [halive] at hterminated
    cases hterminated
  · cases hstep with
    | pool => exact .inr ⟨ids, herasing, hne⟩
    | eraseJoinable => exact .inl rfl
    | erase herasing' hfound hjoined =>
      exact absurd hjoined (joinable_of_erasing hrunning hadjust herasing' hfound)
    | leave hempty =>
      rw [herasing] at hempty
      exact absurd (AdjustPc.erasing.inj hempty) hne
    | monitor hpc | getThredShold hpc | adjust hpc | spawn hpc | insert hpc | mark hpc =>
      rw [herasing] at hpc
      cases hpc

theorem doomed_of_mark (hmark : ¬ s.MarksNobody e) (hstep : Step c s e s') : s'.Doomed := by
  cases hstep with
  | mark hshrinking => exact .inr ⟨s.idle, rfl, fun hempty => hmark (idle_eq_empty.mp hempty)⟩
  | pool | monitor | getThredShold | adjust | spawn | insert | eraseJoinable | erase | leave =>
    exact absurd trivial hmark

theorem intact_of_reachable (h : (machine W K T c).ReachableUnder MarksNobody s) : s.Intact := by
  refine Machine.ReachableUnder.invariant ?_ ?_ h
  · rintro t ⟨-, hidle, halive, hkept⟩
    exact ⟨halive, hkept, settled_of_not_erasing (hidle ▸ nofun)⟩
  · exact fun t e t' ht hnobody hstep => intact_step ht hnobody (step_cases hstep)

/-- A run leaves the threads intact, with nothing left to erase, exactly if it marks nobody. -/
theorem safe_iff_marksNobody (hinit : (machine W K T c).init s) {events : List (Event W K T)}
    (hrun : (machine W K T c).run s events = some s') :
    s'.Safe ∧ s'.Settled ↔ (machine W K T c).AllSteps MarksNobody s events := by
  constructor
  · rintro ⟨hsafe, hsettled⟩
    have hbad : ∀ t e t', (machine W K T c).Reachable t → (machine W K T c).step t e = some t' →
        ¬ t.MarksNobody e → t'.Doomed :=
      fun t e t' _ hstep hmark => doomed_of_mark hmark (step_cases hstep)
    have hstable : ∀ t e t', (machine W K T c).Reachable t → t.Doomed →
        (machine W K T c).step t e = some t' → t'.Doomed := by
      intro t e t' ht hdoomed hstep
      obtain ⟨hrunning, hadjust⟩ := runs_of_reachable ht
      exact doomed_step hrunning hadjust (alive_of_step hstep) hdoomed (step_cases hstep)
    exact (Machine.AllSteps.of_avoids hbad hstable (.init hinit) hrun
      (not_doomed hsafe hsettled)).1
  · intro hall
    have hintact : s'.Intact := intact_of_reachable (.of_allSteps (.init hinit) hall hrun)
    exact ⟨hintact.safe, hintact.settled⟩

/-- A caller queues a task before `Adjust` gets to its section. -/
def queuedInTime : List (Event (Fin 3) Unit Unit) :=
  [.adjust (.value 10), .pool (.push () ()), .mark, .leave]

theorem queuedInTime_marksNobody : ∃ s', (machine (Fin 3) Unit Unit (threeThreads 1)).runUnder
    MarksNobody oneIdle queuedInTime = some s' := ⟨_, rfl⟩

theorem safe_iff_marksNobody_queuedInTime :
    ∃ s', (machine (Fin 3) Unit Unit (threeThreads 1)).run oneIdle queuedInTime = some s' ∧
      s'.Safe ∧ s'.Settled :=
  have ⟨_, hrun⟩ := queuedInTime_marksNobody
  ⟨_, rfl, (safe_iff_marksNobody (oneIdle_init (threeThreads 1)) rfl).mpr (.of_runUnder hrun)⟩

/-- The worker that waits is woken and has not left when his thread is destroyed. -/
theorem not_safe : (machine (Fin 3) Unit Unit (threeThreads 1)).init oneIdle ∧
    ∃ s', (machine (Fin 3) Unit Unit (threeThreads 1)).run oneIdle (lightLoad ++ [.erase 1]) =
      some s' ∧ s'.terminated = true ∧ 1 ∈ s'.erased ∧ s'.joinable 1 = true ∧
      s'.pool.worker 1 = .lock ∧ ¬ s'.Safe :=
  ⟨oneIdle_init _, _, rfl, rfl, by decide, rfl, rfl, fun h => Bool.noConfusion h.alive⟩

end Scaling

end ServerDevLib.ThreadPool
