import ServerDevLib.ThreadPool.Scaling

/-!
# The threads while the pool grows and shrinks

What the threads rely on holds in every state. The threads that `Adjust` is
about to erase are threads of the pool, so that it never finds one of them
joined.
-/

namespace ServerDevLib.ThreadPool

open Transition

namespace Scaling

variable {W K T : Type} {c : ThreadPoolConfig} {s s' : Scaling W K T} {e : Event W K T}

structure Adjusting (c : ThreadPoolConfig) (s : Scaling W K T) : Prop where
  growing : s.adjust = .growing → s.workers.card < c.maxThread.toNat
  inserting : ∀ w, s.adjust = .inserting w → w ∈ s.workers ∧ s.workers.card ≤ c.maxThread.toNat
  erasing : ∀ ids, s.adjust = .erasing ids → ids ⊆ s.workers

theorem adjusting_of_idle (h : s.adjust = .idle) : s.Adjusting c := by
  constructor <;> simp [h]

theorem adjusting_tested (hidle : s.adjust = .idle) (htested : Tested c s s') : s'.Adjusting c := by
  rcases htested.adjust with hsame | ⟨hgrowing, hlt⟩ | hshrinking
  · exact adjusting_of_idle (hsame.trans hidle)
  · constructor
    · exact fun _ => hlt
    all_goals simp [hgrowing]
  · constructor <;> simp [hshrinking]

theorem Running.tested (h : s.Running) (htested : Tested c s s') : s'.Running where
  listed := htested.pool ▸ htested.workers ▸ h.listed
  clear := htested.pool ▸ h.clear
  entry := htested.pool ▸ h.entry
  joinable := htested.workers ▸ htested.joinable ▸ h.joinable

/-- `Adjust` never finds a thread that was joined or detached. -/
theorem joinable_of_erasing (h : s.Running) (hadjust : s.Adjusting c) {w : W} {ids : Finset W}
    (herasing : s.adjust = .erasing ids) (hfound : w ∈ ids) : s.joinable w ≠ false := by
  rw [h.joinable w (hadjust.erasing ids herasing hfound)]
  exact nofun

section Positions

variable [DecidableEq W]

theorem Running.goto (h : s.Running) {w : W} {pc : WorkerPc T}
    (hclear : pc = .clear → s.pool.workerStat w = some .ACTIVE)
    (hentry : pc = .lock ∨ pc = .blocked → s.pool.workerStat w ≠ none) :
    Running { s with pool := s.pool.goto w pc } := by
  constructor
  · exact h.listed
  · intro v hv
    by_cases hvw : v = w
    · subst hvw
      exact hclear ((Pool.worker_goto_self v pc).symm.trans hv)
    · exact h.clear v ((Pool.worker_goto_of_ne hvw pc).symm.trans hv)
  · intro v hv
    by_cases hvw : v = w
    · subst hvw
      rw [Pool.worker_goto_self] at hv
      exact hentry hv
    · rw [Pool.worker_goto_of_ne hvw] at hv
      exact h.entry v hv
  · exact h.joinable

/-- A listed worker stores a status and goes on to where it may be with it. -/
theorem Running.store (h : s.Running) {w : W} {stat : Stat} {pc : WorkerPc T}
    (hlisted : w ∈ s.workers) (hclear : pc = .clear → stat = .ACTIVE) :
    Running { s with pool := (s.pool.setStat w stat).goto w pc } := by
  constructor
  · intro v hv
    by_cases hvw : v = w
    · exact hvw ▸ hlisted
    · exact h.listed v (Pool.workerStat_setStat_of_ne hvw stat ▸ hv)
  · intro v hv
    by_cases hvw : v = w
    · subst hvw
      rw [← hclear ((Pool.worker_goto_self v pc).symm.trans hv)]
      exact Pool.workerStat_setStat_self v stat
    · have hpc : s.pool.worker v = .clear := (Pool.worker_goto_of_ne hvw pc).symm.trans hv
      exact (Pool.workerStat_setStat_of_ne hvw stat).trans (h.clear v hpc)
  · intro v hv
    by_cases hvw : v = w
    · subst hvw
      exact ne_of_eq_of_ne (Pool.workerStat_setStat_self v stat) (Option.some_ne_none stat)
    · rw [Pool.worker_goto_of_ne hvw] at hv
      exact ne_of_eq_of_ne (Pool.workerStat_setStat_of_ne hvw stat) (h.entry v hv)
  · exact h.joinable

omit [DecidableEq W] in
/-- What is in the queue and where the callers are is all the same to the threads. -/
theorem Running.congr (h : s.Running) {p : Pool W K T} (hstat : p.workerStat = s.pool.workerStat)
    (hworker : p.worker = s.pool.worker) : Running { s with pool := p } where
  listed := hstat ▸ h.listed
  clear := hstat ▸ hworker ▸ h.clear
  entry := hstat ▸ hworker ▸ h.entry
  joinable := h.joinable

theorem Running.pool [DecidableEq K] (h : s.Running) {a : Action W K T} {p : Pool W K T}
    (henabled : s.Enabled a) (hmoved : Pool.Step s.pool a p) : Running { s with pool := p } := by
  cases hmoved with
  | findEntry | findNone | testExit | leave | finish => exact h.goto nofun nofun
  | testActive htest hactive => exact h.goto (fun _ => hactive) nofun
  | clear hclear => exact h.store henabled nofun
  | @block w hlock hrunning hempty => exact h.goto nofun fun _ => h.entry w (.inl hlock)
  | popEmpty hlock hstopped hempty hlive =>
    exact (h.congr (p := { s.pool with emptyPop := true }) rfl rfl).goto nofun nofun
  | @pop w task tasks hlock hqueued hlive =>
    exact (h.congr (p := { s.pool with tasks := tasks }) rfl rfl).store henabled nofun
  | @wake w hblocked => exact h.goto nofun fun _ => h.entry w (.inr hblocked)
  | push hidle => exact h.congr rfl rfl
  | @notifyBlocked k w hpushed hblocked =>
    have hcaller := h.congr
      (p := { s.pool with caller := Function.update s.pool.caller k .idle }) rfl rfl
    exact hcaller.goto nofun fun _ => h.entry w (.inr hblocked)
  | notifyNone hpushed hawake => exact h.congr rfl rfl
  | setStop | mark | notifyAll | join => exact henabled.elim

omit [DecidableEq W] in
theorem markIdle_of_ne {w : W} (h : s.pool.workerStat w ≠ some .EMPTY) :
    s.markIdle w = s.pool.workerStat w :=
  if_neg fun hidle => h hidle.1

omit [DecidableEq W] in
theorem markIdle_eq_none {w : W} : s.markIdle w = none ↔ s.pool.workerStat w = none := by
  by_cases h : s.pool.workerStat w = some .EMPTY
  · rw [markIdle]
    split <;> simp [h]
  · rw [markIdle_of_ne h]

omit [DecidableEq W] in
theorem Running.mark (h : s.Running) :
    Running { s with pool := { s.pool with workerStat := s.markIdle }.wakeAll } := by
  constructor
  · exact fun w hw => h.listed w fun hnone => hw (markIdle_eq_none.mpr hnone)
  · intro w hw
    simp only [Pool.wakeAll] at hw
    split at hw
    · cases hw
    · have hactive := h.clear w hw
      exact (markIdle_of_ne (hactive ▸ nofun)).trans hactive
  · intro w hw hnone
    refine h.entry w ?_ (markIdle_eq_none.mp hnone)
    simp only [Pool.wakeAll] at hw
    split at hw
    · exact .inr (WorkerPc.eq_blocked ‹_›)
    · exact hw
  · exact h.joinable

theorem Running.spawn (h : s.Running) (w : W) :
    Running { s with
      pool := s.pool.goto w .start
      workers := insert w s.workers
      joinable := Function.update s.joinable w true } := by
  have hgoto : Running { s with pool := s.pool.goto w .start } := h.goto nofun nofun
  constructor
  · exact fun v hv => Finset.mem_insert_of_mem (h.listed v hv)
  · exact hgoto.clear
  · exact hgoto.entry
  · intro v hv
    by_cases hvw : v = w
    · subst hvw
      exact Function.update_self ..
    · have hmem : v ∈ s.workers := (Finset.mem_insert.mp hv).resolve_left hvw
      exact (Function.update_of_ne hvw ..).trans (h.joinable v hmem)

/-- An entry that was missing is new; its worker was not on its way to store a status. -/
theorem Running.insert (h : s.Running) {w : W} (hlisted : w ∈ s.workers) :
    Running { s with
      pool := if s.pool.workerStat w = none then s.pool.setStat w .ACTIVE else s.pool } := by
  split
  · have hgoto : (s.pool.setStat w .ACTIVE).goto w (s.pool.worker w) = s.pool.setStat w .ACTIVE := by
      simp only [Pool.goto, Pool.setStat, Function.update_eq_self]
    exact hgoto ▸ h.store hlisted fun _ => rfl
  · exact h

end Positions

section Steps

variable [DecidableEq W] [DecidableEq K] [Fintype W]

theorem running_step (h : s.Running) (hadjust : s.Adjusting c)
    (hstep : Step c s e s') : s'.Running := by
  cases hstep with
  | pool henabled hmoved => exact h.pool henabled hmoved
  | monitor => exact h.tested (tested_monitor c s _ _)
  | adjust => exact h.tested (tested_adjustTest c s _)
  | @spawn w hgrowing hnew habsent =>
    have hspawn := h.spawn w
    exact ⟨hspawn.listed, hspawn.clear, hspawn.entry, hspawn.joinable⟩
  | insert hinserting =>
    have hinsert := h.insert (hadjust.inserting _ hinserting).1
    exact ⟨hinsert.listed, hinsert.clear, hinsert.entry, hinsert.joinable⟩
  | mark hshrinking =>
    have hmark := h.mark
    exact ⟨hmark.listed, hmark.clear, hmark.entry, hmark.joinable⟩
  | getThredShold | eraseJoinable | leave => exact ⟨h.listed, h.clear, h.entry, h.joinable⟩
  | erase herasing hfound hjoined =>
    exact absurd hjoined (joinable_of_erasing h hadjust herasing hfound)

theorem adjusting_step (hrunning : s.Running) (h : s.Adjusting c) (hstep : Step c s e s') :
    s'.Adjusting c := by
  cases hstep with
  | pool | getThredShold | eraseJoinable => exact ⟨h.growing, h.inserting, h.erasing⟩
  | monitor hidle => exact adjusting_tested hidle (tested_monitor c s _ _)
  | adjust hidle => exact adjusting_tested hidle (tested_adjustTest c s _)
  | @spawn w hgrowing hnew habsent =>
    have hlt := h.growing hgrowing
    constructor
    · simp
    · rintro v ⟨⟩
      exact ⟨Finset.mem_insert_self .., (Finset.card_insert_le ..).trans hlt⟩
    · simp
  | insert hinserting => exact adjusting_of_idle rfl
  | mark hshrinking =>
    constructor
    · simp
    · simp
    · rintro _ ⟨⟩ w hw
      have hempty := (Finset.mem_filter.mp hw).2.1
      exact hrunning.listed w (hempty ▸ nofun)
  | @erase w ids herasing hfound hjoined =>
    constructor
    · simp
    · simp
    · rintro _ ⟨⟩
      exact Finset.erase_subset_erase w (h.erasing ids herasing)
  | leave => exact adjusting_of_idle rfl

theorem runs_step (h : s.Running ∧ s.Adjusting c)
    (hstep : (machine W K T c).step s e = some s') : s'.Running ∧ s'.Adjusting c := by
  have hcases := step_cases hstep
  exact ⟨running_step h.1 h.2 hcases, adjusting_step h.1 h.2 hcases⟩

theorem runs_of_reachable (h : (machine W K T c).Reachable s) : s.Running ∧ s.Adjusting c := by
  have hinit : ∀ t, (machine W K T c).init t → t.Running ∧ t.Adjusting c :=
    fun t ht => ⟨ht.1, adjusting_of_idle ht.2.1⟩
  exact Machine.ReachableUnder.invariant hinit (fun t e t' ht _ hstep => runs_step ht hstep) h

end Steps

end Scaling

end ServerDevLib.ThreadPool
