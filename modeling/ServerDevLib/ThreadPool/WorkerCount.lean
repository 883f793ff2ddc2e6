import ServerDevLib.ThreadPool.AdjustRuns

/-!
# The number of workers

`Adjust` tests the number of threads before each worker that it starts, but
only once before it marks all idle workers. The number of workers that are not
marked stays within the bounds of the configuration exactly if enough workers
are at a task whenever the idle ones are marked.
-/

namespace ServerDevLib.ThreadPool

open Transition

/-- There is an entry, and it is not marked. -/
def isLive : Option Stat → Bool
  | some .EMPTY | some .ACTIVE => true
  | some .DEAD | none => false

namespace Scaling

variable {W K T : Type}

section Counts

variable [Fintype W]

def live (s : Scaling W K T) : Finset W :=
  Finset.univ.filter fun w => isLive (s.pool.workerStat w) = true

def active (s : Scaling W K T) : Finset W :=
  Finset.univ.filter fun w => s.pool.workerStat w = some .ACTIVE

def InBounds (c : ThreadPoolConfig) (s : Scaling W K T) : Prop :=
  c.minCoreThread.toNat ≤ s.live.card ∧ s.live.card ≤ c.maxThread.toNat

instance (c : ThreadPoolConfig) (s : Scaling W K T) : Decidable (s.InBounds c) :=
  inferInstanceAs (Decidable (_ ∧ _))

/-- Where idle workers are marked, the workers at a task are enough. -/
def EnoughActive (c : ThreadPoolConfig) (s : Scaling W K T) : Event W K T → Prop
  | .mark => s.pool.tasks ≠ [] ∨ c.minCoreThread.toNat ≤ s.active.card
  | _ => True

instance (c : ThreadPoolConfig) (s : Scaling W K T) (e : Event W K T) :
    Decidable (s.EnoughActive c e) :=
  match e with
  | .mark => inferInstanceAs (Decidable (_ ∨ _))
  | .pool _ | .monitor _ _ | .getThredShold _ | .adjust _ | .spawn _ | .insert | .erase _
  | .leave => isTrue trivial

variable {c : ThreadPoolConfig} {s s' : Scaling W K T}

theorem mem_live {w : W} : w ∈ s.live ↔ isLive (s.pool.workerStat w) = true := by
  simp [live]

theorem live_subset (h : s.Running) : s.live ⊆ s.workers := by
  intro w hw
  refine h.listed w fun hnone => ?_
  have hlive := mem_live.mp hw
  rw [hnone] at hlive
  cases hlive

theorem live_congr (h : ∀ w, isLive (s'.pool.workerStat w) = isLive (s.pool.workerStat w)) :
    s'.live = s.live := by
  simp only [live, h]

theorem active_subset_live : s.active ⊆ s.live := by
  intro w hw
  have hactive := (Finset.mem_filter.mp hw).2
  simp [mem_live, hactive, isLive]

end Counts

variable {c : ThreadPoolConfig} {s s' : Scaling W K T} [DecidableEq W]

theorem isLive_setStat {p : Pool W K T} {w : W} {stat : Stat} (hstat : stat ≠ .DEAD)
    (hlive : isLive (p.workerStat w) = true) (v : W) :
    isLive ((p.setStat w stat).workerStat v) = isLive (p.workerStat v) := by
  by_cases hv : v = w
  · subst hv
    rw [Pool.workerStat_setStat_self, hlive]
    cases stat with
    | EMPTY | ACTIVE => rfl
    | DEAD => contradiction
  · rw [Pool.workerStat_setStat_of_ne hv]

variable [DecidableEq K]

/-- No step of a worker or a caller marks an entry or takes a mark away. -/
theorem isLive_pool (h : s.Running) {a : Action W K T} {p : Pool W K T} (henabled : s.Enabled a)
    (hmoved : Pool.Step s.pool a p) (v : W) :
    isLive (p.workerStat v) = isLive (s.pool.workerStat v) := by
  cases hmoved with
  | findEntry | findNone | testActive | testExit | block | leave | popEmpty | wake | finish | push
  | notifyBlocked | notifyNone => rfl
  | @clear w hclear =>
    have hlive : isLive (s.pool.workerStat w) = true := by
      rw [h.clear w hclear]
      rfl
    exact isLive_setStat (show Stat.EMPTY ≠ .DEAD from nofun) hlive v
  | @pop w task tasks hlock hqueued hmarked =>
    have hlive : isLive (s.pool.workerStat w) = true := by
      cases hstat : s.pool.workerStat w with
      | none => exact absurd hstat (h.entry w (.inl hlock))
      | some stat =>
        cases stat with
        | EMPTY | ACTIVE => rfl
        | DEAD => exact absurd hstat hmarked
    exact isLive_setStat (p := { s.pool with tasks := tasks }) (show Stat.ACTIVE ≠ .DEAD from nofun)
      hlive v
  | setStop | mark | notifyAll | join => exact henabled.elim

variable [Fintype W]

omit [DecidableEq W] [DecidableEq K] in
/-- With an empty queue the workers at a task are left over, and with a task in it all. -/
theorem live_mark (hpool : s'.pool = { s.pool with workerStat := s.markIdle }.wakeAll) :
    s'.live = if s.pool.tasks = [] then s.active else s.live := by
  ext w
  split
  · rename_i hempty
    simp only [mem_live, active, hpool, Pool.wakeAll, markIdle, hempty, and_true,
      Finset.mem_filter, Finset.mem_univ, true_and]
    cases hstat : s.pool.workerStat w with
    | none => simp [isLive]
    | some stat => cases stat <;> simp [isLive]
  · rename_i hqueued
    simp [mem_live, hpool, Pool.wakeAll, markIdle, hqueued]

omit [DecidableEq K] in
theorem live_insert {w : W} (hpool : s'.pool =
    if s.pool.workerStat w = none then s.pool.setStat w .ACTIVE else s.pool) :
    s.live ⊆ s'.live := by
  intro v hv
  rw [mem_live] at hv ⊢
  rw [hpool]
  split
  · by_cases hvw : v = w
    · subst hvw
      rw [Pool.workerStat_setStat_self]
      rfl
    · rwa [Pool.workerStat_setStat_of_ne hvw]
  · exact hv

omit [DecidableEq W] [DecidableEq K] in
theorem inBounds_mark (h : s.InBounds c)
    (hpool : s'.pool = { s.pool with workerStat := s.markIdle }.wakeAll) :
    s'.InBounds c ↔ s.pool.tasks ≠ [] ∨ c.minCoreThread.toNat ≤ s.active.card := by
  have hle : s.active.card ≤ s.live.card := Finset.card_le_card active_subset_live
  obtain ⟨hmin, hmax⟩ := h
  by_cases hempty : s.pool.tasks = []
  · simp only [InBounds, live_mark hpool, hempty, if_true, ne_eq, not_true_eq_false, false_or]
    omega
  · simp only [InBounds, live_mark hpool, hempty, if_false, ne_eq, not_false_eq_true, true_or,
      iff_true]
    omega

omit [DecidableEq W] [DecidableEq K] in
theorem inBounds_congr (h : s.InBounds c)
    (hlive : ∀ w, isLive (s'.pool.workerStat w) = isLive (s.pool.workerStat w)) :
    s'.InBounds c := by
  rw [InBounds, live_congr hlive]
  exact h

omit [DecidableEq W] [DecidableEq K] in
theorem inBounds_tested (h : s.InBounds c) (htested : Tested c s s') : s'.InBounds c :=
  inBounds_congr h fun w => by rw [htested.pool]

/-- Only marking takes workers away, and growing has looked at their number before. -/
theorem inBounds_step (hrunning : s.Running) (hadjust : s.Adjusting c) (h : s.InBounds c)
    {e : Event W K T} (hstep : Step c s e s') : s'.InBounds c ↔ s.EnoughActive c e := by
  have hrunning' : s'.Running := running_step hrunning hadjust hstep
  cases hstep with
  | pool henabled hmoved =>
    exact iff_of_true (inBounds_congr h (isLive_pool hrunning henabled hmoved)) trivial
  | monitor => exact iff_of_true (inBounds_tested h (tested_monitor c s _ _)) trivial
  | adjust => exact iff_of_true (inBounds_tested h (tested_adjustTest c s _)) trivial
  | getThredShold | spawn | eraseJoinable | leave => exact iff_of_true h trivial
  | @insert w hinserting =>
    obtain ⟨hlisted, hmax⟩ := hadjust.inserting w hinserting
    refine iff_of_true ⟨?_, ?_⟩ trivial
    · exact h.1.trans (Finset.card_le_card (live_insert rfl))
    · exact (Finset.card_le_card (live_subset hrunning')).trans hmax
  | mark hshrinking => exact inBounds_mark h rfl
  | erase herasing hfound hjoined =>
    exact absurd hjoined (joinable_of_erasing hrunning hadjust herasing hfound)

/-- The bounds hold throughout exactly if enough workers are at a task, or a task is queued,
whenever the idle ones are marked. -/
theorem inBounds_iff_enoughActive (hinit : (machine W K T c).init s) (h : s.InBounds c)
    (events : List (Event W K T)) :
    (machine W K T c).AllStates (InBounds c) s events ↔
      (machine W K T c).AllSteps (EnoughActive c) s events := by
  have hexact : ∀ t e t', (t.Running ∧ t.Adjusting c) → t.InBounds c →
      (machine W K T c).step t e = some t' → (t'.InBounds c ↔ t.EnoughActive c e) := by
    intro t e t' ht hbounds hstep
    exact inBounds_step ht.1 ht.2 hbounds (step_cases hstep)
  exact Machine.allStates_iff_allSteps (fun t e t' ht _ _ hstep => runs_step ht hstep) hexact
    ⟨hinit.1, adjusting_of_idle hinit.2.1⟩ h events

/-- One of two workers is at a task and the other one waits; the monitor's thread is the third. -/
def oneIdle : Scaling (Fin 3) Unit Unit where
  pool := { (Pool.initial : Pool (Fin 3) Unit Unit) with
    workerStat := fun w => if w = 0 then some .ACTIVE else if w = 1 then some .EMPTY else none
    worker := fun w => if w = 0 then .run () else if w = 1 then .blocked else .start }
  workers := {0, 1, 2}
  joinable _ := true
  erased := ∅
  terminated := false
  prevIdleTime := 0
  prevTotalTime := 0
  thredShold := FIRST
  countForAdd := 0
  countForSub := 0
  adjust := .idle

def threeThreads (minCoreThread : UInt32) : ThreadPoolConfig := ⟨minCoreThread, 3, true, 30000, 0⟩

theorem oneIdle_init (c : ThreadPoolConfig) : (machine (Fin 3) Unit Unit c).init oneIdle := by
  refine ⟨⟨by decide, fun w hclear => ?_, fun w hwait => ?_, fun _ _ => rfl⟩, rfl, rfl, rfl⟩
  · by_cases h0 : w = 0
    · simp [oneIdle, h0] at hclear
    · by_cases h1 : w = 1 <;> simp [oneIdle, h0, h1] at hclear
  · by_cases h1 : w = 1
    · simp [oneIdle, h1]
    · by_cases h0 : w = 0 <;> simp [oneIdle, h0, h1] at hwait

def lightLoad : List (Event (Fin 3) Unit Unit) := [.adjust (.value 10), .mark]

theorem enoughActive_oneIdle : ∃ s', (machine (Fin 3) Unit Unit (threeThreads 1)).runUnder
    (EnoughActive (threeThreads 1)) oneIdle lightLoad = some s' := ⟨_, rfl⟩

theorem inBounds_iff_enoughActive_oneIdle :
    (machine (Fin 3) Unit Unit (threeThreads 1)).AllStates (InBounds (threeThreads 1))
      oneIdle lightLoad :=
  have ⟨_, hrun⟩ := enoughActive_oneIdle
  (inBounds_iff_enoughActive (oneIdle_init _) (by decide) lightLoad).mpr (.of_runUnder hrun)

/-- Two workers are the minimum, and the one that waits is marked. -/
theorem not_inBounds : (machine (Fin 3) Unit Unit (threeThreads 2)).init oneIdle ∧
    oneIdle.InBounds (threeThreads 2) ∧
    ∃ s', (machine (Fin 3) Unit Unit (threeThreads 2)).run oneIdle lightLoad = some s' ∧
      ¬ s'.InBounds (threeThreads 2) :=
  ⟨oneIdle_init _, by decide, _, rfl, by decide⟩

end Scaling

end ServerDevLib.ThreadPool
