import ServerDevLib.ThreadPool.LoopRuns

/-!
# Starting the workers of a pool

`Init` constructs the threads one after the other. A thread runs from its
construction on, and its entry in `_workerStat` is inserted afterwards; a
worker that looks for its entry in between finds none and exits. The workers
are numbered in the order of the loop. `EnqueueTask` needs the constructed
pool, and the pool is looked at before a shutdown.
-/

namespace ServerDevLib.ThreadPool

open Transition

structure Startup (n : Nat) (K T : Type) where
  pool : Pool (Fin n) K T
  spawned : Nat
  inserted : Nat
  returned : Bool

namespace Pool

/-- The worker is in its loop, or its next steps lead there. -/
def Enters {W K T : Type} [DecidableEq W] [DecidableEq K] [Fintype W] (s : Pool W K T) (w : W) :
    Prop :=
  match s.worker w with
  | .start => ∃ s', (machine W K T).run s [.find w, .test w] = some s' ∧ s'.worker w = .clear
  | .test => ∃ s', (machine W K T).run s [.test w] = some s' ∧ s'.worker w = .clear
  | .clear | .lock | .blocked | .run _ => True
  | .exited => False

section Enter

variable {W K T : Type} [DecidableEq W] [DecidableEq K] [Fintype W] {s : Pool W K T} {w : W}

theorem step_find (hpc : s.worker w = .start) (hentry : s.workerStat w ≠ none) :
    (machine W K T).step s (.find w) = some (s.goto w .test) := by
  simp only [machine, step, hpc, Option.isSome_iff_ne_none.mpr hentry, if_true]

theorem step_test (hpc : s.worker w = .test) (hactive : s.workerStat w = some .ACTIVE) :
    (machine W K T).step s (.test w) = some (s.goto w .clear) := by
  simp only [machine, step, hpc, hactive, if_true]

theorem Working.enters (h : s.Working) (hentry : s.workerStat w ≠ none) : s.Enters w := by
  have hstat : s.workerStat w = some (s.worker w).stat := by
    cases h.agrees w with
    | inl hstat => exact hstat
    | inr habsent => exact absurd habsent.1 hentry
  cases hpc : s.worker w with
  | start =>
    rw [hpc] at hstat
    have htest : (s.goto w .test).worker w = .test := worker_goto_self w .test
    simp only [Enters, hpc, Machine.run_cons, step_find hpc hentry, Option.bind_some]
    rw [step_test htest hstat]
    exact ⟨_, rfl, worker_goto_self w .clear⟩
  | test =>
    rw [hpc] at hstat
    simp only [Enters, hpc, Machine.run_cons]
    rw [step_test hpc hstat]
    exact ⟨_, rfl, worker_goto_self w .clear⟩
  | clear | lock | blocked | run task => simp only [Enters, hpc]
  | exited => exact absurd hpc (h.looping w)

theorem not_enters (hpc : s.worker w = .exited) :
    ¬ s.Enters w := by
  simp only [Enters, hpc, not_false_eq_true]

/-- A worker that has returned stays away. -/
theorem exited_step {s' : Pool W K T} {a : Action W K T} (hcond : s.WithoutShutdown a)
    (hpc : s.worker w = .exited) (hstep : (machine W K T).step s a = some s') :
    s'.worker w = .exited := by
  have hother {v : W} {pc pc' : WorkerPc T} (hv : s.worker v = pc) (hpc' : pc ≠ .exited) :
      Function.update s.worker v pc' w = .exited := by
    have hne : w ≠ v := by
      rintro rfl
      exact hpc' (hv.symm.trans hpc)
    exact (Function.update_of_ne hne ..).trans hpc
  cases step_cases hstep with
  | findEntry hv | findNone hv | testActive hv | testExit hv | clear hv | block hv | leave hv
  | popEmpty hv | pop hv | wake hv | finish hv | notifyBlocked _ hv => exact hother hv nofun
  | push | notifyNone => exact hpc
  | setStop | mark | notifyAll | join => exact hcond.elim

end Enter

end Pool

namespace Startup

inductive Event (n : Nat) (K T : Type)
  | spawn
  | insert
  | finish
  | pool (a : Action (Fin n) K T)

variable {n : Nat} {K T : Type}

/-- Threads run once they are constructed, callers once the constructor has returned. -/
def Enabled (s : Startup n K T) : Action (Fin n) K T → Prop
  | .find w | .test w | .clear w | .queue w | .wake w | .finish w => w.val < s.spawned
  | .push _ _ | .notifyOne _ _ => s.returned = true
  | .setStop | .mark | .notifyAll | .join => False

instance (s : Startup n K T) (a : Action (Fin n) K T) : Decidable (s.Enabled a) :=
  match a with
  | .find w | .test w | .clear w | .queue w | .wake w | .finish w =>
    inferInstanceAs (Decidable (w.val < s.spawned))
  | .push _ _ | .notifyOne _ _ => inferInstanceAs (Decidable (s.returned = true))
  | .setStop | .mark | .notifyAll | .join => isFalse id

/-- `emplace` of an entry. -/
def emplace (s : Startup n K T) (w : Fin n) (stat : Stat) : Pool (Fin n) K T :=
  if s.pool.workerStat w = none then s.pool.setStat w stat else s.pool

def initial : Startup n K T :=
  { pool := { (Pool.initial : Pool (Fin n) K T) with workerStat := fun _ => none },
    spawned := 0, inserted := 0, returned := false }

structure Starting (s : Startup n K T) : Prop where
  working : s.pool.Working
  listed : ∀ w, s.pool.workerStat w = none ↔ s.inserted ≤ w.val
  returned : s.returned = true → s.inserted = n

theorem initial_starting : (initial : Startup n K T).Starting where
  working := ⟨rfl, fun _ => nofun, fun _ => .inr ⟨rfl, rfl⟩⟩
  listed w := by
    constructor
    · exact fun _ => Nat.zero_le _
    · exact fun _ => rfl
  returned := nofun

theorem Enabled.withoutShutdown {s : Startup n K T} {a : Action (Fin n) K T} (h : s.Enabled a) :
    s.pool.WithoutShutdown a := by
  cases a with
  | setStop | mark | notifyAll | join => exact h
  | _ => trivial

/-- The entry a worker is to find is in place before the next thread is made. -/
theorem Starting.insert {s : Startup n K T} (h : s.Starting) (hlt : s.inserted < n) :
    ({ s with pool := s.emplace ⟨s.inserted, hlt⟩ .ACTIVE, inserted := s.inserted + 1 } :
      Startup n K T).Starting := by
  have habsent : s.pool.workerStat ⟨s.inserted, hlt⟩ = none := (h.listed _).mpr (Nat.le_refl _)
  have hstart : s.pool.worker ⟨s.inserted, hlt⟩ = .start := by
    cases h.working.agrees ⟨s.inserted, hlt⟩ with
    | inl hstat =>
      rw [habsent] at hstat
      cases hstat
    | inr hstart => exact hstart.2
  rw [emplace, if_pos habsent]
  constructor
  · refine ⟨h.working.running, h.working.looping, fun w => ?_⟩
    rcases eq_or_ne w ⟨s.inserted, hlt⟩ with rfl | hne
    · rw [Pool.workerStat_setStat_self]
      change some Stat.ACTIVE = some (s.pool.worker _).stat ∨ _
      rw [hstart]
      exact .inl rfl
    · rw [Pool.workerStat_setStat_of_ne hne]
      exact h.working.agrees w
  · intro w
    rcases eq_or_ne w ⟨s.inserted, hlt⟩ with rfl | hne
    · rw [Pool.workerStat_setStat_self]
      simp
    · have hval : w.val ≠ s.inserted := fun heq => hne (Fin.ext heq)
      rw [Pool.workerStat_setStat_of_ne hne, h.listed w]
      change s.inserted ≤ w.val ↔ s.inserted + 1 ≤ w.val
      omega
  · intro hreturned
    have hall := h.returned hreturned
    omega

/-- What `Init` has not come to has no entry, and its worker stands before the lookup or has
returned. -/
def Unlisted (s : Startup n K T) : Prop :=
  ∀ w, s.inserted ≤ w.val →
    s.pool.workerStat w = none ∧ (s.pool.worker w = .start ∨ s.pool.worker w = .exited)

/-- A worker has returned. -/
def Lost (s : Startup n K T) : Prop := ∃ w, s.pool.worker w = .exited

theorem worker_emplace (s : Startup n K T) (w : Fin n) (stat : Stat) :
    (s.emplace w stat).worker = s.pool.worker := by
  rw [emplace]
  split <;> rfl

theorem Unlisted.insert {s : Startup n K T} (h : s.Unlisted) (hlt : s.inserted < n) :
    ({ s with pool := s.emplace ⟨s.inserted, hlt⟩ .ACTIVE, inserted := s.inserted + 1 } :
      Startup n K T).Unlisted := by
  intro w hle
  change s.inserted + 1 ≤ w.val at hle
  obtain ⟨habsent, hpc⟩ := h w (by omega)
  refine ⟨?_, by rw [worker_emplace]; exact hpc⟩
  have hne : w ≠ ⟨s.inserted, hlt⟩ := by
    rintro rfl
    exact absurd hle (Nat.not_succ_le_self _)
  rw [emplace]
  split
  · exact (Pool.workerStat_setStat_of_ne hne .ACTIVE).trans habsent
  · exact habsent

theorem Unlisted.pool [DecidableEq K] {s : Startup n K T} {a : Action (Fin n) K T}
    {pool : Pool (Fin n) K T} (h : s.Unlisted) (hcond : s.pool.WithoutShutdown a)
    (hpool : (Pool.machine (Fin n) K T).step s.pool a = some pool) :
    ({ s with pool := pool } : Startup n K T).Unlisted := by
  intro w hle
  obtain ⟨habsent, hpc⟩ := h w hle
  have hne {v : Fin n} {pc : WorkerPc T} (hv : s.pool.worker v = pc) (hstart : pc ≠ .start)
      (hexited : pc ≠ .exited) : w ≠ v := by
    rintro rfl
    rcases hpc with hpc | hpc
    · exact hstart (hv.symm.trans hpc)
    · exact hexited (hv.symm.trans hpc)
  cases Pool.step_cases hpool with
  | @findEntry v hv hpresent =>
    have hother : w ≠ v := by
      rintro rfl
      exact hpresent habsent
    exact ⟨habsent, by rw [Pool.worker_goto_of_ne hother]; exact hpc⟩
  | @findNone v =>
    refine ⟨habsent, ?_⟩
    rcases eq_or_ne w v with rfl | hother
    · exact .inr (Pool.worker_goto_self w .exited)
    · rw [Pool.worker_goto_of_ne hother]
      exact hpc
  | testActive hv | testExit hv | block hv | leave hv | popEmpty hv | wake hv | finish hv
  | notifyBlocked _ hv =>
    exact ⟨habsent, by rw [Pool.worker_goto_of_ne (hne hv nofun nofun)]; exact hpc⟩
  | clear hv | pop hv =>
    have hother := hne hv nofun nofun
    refine ⟨(Pool.workerStat_setStat_of_ne hother _).trans habsent, ?_⟩
    rw [Pool.worker_goto_of_ne hother]
    exact hpc
  | push | notifyNone => exact ⟨habsent, hpc⟩
  | setStop | mark | notifyAll | join => exact hcond.elim

variable [DecidableEq K]

def step (s : Startup n K T) : Event n K T → Option (Startup n K T)
  | .spawn =>
    if s.spawned = s.inserted ∧ s.spawned < n then some { s with spawned := s.spawned + 1 } else none
  | .insert =>
    if h : s.inserted < s.spawned ∧ s.inserted < n then
      some { s with pool := s.emplace ⟨s.inserted, h.2⟩ .ACTIVE, inserted := s.inserted + 1 }
    else none
  | .finish => if s.inserted = n then some { s with returned := true } else none
  | .pool a =>
    if s.Enabled a then
      ((Pool.machine (Fin n) K T).step s.pool a).map fun pool => { s with pool := pool }
    else none

def machine (n : Nat) (K T : Type) [DecidableEq K] : Machine (Startup n K T) (Event n K T) where
  init s := s = initial
  step := step

/-- A worker looks for its entry after `Init` has inserted it. -/
def InsertedFirst (s : Startup n K T) : Event n K T → Prop
  | .pool (.find w) => w.val < s.inserted
  | _ => True

variable {s s' : Startup n K T}

theorem starting_step : (machine n K T).Preserves InsertedFirst Starting := by
  intro s a s' h hfirst hstep
  cases a with
  | spawn =>
    simp only [machine, step] at hstep
    split at hstep <;> cases hstep
    exact ⟨h.working, h.listed, h.returned⟩
  | insert =>
    simp only [machine, step] at hstep
    split at hstep <;> cases hstep
    rename_i hlt
    exact h.insert hlt.2
  | finish =>
    simp only [machine, step] at hstep
    split at hstep <;> cases hstep
    rename_i hall
    exact ⟨h.working, h.listed, fun _ => hall⟩
  | pool a =>
    simp only [machine, step] at hstep
    split at hstep
    · rename_i henabled
      obtain ⟨pool, hpool, rfl⟩ := Option.map_eq_some_iff.mp hstep
      have hcond := henabled.withoutShutdown
      have hfind (w : Fin n) (ha : a = .find w) : s.pool.workerStat w ≠ none := by
        subst ha
        intro habsent
        exact absurd hfirst (Nat.not_lt.mpr ((h.listed w).mp habsent))
      constructor
      · exact h.working.step hcond hfind hpool
      · intro w
        exact (h.working.entries hcond hpool w).trans (h.listed w)
      · exact h.returned
    · cases hstep

theorem enters_of_insertedFirst (h : (machine n K T).ReachableUnder InsertedFirst s)
    (hreturned : s.returned = true) (w : Fin n) : s.pool.Enters w := by
  have hstarting : s.Starting := by
    apply h.invariant _ starting_step
    rintro s rfl
    exact initial_starting
  apply hstarting.working.enters
  intro habsent
  have hle := (hstarting.listed w).mp habsent
  rw [hstarting.returned hreturned] at hle
  exact absurd w.isLt (Nat.not_lt.mpr hle)

theorem unlisted_step : (machine n K T).Preserves (fun _ _ => True) Unlisted := by
  intro s a s' h _ hstep
  cases a with
  | spawn =>
    simp only [machine, step] at hstep
    split at hstep <;> cases hstep
    exact h
  | insert =>
    simp only [machine, step] at hstep
    split at hstep <;> cases hstep
    rename_i hlt
    exact h.insert hlt.2
  | finish =>
    simp only [machine, step] at hstep
    split at hstep <;> cases hstep
    exact h
  | pool a =>
    simp only [machine, step] at hstep
    split at hstep
    · rename_i henabled
      obtain ⟨pool, hpool, rfl⟩ := Option.map_eq_some_iff.mp hstep
      exact h.pool henabled.withoutShutdown hpool
    · cases hstep

theorem unlisted_of_reachable (h : (machine n K T).Reachable s) : s.Unlisted := by
  refine h.invariant ?_ unlisted_step
  rintro s rfl w _
  exact ⟨rfl, .inl rfl⟩

/-- A worker that looks for its entry too early has none, and no step brings it back. -/
theorem lost_of_early {a : Event n K T} (h : s.Unlisted) (hearly : ¬ s.InsertedFirst a)
    (hstep : (machine n K T).step s a = some s') : s'.Lost := by
  cases a with
  | spawn | insert | finish => exact absurd trivial hearly
  | pool a =>
    cases a with
    | find w =>
      simp only [machine, step] at hstep
      split at hstep
      · obtain ⟨pool, hpool, rfl⟩ := Option.map_eq_some_iff.mp hstep
        have habsent : s.pool.workerStat w = none := (h w (Nat.not_lt.mp hearly)).1
        cases Pool.step_cases hpool with
        | findEntry _ hpresent => exact absurd habsent hpresent
        | findNone => exact ⟨w, Pool.worker_goto_self w .exited⟩
      · cases hstep
    | _ => exact absurd trivial hearly

theorem lost_step {a : Event n K T} (h : s.Lost)
    (hstep : (machine n K T).step s a = some s') : s'.Lost := by
  obtain ⟨w, hw⟩ := h
  refine ⟨w, ?_⟩
  cases a with
  | spawn =>
    simp only [machine, step] at hstep
    split at hstep <;> cases hstep
    exact hw
  | insert =>
    simp only [machine, step] at hstep
    split at hstep <;> cases hstep
    rw [worker_emplace]
    exact hw
  | finish =>
    simp only [machine, step] at hstep
    split at hstep <;> cases hstep
    exact hw
  | pool a =>
    simp only [machine, step] at hstep
    split at hstep
    · rename_i henabled
      obtain ⟨pool, hpool, rfl⟩ := Option.map_eq_some_iff.mp hstep
      exact Pool.exited_step henabled.withoutShutdown hw hpool
    · cases hstep

/-- However far `Init` has come, it can go on and return while its workers stand still. -/
theorem exists_return (hspawned : s.spawned = s.inserted) (hle : s.inserted ≤ n) :
    ∃ es s', (machine n K T).run s es = some s' ∧ s'.returned = true ∧
      s'.pool.worker = s.pool.worker := by
  obtain ⟨k, hk⟩ := Nat.exists_eq_add_of_le hle
  induction k generalizing s with
  | zero =>
    have hfinish : (machine n K T).step s .finish = some { s with returned := true } :=
      if_pos hk.symm
    refine ⟨[.finish], { s with returned := true }, ?_, rfl, rfl⟩
    rw [Machine.run_cons, hfinish]
    rfl
  | succ k ih =>
    have hlt : s.inserted < n := by omega
    have hspawn : (machine n K T).step s .spawn = some { s with spawned := s.spawned + 1 } :=
      if_pos ⟨hspawned, hspawned ▸ hlt⟩
    have hinsert : (machine n K T).step { s with spawned := s.spawned + 1 } .insert =
        some { s with
          pool := s.emplace ⟨s.inserted, hlt⟩ .ACTIVE
          spawned := s.spawned + 1
          inserted := s.inserted + 1 } :=
      dif_pos ⟨hspawned ▸ Nat.lt_succ_self _, hlt⟩
    obtain ⟨es, s', hrun, hreturned, hworker⟩ := ih (s := { s with
      pool := s.emplace ⟨s.inserted, hlt⟩ .ACTIVE
      spawned := s.spawned + 1
      inserted := s.inserted + 1 }) (congrArg (· + 1) hspawned) hlt (by simp only; omega)
    refine ⟨.spawn :: .insert :: es, s', ?_, hreturned, hworker.trans (s.worker_emplace _ _)⟩
    rw [Machine.run_cons, hspawn, Option.bind_some, Machine.run_cons, hinsert]
    exact hrun

/-- With a worker to start there is an order in which it exits at once. -/
theorem exists_lost (hn : 0 < n) :
    ∃ s, (machine n K T).Reachable s ∧ s.returned = true ∧ s.Lost := by
  obtain ⟨t, ht, hspawned, hle, hexited⟩ : ∃ t,
      (machine n K T).run initial [.spawn, .pool (.find ⟨0, hn⟩), .insert] = some t ∧
      t.spawned = t.inserted ∧ t.inserted ≤ n ∧ t.pool.worker ⟨0, hn⟩ = .exited := by
    simp [machine, Machine.run, step, initial, Enabled, Pool.step, Pool.machine, Pool.initial,
      Pool.goto, worker_emplace, hn, Nat.succ_le_of_lt hn]
  obtain ⟨es, s, hrun, hreturned, hworker⟩ := exists_return hspawned hle
  refine ⟨s, Machine.reachable_of_run rfl (Machine.run_trans ht hrun), hreturned, ⟨0, hn⟩, ?_⟩
  rw [hworker]
  exact hexited

/-- For every order of the steps all workers enter their loops only if there is none to start; in
a single run they do exactly if each of them looks for its entry after it has been inserted. -/
theorem every_worker_enters_iff (n : Nat) (K T : Type) [DecidableEq K] :
    ((∀ s, (machine n K T).Reachable s → s.returned = true → ∀ w, s.pool.Enters w) ↔ n = 0) ∧
      ∀ es s, (machine n K T).run initial es = some s → s.returned = true →
        ((∀ w, s.pool.Enters w) ↔ (machine n K T).AllSteps InsertedFirst initial es) := by
  refine ⟨⟨fun hall => ?_, ?_⟩, fun es s hrun hreturned => ⟨fun hall => ?_, fun hfirst => ?_⟩⟩
  · by_contra hn
    obtain ⟨s, hreachable, hreturned, w, hw⟩ := exists_lost (K := K) (T := T) (Nat.pos_of_ne_zero hn)
    exact Pool.not_enters hw (hall s hreachable hreturned w)
  · rintro rfl s _ _ w
    exact w.elim0
  · have hentered : ¬ s.Lost := fun ⟨w, hw⟩ => Pool.not_enters hw (hall w)
    refine (Machine.AllSteps.of_avoids (fun t a t' ht hstep hearly => ?_)
      (fun t a t' _ hlost hstep => lost_step hlost hstep) (.init rfl) hrun hentered).1
    exact lost_of_early (unlisted_of_reachable ht) hearly hstep
  · exact enters_of_insertedFirst (.of_allSteps (.init rfl) hfirst hrun) hreturned

/-- The only worker looks for its entry before it is inserted, and the pool has no worker left. -/
theorem worker_exits_at_once : ∃ s, (machine 1 Unit Unit).run initial
    [.spawn, .pool (.find 0), .insert, .finish] = some s ∧
    s.returned = true ∧ ∀ w, s.pool.worker w = .exited := by
  obtain ⟨s, hs, hreturned, hexited⟩ : ∃ s, (machine 1 Unit Unit).run initial
      [.spawn, .pool (.find 0), .insert, .finish] = some s ∧
      s.returned = true ∧ s.pool.worker 0 = .exited := ⟨_, rfl, rfl, rfl⟩
  refine ⟨s, hs, hreturned, fun w => ?_⟩
  rw [Fin.eq_zero w]
  exact hexited

end Startup

end ServerDevLib.ThreadPool
