import ServerDevLib.ThreadPool.Draining

/-!
# The futures of a pool

`EnqueueTask` returns the future of a packaged task, which the queue or a worker
shares with the call itself until it returns. Running the task makes its future
ready with what the function returns or throws; a packaged task whose last
reference goes before it has run breaks its promise. A task that `Shutdown`
discards while its `EnqueueTask` has not returned is kept by that call.
-/

namespace ServerDevLib.ThreadPool

open Transition

universe u

inductive FutureState (R : Type u)
  | absent
  | pending
  | ready (r : R)
  | broken
  deriving DecidableEq

/-- `made` is the local `task` of a call of `EnqueueTask`. -/
structure Futures (W K T R : Type u) where
  account : Accounting W K T
  made : K → Option T
  future : T → FutureState R

namespace Futures

variable {W K T R : Type u}

/-- The function of the task has a reference in the queue or in a worker. -/
def Shared (s : Futures W K T R) (task : T) : Prop :=
  task ∈ s.account.pool.tasks ∨ s.account.Held task

def Local (s : Futures W K T R) (task : T) : Prop := ∃ k, s.made k = some task

section Decidable

variable [DecidableEq W] [DecidableEq T] [Fintype W] [Fintype K]

instance (pool : Pool W K T) (w : W) (task : T) : Decidable (pool.worker w = .run task) :=
  decidable_of_iff _ (Accounting.mem_carried (w := w))

instance (s : Futures W K T R) (task : T) : Decidable (s.Shared task) :=
  inferInstanceAs (Decidable (_ ∨ ∃ w, s.account.pool.worker w = .run task))

instance (s : Futures W K T R) (task : T) : Decidable (s.Local task) :=
  inferInstanceAs (Decidable (∃ _, _))

instance (s : Accounting W K T) (task : T) : Decidable (s.Executed task) :=
  decidable_of_iff (task ∈ s.executed.map Prod.snd) (by simp [Accounting.Executed])

/-- Destroys the packaged tasks that nothing refers to any more. -/
def release (s : Futures W K T R) : Futures W K T R :=
  { s with future := fun task =>
      match s.future task with
      | .pending => if s.Shared task ∨ s.Local task then .pending else .broken
      | state => state }

variable [DecidableEq K]

/-- What an action does beside the pool; `outcome` is what a task returns or throws. -/
def record (outcome : T → R) (s : Futures W K T R) (next : Accounting W K T) :
    Action W K T → Futures W K T R
  | .push k task =>
    { account := next, made := Function.update s.made k (some task)
      future := Function.update s.future task .pending }
  | .notifyOne k _ => { s with account := next, made := Function.update s.made k none }
  | .finish w =>
    match s.account.pool.worker w with
    | .run task =>
      { s with account := next, future := Function.update s.future task (.ready (outcome task)) }
    | _ => { s with account := next }
  | .find _ | .test _ | .clear _ | .queue _ | .wake _ | .setStop | .mark | .notifyAll | .join =>
    { s with account := next }

def initial : Futures W K T R := ⟨.initial, fun _ => none, fun _ => .absent⟩

def machine (outcome : T → R) : Machine (Futures W K T R) (Action W K T) where
  init s := s = initial
  step s a := (s.account.step a).map fun next => (s.record outcome next a).release

/-- What has become of the future of a task, told from the tasks alone. -/
def expected (outcome : T → R) (s : Futures W K T R) (task : T) : FutureState R :=
  if task ∉ s.account.pushed then .absent
  else if s.account.Executed task then .ready (outcome task)
  else if task ∈ s.account.discarded ∧ ¬ s.Local task then .broken
  else .pending

/-- The futures are what is expected, and a thread outside of `EnqueueTask` has no local task. -/
structure Settled (outcome : T → R) (s : Futures W K T R) : Prop where
  future : ∀ task, s.future task = s.expected outcome task
  idle : ∀ k, s.account.pool.caller k = .idle → s.made k = none

variable {outcome : T → R} {s s' : Futures W K T R} {task : T}

section Places

omit [DecidableEq K] [DecidableEq T] [Fintype K] [Fintype W]

theorem mem_pushed_iff (h : s.account.Balanced) : task ∈ s.account.pushed ↔
    s.account.Executed task ∨ s.Shared task ∨ task ∈ s.account.discarded := by
  rw [h.balance.mem_iff, List.mem_append, List.mem_append, Shared]
  constructor
  · rintro (hdequeued | hdiscarded | hqueued)
    · obtain ⟨⟨w, _⟩, htaken, rfl⟩ := List.mem_map.mp hdequeued
      cases h.mem_dequeued.mp htaken with
      | inl hexecuted => exact .inl ⟨w, hexecuted⟩
      | inr hrunning => exact .inr (.inl (.inr ⟨w, hrunning⟩))
    · exact .inr (.inr hdiscarded)
    · exact .inr (.inl (.inl hqueued))
  · rintro (⟨w, hexecuted⟩ | (hqueued | ⟨w, hrunning⟩) | hdiscarded)
    · exact .inl (List.mem_map_of_mem (h.mem_dequeued.mpr (.inl hexecuted)))
    · exact .inr (.inr hqueued)
    · exact .inl (List.mem_map_of_mem (h.mem_dequeued.mpr (.inr hrunning)))
    · exact .inr (.inl hdiscarded)

theorem not_shared_of_discarded (h : s.account.Balanced) (hdiscarded : task ∈ s.account.discarded) :
    ¬ s.Shared task := by
  have hnodup := h.balance.nodup_iff.mp h.fresh
  rw [List.nodup_append, List.nodup_append] at hnodup
  obtain ⟨_, ⟨_, _, hqueued⟩, hdequeued⟩ := hnodup
  rintro (hmem | ⟨w, hrunning⟩)
  · exact hqueued task hdiscarded task hmem rfl
  · exact hdequeued task (List.mem_map_of_mem (h.mem_dequeued.mpr (.inr hrunning))) task
      (List.mem_append_left _ hdiscarded) rfl

theorem apart_of_executed (h : s.account.Balanced) (hexecuted : s.account.Executed task) :
    ¬ s.Shared task ∧ task ∉ s.account.discarded := by
  obtain ⟨w, hexecuted⟩ := hexecuted
  have hnodup := h.balance.nodup_iff.mp h.fresh
  have hmem : task ∈ s.account.dequeued.map Prod.snd :=
    List.mem_map_of_mem (h.mem_dequeued.mpr (.inl hexecuted))
  have hrest : task ∉ s.account.discarded ++ s.account.pool.tasks := fun hrest =>
    (List.nodup_append.mp hnodup).2.2 task hmem task hrest rfl
  rw [List.mem_append, not_or] at hrest
  refine ⟨?_, hrest.1⟩
  rintro (hqueued | ⟨v, hrunning⟩)
  · exact hrest.2 hqueued
  · exact h.not_executed hrunning ⟨w, hexecuted⟩

end Places

section Expected

omit [DecidableEq W] [Fintype W] [DecidableEq K]

theorem expected_congr (hpushed : task ∈ s'.account.pushed ↔ task ∈ s.account.pushed)
    (hexecuted : s'.account.Executed task ↔ s.account.Executed task)
    (hbroken : task ∈ s'.account.discarded ∧ ¬ s'.Local task ↔
      task ∈ s.account.discarded ∧ ¬ s.Local task) :
    s'.expected outcome task = s.expected outcome task :=
  if_congr (not_congr hpushed) rfl (if_congr hexecuted rfl (if_congr hbroken rfl rfl))

theorem expected_eq_pending : s.expected outcome task = .pending ↔ task ∈ s.account.pushed ∧
    ¬ s.account.Executed task ∧ ¬ (task ∈ s.account.discarded ∧ ¬ s.Local task) := by
  rw [expected]
  split_ifs <;> simp [*]

theorem expected_eq_broken : s.expected outcome task = .broken ↔ task ∈ s.account.pushed ∧
    ¬ s.account.Executed task ∧ task ∈ s.account.discarded ∧ ¬ s.Local task := by
  rw [expected]
  split_ifs <;> simp [*]

end Expected

/-- What a step leaves to the release of the packaged tasks are broken promises alone. -/
def Lags (outcome : T → R) (s : Futures W K T R) (task : T) : Prop :=
  s.future task = s.expected outcome task ∨
    s.future task = .pending ∧ s.expected outcome task = .broken

omit [DecidableEq K] in
theorem release_settles (h : s.account.Balanced) (hlags : s.Lags outcome task) :
    s.release.future task = s.expected outcome task := by
  simp only [release]
  rcases hlags with heq | ⟨hpending, hbroken⟩
  · rw [heq]
    cases hexpected : s.expected outcome task with
    | pending =>
      obtain ⟨hpushed, hnot, hkept⟩ := expected_eq_pending.mp hexpected
      refine if_pos ?_
      cases (mem_pushed_iff h).mp hpushed with
      | inl hexecuted => exact absurd hexecuted hnot
      | inr hplace =>
        cases hplace with
        | inl hshared => exact .inl hshared
        | inr hdiscarded => exact .inr (not_not.mp fun hlocal => hkept ⟨hdiscarded, hlocal⟩)
    | absent | ready | broken => rfl
  · obtain ⟨_, _, hdiscarded, hlocal⟩ := expected_eq_broken.mp hbroken
    rw [hpending, hbroken]
    exact if_neg (not_or.mpr ⟨not_shared_of_discarded h hdiscarded, hlocal⟩)

omit [DecidableEq W] [Fintype W] [DecidableEq K] in
/-- An action that runs no task, and at most takes references away. -/
theorem Settled.lags (h : s.Settled outcome) (hfuture : s'.future task = s.future task)
    (hpushed : task ∈ s'.account.pushed ↔ task ∈ s.account.pushed)
    (hexecuted : s'.account.Executed task ↔ s.account.Executed task)
    (hbroken : task ∈ s.account.discarded ∧ ¬ s.Local task →
      task ∈ s'.account.discarded ∧ ¬ s'.Local task) : s'.Lags outcome task := by
  by_cases hnew : task ∈ s'.account.discarded ∧ ¬ s'.Local task
  · by_cases hold : task ∈ s.account.discarded ∧ ¬ s.Local task
    · left
      rw [hfuture, h.future, expected_congr hpushed hexecuted (iff_of_true hnew hold)]
    · rw [Lags, hfuture, h.future, expected, expected, if_pos hnew, if_neg hold]
      simp only [hpushed, hexecuted]
      split_ifs <;> simp
  · left
    rw [hfuture, h.future,
      expected_congr hpushed hexecuted (iff_of_false hnew fun hold => hnew (hbroken hold))]

theorem lags_record {a : Action W K T} (h : s.Settled outcome) (hb : s.account.Balanced)
    {next : Accounting W K T} (hstep : (Accounting.machine W K T).step s.account a = some next)
    (task : T) : (s.record outcome next a).Lags outcome task := by
  obtain ⟨hfresh, pool, hpool, rfl⟩ := Accounting.step_cases hstep
  cases a with
  | push k made =>
    have hnew := mt (mem_pushed_iff hb).mpr hfresh
    simp only [not_or] at hnew
    have hnone : s.made k = none := by
      cases Pool.step_cases hpool with
      | push hidle => exact h.idle k hidle
    obtain rfl | hne := eq_or_ne task made
    · left
      refine (Function.update_self ..).trans (Eq.symm (expected_eq_pending.mpr ⟨?_, hnew.1, ?_⟩))
      · exact List.mem_append_right _ (List.mem_singleton_self task)
      · exact fun hbroken => hnew.2.2 hbroken.1
    · refine h.lags (Function.update_of_ne hne ..) ?_ Iff.rfl fun hbroken => ⟨hbroken.1, ?_⟩
      · change task ∈ s.account.pushed ++ [made] ↔ task ∈ s.account.pushed
        rw [List.mem_append, List.mem_singleton, or_iff_left hne]
      · rintro ⟨k', hk'⟩
        change Function.update s.made k (some made) k' = some task at hk'
        obtain rfl | hkk := eq_or_ne k' k
        · rw [Function.update_self] at hk'
          exact hne (Option.some.inj hk').symm
        · rw [Function.update_of_ne hkk] at hk'
          exact hbroken.2 ⟨k', hk'⟩
  | notifyOne k w =>
    refine h.lags rfl Iff.rfl Iff.rfl fun hbroken => ⟨hbroken.1, ?_⟩
    rintro ⟨k', hk'⟩
    change Function.update s.made k none k' = some task at hk'
    obtain rfl | hkk := eq_or_ne k' k
    · rw [Function.update_self] at hk'
      cases hk'
    · rw [Function.update_of_ne hkk] at hk'
      exact hbroken.2 ⟨k', hk'⟩
  | finish w =>
    cases Pool.step_cases hpool with
    | @finish _ run hrunning =>
      have hrecord : s.record outcome (s.account.record (s.account.pool.goto w .test) (.finish w))
          (.finish w) = { s with
            account := s.account.record (s.account.pool.goto w .test) (.finish w)
            future := Function.update s.future run (.ready (outcome run)) } := by
        simp only [record, hrunning]
      have hexecuted : (s.account.record (s.account.pool.goto w .test) (.finish w)).executed =
          s.account.executed ++ [(w, run)] := by
        simp only [Accounting.record, hrunning, WorkerPc.carried]
      have hpushed : run ∈ s.account.pushed := (mem_pushed_iff hb).mpr (.inr (.inl (.inr ⟨w, hrunning⟩)))
      rw [hrecord]
      obtain rfl | hne := eq_or_ne task run
      · left
        refine (Function.update_self ..).trans (Eq.symm ?_)
        refine (if_neg (not_not.mpr hpushed)).trans (if_pos ⟨w, ?_⟩)
        change (w, task) ∈ (s.account.record _ (.finish w)).executed
        rw [hexecuted]
        exact List.mem_append_right _ (List.mem_singleton_self _)
      · refine h.lags (Function.update_of_ne hne ..) Iff.rfl ?_ id
        simp only [Accounting.Executed]
        rw [hexecuted]
        simp [hne]
  | mark =>
    exact h.lags rfl Iff.rfl Iff.rfl fun hbroken => ⟨List.mem_append_left _ hbroken.1, hbroken.2⟩
  | find | test | clear | queue | wake | setStop | notifyAll | join =>
    exact h.lags rfl Iff.rfl Iff.rfl id

theorem idle_record {a : Action W K T} (h : s.Settled outcome) {next : Accounting W K T}
    (hstep : (Accounting.machine W K T).step s.account a = some next) (k : K)
    (hidle : next.pool.caller k = .idle) : (s.record outcome next a).made k = none := by
  obtain ⟨_, pool, hpool, rfl⟩ := Accounting.step_cases hstep
  rw [Accounting.pool_record] at hidle
  cases Pool.step_cases hpool with
  | @push k₀ made =>
    change Function.update s.made k₀ (some made) k = none
    obtain rfl | hne := eq_or_ne k k₀
    · change Function.update s.account.pool.caller k .pushed k = .idle at hidle
      rw [Function.update_self] at hidle
      cases hidle
    · change Function.update s.account.pool.caller k₀ .pushed k = .idle at hidle
      rw [Function.update_of_ne hne] at hidle ⊢
      exact h.idle k hidle
  | @notifyBlocked k₀ | @notifyNone k₀ =>
    change Function.update s.made k₀ none k = none
    obtain rfl | hne := eq_or_ne k k₀
    · rw [Function.update_self]
    · change Function.update s.account.pool.caller k₀ .idle k = .idle at hidle
      rw [Function.update_of_ne hne] at hidle ⊢
      exact h.idle k hidle
  | finish hrunning =>
    simp only [record, hrunning]
    exact h.idle k hidle
  | findEntry | findNone | testActive | testExit | clear | block | leave | popEmpty | pop | wake
  | setStop | mark | notifyAll | join => exact h.idle k hidle

omit [DecidableEq K] in
theorem account_release (s : Futures W K T R) : s.release.account = s.account := rfl

omit [DecidableEq W] [Fintype W] [Fintype K] in
theorem account_record (s : Futures W K T R) (next : Accounting W K T) (a : Action W K T) :
    (s.record outcome next a).account = next := by
  cases a with
  | finish w =>
    simp only [record]
    split <;> rfl
  | _ => rfl

/-- The tasks of a run with futures are those of a run of the pool. -/
theorem account_of_reachable (h : (machine outcome).Reachable s) :
    (Accounting.machine W K T).Reachable s.account := by
  apply h.project Futures.account
  · rintro s rfl
    rfl
  · intro s a s' _ hstep
    obtain ⟨next, hnext, rfl⟩ := Option.map_eq_some_iff.mp hstep
    refine .inr ⟨a, trivial, ?_⟩
    rw [account_release, account_record]
    exact hnext

theorem settled_of_reachable (h : (machine outcome).Reachable s) : s.Settled outcome := by
  have hbalanced : (Accounting.machine W K T).Preserves (fun _ _ => True) Accounting.Balanced :=
    Accounting.balanced_step
  have hbase (s : Futures W K T R) (h : (machine outcome).Reachable s) : s.account.Balanced :=
    Accounting.balanced_of_reachable (account_of_reachable h)
  refine h.invariant_on hbase ?_ fun s a s' hb hs _ hstep => ?_
  · rintro s rfl
    exact ⟨fun task => rfl, fun k _ => rfl⟩
  · obtain ⟨next, hnext, rfl⟩ := Option.map_eq_some_iff.mp hstep
    have hb' : (s.record outcome next a).account.Balanced := by
      rw [account_record]
      exact hbalanced s.account a next hb trivial hnext
    refine ⟨fun task => release_settles hb' (lags_record hs hb hnext task), fun k hidle => ?_⟩
    rw [account_release, account_record] at hidle
    exact idle_record hs hnext k hidle

theorem balanced_of_reachable (h : (machine outcome).Reachable s) : s.account.Balanced :=
  Accounting.balanced_of_reachable (account_of_reachable h)

section States

omit [Fintype W] [DecidableEq K]

variable (hs : s.Settled outcome) (hb : s.account.Balanced)

include hs hb

theorem Settled.ready_iff (task : T) (r : R) :
    s.future task = .ready r ↔ s.account.Executed task ∧ r = outcome task := by
  have hplaces : task ∈ s.account.pushed ↔ _ := mem_pushed_iff hb
  rw [hs.future task, expected]
  split_ifs <;> grind

theorem Settled.broken_iff (task : T) :
    s.future task = .broken ↔ task ∈ s.account.discarded ∧ ¬ s.Local task := by
  have hplaces : task ∈ s.account.pushed ↔ _ := mem_pushed_iff hb
  have hexecuted : s.account.Executed task → _ := apart_of_executed hb
  rw [hs.future task, expected]
  split_ifs <;> grind

theorem Settled.pending_iff (task : T) :
    s.future task = .pending ↔ s.Shared task ∨ task ∈ s.account.discarded ∧ s.Local task := by
  have hplaces : task ∈ s.account.pushed ↔ _ := mem_pushed_iff hb
  have hqueued : task ∈ s.account.discarded → _ := not_shared_of_discarded hb
  have hexecuted : s.account.Executed task → _ := apart_of_executed hb
  rw [hs.future task, expected]
  split_ifs <;> grind

omit [DecidableEq W] hb in
theorem Settled.absent_iff (task : T) : s.future task = .absent ↔ task ∉ s.account.pushed := by
  rw [hs.future task, expected]
  split_ifs <;> grind

end States

/-- In every state of every run a future is ready exactly if its task has been executed, with
what the task gave, and broken exactly if its task was discarded and its call has returned. -/
theorem future_of_reachable (h : (machine outcome).Reachable s) (task : T) :
    (∀ r, s.future task = .ready r ↔ s.account.Executed task ∧ r = outcome task) ∧
      (s.future task = .broken ↔ task ∈ s.account.discarded ∧ ¬ s.Local task) ∧
      (s.future task = .pending ↔ s.Shared task ∨ task ∈ s.account.discarded ∧ s.Local task) ∧
      (s.future task = .absent ↔ task ∉ s.account.pushed) := by
  have hs := settled_of_reachable h
  have hb := balanced_of_reachable h
  exact ⟨hs.ready_iff hb task, hs.broken_iff hb task, hs.pending_iff hb task, hs.absent_iff task⟩

/-- Two tasks wait, the worker runs the first and the shutdown discards the other: in the end
the one future is ready and the other broken. -/
theorem future_of_reachable_shutdown : ∃ s, (machine (W := Unit) (K := Unit) (· + 10)).run initial
    [.find (), .test (), .clear (), .push () 1, .notifyOne () none, .push () 2, .notifyOne () none,
      .queue (), .setStop, .mark, .finish ()] = some s ∧
    (s.future 1, s.future 2) = (.ready 11, .broken) ∧
    (s.account.Executed 1 ∧ 11 = 1 + 10) ∧ 2 ∈ s.account.discarded ∧ ¬ s.Local 2 := by
  obtain ⟨s, hs, heq⟩ : ∃ s, (machine (W := Unit) (K := Unit) (· + 10)).run initial
      [.find (), .test (), .clear (), .push () 1, .notifyOne () none, .push () 2, .notifyOne () none,
        .queue (), .setStop, .mark, .finish ()] = some s ∧
      (s.future 1, s.future 2) = (FutureState.ready 11, FutureState.broken) :=
    Option.map_eq_some_iff.mp (by decide +kernel)
  have hr := Machine.reachable_of_run rfl hs
  obtain ⟨hone, htwo⟩ := Prod.mk.inj heq
  exact ⟨s, hs, heq, ((future_of_reachable hr 1).1 11).mp hone, (future_of_reachable hr 2).2.1.mp htwo⟩

theorem account_step {a : Action W K T} (h : (machine outcome).step s a = some s') :
    s.account.Fresh a ∧ ∃ next, (Pool.machine W K T).step s.account.pool a = some next ∧
      s'.account = s.account.record next a := by
  obtain ⟨account, haccount, rfl⟩ := Option.map_eq_some_iff.mp h
  obtain ⟨hfresh, next, hnext, rfl⟩ := Accounting.step_cases haccount
  exact ⟨hfresh, next, hnext, account_record ..⟩

/-- What a run after the return of `Shutdown` does to the tasks: it adds to the queue. -/
structure Later (s s' : Futures W K T R) : Prop where
  returned : s'.account.pool.shutdown = .returned
  exited : ∀ w, s'.account.pool.worker w = .exited
  executed : s'.account.executed = s.account.executed
  queued : ∃ late, s'.account.pool.tasks = s.account.pool.tasks ++ late ∧
    s'.account.pushed = s.account.pushed ++ late

theorem Later.step {t : Futures W K T R} {a : Action W K T} (h : s.Later t)
    (hstep : (machine outcome).step t a = some s') : s.Later s' := by
  obtain ⟨_, next, hnext, haccount⟩ := account_step hstep
  obtain ⟨late, htasks, hpushed⟩ := h.queued
  rcases Pool.step_of_returned h.returned h.exited hnext with ⟨k, task, rfl, rfl⟩ | ⟨k, rfl, rfl⟩
  · refine ⟨?_, ?_, ?_, late ++ [task], ?_⟩ <;> simp only [haccount, Accounting.record]
    · exact h.returned
    · exact h.exited
    · exact h.executed
    · rw [htasks, hpushed]
      exact ⟨List.append_assoc .., List.append_assoc ..⟩
  · refine ⟨?_, ?_, ?_, late, ?_⟩ <;> simp only [haccount, Accounting.record]
    · exact h.returned
    · exact h.exited
    · exact h.executed
    · exact ⟨htasks, hpushed⟩

/-- After the return of `Shutdown` no future becomes ready any more. What is in the queue then or
comes to it later stays pending, and once the calls have returned nothing else does. -/
theorem pending_after_return {as : List (Action W K T)} (h : (machine outcome).Reachable s)
    (hreturned : s.account.pool.shutdown = .returned) (hrun : (machine outcome).run s as = some s') :
    (∀ task r, s'.future task = .ready r ↔ s.future task = .ready r) ∧
      (∃ late, s'.account.pool.tasks = s.account.pool.tasks ++ late ∧
        s'.account.pushed = s.account.pushed ++ late) ∧
      (∀ task ∈ s'.account.pool.tasks, s'.future task = .pending) ∧
      ((∀ k, s'.account.pool.caller k = .idle) →
        ∀ task, s'.future task = .pending → task ∈ s'.account.pool.tasks) := by
  have hpool : (Pool.machine W K T).Reachable s.account.pool :=
    Accounting.pool_of_reachable (account_of_reachable h)
  have hexited := Pool.joined_of_reachable hpool hreturned
  have hstart : s.Later s :=
    ⟨hreturned, hexited, rfl, [], (List.append_nil _).symm, (List.append_nil _).symm⟩
  have hlater : s.Later s' :=
    Machine.run_invariant (fun t a t' ht _ hstep => ht.step hstep) hstart hrun
  have hr' : (machine outcome).Reachable s' :=
    Machine.ReachableUnder.of_run (fun _ _ => trivial) h hrun
  have hs := settled_of_reachable h
  have hs' := settled_of_reachable hr'
  have hb := balanced_of_reachable h
  have hb' := balanced_of_reachable hr'
  refine ⟨fun task r => ?_, hlater.queued, fun task hmem => ?_, fun hidle task hpending => ?_⟩
  · rw [hs'.ready_iff hb', hs.ready_iff hb]
    simp only [Accounting.Executed, hlater.executed]
  · exact (hs'.pending_iff hb' task).mpr (.inl (.inl hmem))
  · rcases (hs'.pending_iff hb' task).mp hpending with (hqueued | ⟨w, hrunning⟩) | hlocal
    · exact hqueued
    · rw [hlater.exited w] at hrunning
      cases hrunning
    · obtain ⟨_, k, hk⟩ := hlocal
      rw [hs'.idle k (hidle k)] at hk
      cases hk

/-- A task is pushed before the return of `Shutdown` and one after it; nobody will run them. -/
theorem pending_after_return_late : ∃ s s', (machine (W := Unit) (K := Unit) (· + 10)).run initial
    [.find (), .test (), .clear (), .queue (), .setStop, .mark, .push () 1, .notifyAll, .queue (),
      .join] = some s ∧
    (machine (· + 10)).run s [.notifyOne () none, .push () 2, .notifyOne () none] = some s' ∧
    s'.account.pool.tasks = [1, 2] ∧ (∀ task ∈ s'.account.pool.tasks, s'.future task = .pending) := by
  obtain ⟨s, hs, hreturned⟩ : ∃ s, (machine (W := Unit) (K := Unit) (· + 10)).run initial
      [.find (), .test (), .clear (), .queue (), .setStop, .mark, .push () 1, .notifyAll, .queue (),
        .join] = some s ∧ s.account.pool.shutdown = .returned :=
    Option.map_eq_some_iff.mp (by decide +kernel)
  obtain ⟨s', hs', htasks⟩ : ∃ s',
      (machine (· + 10)).run s [.notifyOne () none, .push () 2, .notifyOne () none] = some s' ∧
      s'.account.pool.tasks = [1, 2] := by
    apply Option.map_eq_some_iff.mp
    cases hs
    decide +kernel
  exact ⟨s, s', hs, hs', htasks,
    (pending_after_return (Machine.reachable_of_run rfl hs) hreturned hs').2.2.1⟩

end Decidable

end Futures

end ServerDevLib.ThreadPool
