import ServerDevLib.Foundation.Transition
import Mathlib.Logic.Function.Basic

/-!
# Objects that are made at their first use

A caller that finds no object takes a mutex, looks once more and makes the
object if there is still none. Every access to the shared pointer is a step of
its own, the first test is made without the mutex, and a constructor that
throws gives the mutex back. However the callers take turns, one object is
made at most, and every call ends with that one; the object then runs as its
own machine has it.
-/

namespace ServerDevLib.Once

open Transition

universe u v w

inductive Pc
  | idle
  | test
  | lock
  | retest
  | make
  | store (i : Nat)
  | unlock
  | read
  | done (i : Nat)
  | null
  | thrown

namespace Pc

/-- The caller has the mutex. -/
def holds : Pc → Bool
  | .retest | .make | .store _ | .unlock => true
  | .idle | .test | .lock | .read | .done _ | .null | .thrown => false

/-- The caller is not in a call. -/
def outside : Pc → Bool
  | .idle | .done _ | .thrown => true
  | .test | .lock | .retest | .make | .store _ | .unlock | .read | .null => false

end Pc

/-- The shared pointer has the number of an object; `objects` are those that were made. -/
structure Shared (P : Type u) (σ : Type v) where
  slot : Option Nat
  holder : Option P
  objects : List σ
  caller : P → Pc

inductive Action (P : Type u) (α : Type w)
  | call (p : P)
  | test (p : P)
  | lock (p : P)
  | retest (p : P)
  | make (p : P)
  | throw (p : P)
  | store (p : P)
  | unlock (p : P)
  | read (p : P)
  | object (i : Nat) (a : α)

/-- How callers use an object: whose action it is, if it needs the reference, and whether a caller
is done with its last one. -/
structure Usage (P : Type u) (σ : Type v) (α : Type w) where
  user : α → Option P
  rests : σ → P → Bool

namespace Shared

variable {P : Type u} {σ : Type v} {α : Type w} [DecidableEq P]

def goto (s : Shared P σ) (p : P) (pc : Pc) : Shared P σ :=
  { s with caller := Function.update s.caller p pc }

/-- The caller has a reference to object `i`. -/
def refers (s : Shared P σ) (p : P) (i : Nat) : Bool :=
  match s.caller p with
  | .done j => j == i
  | _ => false

def mayUse (u : Usage P σ α) (s : Shared P σ) (i : Nat) (a : α) : Bool :=
  match u.user a with
  | some p => s.refers p i
  | none => true

def step (M : Machine σ α) (fresh : σ) (u : Usage P σ α) (s : Shared P σ) :
    Action P α → Option (Shared P σ)
  | .call p =>
    if (s.caller p).outside && s.objects.all fun o => u.rests o p then some (s.goto p .test)
    else none
  | .test p =>
    match s.caller p with
    | .test => some (s.goto p (if s.slot = none then .lock else .read))
    | _ => none
  | .lock p =>
    match s.caller p, s.holder with
    | .lock, none => some ({ s with holder := some p }.goto p .retest)
    | _, _ => none
  | .retest p =>
    match s.caller p with
    | .retest => some (s.goto p (if s.slot = none then .make else .unlock))
    | _ => none
  | .make p =>
    match s.caller p with
    | .make => some ({ s with objects := s.objects ++ [fresh] }.goto p (.store s.objects.length))
    | _ => none
  | .throw p =>
    match s.caller p with
    | .make => some ({ s with holder := none }.goto p .thrown)
    | _ => none
  | .store p =>
    match s.caller p with
    | .store i => some ({ s with slot := some i }.goto p .unlock)
    | _ => none
  | .unlock p =>
    match s.caller p with
    | .unlock => some ({ s with holder := none }.goto p .read)
    | _ => none
  | .read p =>
    match s.caller p with
    | .read => some (s.goto p (s.slot.elim .null .done))
    | _ => none
  | .object i a =>
    match s.objects[i]? with
    | some o =>
      if s.mayUse u i a then (M.step o a).map fun o' => { s with objects := s.objects.set i o' }
      else none
    | none => none

def initial : Shared P σ :=
  { slot := none, holder := none, objects := [], caller := fun _ => .idle }

def machine (M : Machine σ α) (fresh : σ) (u : Usage P σ α) :
    Machine (Shared P σ) (Action P α) where
  init s := s = initial
  step := step M fresh u

inductive Step (M : Machine σ α) (fresh : σ) (s : Shared P σ) : Action P α → Shared P σ → Prop
  | call {p} (outside : (s.caller p).outside = true) : Step M fresh s (.call p) (s.goto p .test)
  | missing {p} (test : s.caller p = .test) (empty : s.slot = none) :
      Step M fresh s (.test p) (s.goto p .lock)
  | found {p} (test : s.caller p = .test) (full : s.slot ≠ none) :
      Step M fresh s (.test p) (s.goto p .read)
  | lock {p} (lock : s.caller p = .lock) (free : s.holder = none) :
      Step M fresh s (.lock p) ({ s with holder := some p }.goto p .retest)
  | stillMissing {p} (retest : s.caller p = .retest) (empty : s.slot = none) :
      Step M fresh s (.retest p) (s.goto p .make)
  | madeMeanwhile {p} (retest : s.caller p = .retest) (full : s.slot ≠ none) :
      Step M fresh s (.retest p) (s.goto p .unlock)
  | make {p} (make : s.caller p = .make) :
      Step M fresh s (.make p)
        ({ s with objects := s.objects ++ [fresh] }.goto p (.store s.objects.length))
  | throw {p} (make : s.caller p = .make) :
      Step M fresh s (.throw p) ({ s with holder := none }.goto p .thrown)
  | store {p i} (store : s.caller p = .store i) :
      Step M fresh s (.store p) ({ s with slot := some i }.goto p .unlock)
  | unlock {p} (unlock : s.caller p = .unlock) :
      Step M fresh s (.unlock p) ({ s with holder := none }.goto p .read)
  | read {p} (read : s.caller p = .read) :
      Step M fresh s (.read p) (s.goto p (s.slot.elim .null .done))
  | object {i a o o'} (found : s.objects[i]? = some o) (moved : M.step o a = some o') :
      Step M fresh s (.object i a) { s with objects := s.objects.set i o' }

variable {M : Machine σ α} {fresh : σ} {u : Usage P σ α} {s s' : Shared P σ} {a : Action P α}

theorem step_cases (hstep : (machine M fresh u).step s a = some s') : Step M fresh s a s' := by
  cases a with
  | call p =>
    simp only [machine, step] at hstep
    split at hstep <;> cases hstep
    rename_i hcall
    exact .call (Bool.and_eq_true_iff.mp hcall).1
  | test p =>
    simp only [machine, step] at hstep
    split at hstep <;> cases hstep
    split
    · exact .missing ‹_› ‹_›
    · exact .found ‹_› ‹_›
  | lock p =>
    simp only [machine, step] at hstep
    split at hstep <;> cases hstep
    exact .lock ‹_› ‹_›
  | retest p =>
    simp only [machine, step] at hstep
    split at hstep <;> cases hstep
    split
    · exact .stillMissing ‹_› ‹_›
    · exact .madeMeanwhile ‹_› ‹_›
  | make p =>
    simp only [machine, step] at hstep
    split at hstep <;> cases hstep
    exact .make ‹_›
  | throw p =>
    simp only [machine, step] at hstep
    split at hstep <;> cases hstep
    exact .throw ‹_›
  | store p =>
    simp only [machine, step] at hstep
    split at hstep <;> cases hstep
    exact .store ‹_›
  | unlock p =>
    simp only [machine, step] at hstep
    split at hstep <;> cases hstep
    exact .unlock ‹_›
  | read p =>
    simp only [machine, step] at hstep
    split at hstep <;> cases hstep
    exact .read ‹_›
  | object i a =>
    simp only [machine, step] at hstep
    split at hstep
    · rename_i hfound
      split at hstep
      · obtain ⟨o', hmoved, rfl⟩ := Option.map_eq_some_iff.mp hstep
        exact .object hfound hmoved
      · cases hstep
    · cases hstep

theorem caller_goto_self (p : P) (pc : Pc) : (s.goto p pc).caller p = pc :=
  Function.update_self ..

theorem caller_goto_of_ne {p q : P} (h : q ≠ p) (pc : Pc) : (s.goto p pc).caller q = s.caller q :=
  Function.update_of_ne h ..

/-- What the shared part says where a caller is at `pc`. -/
structure Fits (s : Shared P σ) (p : P) (pc : Pc) : Prop where
  inside : pc.holds = true → s.holder = some p
  make : pc = .make → s.slot = none
  store : ∀ i, pc = .store i → s.slot = none ∧ i = 0 ∧ s.objects.length = 1
  after : pc = .unlock ∨ pc = .read → s.slot ≠ none
  done : ∀ i, pc = .done i → s.slot = some i
  there : pc ≠ .null

structure Single (M : Machine σ α) (s : Shared P σ) : Prop where
  fits : ∀ p, s.Fits p (s.caller p)
  empty : s.slot = none → (∀ p i, s.caller p ≠ .store i) → s.objects = []
  full : ∀ i, s.slot = some i → i = 0 ∧ s.objects.length = 1
  reachable : ∀ o ∈ s.objects, M.Reachable o

section Callers

omit [DecidableEq P]

variable {t : Shared P σ} {p q : P}

/-- A caller without the mutex has nothing to fear from the one that has it. -/
theorem Fits.mono {pc : Pc} (h : s.Fits q pc) (hfree : pc.holds = false)
    (hslot : ∀ i, s.slot = some i → t.slot = some i) : t.Fits q pc where
  inside hholds := by
    rw [hfree] at hholds
    cases hholds
  make hpc := by
    rw [hpc] at hfree
    cases hfree
  store i hpc := by
    rw [hpc] at hfree
    cases hfree
  after hpc := by
    obtain ⟨i, hi⟩ := Option.ne_none_iff_exists'.mp (h.after hpc)
    rw [hslot i hi]
    exact Option.some_ne_none i
  done i hpc := hslot i (h.done i hpc)
  there := h.there

theorem Single.alone (h : s.Single M) (hp : (s.caller p).holds = true) (hne : q ≠ p) :
    (s.caller q).holds = false := by
  by_contra hholds
  have hq := (h.fits q).inside (eq_true_of_ne_false hholds)
  rw [(h.fits p).inside hp] at hq
  exact hne (Option.some.inj hq).symm

end Callers

variable {p : P} {pc : Pc}

/-- A step of `p` that leaves a shared part `t` behind. -/
theorem Single.update {t : Shared P σ} (hcaller : t.caller = s.caller)
    (hothers : ∀ q, q ≠ p → t.Fits q (s.caller q)) (hp : t.Fits p pc)
    (hempty : t.slot = none → (∀ q, q ≠ p → ∀ i, s.caller q ≠ .store i) → (∀ i, pc ≠ .store i) →
      t.objects = [])
    (hfull : ∀ i, t.slot = some i → i = 0 ∧ t.objects.length = 1)
    (hreachable : ∀ o ∈ t.objects, M.Reachable o) : (t.goto p pc).Single M where
  fits q := by
    rcases eq_or_ne q p with rfl | hne
    · rw [caller_goto_self]
      exact ⟨hp.inside, hp.make, hp.store, hp.after, hp.done, hp.there⟩
    · rw [caller_goto_of_ne hne, hcaller]
      have hq := hothers q hne
      exact ⟨hq.inside, hq.make, hq.store, hq.after, hq.done, hq.there⟩
  empty hslot hstore := by
    refine hempty hslot (fun q hne i => ?_) fun i => ?_
    · have hq := hstore q i
      rw [caller_goto_of_ne hne, hcaller] at hq
      exact hq
    · have hself := hstore p i
      rw [caller_goto_self] at hself
      exact hself
  full := hfull
  reachable := hreachable

theorem Single.goto (h : s.Single M) (hfrom : ∀ i, s.caller p ≠ .store i) (hp : s.Fits p pc) :
    (s.goto p pc).Single M := by
  refine .update (s := s) rfl (fun q _ => h.fits q) hp (fun hslot hothers _ => ?_) h.full h.reachable
  refine h.empty hslot fun q i => ?_
  rcases eq_or_ne q p with rfl | hne
  · exact hfrom i
  · exact hothers q hne i

theorem Single.make (h : s.Single M) (hpc : s.caller p = .make) (hfresh : M.init fresh) :
    ({ s with objects := s.objects ++ [fresh] }.goto p (.store s.objects.length)).Single M := by
  have hholds : (s.caller p).holds = true := by rw [hpc]; rfl
  have hslot : s.slot = none := (h.fits p).make hpc
  have hobjects : s.objects = [] := by
    refine h.empty hslot fun q i hq => ?_
    rcases eq_or_ne q p with rfl | hne
    · cases hpc.symm.trans hq
    · have hfree := h.alone hholds hne
      rw [hq] at hfree
      cases hfree
  rw [hobjects]
  refine .update (s := s) rfl (fun q hne => (h.fits q).mono (h.alone hholds hne) fun _ => id) ?_ ?_ ?_ ?_
  · exact ⟨fun _ => (h.fits p).inside hholds, nofun, fun i hi => ⟨hslot, (Pc.store.inj hi).symm, rfl⟩,
      nofun, nofun, nofun⟩
  · exact fun _ _ hstore => absurd rfl (hstore 0)
  · intro i hi
    cases hslot.symm.trans hi
  · intro o ho
    obtain rfl := List.mem_singleton.mp ho
    exact .init hfresh

theorem Single.store (h : s.Single M) {i : Nat} (hpc : s.caller p = .store i) :
    ({ s with slot := some i }.goto p .unlock).Single M := by
  have hholds : (s.caller p).holds = true := by rw [hpc]; rfl
  obtain ⟨hslot, hi, hlength⟩ := (h.fits p).store i hpc
  refine .update (s := s) rfl (fun q hne => (h.fits q).mono (h.alone hholds hne) ?_) ?_ ?_ ?_ h.reachable
  · intro j hj
    cases hslot.symm.trans hj
  · exact ⟨fun _ => (h.fits p).inside hholds, nofun, nofun, nofun, nofun, nofun⟩
  · exact nofun
  · intro j hj
    cases hj
    exact ⟨hi, hlength⟩

/-- The mutex is given back. -/
theorem Single.free (h : s.Single M) (hholds : (s.caller p).holds = true)
    (hfrom : ∀ i, s.caller p ≠ .store i) (hfree : pc.holds = false) (hp : s.Fits p pc) :
    ({ s with holder := none }.goto p pc).Single M := by
  refine .update (s := s) rfl (fun q hne => (h.fits q).mono (h.alone hholds hne) fun _ => id)
    (hp.mono hfree fun _ => id) (fun hslot hothers _ => ?_) h.full h.reachable
  refine h.empty hslot fun q i => ?_
  rcases eq_or_ne q p with rfl | hne
  · exact hfrom i
  · exact hothers q hne i

theorem single_step (hfresh : M.init fresh) : (machine M fresh u).Preserves (fun _ _ => True)
    fun s : Shared P σ => s.Single M := by
  intro s a s' h _ hstep
  cases step_cases hstep with
  | call houtside =>
    refine h.goto ?_ ⟨nofun, nofun, nofun, nofun, nofun, nofun⟩
    intro i hpc
    rw [hpc] at houtside
    cases houtside
  | missing hpc =>
    refine h.goto ?_ ⟨nofun, nofun, nofun, nofun, nofun, nofun⟩
    rw [hpc]
    exact nofun
  | found hpc hslot =>
    refine h.goto ?_ ⟨nofun, nofun, nofun, fun _ => hslot, nofun, nofun⟩
    rw [hpc]
    exact nofun
  | @lock p hpc hholder =>
    have hothers (q : P) : (s.caller q).holds = false := by
      by_contra hholds
      have hq := (h.fits q).inside (eq_true_of_ne_false hholds)
      cases hholder.symm.trans hq
    refine .update (s := s) rfl (fun q _ => (h.fits q).mono (hothers q) fun _ => id)
      ⟨fun _ => rfl, nofun, nofun, nofun, nofun, nofun⟩ (fun hslot hstore _ => ?_) h.full h.reachable
    refine h.empty hslot fun q i hq => ?_
    have hfree := hothers q
    rw [hq] at hfree
    cases hfree
  | @stillMissing p hpc hslot =>
    refine h.goto (by rw [hpc]; exact nofun)
      ⟨fun _ => (h.fits p).inside (by rw [hpc]; rfl), fun _ => hslot, nofun, nofun, nofun, nofun⟩
  | @madeMeanwhile p hpc hslot =>
    refine h.goto (by rw [hpc]; exact nofun)
      ⟨fun _ => (h.fits p).inside (by rw [hpc]; rfl), nofun, nofun, fun _ => hslot, nofun, nofun⟩
  | make hpc => exact h.make hpc hfresh
  | throw hpc =>
    exact h.free (by rw [hpc]; rfl) (by rw [hpc]; exact nofun) rfl
      ⟨nofun, nofun, nofun, nofun, nofun, nofun⟩
  | store hpc => exact h.store hpc
  | @unlock p hpc =>
    exact h.free (by rw [hpc]; rfl) (by rw [hpc]; exact nofun) rfl
      ⟨nofun, nofun, nofun, fun _ => (h.fits p).after (.inl hpc), nofun, nofun⟩
  | @read p hpc =>
    obtain ⟨i, hi⟩ := Option.ne_none_iff_exists'.mp ((h.fits p).after (.inr hpc))
    rw [hi]
    refine h.goto (by rw [hpc]; exact nofun) ⟨nofun, nofun, nofun, nofun, ?_, nofun⟩
    intro j hj
    rw [hi, Pc.done.inj hj]
  | @object i a o o' hfound hmoved =>
    refine ⟨fun q => ?_, fun hslot hstore => ?_, fun j hj => ?_, fun x hx => ?_⟩
    · have hq := h.fits q
      refine ⟨hq.inside, hq.make, fun j hj => ?_, hq.after, hq.done, hq.there⟩
      rw [List.length_set]
      exact hq.store j hj
    · change s.objects.set i o' = []
      rw [h.empty hslot hstore]
      rfl
    · rw [List.length_set]
      exact h.full j hj
    · cases List.mem_or_eq_of_mem_set hx with
      | inl hmem => exact h.reachable x hmem
      | inr heq =>
        rw [heq]
        exact (h.reachable o (List.mem_of_getElem? hfound)).step trivial hmoved

omit [DecidableEq P] in
theorem Single.length_le (h : s.Single M) : s.objects.length ≤ 1 := by
  cases hslot : s.slot with
  | some i => exact Nat.le_of_eq (h.full i hslot).2
  | none =>
    by_cases hstore : ∃ p i, s.caller p = .store i
    · obtain ⟨p, i, hpc⟩ := hstore
      exact Nat.le_of_eq ((h.fits p).store i hpc).2.2
    · rw [h.empty hslot fun p i hpc => hstore ⟨p, i, hpc⟩]
      exact Nat.zero_le _

omit [DecidableEq P] in
theorem initial_single : (initial : Shared P σ).Single M where
  fits _ := ⟨nofun, nofun, nofun, nofun, nofun, nofun⟩
  empty _ _ := rfl
  full := nofun
  reachable := nofun

theorem single_of_reachable (hfresh : M.init fresh) (h : (machine M fresh u).Reachable s) :
    s.Single M := by
  refine h.invariant ?_ (single_step hfresh)
  rintro s rfl
  exact initial_single

/-- The actions on objects, whichever object they were meant for. -/
def used (as : List (Action P α)) : List α :=
  as.filterMap fun a =>
    match a with
    | .object _ a => some a
    | _ => none

def first (fresh : σ) (s : Shared P σ) : σ := s.objects.head?.getD fresh

/-- A step on an object is one of the first one, and the others leave it. -/
theorem first_step (h : s.Single M) (hstep : (machine M fresh u).step s a = some s') :
    M.run (s.first fresh) (used [a]) = some (s'.first fresh) := by
  cases step_cases hstep with
  | call | missing | found | lock | stillMissing | madeMeanwhile | throw | store | unlock | read =>
    rfl
  | make =>
    change some (s.objects.head?.getD fresh) = some ((s.objects ++ [fresh]).head?.getD fresh)
    cases s.objects with
    | nil => rfl
    | cons o rest => rfl
  | @object i a o o' hfound hmoved =>
    obtain ⟨hlt, ho⟩ := List.getElem?_eq_some_iff.mp hfound
    have hlength := h.length_le
    have hi : i = 0 := by omega
    subst hi
    have hfirst : s.first fresh = o := by
      rw [first, List.head?_eq_getElem?, hfound]
      rfl
    have hnext : ({ s with objects := s.objects.set 0 o' } : Shared P σ).first fresh = o' := by
      rw [first, List.head?_eq_getElem?, List.getElem?_set_self hlt]
      rfl
    rw [hfirst, hnext]
    change (M.step o a).bind (fun t => some t) = some o'
    rw [hmoved]
    rfl

/-- What all callers do with what they got is a run of one object. -/
theorem run_first (hfresh : M.init fresh) {as : List (Action P α)} (h : s.Single M)
    (hrun : (machine M fresh u).run s as = some s') :
    M.run (s.first fresh) (used as) = some (s'.first fresh) := by
  induction as generalizing s with
  | nil =>
    cases hrun
    rfl
  | cons a as ih =>
    obtain ⟨t, ht, hrest⟩ := Option.bind_eq_some_iff.mp hrun
    have htail := ih (single_step hfresh s a t h trivial ht) hrest
    have hused : used (a :: as) = used [a] ++ used as := List.filterMap_append (l := [a])
    rw [hused]
    exact Machine.run_trans (first_step h ht) htail

omit [DecidableEq P] in
theorem Single.first_of_mem (h : s.Single M) {o : σ} (ho : o ∈ s.objects) : s.first fresh = o := by
  have hlength := h.length_le
  cases hobjects : s.objects with
  | nil =>
    rw [hobjects] at ho
    cases ho
  | cons head rest =>
    rw [hobjects, List.length_cons] at hlength
    have hrest : rest = [] := List.length_eq_zero_iff.mp (by omega)
    rw [hobjects, hrest] at ho
    rw [first, hobjects, List.mem_singleton.mp ho]
    rfl

theorem run_of_mem (hfresh : M.init fresh) {as : List (Action P α)}
    (hrun : (machine M fresh u).run initial as = some s) {o : σ} (ho : o ∈ s.objects) :
    M.run fresh (used as) = some o := by
  have hsingle := single_of_reachable hfresh (Machine.reachable_of_run rfl hrun)
  rw [← hsingle.first_of_mem ho]
  exact run_first hfresh initial_single hrun

end Shared

end ServerDevLib.Once
