import Mathlib.Logic.Relation

/-!
# Machines with a partial step function

A machine is a predicate on initial states and a partial step function. All
choices of the environment are part of the action, so that a step is a
function and an action that is not enabled has no successor. Reachability is
relative to a condition on the single steps; the unconditional notion is the
special case of the trivial condition.
-/

namespace ServerDevLib.Transition

universe u v w x

structure Machine (σ : Type u) (α : Type v) where
  init : σ → Prop
  step : σ → α → Option σ

namespace Machine

variable {σ : Type u} {α : Type v} (M : Machine σ α)

/-- States reached from an initial state by steps that all meet the condition. -/
inductive ReachableUnder (cond : σ → α → Prop) : σ → Prop
  | init {s : σ} (h : M.init s) : ReachableUnder cond s
  | step {s s' : σ} {a : α} (h : ReachableUnder cond s) (hc : cond s a)
      (hs : M.step s a = some s') : ReachableUnder cond s'

def Reachable (s : σ) : Prop := M.ReachableUnder (fun _ _ => True) s

/-- The step lemma of an invariant, for the steps that meet the condition. -/
def Preserves (cond : σ → α → Prop) (Inv : σ → Prop) : Prop :=
  ∀ s a s', Inv s → cond s a → M.step s a = some s' → Inv s'

variable {M}

theorem ReachableUnder.invariant {cond : σ → α → Prop} {Inv : σ → Prop}
    (hinit : ∀ s, M.init s → Inv s) (hstep : M.Preserves cond Inv)
    {s : σ} (h : M.ReachableUnder cond s) : Inv s := by
  induction h with
  | init h => exact hinit _ h
  | step _ hc hs ih => exact hstep _ _ _ ih hc hs

/-- An invariant may be proved on top of another one that is already known. -/
theorem ReachableUnder.invariant_on {cond : σ → α → Prop} {Base Inv : σ → Prop}
    (hbase : ∀ s, M.ReachableUnder cond s → Base s) (hinit : ∀ s, M.init s → Inv s)
    (hstep : ∀ s a s', Base s → Inv s → cond s a → M.step s a = some s' → Inv s')
    {s : σ} (h : M.ReachableUnder cond s) : Inv s := by
  induction h with
  | init h => exact hinit _ h
  | step hr hc hs ih => exact hstep _ _ _ (hbase _ hr) ih hc hs

/-- An invariant may be used to see that the steps meet another condition as well. -/
theorem ReachableUnder.mono_on {cond cond' : σ → α → Prop} {Base : σ → Prop}
    (hbase : ∀ s, M.ReachableUnder cond s → Base s)
    (himp : ∀ s a s', Base s → cond s a → M.step s a = some s' → cond' s a) {s : σ}
    (h : M.ReachableUnder cond s) : M.ReachableUnder cond' s := by
  induction h with
  | init h => exact .init h
  | step hr hc hs ih => exact .step ih (himp _ _ _ (hbase _ hr) hc hs) hs

theorem ReachableUnder.reachable {cond : σ → α → Prop} {s : σ} (h : M.ReachableUnder cond s) :
    M.Reachable s := by
  induction h with
  | init h => exact .init h
  | step _ _ hs ih => exact .step ih trivial hs

/-- Along a map that turns every step into a step or into nothing, runs become runs. -/
theorem ReachableUnder.project {τ : Type w} {β : Type x} {N : Machine τ β}
    {cond : σ → α → Prop} {cond' : τ → β → Prop} (f : σ → τ)
    (hinit : ∀ s, M.init s → N.init (f s))
    (hstep : ∀ s a s', cond s a → M.step s a = some s' →
      f s' = f s ∨ ∃ b, cond' (f s) b ∧ N.step (f s) b = some (f s'))
    {s : σ} (h : M.ReachableUnder cond s) : N.ReachableUnder cond' (f s) := by
  induction h with
  | init h => exact .init (hinit _ h)
  | step _ hc hs ih =>
    rcases hstep _ _ _ hc hs with heq | ⟨b, hb, hnext⟩
    · rw [heq]
      exact ih
    · exact ih.step hb hnext

variable (M)

/-- Executes a list of actions; `none` as soon as one of them is not enabled. -/
def run : σ → List α → Option σ
  | s, [] => some s
  | s, a :: as => (M.step s a).bind fun s' => run s' as

theorem run_cons (s : σ) (a : α) (as : List α) :
    M.run s (a :: as) = (M.step s a).bind fun s' => M.run s' as := rfl

variable {M}

theorem run_append {s s' : σ} {as bs : List α} (h : M.run s (as ++ bs) = some s') :
    ∃ t, M.run s as = some t ∧ M.run t bs = some s' := by
  induction as generalizing s with
  | nil => exact ⟨s, rfl, h⟩
  | cons a as ih =>
    obtain ⟨r, hr, hrest⟩ := Option.bind_eq_some_iff.mp h
    obtain ⟨t, ht, hbs⟩ := ih hrest
    refine ⟨t, ?_, hbs⟩
    rw [run_cons, hr]
    exact ht

theorem run_trans {s t s' : σ} {as bs : List α} (has : M.run s as = some t)
    (hbs : M.run t bs = some s') : M.run s (as ++ bs) = some s' := by
  induction as generalizing s with
  | nil =>
    cases has
    exact hbs
  | cons a as ih =>
    obtain ⟨r, hr, hrest⟩ := Option.bind_eq_some_iff.mp has
    rw [List.cons_append, run_cons, hr]
    exact ih hrest

/-- What the actions of a run preserve. -/
theorem run_invariant {Inv : σ → Prop} {as : List α}
    (hstep : ∀ s a s', Inv s → a ∈ as → M.step s a = some s' → Inv s') {s s' : σ} (hI : Inv s)
    (hrun : M.run s as = some s') : Inv s' := by
  induction as generalizing s with
  | nil =>
    cases hrun
    exact hI
  | cons a as ih =>
    obtain ⟨t, ht, hrest⟩ := Option.bind_eq_some_iff.mp hrun
    exact ih (fun s a' s' h hm => hstep s a' s' h (List.mem_cons_of_mem _ hm))
      (hstep s a t hI (List.mem_cons_self ..) ht) hrest

theorem ReachableUnder.of_run {cond : σ → α → Prop} (hall : ∀ s a, cond s a)
    {s : σ} (h : M.ReachableUnder cond s) {as : List α} {s' : σ}
    (hrun : M.run s as = some s') : M.ReachableUnder cond s' := by
  induction as generalizing s with
  | nil =>
    cases hrun
    exact h
  | cons a as ih =>
    obtain ⟨t, ht, hrest⟩ := Option.bind_eq_some_iff.mp hrun
    exact ih (h.step (hall s a) ht) hrest

theorem reachable_of_run {s s' : σ} {as : List α} (h : M.init s)
    (hrun : M.run s as = some s') : M.Reachable s' :=
  ReachableUnder.of_run (fun _ _ => trivial) (.init h) hrun

variable (M)

/-- What the actions of a run yield, in order. -/
def outputs {β : Type w} (out : σ → α → Option β) : σ → List α → List β
  | _, [] => []
  | s, a :: as => (out s a).toList ++ (M.step s a).elim [] fun s' => outputs out s' as

variable {M}

/-- A run whose every action yields the same. -/
theorem outputs_eq_replicate {β : Type w} {out : σ → α → Option β} {Inv : σ → Prop} {b : β}
    {as : List α} (hout : ∀ s a, Inv s → a ∈ as → out s a = some b)
    (hinv : ∀ s a s', Inv s → a ∈ as → M.step s a = some s' → Inv s')
    {s s' : σ} (hI : Inv s) (hrun : M.run s as = some s') :
    M.outputs out s as = List.replicate as.length b := by
  induction as generalizing s with
  | nil => rfl
  | cons a as ih =>
    obtain ⟨t, ht, hrest⟩ := Option.bind_eq_some_iff.mp hrun
    have hmem : a ∈ a :: as := List.mem_cons_self ..
    have htail := ih (fun s a' h hm => hout s a' h (List.mem_cons_of_mem _ hm))
      (fun s a' s' h hm => hinv s a' s' h (List.mem_cons_of_mem _ hm)) (hinv s a t hI hmem ht) hrest
    rw [outputs, hout s a hI hmem, ht]
    exact congrArg (b :: ·) htail

/-- Along a map that turns every step into a step of a total machine, a run is a fold. -/
theorem run_foldl {τ : Type w} {f : σ → τ} {next : τ → α → τ}
    (hstep : ∀ s a s', M.step s a = some s' → f s' = next (f s) a)
    {s s' : σ} {as : List α} (hrun : M.run s as = some s') : f s' = as.foldl next (f s) := by
  induction as generalizing s with
  | nil =>
    cases hrun
    rfl
  | cons a as ih =>
    obtain ⟨t, ht, hrest⟩ := Option.bind_eq_some_iff.mp hrun
    calc f s' = as.foldl next (f t) := ih hrest
      _ = as.foldl next (next (f s) a) := by rw [hstep s a t ht]

section Checked

variable (M) (cond : σ → α → Prop) [∀ s a, Decidable (cond s a)]

/-- Executes a list of actions and checks the condition before each of them. -/
def runUnder : σ → List α → Option σ
  | s, [] => some s
  | s, a :: as => if cond s a then (M.step s a).bind fun s' => runUnder s' as else none

variable {M} {cond}

theorem ReachableUnder.of_runUnder {s : σ} (h : M.ReachableUnder cond s) {as : List α} {s' : σ}
    (hrun : M.runUnder cond s as = some s') : M.ReachableUnder cond s' := by
  induction as generalizing s with
  | nil =>
    cases hrun
    exact h
  | cons a as ih =>
    simp only [runUnder] at hrun
    split at hrun
    · rename_i hc
      obtain ⟨t, ht, hrest⟩ := Option.bind_eq_some_iff.mp hrun
      exact ih (h.step hc ht) hrest
    · cases hrun

theorem reachableUnder_of_runUnder {s s' : σ} {as : List α} (h : M.init s)
    (hrun : M.runUnder cond s as = some s') : M.ReachableUnder cond s' :=
  ReachableUnder.of_runUnder (.init h) hrun

end Checked

section Runs

variable (M)

/-- Every state of the run, the first and the last included, satisfies `P`. -/
def AllStates (P : σ → Prop) : σ → List α → Prop
  | s, [] => P s
  | s, a :: as => P s ∧ ∀ s', M.step s a = some s' → AllStates P s' as

/-- Every step of the run meets the condition in the state it is taken in. -/
def AllSteps (cond : σ → α → Prop) : σ → List α → Prop
  | _, [] => True
  | s, a :: as => ∀ s', M.step s a = some s' → cond s a ∧ AllSteps cond s' as

variable {M}

theorem AllSteps.of_runUnder {cond : σ → α → Prop} [∀ s a, Decidable (cond s a)] {s s' : σ}
    {as : List α} (hrun : M.runUnder cond s as = some s') : M.AllSteps cond s as := by
  induction as generalizing s with
  | nil => trivial
  | cons a as ih =>
    simp only [runUnder] at hrun
    split at hrun
    · rename_i hc
      obtain ⟨t, ht, hrest⟩ := Option.bind_eq_some_iff.mp hrun
      intro t' ht'
      rw [ht] at ht'
      cases ht'
      exact ⟨hc, ih hrest⟩
    · cases hrun

/-- Steps that keep an invariant and imply another condition where it holds. -/
theorem AllSteps.imp_on {Inv : σ → Prop} {cond cond' : σ → α → Prop}
    (hinv : ∀ s a s', Inv s → cond s a → M.step s a = some s' → Inv s')
    (himp : ∀ s a s', Inv s → cond s a → M.step s a = some s' → cond' s a) {s : σ} (hI : Inv s)
    {as : List α} (h : M.AllSteps cond s as) : M.AllSteps cond' s as := by
  induction as generalizing s with
  | nil => trivial
  | cons a as ih =>
    intro s' hs
    obtain ⟨hc, hrest⟩ := h s' hs
    exact ⟨himp s a s' hI hc hs, ih (hinv s a s' hI hc hs) hrest⟩

theorem AllSteps.invariant {cond : σ → α → Prop} {Inv : σ → Prop} (hstep : M.Preserves cond Inv)
    {s s' : σ} {as : List α} (hall : M.AllSteps cond s as) (hI : Inv s)
    (hrun : M.run s as = some s') : Inv s' := by
  induction as generalizing s with
  | nil =>
    cases hrun
    exact hI
  | cons a as ih =>
    obtain ⟨t, ht, hrest⟩ := Option.bind_eq_some_iff.mp hrun
    obtain ⟨hc, hall⟩ := hall t ht
    exact ih hall (hstep s a t hI hc ht) hrest

theorem ReachableUnder.of_allSteps {cond : σ → α → Prop} {s s' : σ} {as : List α}
    (h : M.ReachableUnder cond s) (hall : M.AllSteps cond s as) (hrun : M.run s as = some s') :
    M.ReachableUnder cond s' :=
  hall.invariant (fun _ _ _ h hc hs => h.step hc hs) h hrun

/-- A run that ends outside of what no step leaves has not entered it: if the steps
that do not meet the condition enter it, all of its steps meet the condition. -/
theorem AllSteps.of_avoids {cond : σ → α → Prop} {Bad : σ → Prop}
    (hbad : ∀ s a s', M.Reachable s → M.step s a = some s' → ¬ cond s a → Bad s')
    (hstable : ∀ s a s', M.Reachable s → Bad s → M.step s a = some s' → Bad s')
    {s s' : σ} {as : List α} (h : M.Reachable s) (hrun : M.run s as = some s')
    (hgood : ¬ Bad s') : M.AllSteps cond s as ∧ ¬ Bad s := by
  induction as generalizing s with
  | nil =>
    cases hrun
    exact ⟨trivial, hgood⟩
  | cons a as ih =>
    obtain ⟨t, ht, hrest⟩ := Option.bind_eq_some_iff.mp hrun
    obtain ⟨hall, hgood⟩ := ih (h.step trivial ht) hrest
    refine ⟨fun t' ht' => ?_, fun hs => hgood (hstable s a t h hs ht)⟩
    cases ht.symm.trans ht'
    exact ⟨Classical.byContradiction fun hc => hgood (hbad s a t h ht hc), hall⟩

theorem AllStates.head {P : σ → Prop} {s : σ} {as : List α} (h : M.AllStates P s as) : P s := by
  cases as with
  | nil => exact h
  | cons a as => exact h.1

/-- When a step from a good state leads to a good state exactly if it meets the
condition, the runs through good states are exactly those whose steps all meet it. -/
theorem allStates_iff_allSteps {P Inv : σ → Prop} {cond : σ → α → Prop}
    (hinv : ∀ s a s', Inv s → P s → cond s a → M.step s a = some s' → Inv s')
    (hexact : ∀ s a s', Inv s → P s → M.step s a = some s' → (P s' ↔ cond s a))
    {s : σ} (hI : Inv s) (hP : P s) (as : List α) :
    M.AllStates P s as ↔ M.AllSteps cond s as := by
  induction as generalizing s with
  | nil => exact ⟨fun _ => trivial, fun _ => hP⟩
  | cons a as ih =>
    constructor
    · rintro ⟨_, h⟩ s' hs
      have hP' : P s' := (h s' hs).head
      have hc : cond s a := (hexact s a s' hI hP hs).mp hP'
      exact ⟨hc, (ih (hinv s a s' hI hP hc hs) hP').mp (h s' hs)⟩
    · intro h
      refine ⟨hP, fun s' hs => ?_⟩
      obtain ⟨hc, hrest⟩ := h s' hs
      exact (ih (hinv s a s' hI hP hc hs) ((hexact s a s' hI hP hs).mpr hc)).mpr hrest

/-- The same where good states need no invariant beside them. -/
theorem allStates_iff_allSteps_of_exact {P : σ → Prop} {cond : σ → α → Prop}
    (hexact : ∀ s a s', P s → M.step s a = some s' → (P s' ↔ cond s a))
    {s : σ} (hP : P s) (as : List α) : M.AllStates P s as ↔ M.AllSteps cond s as :=
  allStates_iff_allSteps (fun _ _ _ (_ : True) _ _ _ => trivial) (fun s a s' _ => hexact s a s')
    trivial hP as

end Runs

end Machine

end ServerDevLib.Transition
