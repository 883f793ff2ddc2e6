import ServerDevLib.Foundation.Transition
import Mathlib.Algebra.BigOperators.Group.Finset.Basic
import Mathlib.Algebra.Order.BigOperators.Group.Finset

/-!
# Actions that use up a rank

Some parties of a machine are done after finitely many actions of their own,
whatever the other actions between them are: each own action lowers a rank,
and what raises it is paid for by the actions that do. A goal can be reached
from where a rank can be lowered as long as it is not.
-/

namespace ServerDevLib.Transition.Machine

universe u v w x

variable {σ : Type u} {α : Type v}

/-- An own action costs one unit of the rank, and a credited action may add one to it. -/
structure Pays (M : Machine σ α) (own credit : α → Bool) (Inv : σ → Prop) (rank : σ → Nat) :
    Prop where
  keeps : ∀ s a s', Inv s → M.step s a = some s' → Inv s'
  paid : ∀ s a s', Inv s → M.step s a = some s' →
    (if own a then 1 else 0) + rank s' ≤ (if credit a then 1 else 0) + rank s

variable {M : Machine σ α} {own credit : α → Bool} {Inv : σ → Prop} {rank : σ → Nat}

theorem Pays.run (h : M.Pays own credit Inv rank) {s s' : σ} {as : List α}
    (hI : Inv s) (hrun : M.run s as = some s') :
    Inv s' ∧ as.countP own + rank s' ≤ as.countP credit + rank s := by
  induction as generalizing s with
  | nil =>
    cases hrun
    exact ⟨hI, by simp⟩
  | cons a as ih =>
    obtain ⟨t, ht, hrest⟩ := Option.bind_eq_some_iff.mp hrun
    obtain ⟨hI', hle⟩ := ih (h.keeps s a t hI ht) hrest
    have hpaid := h.paid s a t hI ht
    refine ⟨hI', ?_⟩
    rw [List.countP_cons, List.countP_cons]
    omega

/-- A party that comes down brings the sum over all parties down. -/
theorem sum_lt_of_one {ι : Type w} [Fintype ι] {f g : ι → Nat} {i : ι}
    (hsame : ∀ j, j ≠ i → f j = g j) (hlt : f i < g i) : ∑ j, f j < ∑ j, g j := by
  refine Finset.sum_lt_sum (fun j _ => ?_) ⟨i, Finset.mem_univ i, hlt⟩
  by_cases hj : j = i
  · rw [hj]
    exact hlt.le
  · exact (hsame j hj).le

/-- Steps that meet the condition can lead to the goal. -/
inductive CanReach (M : Machine σ α) (cond : σ → α → Prop) (Goal : σ → Prop) : σ → Prop
  | here {s : σ} (h : Goal s) : CanReach M cond Goal s
  | step {s s' : σ} {a : α} (hc : cond s a) (hs : M.step s a = some s')
      (h : CanReach M cond Goal s') : CanReach M cond Goal s

section CanReach

variable {cond : σ → α → Prop} {Goal Mid : σ → Prop} {s : σ}

theorem CanReach.trans (h : M.CanReach cond Mid s)
    (hmid : ∀ s', Mid s' → M.CanReach cond Goal s') : M.CanReach cond Goal s := by
  induction h with
  | here h => exact hmid _ h
  | step hc hs _ ih => exact .step hc hs ih

theorem CanReach.imp (h : M.CanReach cond Mid s) (himp : ∀ s', Mid s' → Goal s') :
    M.CanReach cond Goal s :=
  h.trans fun s' hs' => .here (himp s' hs')

theorem CanReach.exists_run (h : M.CanReach cond Goal s) :
    ∃ as s', M.run s as = some s' ∧ M.AllSteps cond s as ∧ Goal s' := by
  induction h with
  | here h => exact ⟨[], _, rfl, trivial, h⟩
  | @step s t a hc hs _ ih =>
    obtain ⟨as, s', hrun, hall, hgoal⟩ := ih
    refine ⟨a :: as, s', ?_, fun t' ht' => ?_, hgoal⟩
    · rw [run_cons, hs]
      exact hrun
    · cases hs.symm.trans ht'
      exact ⟨hc, hall⟩

/-- The induction is on the rank. -/
theorem CanReach.of_rank (rank : σ → Nat) (hdown : ∀ s, Inv s → ¬ Goal s →
      ∃ a s', cond s a ∧ M.step s a = some s' ∧ Inv s' ∧ rank s' < rank s) (hI : Inv s) :
    M.CanReach cond (fun s' => Inv s' ∧ Goal s') s := by
  induction hn : rank s using Nat.strong_induction_on generalizing s with
  | _ n ih =>
    by_cases hgoal : Goal s
    · exact .here ⟨hI, hgoal⟩
    · obtain ⟨a, s', hc, hs, hI', hlt⟩ := hdown s hI hgoal
      exact .step hc hs (ih (rank s') (hn ▸ hlt) hI' rfl)

/-- A machine that follows the steps can follow them to the goal. -/
theorem CanReach.lift {τ : Type w} {β : Type x} {N : Machine τ β} {cond' : τ → β → Prop}
    {R : σ → τ → Prop} {f : α → β}
    (hsim : ∀ s t a s', R s t → cond s a → M.step s a = some s' →
      ∃ t', cond' t (f a) ∧ N.step t (f a) = some t' ∧ R s' t')
    (h : M.CanReach cond Goal s) {t : τ} (hR : R s t) :
    N.CanReach cond' (fun t' => ∃ s', R s' t' ∧ Goal s') t := by
  induction h generalizing t with
  | here h => exact .here ⟨_, hR, h⟩
  | step hc hs _ ih =>
    obtain ⟨t', hc', ht, hR'⟩ := hsim _ _ _ _ hR hc hs
    exact .step hc' ht (ih hR')

/-- What no step leaves does not lead out of itself. -/
theorem not_canReach {Closed : σ → Prop}
    (hclosed : ∀ s a s', Closed s → M.step s a = some s' → Closed s')
    (hgoal : ∀ s, Closed s → ¬ Goal s) (hs : Closed s) : ¬ M.CanReach cond Goal s := by
  intro h
  induction h with
  | here h => exact hgoal _ hs h
  | step _ hstep _ ih => exact ih (hclosed _ _ _ hs hstep)

end CanReach

end ServerDevLib.Transition.Machine
