import ServerDevLib.Foundation.Transition

/-!
# History variables

What a run has done so far is written down beside its state, where no step
reads it. An invariant of the two together then tells what the state has to
do with the actions that have led to it.
-/

namespace ServerDevLib.Transition.Machine

universe u v w

variable {σ : Type u} {α : Type v} {η : Type w} (M : Machine σ α) (note : σ → η → α → η)

/-- What has been written down at the end of a run. -/
def history : σ → η → List α → η
  | _, e, [] => e
  | s, e, a :: as => (M.step s a).elim e fun s' => history s' (note s e a) as

variable {M} {note}

theorem history_cons {s s' : σ} {a : α} (h : M.step s a = some s') (e : η) (as : List α) :
    M.history note s e (a :: as) = M.history note s' (note s e a) as := by
  rw [history, h]
  rfl

/-- An invariant of state and history, which may rest on one of the state. -/
theorem history_invariant {Base : σ → Prop} {Inv : σ → η → Prop}
    (hbase : ∀ s a s', Base s → M.step s a = some s' → Base s')
    (hstep : ∀ s e a s', Base s → Inv s e → M.step s a = some s' → Inv s' (note s e a))
    {s s' : σ} {e : η} {as : List α} (hB : Base s) (hI : Inv s e) (hrun : M.run s as = some s') :
    Base s' ∧ Inv s' (M.history note s e as) := by
  induction as generalizing s e with
  | nil =>
    cases hrun
    exact ⟨hB, hI⟩
  | cons a as ih =>
    obtain ⟨t, ht, hrest⟩ := Option.bind_eq_some_iff.mp hrun
    rw [history_cons ht]
    exact ih (hbase s a t hB ht) (hstep s e a t hB hI ht) hrest

end ServerDevLib.Transition.Machine
