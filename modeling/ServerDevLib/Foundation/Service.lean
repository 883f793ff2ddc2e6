import ServerDevLib.Foundation.Transition

/-!
# Services and the machines that provide them

A service says what a component is for: a total step function and an answer to
every request, where some requests may not be allowed. A machine provides it
along a relation if each allowed request is a step of the machine that has the
same answer and leads to related states.
-/

namespace ServerDevLib.Transition

universe u v w x

structure Service (τ : Type u) (α : Type v) (β : Type w) where
  next : τ → α → τ
  answer : τ → α → β
  allowed : τ → α → Prop

namespace Service

variable {τ : Type u} {α : Type v} {β : Type w} {σ : Type x} (S : Service τ α β)

/-- The answers to a list of requests, in order. -/
def answers : τ → List α → List β
  | _, [] => []
  | t, a :: as => S.answer t a :: answers (S.next t a) as

/-- Each of the requests meets the condition when it is made. -/
def Along (P : τ → α → Prop) : τ → List α → Prop
  | _, [] => True
  | t, a :: as => P t a ∧ Along P (S.next t a) as

def Allows (t : τ) (as : List α) : Prop := S.Along S.allowed t as

/-- The step lemma of a machine that provides the service. -/
def Provides (M : Machine σ α) (out : σ → α → Option β) (rel : σ → τ → Prop) : Prop :=
  ∀ s t a, rel s t → S.allowed t a →
    out s a = some (S.answer t a) ∧ ∃ s', M.step s a = some s' ∧ rel s' (S.next t a)

variable {S} {M : Machine σ α} {out : σ → α → Option β} {rel : σ → τ → Prop}

/-- A run of allowed requests is a run of the machine with the answers of the service. -/
theorem Provides.run (h : S.Provides M out rel) {s : σ} {t : τ} (hrel : rel s t) {as : List α}
    (hall : S.Allows t as) : ∃ s', M.run s as = some s' ∧ rel s' (as.foldl S.next t) ∧
      M.outputs out s as = S.answers t as := by
  induction as generalizing s t with
  | nil => exact ⟨s, rfl, hrel, rfl⟩
  | cons a as ih =>
    obtain ⟨hanswer, s₁, hstep, hnext⟩ := h s t a hrel hall.1
    obtain ⟨s', hrun, hrel', houtputs⟩ := ih hnext hall.2
    refine ⟨s', ?_, hrel', ?_⟩
    · rw [Machine.run_cons, hstep]
      exact hrun
    · rw [Machine.outputs, hanswer, hstep]
      exact congrArg (S.answer t a :: ·) houtputs

theorem Along.foldl {P : τ → α → Prop} {t : τ} {as : List α} (h : S.Along P t as) {Inv : τ → Prop}
    (hnext : ∀ t a, Inv t → P t a → Inv (S.next t a)) (hI : Inv t) : Inv (as.foldl S.next t) := by
  induction as generalizing t with
  | nil => exact hI
  | cons a as ih => exact ih h.2 (hnext t a hI h.1)

theorem Along.and {P Q : τ → α → Prop} {t : τ} {as : List α} (hP : S.Along P t as)
    (hQ : S.Along Q t as) : S.Along (fun t a => P t a ∧ Q t a) t as := by
  induction as generalizing t with
  | nil => trivial
  | cons a as ih => exact ⟨⟨hP.1, hQ.1⟩, ih hP.2 hQ.2⟩

theorem along_of_forall {P : τ → α → Prop} (hP : ∀ t a, P t a) (t : τ) (as : List α) :
    S.Along P t as := by
  induction as generalizing t with
  | nil => trivial
  | cons a as ih => exact ⟨hP t a, ih (S.next t a)⟩

theorem along_append {P : τ → α → Prop} {t : τ} {as bs : List α} :
    S.Along P t (as ++ bs) ↔ S.Along P t as ∧ S.Along P (as.foldl S.next t) bs := by
  induction as generalizing t with
  | nil => exact iff_and_self.mpr fun _ => trivial
  | cons a as ih => exact (and_congr_right fun _ => ih).trans and_assoc.symm

end Service

end ServerDevLib.Transition
