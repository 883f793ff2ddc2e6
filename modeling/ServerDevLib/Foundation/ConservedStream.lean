import ServerDevLib.Foundation.Transition

/-!
# Conserved streams

A conduit records what has entered a buffering component, what has left it
and what it still holds. Its two moves append at the back and take from the
front, so that what left followed by what is held is always what entered. A
machine whose steps are sequences of such moves loses, repeats and reorders
nothing.
-/

namespace ServerDevLib.ConservedStream

open Transition

universe u v w

structure Conduit (β : Type w) where
  entered : List β
  taken : List β
  held : List β

variable {β : Type w}

inductive Move : Conduit β → Conduit β → Prop
  | enter (e t h xs : List β) : Move ⟨e, t, h⟩ ⟨e ++ xs, t, h ++ xs⟩
  | leave (e t h : List β) (k : Nat) : Move ⟨e, t, h⟩ ⟨e, t ++ h.take k, h.drop k⟩

abbrev Moves : Conduit β → Conduit β → Prop := Relation.ReflTransGen Move

def Conserved (c : Conduit β) : Prop := c.taken ++ c.held = c.entered

theorem Move.conserved {c d : Conduit β} (h : Move c d) (hc : Conserved c) : Conserved d := by
  cases h with
  | enter e t h xs =>
    change t ++ h = e at hc
    change t ++ (h ++ xs) = e ++ xs
    rw [← List.append_assoc, hc]
  | leave e t h k =>
    change t ++ h = e at hc
    change t ++ h.take k ++ h.drop k = e
    rw [List.append_assoc, List.take_append_drop, hc]

theorem Moves.conserved {c d : Conduit β} (h : Moves c d) (hc : Conserved c) : Conserved d := by
  induction h with
  | refl => exact hc
  | tail _ hmove ih => exact hmove.conserved ih

/-- One fill of the component followed by one removal from its front. -/
theorem Moves.enter_leave (e t h xs : List β) (k : Nat) :
    Moves ⟨e, t, h⟩ ⟨e ++ xs, t ++ (h ++ xs).take k, (h ++ xs).drop k⟩ :=
  .tail (.single (.enter e t h xs)) (.leave _ _ _ k)

variable {σ : Type u} {α : Type v}

/-- Conservation along the runs of a machine that refines the conduit. -/
theorem conserved_of_refines {M : Machine σ α} {cond : σ → α → Prop} {Inv : σ → Prop}
    (abs : σ → Conduit β) (hinv : ∀ s, M.ReachableUnder cond s → Inv s)
    (hinit : ∀ s, M.init s → Conserved (abs s))
    (hstep : ∀ s a s', Inv s → cond s a → M.step s a = some s' → Moves (abs s) (abs s'))
    {s : σ} (h : M.ReachableUnder cond s) : Conserved (abs s) :=
  h.invariant_on hinv hinit fun s a s' hI hc hcond hs => (hstep s a s' hI hcond hs).conserved hc

end ServerDevLib.ConservedStream
