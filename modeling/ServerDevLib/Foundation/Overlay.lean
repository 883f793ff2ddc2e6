import Mathlib.Data.Option.Basic
import Mathlib.Data.Bool.Basic

/-!
# A store that is split into a base and an overlay

One key of a store is set aside as a base while changes go to an overlay that
starts empty. An entry is put only where there is none. A deletion that finds
nothing in the overlay is remembered if it is marked. The merge takes what the
overlay has, and else the base unless a deletion is remembered. It is compared
with the changes made on the base itself.
-/

namespace ServerDevLib.Overlay

universe u

variable {V : Type u}

inductive Change (V : Type u)
  | put (v : V)
  | delete (marked : Bool)

def Change.deletes : Change V → Bool
  | .put _ => false
  | .delete _ => true

/-- A change of a store that is not split. -/
def apply : Option V → Change V → Option V
  | entry, .put v => entry.or (some v)
  | _, .delete _ => none

structure Split (V : Type u) where
  entry : Option V
  remembered : Bool

namespace Split

def step (s : Split V) : Change V → Split V
  | .put v => { s with entry := s.entry.or (some v) }
  | .delete marked =>
    { entry := none, remembered := s.remembered || (marked && s.entry.isNone) }

def merge (s : Split V) (base : Option V) : Option V :=
  s.entry.or (if s.remembered then none else base)

end Split

/-- The overlay has an entry after the changes. -/
def present : Bool → List (Change V) → Bool
  | b, [] => b
  | _, .put _ :: cs => present true cs
  | _, .delete _ :: cs => present false cs

/-- One of the deletions is marked and finds nothing in the overlay. -/
def marks : Bool → List (Change V) → Bool
  | _, [] => false
  | _, .put _ :: cs => marks true cs
  | b, .delete marked :: cs => marked && !b || marks false cs

/-- Either nothing is changed and no deletion is remembered from before; or the entry of the base
is deleted, and it is put again afterwards or a deletion is remembered. -/
def Faithful (remembered : Bool) (cs : List (Change V)) : Prop :=
  (cs = [] ∧ remembered = false) ∨
    cs.any Change.deletes = true ∧ (present false cs || remembered || marks false cs) = true

instance [DecidableEq V] (remembered : Bool) (cs : List (Change V)) :
    Decidable (Faithful remembered cs) :=
  decidable_of_iff (cs.isEmpty = true ∧ remembered = false ∨
      cs.any Change.deletes = true ∧ (present false cs || remembered || marks false cs) = true)
    (by rw [List.isEmpty_iff]; exact Iff.rfl)

theorem step_entry (s : Split V) (c : Change V) : (s.step c).entry = apply s.entry c := by
  cases c with
  | put v => rfl
  | delete marked => rfl

theorem foldl_step_entry (cs : List (Change V)) (s : Split V) :
    (cs.foldl Split.step s).entry = cs.foldl apply s.entry := by
  induction cs generalizing s with
  | nil => rfl
  | cons c cs ih =>
    rw [List.foldl_cons, List.foldl_cons, ih, step_entry]

theorem foldl_step_remembered (cs : List (Change V)) (s : Split V) :
    (cs.foldl Split.step s).remembered = (s.remembered || marks s.entry.isSome cs) := by
  induction cs generalizing s with
  | nil => exact (Bool.or_false _).symm
  | cons c cs ih =>
    rw [List.foldl_cons, ih]
    cases c with
    | put v =>
      have hsome : (s.entry.or (some v)).isSome = true := by cases s.entry <;> rfl
      simp only [Split.step, hsome, marks]
    | delete marked =>
      simp only [Split.step, marks, Option.isSome_none, Option.not_isSome, Bool.or_assoc]

theorem isSome_foldl_apply (cs : List (Change V)) (entry : Option V) :
    (cs.foldl apply entry).isSome = present entry.isSome cs := by
  induction cs generalizing entry with
  | nil => rfl
  | cons c cs ih =>
    rw [List.foldl_cons, ih]
    cases c with
    | put v =>
      have hsome : (entry.or (some v)).isSome = true := by cases entry <;> rfl
      rw [apply, hsome, present]
    | delete marked => rfl

/-- After a deletion it does not matter what was there before. -/
theorem foldl_apply_of_deletes {cs : List (Change V)} (h : cs.any Change.deletes = true)
    (entry entry' : Option V) : cs.foldl apply entry = cs.foldl apply entry' := by
  induction cs generalizing entry entry' with
  | nil => cases h
  | cons c cs ih =>
    cases c with
    | put v => exact ih h _ _
    | delete marked => rfl

/-- Without a deletion the entry that is there first stays. -/
theorem foldl_apply_of_keeps {cs : List (Change V)} (h : cs.any Change.deletes = false) (v : V) :
    cs.foldl apply (some v) = some v := by
  induction cs with
  | nil => rfl
  | cons c cs ih =>
    cases c with
    | put v' => exact ih h
    | delete marked => cases h

theorem marks_of_keeps {cs : List (Change V)} (h : cs.any Change.deletes = false) (b : Bool) :
    marks b cs = false := by
  induction cs generalizing b with
  | nil => rfl
  | cons c cs ih =>
    cases c with
    | put v => exact ih h true
    | delete marked => cases h

/-- Where the base has nothing the merge is right. -/
theorem merge_none (cs : List (Change V)) (remembered : Bool) :
    (cs.foldl Split.step ⟨none, remembered⟩).merge none = cs.foldl apply none := by
  rw [Split.merge, foldl_step_entry, ite_self, Option.or_none]

/-- Where the base has an entry that no change puts, the merge is right exactly if the changes are
faithful. -/
theorem merge_eq_iff {cs : List (Change V)} {v : V} (hfresh : .put v ∉ cs) (remembered : Bool) :
    (cs.foldl Split.step ⟨none, remembered⟩).merge (some v) = cs.foldl apply (some v) ↔
      Faithful remembered cs := by
  rw [Split.merge, foldl_step_entry, foldl_step_remembered]
  cases hdeletes : cs.any Change.deletes with
  | true =>
    rw [foldl_apply_of_deletes hdeletes (some v) none]
    have hpresent := isSome_foldl_apply cs none
    have hiff : Faithful remembered cs ↔
        (present false cs || remembered || marks false cs) = true := by
      constructor
      · rintro (⟨rfl, _⟩ | ⟨_, h⟩)
        · cases hdeletes
        · exact h
      · exact fun h => .inr ⟨hdeletes, h⟩
    rw [hiff, ← show _ = present false cs from hpresent]
    change (cs.foldl apply none).or (if remembered || marks false cs then none else some v) = _ ↔ _
    cases cs.foldl apply none with
    | some v' => simp
    | none => cases remembered <;> cases marks false cs <;> simp
  | false =>
    rw [foldl_apply_of_keeps hdeletes, marks_of_keeps hdeletes, Bool.or_false]
    have hiff : Faithful remembered cs ↔ cs = [] ∧ remembered = false := by
      constructor
      · rintro (h | ⟨h, _⟩)
        · exact h
        · rw [hdeletes] at h
          cases h
      · exact .inl
    rw [hiff]
    cases cs with
    | nil => cases remembered <;> simp
    | cons c cs =>
      cases c with
      | delete marked => cases hdeletes
      | put v' =>
        have hne : v' ≠ v := by
          rintro rfl
          exact hfresh (List.mem_cons_self ..)
        have hkeeps : cs.any Change.deletes = false := hdeletes
        have hfirst : (Change.put v' :: cs).foldl apply none = some v' :=
          foldl_apply_of_keeps hkeeps v'
        rw [hfirst, Option.some_or]
        simp [hne]

end ServerDevLib.Overlay
