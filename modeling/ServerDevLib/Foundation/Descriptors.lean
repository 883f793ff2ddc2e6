import Mathlib.Logic.Function.Basic

/-!
# Descriptor tables

A number that is open designates an object. Objects are numbered in the order
in which they are opened, so that a number that is closed and opened again
designates another one.
-/

namespace ServerDevLib

structure Descriptors where
  object : Int → Option Nat
  next : Nat

namespace Descriptors

def empty : Descriptors := ⟨fun _ => none, 0⟩

def openAt (t : Descriptors) (fd : Int) : Descriptors :=
  { object := Function.update t.object fd (some t.next), next := t.next + 1 }

def closeAt (t : Descriptors) (fd : Int) : Descriptors :=
  { t with object := Function.update t.object fd none }

structure WellFormed (t : Descriptors) : Prop where
  nonneg : ∀ fd n, t.object fd = some n → 0 ≤ fd
  old : ∀ fd n, t.object fd = some n → n < t.next
  sole : ∀ fd fd' n, t.object fd = some n → t.object fd' = some n → fd = fd'

variable {t : Descriptors} {fd fd' : Int} {n : Nat}

theorem empty_wellFormed : empty.WellFormed := ⟨nofun, nofun, nofun⟩

theorem object_openAt : (t.openAt fd).object fd' = some n ↔
    fd' = fd ∧ n = t.next ∨ fd' ≠ fd ∧ t.object fd' = some n := by
  change Function.update t.object fd (some t.next) fd' = some n ↔ _
  obtain rfl | hne := eq_or_ne fd' fd
  · simp [eq_comm]
  · simp [hne]

theorem object_closeAt : (t.closeAt fd).object fd' = some n ↔ fd' ≠ fd ∧ t.object fd' = some n := by
  change Function.update t.object fd none fd' = some n ↔ _
  obtain rfl | hne := eq_or_ne fd' fd
  · simp
  · simp [hne]

/-- Opening a free number takes no number from an object. -/
theorem object_openAt_of_free (hfree : t.object fd = none) (h : t.object fd' = some n) :
    (t.openAt fd).object fd' = some n := by
  refine object_openAt.mpr (.inr ⟨?_, h⟩)
  rintro rfl
  rw [hfree] at h
  cases h

theorem WellFormed.openAt (h : t.WellFormed) (hfd : 0 ≤ fd) : (t.openAt fd).WellFormed where
  nonneg fd' n hn := by
    rcases object_openAt.mp hn with ⟨rfl, _⟩ | ⟨_, hn⟩
    · exact hfd
    · exact h.nonneg fd' n hn
  old fd' n hn := by
    rcases object_openAt.mp hn with ⟨_, rfl⟩ | ⟨_, hn⟩
    · exact Nat.lt_succ_self _
    · exact Nat.lt_succ_of_lt (h.old fd' n hn)
  sole p q n hp hq := by
    rcases object_openAt.mp hp with ⟨rfl, rfl⟩ | ⟨_, hpOld⟩
    · rcases object_openAt.mp hq with ⟨rfl, _⟩ | ⟨_, hqOld⟩
      · rfl
      · exact absurd (h.old q _ hqOld) (Nat.lt_irrefl _)
    · rcases object_openAt.mp hq with ⟨rfl, rfl⟩ | ⟨_, hqOld⟩
      · exact absurd (h.old p _ hpOld) (Nat.lt_irrefl _)
      · exact h.sole p q n hpOld hqOld

theorem WellFormed.closeAt (h : t.WellFormed) (fd : Int) : (t.closeAt fd).WellFormed where
  nonneg fd' n hn := h.nonneg fd' n (object_closeAt.mp hn).2
  old fd' n hn := h.old fd' n (object_closeAt.mp hn).2
  sole p q n hp hq := h.sole p q n (object_closeAt.mp hp).2 (object_closeAt.mp hq).2

/-- An object whose number is closed has none. -/
theorem WellFormed.gone (h : t.WellFormed) (hn : t.object fd = some n) (fd' : Int) :
    (t.closeAt fd).object fd' ≠ some n := by
  intro hother
  obtain ⟨hne, hold⟩ := object_closeAt.mp hother
  exact hne (h.sole fd' fd n hold hn)

end Descriptors

end ServerDevLib
