import Mathlib.Data.List.Basic

/-!
# Copies into a list of cells

The destination of a copy keeps its length as long as the block lies inside it.
-/

namespace ServerDevLib.Memory

universe u

variable {α : Type u}

/-- Copies the block over the cells from offset `off` on. -/
def overwrite (dst : List α) (off : Nat) (src : List α) : List α :=
  dst.take off ++ src ++ dst.drop (off + src.length)

@[simp] theorem overwrite_nil (dst : List α) (off : Nat) : overwrite dst off [] = dst := by
  simp [overwrite]

theorem length_overwrite {dst src : List α} {off : Nat} (h : off + src.length ≤ dst.length) :
    (overwrite dst off src).length = dst.length := by
  simp only [overwrite, List.length_append, List.length_take, List.length_drop]
  omega

theorem le_length_overwrite (dst src : List α) (off : Nat) :
    dst.length ≤ (overwrite dst off src).length := by
  simp only [overwrite, List.length_append, List.length_take, List.length_drop]
  omega

theorem take_overwrite {dst : List α} {off : Nat} (src : List α) (h : off ≤ dst.length) :
    (overwrite dst off src).take (off + src.length) = dst.take off ++ src := by
  rw [overwrite, List.take_left']
  simp [Nat.min_eq_left h]

theorem overwrite_zero (dst src : List α) :
    overwrite dst 0 src = src ++ dst.drop src.length := by
  simp [overwrite]

theorem length_overwrite_start (dst src : List α) :
    (overwrite dst 0 src).length = max dst.length src.length := by
  rw [overwrite_zero, List.length_append, List.length_drop]
  omega

theorem take_overwrite_start (dst src : List α) {k : Nat} (hk : k ≤ src.length) :
    (overwrite dst 0 (src.take k)).take k = src.take k := by
  have htake := take_overwrite (src.take k) (Nat.zero_le dst.length)
  rwa [List.length_take_of_le hk, Nat.zero_add, List.take_zero, List.nil_append] at htake

/-- Two copies of adjacent blocks are one copy of their concatenation. -/
theorem overwrite_append (dst a b : List α) :
    overwrite (overwrite dst 0 a) a.length b = overwrite dst 0 (a ++ b) := by
  rw [overwrite_zero dst a, overwrite_zero dst (a ++ b), overwrite]
  rw [List.take_left' rfl, List.drop_append, List.drop_eq_nil_of_le (by omega), List.nil_append,
    List.drop_drop, List.length_append]
  congr 2
  omega

end ServerDevLib.Memory
