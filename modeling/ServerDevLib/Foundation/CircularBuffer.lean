import Mathlib.Algebra.Ring.Nat
import Mathlib.Data.List.OfFn
import Mathlib.Tactic.SplitIfs

/-!
# Windows of a circular buffer

A window is the list read from a fixed array by walking forward from a start
position and wrapping at the end. Storing a block that does not wrap, right
behind a window and into slots the window does not use, appends the block to
the window; this is the only fact about wrapped layouts that a ring needs.
-/

namespace ServerDevLib.CircularBuffer

universe u

variable {α : Type u} {n : Nat}

/-- Copies a block over the array at offset `off`; what would lie behind the end is dropped. -/
def store (mem : Vector α n) (off : Nat) (src : List α) : Vector α n :=
  Vector.ofFn fun i => if h : off ≤ i.val ∧ i.val < off + src.length then
    src[i.val - off] else mem[i]

/-- The `len` cells behind offset `off`, without wrapping. -/
def slice (mem : Vector α n) (off len : Nat) : List α := (mem.toList.drop off).take len

theorem getElem_store_of_mem (mem : Vector α n) {off i : Nat} {src : List α} (hi : i < n)
    (h : off ≤ i ∧ i < off + src.length) :
    (store mem off src)[i] = src[i - off] := by
  simp only [store, Vector.getElem_ofFn, dif_pos h]

theorem getElem_store_of_notMem (mem : Vector α n) {off i : Nat} {src : List α} (hi : i < n)
    (h : ¬(off ≤ i ∧ i < off + src.length)) : (store mem off src)[i] = mem[i] := by
  simp only [store, Vector.getElem_ofFn, dif_neg h]
  rfl

theorem length_slice (mem : Vector α n) {off len : Nat} (h : off + len ≤ n) :
    (slice mem off len).length = len := by
  simp only [slice, List.length_take, List.length_drop, Vector.length_toList]
  omega

@[simp] theorem slice_zero (mem : Vector α n) (off : Nat) : slice mem off 0 = [] := by
  simp [slice]

/-- Position of the cell `k` places behind `start`, wrapped at most once. -/
theorem add_mod_eq {start k : Nat} (hs : start < n) (hk : k ≤ n) :
    (start + k) % n = if start + k < n then start + k else start + k - n := by
  split
  · rename_i h
    exact Nat.mod_eq_of_lt h
  · rename_i h
    rw [Nat.mod_eq_sub_mod (by omega)]
    exact Nat.mod_eq_of_lt (by omega)

section Window

variable [NeZero n]

def window (mem : Vector α n) (start len : Nat) : List α :=
  (List.range len).map fun k => mem[Fin.ofNat n (start + k)]

@[simp] theorem length_window (mem : Vector α n) (start len : Nat) :
    (window mem start len).length = len := by
  simp [window]

@[simp] theorem getElem_window (mem : Vector α n) (start len k : Nat)
    (hk : k < (window mem start len).length) :
    (window mem start len)[k] = mem[Fin.ofNat n (start + k)] := by
  simp [window]

theorem window_mod (mem : Vector α n) (start len : Nat) :
    window mem (start % n) len = window mem start len := by
  apply List.ext_getElem (by simp)
  intro k _ _
  simp

theorem window_add (mem : Vector α n) (start a b : Nat) :
    window mem start (a + b) = window mem start a ++ window mem (start + a) b := by
  simp only [window, List.range_add, List.map_append, List.map_map]
  congr 1
  apply List.map_congr_left
  intro k _
  simp [Nat.add_assoc]

theorem take_window (mem : Vector α n) (start : Nat) {k len : Nat} (h : k ≤ len) :
    (window mem start len).take k = window mem start k := by
  obtain ⟨rest, rfl⟩ := Nat.exists_eq_add_of_le h
  rw [window_add, List.take_left' (length_window mem start k)]

theorem drop_window (mem : Vector α n) (start : Nat) {k len : Nat} (h : k ≤ len) :
    (window mem start len).drop k = window mem (start + k) (len - k) := by
  obtain ⟨rest, rfl⟩ := Nat.exists_eq_add_of_le h
  rw [window_add, List.drop_left' (length_window mem start k), Nat.add_sub_cancel_left]

theorem window_eq_slice (mem : Vector α n) {start len : Nat} (h : start + len ≤ n) :
    window mem start len = slice mem start len := by
  apply List.ext_getElem (by rw [length_window, length_slice mem h])
  intro k hk _
  rw [length_window] at hk
  have hmod : (start + k) % n = start + k := Nat.mod_eq_of_lt (by omega)
  simp [slice, hmod]

/-- Storing a block directly behind a window appends it to the window. -/
theorem window_store_append (mem : Vector α n) {start len : Nat} {src : List α}
    (hs : start < n) (hfit : (start + len) % n + src.length ≤ n) (hroom : len + src.length ≤ n) :
    window (store mem ((start + len) % n) src) start (len + src.length) =
      window mem start len ++ src := by
  have hend : (start + len) % n = if start + len < n then start + len else start + len - n :=
    add_mod_eq hs (by omega)
  apply List.ext_getElem (by simp)
  intro k hk _
  rw [length_window] at hk
  have hpos : (start + k) % n = if start + k < n then start + k else start + k - n :=
    add_mod_eq hs (by omega)
  rw [getElem_window, List.getElem_append]
  simp only [length_window]
  split
  · -- a cell of the old window, outside the block
    have hmem : ¬((start + len) % n ≤ (start + k) % n ∧
        (start + k) % n < (start + len) % n + src.length) := by
      rw [hend] at hfit ⊢
      rw [hpos]
      split_ifs at hfit ⊢ <;> omega
    rw [getElem_window]
    exact getElem_store_of_notMem _ _ hmem
  · -- a cell of the block, which does not wrap
    have hmem : (start + len) % n ≤ (start + k) % n ∧
        (start + k) % n < (start + len) % n + src.length := by
      rw [hend] at hfit ⊢
      rw [hpos]
      split_ifs at hfit ⊢ <;> omega
    have hidx : (start + k) % n - (start + len) % n = k - len := by
      rw [hend] at hfit ⊢
      rw [hpos]
      split_ifs at hfit ⊢ <;> omega
    apply (getElem_store_of_mem _ _ hmem).trans
    simp only [hidx]

end Window

end ServerDevLib.CircularBuffer
