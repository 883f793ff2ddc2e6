import Mathlib.Algebra.Ring.Nat
import Mathlib.Data.List.Basic
import Mathlib.Tactic.Tauto

/-!
# Numbers of a fixed width

Texts whose parts have the same lengths are compared part by part. A decimal
number that is padded with zeros to a width that it fits into is compared as a
number then.
-/

namespace ServerDevLib.Digits

universe u

theorem append_lt_append_iff {α : Type u} [LT α] {a a' : List α}
    (h : a.length = a'.length) (b b' : List α) :
    a ++ b < a' ++ b' ↔ a < a' ∨ a = a' ∧ b < b' := by
  induction a generalizing a' with
  | nil =>
    obtain rfl := List.length_eq_zero_iff.mp h.symm
    simp
  | cons x a ih =>
    cases a' with
    | nil => cases h
    | cons x' a' =>
      have hlength : a.length = a'.length := Nat.succ.inj h
      simp only [List.cons_append, List.cons_lt_cons_iff, ih hlength, List.cons.injEq]
      tauto

/-- The last `w` decimal digits of a number. -/
def fixed : Nat → Nat → List UInt8
  | 0, _ => []
  | w + 1, n => fixed w (n / 10) ++ [.ofNat (48 + n % 10)]

@[simp] theorem length_fixed (w n : Nat) : (fixed w n).length = w := by
  induction w generalizing n with
  | zero => rfl
  | succ w ih => rw [fixed, List.length_append, ih, List.length_singleton]

theorem fixed_zero (w : Nat) : fixed w 0 = List.replicate w 48 := by
  induction w with
  | zero => rfl
  | succ w ih =>
    rw [fixed, Nat.zero_div, ih, List.replicate_succ']
    rfl

theorem digit_lt_iff {m n : Nat} (hm : m < 10) (hn : n < 10) :
    UInt8.ofNat (48 + m) < UInt8.ofNat (48 + n) ↔ m < n := by
  rw [UInt8.lt_iff_toNat_lt, UInt8.toNat_ofNat', UInt8.toNat_ofNat']
  omega

theorem fixed_lt_iff {w m n : Nat} (hm : m < 10 ^ w) (hn : n < 10 ^ w) :
    fixed w m < fixed w n ↔ m < n := by
  induction w generalizing m n with
  | zero =>
    rw [Nat.pow_zero] at hm hn
    refine iff_of_false (List.lt_irrefl _) ?_
    omega
  | succ w ih =>
    rw [Nat.pow_succ] at hm hn
    have hm' : m / 10 < 10 ^ w := by omega
    have hn' : n / 10 < 10 ^ w := by omega
    have heq : fixed w (m / 10) = fixed w (n / 10) ↔ m / 10 = n / 10 := by
      constructor
      · intro h
        have hleft := (ih hm' hn').not.mp (h ▸ List.lt_irrefl _)
        have hright := (ih hn' hm').not.mp (h ▸ List.lt_irrefl _)
        omega
      · exact fun h => congrArg (fixed w) h
    rw [fixed, fixed, append_lt_append_iff (by simp), ih hm' hn', heq, List.cons_lt_cons_iff,
      digit_lt_iff (Nat.mod_lt _ (by decide)) (Nat.mod_lt _ (by decide))]
    simp only [List.lt_irrefl, and_false, or_false]
    omega

theorem fixed_inj {w m n : Nat} (hm : m < 10 ^ w) (hn : n < 10 ^ w) :
    fixed w m = fixed w n ↔ m = n := by
  constructor
  · intro h
    have hleft := (fixed_lt_iff hm hn).not.mp (h ▸ List.lt_irrefl _)
    have hright := (fixed_lt_iff hn hm).not.mp (h ▸ List.lt_irrefl _)
    omega
  · exact fun h => congrArg (fixed w) h

/-- The decimal text of a number. -/
def text (n : Nat) : List UInt8 := (Nat.toDigits 10 n).map fun c => c.toNat.toUInt8

theorem text_of_lt {n : Nat} (h : n < 10) : text n = [.ofNat (48 + n)] := by
  rw [text, Nat.toDigits_of_lt_base h]
  revert n
  decide

theorem text_of_le {n : Nat} (h : 10 ≤ n) : text n = text (n / 10) ++ [.ofNat (48 + n % 10)] := by
  have hlast : text (n % 10) = [.ofNat (48 + n % 10)] := text_of_lt (Nat.mod_lt _ (by decide))
  rw [text, Nat.toDigits_of_lt_base (Nat.mod_lt _ (by decide))] at hlast
  rw [text, Nat.toDigits_of_base_le (by decide) h, List.map_append, hlast]
  rfl

/-- Padded with zeros, a number that fits is its last digits. -/
theorem replicate_append_text {w n : Nat} (h : n < 10 ^ (w + 1)) :
    List.replicate (w + 1 - (text n).length) 48 ++ text n = fixed (w + 1) n := by
  induction w generalizing n with
  | zero =>
    have hdigit : n < 10 := h
    rw [text_of_lt hdigit, fixed, Nat.div_eq_of_lt hdigit, Nat.mod_eq_of_lt hdigit]
    rfl
  | succ w ih =>
    cases Nat.lt_or_ge n 10 with
    | inl hdigit =>
      rw [text_of_lt hdigit, fixed, Nat.div_eq_of_lt hdigit, Nat.mod_eq_of_lt hdigit, fixed_zero]
      rfl
    | inr hlarge =>
      rw [Nat.pow_succ] at h
      have hrest := ih (n := n / 10) (by omega)
      rw [text_of_le hlarge, fixed, ← hrest, List.length_append, List.length_singleton,
        List.append_assoc, Nat.add_sub_add_right]

theorem length_text_le_iff (n k : Nat) : (text n).length ≤ k + 1 ↔ n < 10 ^ (k + 1) := by
  rw [text, List.length_map, Nat.length_toDigits_le_iff (by decide) (Nat.succ_pos k)]

/-- A number that has as many digits needs no padding. -/
theorem text_eq_fixed {w n : Nat} (hlow : 10 ^ w ≤ n) (hhigh : n < 10 ^ (w + 1)) :
    text n = fixed (w + 1) n := by
  have hlength : w + 1 ≤ (text n).length := by
    cases w with
    | zero =>
      exact List.length_pos_iff.mpr (by simp [text, Nat.toDigits_ne_nil])
    | succ w =>
      have hlong := (length_text_le_iff n w).not.mpr (Nat.not_lt.mpr hlow)
      omega
  have hpadded := replicate_append_text hhigh
  rwa [Nat.sub_eq_zero_of_le hlength, List.replicate_zero, List.nil_append] at hpadded

theorem digit_of_mem_fixed {w n : Nat} {c : UInt8} (h : c ∈ fixed w n) :
    48 ≤ c.toNat ∧ c.toNat < 58 := by
  induction w generalizing n with
  | zero => cases h
  | succ w ih =>
    rw [fixed, List.mem_append] at h
    cases h with
    | inl hfront => exact ih hfront
    | inr hlast =>
      rw [List.mem_singleton.mp hlast, UInt8.toNat_ofNat']
      omega

theorem text_fits (n : Nat) : n < 10 ^ (n + 1) :=
  Nat.lt_trans (Nat.lt_succ_self n) (Nat.lt_pow_self (by decide))

theorem digit_of_mem_text {n : Nat} {c : UInt8} (h : c ∈ text n) : 48 ≤ c.toNat ∧ c.toNat < 58 := by
  refine digit_of_mem_fixed (w := n + 1) (n := n) ?_
  rw [← replicate_append_text (text_fits n)]
  exact List.mem_append_right _ h

theorem zero_not_mem_fixed (w n : Nat) : 0 ∉ fixed w n :=
  fun h => absurd (digit_of_mem_fixed h).1 (by decide)

theorem zero_not_mem_text (n : Nat) : 0 ∉ text n :=
  fun h => absurd (digit_of_mem_text h).1 (by decide)

theorem text_inj {m n : Nat} : text m = text n ↔ m = n := by
  constructor
  · intro h
    have hm : m < 10 ^ (m + n + 1) :=
      Nat.lt_of_lt_of_le (text_fits m) (Nat.pow_le_pow_right (by decide) (by omega))
    have hn : n < 10 ^ (m + n + 1) :=
      Nat.lt_of_lt_of_le (text_fits n) (Nat.pow_le_pow_right (by decide) (by omega))
    rw [← fixed_inj hm hn, ← replicate_append_text hm, ← replicate_append_text hn, h]
  · exact fun h => congrArg text h

end ServerDevLib.Digits
