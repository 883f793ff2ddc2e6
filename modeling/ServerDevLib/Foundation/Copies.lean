import Mathlib.Data.List.Basic
import Mathlib.Logic.Function.Basic

/-!
# Numbers of copies

Several receivers are given the same items one after the other and write to
one place. What is there then has for each item in turn as many copies as
there were receivers that were given it.
-/

namespace ServerDevLib.Copies

universe u v

variable {α : Type u} {β : Type v}

def copies (f : α → List β) (n : Nat) (x : α) : List β := (List.replicate n (f x)).flatten

/-- `count i` copies of the `i`-th item, in the order of the items. -/
def written (f : α → List β) : (Nat → Nat) → List α → List β
  | _, [] => []
  | count, x :: xs => copies f (count 0) x ++ written f (fun i => count (i + 1)) xs

variable {f : α → List β} {count count' : Nat → Nat} {xs ys : List α}

theorem copies_succ (f : α → List β) (n : Nat) (x : α) :
    copies f (n + 1) x = copies f n x ++ f x := by
  rw [copies, List.replicate_succ', List.flatten_concat]
  rfl

theorem written_congr (h : ∀ i < xs.length, count i = count' i) :
    written f count xs = written f count' xs := by
  induction xs generalizing count count' with
  | nil => rfl
  | cons x xs ih =>
    have hhead : count 0 = count' 0 := h 0 (Nat.succ_pos _)
    rw [written, written, hhead, ih fun i hi => h (i + 1) (Nat.succ_lt_succ hi)]

theorem written_append (f : α → List β) (count : Nat → Nat) (xs ys : List α) :
    written f count (xs ++ ys) =
      written f count xs ++ written f (fun i => count (i + xs.length)) ys := by
  induction xs generalizing count with
  | nil => rfl
  | cons x xs ih =>
    rw [List.cons_append, written, written, ih, List.append_assoc]
    rfl

theorem written_const (f : α → List β) (k : Nat) (xs : List α) :
    written f (fun _ => k) xs = xs.flatMap (copies f k) := by
  induction xs with
  | nil => rfl
  | cons x xs ih => rw [written, ih, List.flatMap_cons]

theorem written_of_none (h : ∀ i < xs.length, count i = 0) : written f count xs = [] := by
  rw [written_congr h, written_const]
  exact List.flatMap_eq_nil_iff.mpr fun x _ => rfl

/-- An item that nobody was given yet adds nothing. -/
theorem written_concat {x : α} (h : count xs.length = 0) :
    written f count (xs ++ [x]) = written f count xs := by
  rw [written_append]
  refine (congrArg _ (written_of_none fun i hi => ?_)).trans (List.append_nil _)
  have hzero : i = 0 := by simpa using hi
  rw [hzero, Nat.zero_add]
  exact h

/-- One more receiver is given the last item that any was given. -/
theorem written_succ {x : α} (hafter : ∀ i, xs.length < i → count i = 0)
    (hsame : ∀ i, i ≠ xs.length → count' i = count i)
    (hmore : count' xs.length = count xs.length + 1) :
    written f count' (xs ++ x :: ys) = written f count (xs ++ x :: ys) ++ f x := by
  have hfront : written f count' xs = written f count xs :=
    written_congr fun i hi => hsame i (Nat.ne_of_lt hi)
  have hback (n : Nat → Nat) (hn : ∀ i, xs.length < i → n i = 0) :
      written f n (xs ++ x :: ys) = written f n xs ++ copies f (n xs.length) x := by
    have hnone : written f (fun i => n (i + 1 + xs.length)) ys = [] :=
      written_of_none fun i _ => hn _ (by omega)
    rw [written_append, written, Nat.zero_add, hnone, List.append_nil]
  rw [hback count' fun i hi => (hsame i (Nat.ne_of_gt hi)).trans (hafter i hi), hback count hafter,
    hfront, hmore, copies_succ, List.append_assoc]

/-- All receivers were given the first items, and some of them one more. -/
theorem written_levels {k p : Nat} (hall : ∀ i < xs.length, count i = k)
    (hnext : count xs.length = p) (hafter : ∀ i, xs.length < i → count i = 0) :
    written f count (xs ++ ys) =
      xs.flatMap (copies f k) ++ (ys.take 1).flatMap (copies f p) := by
  rw [written_append, written_congr hall, written_const]
  cases ys with
  | nil => rfl
  | cons y ys =>
    have hnone : written f (fun i => count (i + 1 + xs.length)) ys = [] :=
      written_of_none fun i _ => hafter _ (by omega)
    rw [written, Nat.zero_add, hnext, hnone]
    rfl

end ServerDevLib.Copies
