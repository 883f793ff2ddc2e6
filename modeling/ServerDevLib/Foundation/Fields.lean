import Mathlib.Data.List.Basic

/-!
# Texts that are put together from fields

A field can be read off the front of a text if two values that are followed by
anything give the same text only where they and what follows agree. Fields of a
fixed length are such, and those that end with a mark that they do not contain;
a text of several fields is read one field after the other.
-/

namespace ServerDevLib.Fields

universe u v

variable {α : Type u} {β : Type v}

/-- The values that satisfy `P` can be read off the front of a text. -/
def Separable (P : α → Prop) (field : α → List β) : Prop :=
  ∀ ⦃x y⦄, P x → P y → ∀ ⦃a b⦄, field x ++ a = field y ++ b → x = y ∧ a = b

def InjectiveOn (P : α → Prop) (field : α → List β) : Prop :=
  ∀ ⦃x y⦄, P x → P y → field x = field y → x = y

variable {P : α → Prop} {field : α → List β}

theorem separable_of_length {n : Nat} (hlength : ∀ x, P x → (field x).length = n)
    (hinj : InjectiveOn P field) : Separable P field := by
  intro x y hx hy a b h
  obtain ⟨hfield, hrest⟩ := List.append_inj h ((hlength x hx).trans (hlength y hy).symm)
  exact ⟨hinj hx hy hfield, hrest⟩

theorem append_mark_inj {mark : β} {s t a b : List β} (hs : mark ∉ s) (ht : mark ∉ t)
    (h : s ++ mark :: a = t ++ mark :: b) : s = t ∧ a = b := by
  induction s generalizing t with
  | nil =>
    cases t with
    | nil => exact ⟨rfl, List.tail_eq_of_cons_eq h⟩
    | cons y t =>
      obtain ⟨hhead, _⟩ := List.cons.inj h
      exact absurd (hhead ▸ List.mem_cons_self ..) ht
  | cons x s ih =>
    cases t with
    | nil =>
      obtain ⟨hhead, _⟩ := List.cons.inj h
      exact absurd (hhead ▸ List.mem_cons_self ..) hs
    | cons y t =>
      obtain ⟨hhead, htail⟩ := List.cons.inj h
      obtain ⟨hfield, hrest⟩ := ih (fun hmem => hs (List.mem_cons_of_mem _ hmem))
        (fun hmem => ht (List.mem_cons_of_mem _ hmem)) htail
      exact ⟨by rw [hhead, hfield], hrest⟩

theorem separable_of_mark {mark : β} (hfree : ∀ x, P x → mark ∉ field x)
    (hinj : InjectiveOn P field) : Separable P fun x => field x ++ [mark] := by
  intro x y hx hy a b h
  rw [List.append_assoc, List.append_assoc] at h
  obtain ⟨hfield, hrest⟩ := append_mark_inj (hfree x hx) (hfree y hy) h
  exact ⟨hinj hx hy hfield, hrest⟩

/-- What is padded in front with a character that it does not begin with can be told from that. -/
theorem padded_inj [DecidableEq β] {fill : β} {m n : Nat} {s t : List β} (hs : s.head? ≠ some fill)
    (ht : t.head? ≠ some fill) (h : List.replicate m fill ++ s = List.replicate n fill ++ t) :
    s = t := by
  have hdrop (k : Nat) (r : List β) (hr : r.head? ≠ some fill) :
      (List.replicate k fill ++ r).dropWhile (fun c => c = fill) = r := by
    induction k with
    | zero =>
      cases r with
      | nil => rfl
      | cons c r =>
        have hc : c ≠ fill := fun heq => hr (congrArg some heq)
        simp [hc]
    | succ k ih => simpa [List.replicate_succ] using ih
  rw [← hdrop m s hs, h, hdrop n t ht]

end ServerDevLib.Fields
