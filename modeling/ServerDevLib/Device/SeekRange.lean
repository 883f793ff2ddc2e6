import ServerDevLib.Device.Position

/-!
# Which positions `Seek` accepts

`Seek` compares a slot with the tail, where the distance to the tail would
count. The two agree in front of the wrap and behind it in different cases.
-/

namespace ServerDevLib.Device.IODevice

open CircularBuffer

variable {d : IODevice}

/-- `Seek` accepts the unread bytes, and the one at the position is next. -/
def SeeksUnread (d : IODevice) (pos : Nat) : Prop :=
  ((d.seek false pos).2 = true ↔ pos < d.size) ∧
    ((d.seek false pos).2 = true → (d.seek false pos).1.pending.head? = d.pending[pos]?)

/-- An unread byte lies behind the wrap if there is one; any other position ends up at the tail
or after it. -/
def Comparable (d : IODevice) (pos : Nat) : Prop :=
  if pos < d.size then d.head + d.size < BUFSIZE ∨ BUFSIZE ≤ d.head + pos
  else d.tail.val ≤ (d.head + pos) % BUFSIZE

instance (d : IODevice) (pos : Nat) : Decidable (d.Comparable pos) :=
  inferInstanceAs (Decidable (if pos < d.size then _ else _))

theorem seek_true_iff (hmode : d.hasReadMode = true) (pos : Nat) :
    (d.seek false pos).2 = true ↔ (d.head + pos) % BUFSIZE < d.tail := by
  have hmod : (d.head + pos) % 2 ^ 64 % BUFSIZE = (d.head + pos) % BUFSIZE :=
    congrArg Fin.val (ofNat_sizeT (d.head + pos))
  simp only [seek, Bool.false_eq_true, if_false, hmode, Bool.not_true, hmod]
  split
  · rename_i hge
    exact iff_of_false Bool.false_ne_true (Nat.not_lt.mpr hge)
  · rename_i hlt
    exact iff_of_true rfl (Nat.lt_of_not_ge hlt)

theorem accepted_iff_comparable (h : d.Valid) (pos : Nat) :
    ((d.head + pos) % BUFSIZE < d.tail ↔ pos < d.size) ↔ d.Comparable pos := by
  have hhead := d.head.isLt
  have hsize := h.size_le
  simp only [Comparable]
  split
  · rename_i hlt
    have hpos : (d.head + pos) % BUFSIZE = if d.head + pos < BUFSIZE then d.head + pos
        else d.head + pos - BUFSIZE := add_mod_eq hhead (by omega)
    rw [iff_true_right hlt, hpos]
    cases h.tail_cases with
    | inl hlinear => split <;> omega
    | inr hwrapped => split <;> omega
  · rename_i hnot
    rw [iff_false_right hnot, Nat.not_lt]

theorem next_of_seek (hmode : d.hasReadMode = true) {pos : Nat} (hpos : pos < d.size)
    (hseek : (d.seek false pos).2 = true) :
    (d.seek false pos).1.pending.head? = d.pending[pos]? := by
  have hring : (d.seek false pos).1 = { d with head := Fin.ofNat BUFSIZE (d.head + pos) } := by
    simp only [seek, Bool.false_eq_true, if_false, hmode, Bool.not_true] at hseek ⊢
    split at hseek
    · cases hseek
    · rename_i hlt
      rw [if_neg hlt, ofNat_sizeT]
  have hsize : 0 < d.size := by omega
  rw [hring, List.head?_eq_getElem?, List.getElem?_eq_getElem (by simpa using hsize),
    List.getElem?_eq_getElem (by simpa using hpos)]
  simp [pending]

/-- `Seek` is right exactly for the positions that it can compare. -/
theorem seeksUnread_iff (h : d.Valid) (hmode : d.hasReadMode = true) (pos : Nat) :
    d.SeeksUnread pos ↔ d.Comparable pos := by
  rw [SeeksUnread, seek_true_iff hmode, accepted_iff_comparable h, and_iff_left_iff_imp]
  intro hcomparable hseek
  have hpos := ((accepted_iff_comparable h pos).mpr hcomparable).mp hseek
  exact next_of_seek hmode hpos ((seek_true_iff hmode pos).mpr hseek)

def wrapped : IODevice :=
  { mode := .R, isOpen := true, head := Fin.ofNat BUFSIZE 1020, tail := Fin.ofNat BUFSIZE 16,
    size := 20, buf := Vector.replicate BUFSIZE 32 }

theorem seeksUnread_wrapped : wrapped.SeeksUnread 4 :=
  (seeksUnread_iff ⟨by decide, by decide⟩ rfl 4).mpr (by decide)

/-- The position 1 of 20 unread bytes is refused. -/
theorem not_seeksUnread : wrapped.Valid ∧ wrapped.hasReadMode = true ∧ ¬ wrapped.SeeksUnread 1 :=
  ⟨⟨by decide, by decide⟩, rfl, fun h => absurd (h.1.mpr (by decide)) (by decide)⟩

end ServerDevLib.Device.IODevice
