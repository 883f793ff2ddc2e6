import ServerDevLib.Device.IODevice

/-!
# The ring behind the buffered device

The unread bytes are the window of `size` cells behind the head. Every layout
of the ring is covered by one equation for the tail; the empty and the full
ring share it and differ in the size alone. The copy-out phase is correct on
every ring that is not full. On a full ring its linear stretch has length
zero, so that it copies nothing.
-/

namespace ServerDevLib.Device.IODevice

open CircularBuffer Memory

universe u

variable {σ : Type u} {d : IODevice}

def pending (d : IODevice) : List UInt8 := window d.buf d.head d.size

structure Valid (d : IODevice) : Prop where
  tail_eq : d.tail.val = (d.head + d.size) % BUFSIZE
  size_le : d.size ≤ BUFSIZE

@[simp] theorem length_pending (d : IODevice) : d.pending.length = d.size := length_window _ _ _

theorem Valid.tail_cases (h : d.Valid) :
    (d.head + d.size < BUFSIZE ∧ d.tail.val = d.head + d.size) ∨
    (BUFSIZE ≤ d.head + d.size ∧ d.tail.val + BUFSIZE = d.head + d.size) := by
  have htail := h.tail_eq
  have hsize := h.size_le
  have hhead := d.head.isLt
  rw [add_mod_eq hhead hsize] at htail
  split_ifs at htail with hwrap
  · exact .inl ⟨hwrap, htail⟩
  · exact .inr ⟨by omega, by omega⟩

/-- The effect of one call of `ReadData` that stores `bytes` behind the tail. -/
def receive (d : IODevice) (bytes : List UInt8) : IODevice :=
  { d with buf := store d.buf d.tail bytes }.commit bytes.length

theorem receive_spec (h : d.Valid) (bytes : List UInt8)
    (hroom : d.size + bytes.length ≤ BUFSIZE) (hfit : d.tail + bytes.length ≤ BUFSIZE) :
    (d.receive bytes).Valid ∧ (d.receive bytes).pending = d.pending ++ bytes ∧
      (d.receive bytes).size = d.size + bytes.length := by
  have hsize : (d.size + bytes.length) % 2 ^ 64 = d.size + bytes.length :=
    Nat.mod_eq_of_lt (by simp only [BUFSIZE] at hroom; omega)
  refine ⟨⟨?_, ?_⟩, ?_, hsize⟩
  · change (d.tail.val + bytes.length) % BUFSIZE =
      (d.head.val + (d.size + bytes.length) % 2 ^ 64) % BUFSIZE
    rw [hsize, h.tail_eq, Nat.mod_add_mod, Nat.add_assoc]
  · change (d.size + bytes.length) % 2 ^ 64 ≤ BUFSIZE
    rwa [hsize]
  · change window (store d.buf d.tail bytes) d.head ((d.size + bytes.length) % 2 ^ 64) = _
    rw [hsize, h.tail_eq]
    rw [h.tail_eq] at hfit
    exact window_store_append d.buf d.head.isLt hfit hroom

theorem advance_spec (h : d.Valid) {k : Nat} (hk : k ≤ d.size) :
    (d.advance k).Valid ∧ (d.advance k).pending = d.pending.drop k := by
  refine ⟨⟨?_, ?_⟩, ?_⟩
  · change d.tail.val = ((d.head.val + k) % BUFSIZE + (d.size - k)) % BUFSIZE
    have hsum : d.head.val + k + (d.size - k) = d.head.val + d.size := by omega
    rw [Nat.mod_add_mod, hsum, h.tail_eq]
  · change d.size - k ≤ BUFSIZE
    have := h.size_le
    omega
  · change window d.buf ((d.head.val + k) % BUFSIZE) (d.size - k) = _
    rw [window_mod, pending, drop_window _ _ hk]

section Peek

theorem peek_empty (hempty : d.size = 0) (data : List UInt8) (size : Nat) :
    d.peek false (some data) size = (some data, 0) := by
  simp [peek, hempty]

/-- The ring that is not full: the copied bytes are the oldest unread ones. -/
theorem peek_spec (h : d.Valid) (hmode : d.hasReadMode = true) (hfull : d.size < BUFSIZE)
    (data : List UInt8) (size : Nat) :
    d.peek false (some data) size =
      (some (overwrite data 0 (d.pending.take size)), min size d.size) := by
  by_cases hempty : d.size = 0
  · have hpending : d.pending = [] := List.eq_nil_of_length_eq_zero (by simp [hempty])
    rw [peek_empty hempty, hpending, hempty]
    simp
  have hhead := d.head.isLt
  have htake : d.pending.take size = window d.buf d.head (min size d.size) := by
    cases Nat.le_total size d.size with
    | inl hle => rw [Nat.min_eq_left hle, pending, take_window _ _ hle]
    | inr hle => rw [Nat.min_eq_right hle, List.take_of_length_le (by simpa using hle), pending]
  have hexact : (if d.size > size then size else d.size) = min size d.size := by
    split_ifs with hlt <;> omega
  have hcond : (!d.hasReadMode || d.size == 0 || false) = false := by simp [hmode, hempty]
  simp only [peek, hcond, Bool.false_eq_true, if_false, hexact, htake]
  generalize hk : min size d.size = k
  have hkle : k ≤ d.size := by omega
  rcases h.tail_cases with ⟨hlinear, htail⟩ | ⟨hwrapped, htail⟩
  · have hlen : d.tail.val - d.head.val = d.size := by omega
    have hvalid : (if k < d.size then k else d.size) = k := by split_ifs <;> omega
    rw [if_pos (by omega : d.tail.val ≥ d.head.val), hlen, hvalid, if_neg (by omega)]
    rw [window_eq_slice _ (by omega)]
  · rw [if_neg (by omega : ¬d.tail.val ≥ d.head.val)]
    by_cases hshort : k < BUFSIZE - d.head
    · rw [if_pos hshort, if_neg (by omega), window_eq_slice _ (by omega)]
    · rw [if_neg hshort]
      obtain ⟨rest, rfl⟩ := Nat.exists_eq_add_of_le (Nat.le_of_not_lt hshort)
      have hzero : d.head.val + (BUFSIZE - d.head) = BUFSIZE := by omega
      have hslice : window d.buf d.head (BUFSIZE - d.head + rest) =
          slice d.buf d.head (BUFSIZE - d.head) ++ slice d.buf 0 rest := by
        rw [window_add, hzero, window_eq_slice _ (by omega)]
        rw [← window_mod, Nat.mod_self, window_eq_slice _ (by omega)]
      have hlength : (slice d.buf d.head (BUFSIZE - d.head)).length = BUFSIZE - d.head :=
        length_slice _ (by omega)
      rw [hslice, Nat.add_sub_cancel_left]
      by_cases hrest : rest = 0
      · subst hrest
        rw [if_neg (by omega), slice_zero, List.append_nil, Nat.add_zero]
      · rw [if_pos ⟨by omega, by omega⟩]
        have happend := overwrite_append data (slice d.buf d.head (BUFSIZE - d.head))
          (slice d.buf 0 rest)
        rw [hlength] at happend
        rw [happend]

/-- On the full ring the count is right and nothing is copied. -/
theorem peek_full (h : d.Valid) (hmode : d.hasReadMode = true) (hfull : d.size = BUFSIZE)
    (data : List UInt8) (size : Nat) :
    d.peek false (some data) size = (some data, min size BUFSIZE) := by
  have hhead := d.head.isLt
  have htail : d.tail.val = d.head.val := by
    rcases h.tail_cases with ⟨hlinear, _⟩ | ⟨_, htail⟩ <;> omega
  have hcond : (!d.hasReadMode || d.size == 0 || false) = false := by
    simp [hmode, hfull, BUFSIZE]
  have hexact : (if d.size > size then size else d.size) = min size BUFSIZE := by
    split_ifs with hlt <;> omega
  simp only [peek, hcond, Bool.false_eq_true, if_false, hexact, htail]
  simp

end Peek

end ServerDevLib.Device.IODevice
