import ServerDevLib.Device.FillPhase

/-!
# Failing calls of `ReadData`

`ReadData` reports a failure as -1, which `Read` adds to a counter of type
`size_t`. The counter is then off by one modulo the size of the ring, and it
passes the test for a second call.
-/

namespace ServerDevLib.Device

open CircularBuffer

universe u

variable {σ : Type u} {dev : Virtual σ}

/-- A call fails and stores nothing, or it returns what it has stored. -/
def Virtual.MayFail (dev : Virtual σ) : Prop :=
  ∀ w n, (dev.readData w n).1.ret = -1 ∧ (dev.readData w n).1.bytes = [] ∨
    (dev.readData w n).1.ret = (dev.readData w n).1.bytes.length ∧
      (dev.readData w n).1.bytes.length ≤ n

/-- The device whose failing calls return 0. -/
def Virtual.quiet (dev : Virtual σ) : Virtual σ where
  readData w n :=
    if (dev.readData w n).1.ret = -1 then (⟨0, []⟩, (dev.readData w n).2) else dev.readData w n
  isSequential := dev.isSequential

theorem Virtual.MayFail.stores (h : dev.MayFail) (w : σ) (n : Nat) :
    (dev.readData w n).1.bytes.length ≤ n := by
  cases h w n with
  | inl hfail =>
    rw [hfail.2]
    exact Nat.zero_le n
  | inr hok => exact hok.2

theorem Virtual.MayFail.quiet_bounded (h : dev.MayFail) : dev.quiet.Bounded := by
  intro w n
  simp only [Virtual.quiet]
  split
  · exact ⟨rfl, Nat.zero_le n⟩
  · rename_i hne
    exact (h w n).resolve_left fun hfail => hne hfail.1

theorem Virtual.quiet_of_fail {w : σ} {n : Nat} (h : (dev.readData w n).1.ret = -1) :
    dev.quiet.readData w n = (⟨0, []⟩, (dev.readData w n).2) := if_pos h

theorem Virtual.quiet_of_ok {w : σ} {n : Nat} (h : (dev.readData w n).1.ret ≠ -1) :
    dev.quiet.readData w n = dev.readData w n := if_neg h

namespace IODevice

variable {d : IODevice} {w : σ}

/-- The value of `readed` when the tail is moved. -/
def readed (dev : Virtual σ) (d : IODevice) (w : σ) : Nat :=
  let r := dev.readData w d.tailSegment
  if d.tail.val > d.head.val ∧ toSizeT r.1.ret ≥ d.tailSegment then
    (toSizeT r.1.ret + toSizeT (dev.readData r.2 d.head).1.ret) % 2 ^ 64
  else toSizeT r.1.ret

/-- No call of the fill fails. -/
def Succeeds (dev : Virtual σ) (d : IODevice) (w : σ) : Prop :=
  let r := dev.readData w d.tailSegment
  r.1.ret ≠ -1 ∧ (d.tail.val > d.head.val ∧ r.1.ret = d.tailSegment →
    (dev.readData r.2 d.head).1.ret ≠ -1)

/-- The first call fails, and the second one, which is made after all, returns 1. -/
def Cancels (dev : Virtual σ) (d : IODevice) (w : σ) : Prop :=
  let r := dev.readData w d.tailSegment
  r.1.ret = -1 ∧ d.tail.val > d.head.val ∧ (dev.readData r.2 d.head).1.ret = 1

/-- The ring after a `Read` is the one of a device whose failing calls return 0. -/
structure CountsNothing (dev : Virtual σ) (d : IODevice) (w : σ) (data : List UInt8) (n : Nat) :
    Prop where
  head : (d.read dev w (some data) n).1.1.head = (d.read dev.quiet w (some data) n).1.1.head
  tail : (d.read dev w (some data) n).1.1.tail = (d.read dev.quiet w (some data) n).1.1.tail
  size : (d.read dev w (some data) n).1.1.size = (d.read dev.quiet w (some data) n).1.1.size
  pending : (d.read dev w (some data) n).1.1.pending = (d.read dev.quiet w (some data) n).1.1.pending
  kept : (d.read dev w (some data) n).1.1.pending =
    (d.pending ++ dev.quiet.arriving d w).drop (d.read dev.quiet w (some data) n).2.2
  size_le : (d.read dev w (some data) n).1.1.size ≤ BUFSIZE

theorem fill_eq_commit (dev : Virtual σ) (d : IODevice) (w : σ) :
    (d.fill dev w).1 = { d with buf := (d.fill dev w).1.buf }.commit (d.readed dev w) := by
  simp only [fill, readed]
  split_ifs <;> rfl

theorem tailSegment_pos (d : IODevice) : 0 < d.tailSegment := by
  have htail := d.tail.isLt
  simp only [tailSegment]
  split_ifs <;> omega

theorem toSizeT_neg_one : toSizeT (-1) = 2 ^ 64 - 1 := rfl

theorem toSizeT_zero : toSizeT 0 = 0 := rfl

theorem toSizeT_cases (hdev : dev.MayFail) (w : σ) {n : Nat} (hn : n ≤ BUFSIZE) :
    (dev.readData w n).1.ret = -1 ∧ toSizeT (dev.readData w n).1.ret = 2 ^ 64 - 1 ∨
      ∃ c ≤ n, (dev.readData w n).1.ret = (c : Int) ∧ toSizeT (dev.readData w n).1.ret = c := by
  cases hdev w n with
  | inl hfail =>
    rw [hfail.1]
    exact .inl ⟨rfl, toSizeT_neg_one⟩
  | inr hok =>
    rw [hok.1]
    exact .inr ⟨_, hok.2, rfl, toSizeT_natCast (Nat.le_trans hok.2 hn)⟩

theorem readed_quiet_of_fail (hfail : (dev.readData w d.tailSegment).1.ret = -1) :
    d.readed dev.quiet w = 0 := by
  have hpos := d.tailSegment_pos
  simp only [readed, Virtual.quiet_of_fail hfail, toSizeT_zero]
  exact if_neg fun h => absurd h.2 (Nat.not_le.mpr hpos)

theorem readed_of_fail (hfail : (dev.readData w d.tailSegment).1.ret = -1) :
    d.readed dev w = if d.tail.val > d.head.val then
      (2 ^ 64 - 1 + toSizeT (dev.readData (dev.readData w d.tailSegment).2 d.head).1.ret) % 2 ^ 64
      else 2 ^ 64 - 1 := by
  have hle : 2 ^ 64 - 1 ≥ d.tailSegment := by
    have hfit := d.tailSegment_le
    simp only [BUFSIZE] at hfit
    omega
  simp only [readed, hfail, toSizeT_neg_one, hle, and_true]

/-- The counters agree modulo the size of the ring exactly if no call fails or the second one
makes up for the first. -/
theorem readed_mod_iff (hdev : dev.MayFail) :
    d.readed dev w % BUFSIZE = d.readed dev.quiet w % BUFSIZE ↔
      d.Succeeds dev w ∨ d.Cancels dev w := by
  have hfit := d.tailSegment_le
  have hpos := d.tailSegment_pos
  have hhead := d.head.isLt
  have hsecond := toSizeT_cases hdev (dev.readData w d.tailSegment).2 (Nat.le_of_lt hhead)
  obtain ⟨hfail, _⟩ | ⟨c, hc, hret, hsize⟩ := toSizeT_cases hdev w (n := d.tailSegment) (by omega)
  · -- the first call fails: the counter of the quiet device is 0
    have hcond : d.Succeeds dev w ∨ d.Cancels dev w ↔ d.tail.val > d.head.val ∧
        (dev.readData (dev.readData w d.tailSegment).2 d.head).1.ret = 1 := by
      simp only [Succeeds, Cancels, hfail, ne_eq, not_true_eq_false, false_and, false_or, true_and]
    rw [hcond, readed_of_fail hfail, readed_quiet_of_fail hfail]
    obtain ⟨hfail', hsize'⟩ | ⟨c', hc', hret', hsize'⟩ := hsecond
    · rw [hsize', hfail']
      refine iff_of_false ?_ fun h => absurd h.2 (by decide)
      split_ifs <;> decide
    · rw [hsize', hret']
      simp only [BUFSIZE] at hhead ⊢
      split
      · omega
      · rename_i hnot
        exact iff_of_false (by decide) fun h => hnot h.1
  · -- the first call succeeds: the counters differ by what the second call returns
    have hne : (dev.readData w d.tailSegment).1.ret ≠ -1 := by omega
    have hcond : d.Succeeds dev w ∨ d.Cancels dev w ↔ (d.tail.val > d.head.val ∧
        c = d.tailSegment → (dev.readData (dev.readData w d.tailSegment).2 d.head).1.ret ≠ -1) := by
      have hlen : (dev.readData w d.tailSegment).1.ret = d.tailSegment ↔ c = d.tailSegment := by
        omega
      simp only [Succeeds, Cancels, hlen, hne, ne_eq, not_false_eq_true, true_and, false_and,
        or_false]
    simp only [hcond, readed, Virtual.quiet_of_ok hne, hsize]
    obtain ⟨hfail', hsize'⟩ | ⟨c', hc', hret', hsize'⟩ := hsecond
    · rw [Virtual.quiet_of_fail hfail', hsize', toSizeT_zero, hfail']
      simp only [BUFSIZE] at hfit ⊢
      split_ifs <;> omega
    · have hne' : (dev.readData (dev.readData w d.tailSegment).2 d.head).1.ret ≠ -1 := by omega
      rw [Virtual.quiet_of_ok hne']
      exact iff_of_true rfl fun _ => hne'

theorem fill_quiet (hdev : dev.MayFail) (h : d.Succeeds dev w) :
    d.fill dev.quiet w = d.fill dev w := by
  have hfit := d.tailSegment_le
  simp only [fill, Virtual.quiet_of_ok h.1]
  split
  · rename_i hwrap
    have hlen : (dev.readData w d.tailSegment).1.ret = d.tailSegment := by
      obtain ⟨hfail, _⟩ | ⟨c, hc, hret, hsize⟩ := toSizeT_cases hdev w (n := d.tailSegment) (by omega)
      · exact absurd hfail h.1
      · omega
    rw [Virtual.quiet_of_ok (h.2 ⟨hwrap.1, hlen⟩)]
  · rfl

/-- A fill that counts nothing leaves the ring as it was, whatever it has stored. -/
theorem fill_nothing (hstore : ∀ w n, (dev.readData w n).1.bytes.length ≤ n) (h : d.Valid)
    (hfree : d.size < BUFSIZE) (hzero : d.readed dev w = 0) :
    (d.fill dev w).1.head = d.head ∧ (d.fill dev w).1.tail = d.tail ∧
      (d.fill dev w).1.size = d.size ∧ (d.fill dev w).1.pending = d.pending := by
  have hkept := window_fill hstore h hfree w
  have hcommit := fill_eq_commit dev d w
  rw [hzero] at hcommit
  have hsize : (d.size + 0) % 2 ^ 64 = d.size := by
    simp only [BUFSIZE] at hfree
    omega
  rw [hcommit]
  refine ⟨rfl, ?_, hsize, ?_⟩
  · apply Fin.ext
    exact Nat.mod_eq_of_lt d.tail.isLt
  · change window (d.fill dev w).1.buf d.head ((d.size + 0) % 2 ^ 64) = d.pending
    rw [hsize, hkept]

section Reached

variable (data : List UInt8) {n : Nat} (hmode : d.hasReadMode = true) (hfree : d.size < BUFSIZE)
  (hn : 0 < n)

include hmode hfree hn

theorem read_after_fill (dev : Virtual σ) (w : σ) :
    (d.read dev w (some data) n).1.1 = (d.fill dev w).1.advance (min n (d.fill dev w).1.size) ∧
      (d.read dev w (some data) n).2.2 = min n (d.fill dev w).1.size := by
  rw [read_eq_filled hmode hn, filled_of_free hfree]
  exact ⟨rfl, rfl⟩

theorem read_bounded (hdev : dev.Bounded) (h : d.Valid) (w : σ) :
    (d.read dev w (some data) n).1.1.Valid ∧ (d.read dev w (some data) n).1.1.pending =
      (d.pending ++ dev.arriving d w).drop (d.read dev w (some data) n).2.2 := by
  obtain ⟨hring, hcount⟩ := read_after_fill data hmode hfree hn dev w
  obtain ⟨hvalid, _, hpending⟩ := fill_spec hdev h hfree w
  rw [hring, hcount, ← hpending]
  exact advance_spec hvalid (Nat.min_le_right _ _)

theorem read_tail (dev : Virtual σ) (w : σ) :
    (d.read dev w (some data) n).1.1.tail.val = (d.tail + d.readed dev w) % BUFSIZE := by
  rw [(read_after_fill data hmode hfree hn dev w).1, fill_eq_commit]
  rfl

/-- Fills that leave the same ring behind are followed by the same `Read`. -/
theorem countsNothing_of_fill (hdev : dev.MayFail) (h : d.Valid)
    (hhead : (d.fill dev w).1.head = (d.fill dev.quiet w).1.head)
    (htail : (d.fill dev w).1.tail = (d.fill dev.quiet w).1.tail)
    (hsize : (d.fill dev w).1.size = (d.fill dev.quiet w).1.size)
    (hpending : (d.fill dev w).1.pending = (d.fill dev.quiet w).1.pending) :
    d.CountsNothing dev w data n := by
  obtain ⟨hring, _⟩ := read_after_fill data hmode hfree hn dev w
  obtain ⟨hquiet, _⟩ := read_after_fill data hmode hfree hn dev.quiet w
  obtain ⟨hvalid, hkept⟩ := read_bounded data hmode hfree hn hdev.quiet_bounded h w
  obtain ⟨hfilled, _⟩ := fill_spec hdev.quiet_bounded h hfree w
  have hfilled' : (d.fill dev w).1.Valid := by
    refine ⟨?_, ?_⟩
    · rw [hhead, htail, hsize]
      exact hfilled.tail_eq
    · rw [hsize]
      exact hfilled.size_le
  have hdrop : (d.read dev w (some data) n).1.1.pending =
      (d.read dev.quiet w (some data) n).1.1.pending := by
    rw [hring, hquiet, (advance_spec hfilled' (Nat.min_le_right _ _)).2,
      (advance_spec hfilled (Nat.min_le_right _ _)).2, hpending, hsize]
  have hsame : (d.read dev w (some data) n).1.1.size =
      (d.read dev.quiet w (some data) n).1.1.size := by
    rw [hring, hquiet]
    simp only [advance, hsize]
  constructor
  · rw [hring, hquiet]
    simp only [advance, hhead, hsize]
  · rw [hring, hquiet]
    exact htail
  · exact hsame
  · exact hdrop
  · rw [hdrop, hkept]
  · rw [hsame]
    exact hvalid.size_le

/-- A failing call counts as zero bytes exactly if there is none, or if the second call returns 1
after the first one failed. -/
theorem countsNothing_iff (hdev : dev.MayFail) (h : d.Valid) :
    d.CountsNothing dev w data n ↔ d.Succeeds dev w ∨ d.Cancels dev w := by
  constructor
  · intro hcounts
    rw [← readed_mod_iff hdev]
    have htail := congrArg Fin.val hcounts.tail
    rw [read_tail data hmode hfree hn, read_tail data hmode hfree hn] at htail
    simp only [BUFSIZE] at htail ⊢
    omega
  · intro hcond
    cases hcond with
    | inl hsucceeds =>
      have hsame := fill_quiet hdev hsucceeds
      apply countsNothing_of_fill data hmode hfree hn hdev h <;> rw [hsame]
    | inr hcancels =>
      have hzero : d.readed dev w = 0 := by
        rw [readed_of_fail hcancels.1, if_pos hcancels.2.1, hcancels.2.2]
        rfl
      have hquiet := readed_quiet_of_fail hcancels.1
      obtain ⟨hhead, htail, hsize, hpending⟩ := fill_nothing hdev.stores h hfree hzero
      obtain ⟨hhead', htail', hsize', hpending'⟩ :=
        fill_nothing (fun w n => (hdev.quiet_bounded w n).2) h hfree hquiet
      apply countsNothing_of_fill data hmode hfree hn hdev h
      · rw [hhead, hhead']
      · rw [htail, htail']
      · rw [hsize, hsize']
      · rw [hpending, hpending']

end Reached

/-- Every second call fails, and the others have one byte for a request that can take it. -/
def flaky : Virtual Bool where
  readData failed n :=
    if failed then (⟨(min n 1 : Nat), List.replicate (min n 1) 7⟩, false) else (⟨-1, []⟩, true)
  isSequential := true

theorem flaky_mayFail : flaky.MayFail := by
  intro failed n
  cases failed with
  | false => exact .inl ⟨rfl, rfl⟩
  | true =>
    right
    simp [flaky]

def fiveBytes : IODevice :=
  { mode := .R, isOpen := true, head := Fin.ofNat BUFSIZE 5, tail := Fin.ofNat BUFSIZE 10,
    size := 5, buf := Vector.replicate BUFSIZE 32 }

theorem countsNothing_flaky : fiveBytes.CountsNothing flaky false [0] 1 :=
  (countsNothing_iff [0] rfl (by decide) (by decide) flaky_mayFail ⟨by decide, by decide⟩).mpr
    (.inr ⟨rfl, by decide, rfl⟩)

/-- The first read of a device without unread bytes, whose only call fails. -/
theorem not_countsNothing : flaky.MayFail ∧ (create.setOpenMode .R).Valid ∧
    ¬ (create.setOpenMode .R).CountsNothing flaky false [0] 1 :=
  ⟨flaky_mayFail, ⟨rfl, Nat.zero_le _⟩, fun h => absurd h.size_le (by decide)⟩

end IODevice

end ServerDevLib.Device
