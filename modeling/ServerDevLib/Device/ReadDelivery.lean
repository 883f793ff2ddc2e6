import ServerDevLib.Device.ReadRuns

/-!
# What `Read` hands over

The copying of `Read` is left to `Peek`, which refuses sequential devices and
copies nothing from a full ring; the count and the head do not depend on
that. The overload for vectors sizes its result for the request and keeps
that size.
-/

namespace ServerDevLib.Device

open CircularBuffer Memory

universe u

variable {σ : Type u} {dev : Virtual σ}

def Virtual.asSequential (dev : Virtual σ) (b : Bool) : Virtual σ := { dev with isSequential := b }

theorem exists_other {bytes : List UInt8} (hne : bytes ≠ []) {n : Nat} (hn : 0 < n) :
    ∃ data : List UInt8, data.length = n ∧ ∀ k, 0 < k → data.take k ≠ bytes.take k := by
  cases bytes with
  | nil => exact absurd rfl hne
  | cons b rest =>
    refine ⟨List.replicate n (b + 1), List.length_replicate, fun k hk heq => ?_⟩
    obtain ⟨m, rfl⟩ := Nat.exists_eq_succ_of_ne_zero (Nat.ne_of_gt hn)
    obtain ⟨j, rfl⟩ := Nat.exists_eq_succ_of_ne_zero (Nat.ne_of_gt hk)
    have hhead := congrArg List.head? heq
    simp [List.replicate_succ] at hhead

namespace IODevice

variable {d : IODevice}

/-- The unread bytes when the copying starts. -/
def available (dev : Virtual σ) (d : IODevice) (w : σ) : List UInt8 :=
  if BUFSIZE > d.size then d.pending ++ dev.arriving d w else d.pending

/-- The overload for vectors; `reserve` with the length that the vector has does nothing. -/
def readVector (dev : Virtual σ) (d : IODevice) (w : σ) (size : Nat) :
    (IODevice × σ) × List UInt8 :=
  if !d.hasReadMode || size == 0 then ((d, w), [])
  else
    let out := d.read dev w (some (List.replicate size 32)) size
    (out.1, out.2.1.getD [])

def readAll (dev : Virtual σ) (d : IODevice) (w : σ) : (IODevice × σ) × List UInt8 :=
  d.readVector dev w d.size

/-- Of a count of `k` the destination has the `k` oldest unread bytes. -/
def Delivers (dev : Virtual σ) (d : IODevice) (w : σ) (n : Nat) : Prop :=
  ∀ data : List UInt8, n ≤ data.length →
    (d.read dev w (some data) n).2.1.map (List.take (d.read dev w (some data) n).2.2) =
      some ((d.available dev w).take (d.read dev w (some data) n).2.2)

/-- The ring, the count and the bytes are the same whether the device is sequential or not. -/
def SameDelivery (dev : Virtual σ) (d : IODevice) (w : σ) (n : Nat) : Prop :=
  ∀ data : List UInt8, n ≤ data.length →
    let out := d.read (dev.asSequential true) w (some data) n
    let out' := d.read (dev.asSequential false) w (some data) n
    out.1 = out'.1 ∧ out.2.2 = out'.2.2 ∧
      out.2.1.map (List.take out.2.2) = out'.2.1.map (List.take out'.2.2)

/-- The vector has the bytes that the overload for pointers delivers, and no others. -/
def VectorAgrees (dev : Virtual σ) (d : IODevice) (w : σ) (n : Nat) : Prop :=
  ∀ data : List UInt8, n ≤ data.length →
    let out := d.read dev w (some data) n
    (d.readVector dev w n).1 = out.1 ∧ (d.readVector dev w n).2.length = out.2.2 ∧
      out.2.1.map (List.take out.2.2) = some (d.readVector dev w n).2

theorem filled_spec (hdev : dev.Bounded) (h : d.Valid) (w : σ) :
    (d.filled dev w).1.Valid ∧ (d.filled dev w).1.mode = d.mode ∧
      (d.filled dev w).1.pending = d.available dev w := by
  simp only [filled, available]
  split
  · rename_i hfree
    exact fill_spec hdev h hfree w
  · exact ⟨h, rfl, rfl⟩

theorem length_available (w : σ) : d.size ≤ (d.available dev w).length := by
  simp only [available]
  split <;> simp

theorem length_available_le (hdev : dev.Bounded) (h : d.Valid) (w : σ) :
    (d.available dev w).length ≤ BUFSIZE := by
  simp only [available]
  split
  · rename_i hfree
    exact length_filled_le hdev h hfree w
  · rw [length_pending]
    exact h.size_le

theorem peek_sequential (d : IODevice) (data : List UInt8) (size : Nat) :
    d.peek true (some data) size = (some data, 0) := by
  simp [peek]

theorem read_snd (hdev : dev.Bounded) (h : d.Valid) (hmode : d.hasReadMode = true) {n : Nat}
    (hn : 0 < n) (w : σ) (data : List UInt8) {all : List UInt8} (hall : d.available dev w = all) :
    (d.read dev w (some data) n).2 =
      (some (if dev.isSequential = true ∨ all.length = BUFSIZE then data
        else overwrite data 0 (all.take (min n all.length))), min n all.length) := by
  obtain ⟨hvalid, hfillmode, hpending⟩ := filled_spec hdev h w
  rw [hall] at hpending
  have hsize : (d.filled dev w).1.size = all.length := by rw [← hpending, length_pending]
  have hreadmode : (d.filled dev w).1.hasReadMode = true := by rwa [hasReadMode, hfillmode]
  rw [read_eq_filled hmode hn, hsize]
  cases hseq : dev.isSequential with
  | true => rw [peek_sequential, if_pos (.inl rfl)]
  | false =>
    by_cases hfull : all.length = BUFSIZE
    · rw [peek_full hvalid hreadmode (hsize.trans hfull), if_pos (.inr hfull)]
    · have hle := hvalid.size_le
      rw [peek_spec hvalid hreadmode (by omega), hpending, if_neg (by simp [hfull])]

section Reached

variable (hdev : dev.Bounded) (h : d.Valid) (hmode : d.hasReadMode = true) {n : Nat} (hn : 0 < n)
  (w : σ) {all : List UInt8} (hall : d.available dev w = all)

include hdev h hmode hn hall

theorem delivers_iff_of_reached :
    d.Delivers dev w n ↔ all = [] ∨ dev.isSequential = false ∧ all.length < BUFSIZE := by
  have hle : all.length ≤ BUFSIZE := hall ▸ length_available_le hdev h w
  have hread (data : List UInt8) := read_snd hdev h hmode hn w data hall
  simp only [Delivers, hread, hall, Option.map_some, Option.some.injEq]
  constructor
  · intro hdelivers
    by_cases hempty : all = []
    · exact .inl hempty
    · right
      obtain ⟨data, hlength, hother⟩ := exists_other hempty hn
      have hpos := List.length_pos_iff.mpr hempty
      have hcopy := hdelivers data (Nat.le_of_eq hlength.symm)
      split at hcopy
      · exact absurd hcopy (hother _ (by omega))
      · rename_i hcond
        rw [not_or, Bool.not_eq_true] at hcond
        exact ⟨hcond.1, by omega⟩
  · intro hcond data hdata
    cases hcond with
    | inl hempty => simp [hempty]
    | inr hplain =>
      have hnot : ¬ (dev.isSequential = true ∨ all.length = BUFSIZE) := by
        rw [hplain.1]
        simp [Nat.ne_of_lt hplain.2]
      rw [if_neg hnot, take_overwrite_start data all (Nat.min_le_right _ _)]

theorem sameDelivery_iff_of_reached :
    d.SameDelivery dev w n ↔ all = [] ∨ all.length = BUFSIZE := by
  have hread (b : Bool) (data : List UInt8) :=
    @read_snd _ (dev.asSequential b) d hdev h hmode n hn w data all hall
  have hring (data : List UInt8) : (d.read (dev.asSequential true) w (some data) n).1 =
      (d.read (dev.asSequential false) w (some data) n).1 := by
    rw [read_eq_filled hmode hn, read_eq_filled hmode hn]
    rfl
  simp only [SameDelivery, hring, hread, Option.map_some, Option.some.injEq, true_and]
  simp only [Virtual.asSequential, true_or, if_true, Bool.false_eq_true, false_or]
  constructor
  · intro hsame
    by_cases hempty : all = []
    · exact .inl hempty
    · right
      by_contra hfull
      obtain ⟨data, hlength, hother⟩ := exists_other hempty hn
      have hpos := List.length_pos_iff.mpr hempty
      have hcopy := hsame data (Nat.le_of_eq hlength.symm)
      rw [if_neg hfull, take_overwrite_start data all (Nat.min_le_right _ _)] at hcopy
      exact hother _ (by omega) hcopy
  · intro hcond data hdata
    cases hcond with
    | inl hempty => simp [hempty]
    | inr hfull => rw [if_pos hfull]

theorem vectorAgrees_iff_of_reached : d.VectorAgrees dev w n ↔
    n ≤ all.length ∧ dev.isSequential = false ∧ all.length < BUFSIZE := by
  have hle : all.length ≤ BUFSIZE := hall ▸ length_available_le hdev h w
  have hread (data : List UInt8) := read_snd hdev h hmode hn w data hall
  have hcond : (!d.hasReadMode || n == 0) = false := by simp [hmode, Nat.ne_of_gt hn]
  have hring (data data' : List UInt8) :
      (d.read dev w (some data) n).1 = (d.read dev w (some data') n).1 := by
    rw [read_eq_filled hmode hn, read_eq_filled hmode hn]
  simp only [VectorAgrees, readVector, hcond, Bool.false_eq_true, if_false, hread,
    Option.getD_some, Option.map_some, Option.some.injEq, hring _ [], true_and]
  constructor
  · intro hagrees
    have hlength (dest : List UInt8) (hdest : dest.length = n) : (if dev.isSequential = true ∨
        all.length = BUFSIZE then dest else overwrite dest 0 (all.take (min n all.length))).length =
        n := by
      split
      · exact hdest
      · rw [length_overwrite (by rw [List.length_take]; omega), hdest]
    obtain ⟨hcount, _⟩ := hagrees (List.replicate n 0) (by simp)
    rw [hlength _ List.length_replicate] at hcount
    have hblank : List.replicate n (32 : UInt8) ≠ [] := by simp [Nat.ne_of_gt hn]
    obtain ⟨data, hdata, hother⟩ := exists_other hblank hn
    have hcopy := (hagrees data (Nat.le_of_eq hdata.symm)).2
    split at hcopy
    · rw [← hcount] at hcopy
      exact absurd (hcopy.trans (List.take_of_length_le (by simp)).symm) (hother n hn)
    · rename_i hplain
      rw [not_or, Bool.not_eq_true] at hplain
      exact ⟨by omega, hplain.1, by omega⟩
  · rintro ⟨hn', hseq, hfull⟩ data hdata
    have hplain : ¬ (dev.isSequential = true ∨ all.length = BUFSIZE) := by
      rw [hseq]
      simp [Nat.ne_of_lt hfull]
    have hvector : overwrite (List.replicate n 32) 0 (all.take n) = all.take n := by
      rw [overwrite_zero, List.drop_eq_nil_of_le (by simp [hn']), List.append_nil]
    rw [Nat.min_eq_left hn', if_neg hplain, if_neg hplain, hvector]
    exact ⟨by simp [hn'], take_overwrite_start data all hn'⟩

end Reached

theorem read_idle (dev : Virtual σ) {n : Nat} (hidle : ¬ (d.hasReadMode = true ∧ 0 < n)) (w : σ)
    (data : List UInt8) : d.read dev w (some data) n = ((d, w), some data, 0) ∧
      d.readVector dev w n = ((d, w), []) := by
  have hcond : (!d.hasReadMode || n == 0) = true := by
    cases hmode : d.hasReadMode with
    | false => rfl
    | true =>
      have hzero : n = 0 := Nat.eq_zero_of_not_pos fun hn => hidle ⟨hmode, hn⟩
      rw [hzero]
      rfl
  constructor
  · simp only [read, Option.isNone_some, Bool.false_or, hcond, if_true]
  · simp only [readVector, hcond, if_true]

/-- What `Read` reports is in the destination exactly if nothing is reported, or the device is not
sequential and the ring not full; it does not depend on that answer exactly if nothing is
reported or the ring is full. -/
theorem delivery_iff (hdev : dev.Bounded) (h : d.Valid) (w : σ) (n : Nat) :
    (d.Delivers dev w n ↔ (d.hasReadMode = true ∧ 0 < n → d.available dev w = [] ∨
      dev.isSequential = false ∧ (d.available dev w).length < BUFSIZE)) ∧
    (d.SameDelivery dev w n ↔ (d.hasReadMode = true ∧ 0 < n → d.available dev w = [] ∨
      (d.available dev w).length = BUFSIZE)) := by
  by_cases hreach : d.hasReadMode = true ∧ 0 < n
  · rw [delivers_iff_of_reached hdev h hreach.1 hreach.2 w rfl,
      sameDelivery_iff_of_reached hdev h hreach.1 hreach.2 w rfl]
    exact ⟨⟨fun hcond _ => hcond, fun hcond => hcond hreach⟩,
      ⟨fun hcond _ => hcond, fun hcond => hcond hreach⟩⟩
  · have hread (b : Bool) (data : List UInt8) := (read_idle (dev.asSequential b) hreach w data).1
    constructor
    · refine iff_of_true (fun data _ => ?_) fun hcond => absurd hcond hreach
      rw [(read_idle dev hreach w data).1]
      rfl
    · refine iff_of_true (fun data _ => ?_) fun hcond => absurd hcond hreach
      rw [hread, hread]
      exact ⟨rfl, rfl, rfl⟩

/-- The overloads agree exactly if the request is idle, or the pointer overload delivers and the
unread bytes make up the whole request. -/
theorem vectorAgrees_iff (hdev : dev.Bounded) (h : d.Valid) (w : σ) (n : Nat) :
    d.VectorAgrees dev w n ↔ (d.hasReadMode = true ∧ 0 < n → n ≤ (d.available dev w).length ∧
      dev.isSequential = false ∧ (d.available dev w).length < BUFSIZE) := by
  by_cases hreach : d.hasReadMode = true ∧ 0 < n
  · rw [vectorAgrees_iff_of_reached hdev h hreach.1 hreach.2 w rfl]
    exact ⟨fun hcond _ => hcond, fun hcond => hcond hreach⟩
  · refine iff_of_true (fun data _ => ?_) fun hcond => absurd hcond hreach
    obtain ⟨hread, hvector⟩ := read_idle dev hreach w data
    simp [hread, hvector]

theorem readAll_agrees_iff (hdev : dev.Bounded) (h : d.Valid) (hmode : d.hasReadMode = true)
    (hpos : 0 < d.size) (w : σ) : d.VectorAgrees dev w d.size ↔
      dev.isSequential = false ∧ (d.available dev w).length < BUFSIZE := by
  rw [vectorAgrees_iff_of_reached hdev h hmode hpos w rfl]
  exact and_iff_right (length_available w)

def fresh : IODevice := create.setOpenMode .R

theorem fresh_valid : fresh.Valid := ⟨rfl, Nat.zero_le _⟩

theorem delivery_trickle : fresh.Delivers Session.trickle () 2 :=
  (delivery_iff Session.trickle_bounded fresh_valid () 2).1.mpr fun _ => .inr (by decide)

/-- Two bytes are reported for a sequential device that has three, and none is copied. -/
theorem not_delivers_sequential : (Session.trickle.asSequential true).Bounded ∧ fresh.Valid ∧
    ¬ fresh.Delivers (Session.trickle.asSequential true) () 2 ∧
    ¬ fresh.SameDelivery Session.trickle () 2 := by
  have hdev : (Session.trickle.asSequential true).Bounded := Session.trickle_bounded
  have hall : fresh.available Session.trickle () = [7, 7, 7] := rfl
  refine ⟨hdev, fresh_valid, ?_, ?_⟩
  · rw [delivers_iff_of_reached hdev fresh_valid rfl (by decide) () hall]
    decide
  · rw [sameDelivery_iff_of_reached Session.trickle_bounded fresh_valid rfl (by decide) () hall]
    decide

theorem vectorAgrees_trickle : fresh.VectorAgrees Session.trickle () 2 :=
  (vectorAgrees_iff Session.trickle_bounded fresh_valid () 2).mpr fun _ => by decide

theorem not_vectorAgrees : Session.trickle.Bounded ∧ fresh.Valid ∧
    ¬ fresh.VectorAgrees Session.trickle () 5 := by
  have hall : fresh.available Session.trickle () = [7, 7, 7] := rfl
  refine ⟨Session.trickle_bounded, fresh_valid, ?_⟩
  rw [vectorAgrees_iff_of_reached Session.trickle_bounded fresh_valid rfl (by decide) () hall]
  decide

end IODevice

end ServerDevLib.Device
