import ServerDevLib.Device.ReadRuns

/-!
# Skipping and seeking

`SkipSome` and `Seek` move the head of the ring and leave the size as it is,
where `Read` moves both. The equation for the tail survives such a move only
if it goes around the whole ring or nowhere.
-/

namespace ServerDevLib.Device

open Transition

universe u

variable {σ : Type u} {dev : Virtual σ}

namespace IODevice

/-- The device afterwards and the returned count. -/
def skipSome (d : IODevice) (size : Nat) : IODevice × Nat :=
  if !d.hasReadMode then (d, 0)
  else
    let validSize := if size < d.size then size else d.size
    ({ d with head := Fin.ofNat BUFSIZE (d.head + validSize) }, validSize)

/-- The device afterwards and the returned flag; the sum is one of `size_t`. -/
def seek (isSequential : Bool) (d : IODevice) (pos : Nat) : IODevice × Bool :=
  if isSequential then (d, false)
  else if !d.hasReadMode then (d, false)
  else if (d.head + pos) % 2 ^ 64 % BUFSIZE ≥ d.tail then (d, false)
  else ({ d with head := Fin.ofNat BUFSIZE ((d.head + pos) % 2 ^ 64) }, true)

variable {d : IODevice}

/-- `Read` keeps the ring as it has to be, full rings and null pointers included. -/
theorem read_valid (hdev : dev.Bounded) (h : d.Valid) (w : σ) (data : Option (List UInt8))
    (size : Nat) : (d.read dev w data size).1.1.Valid := by
  have hle (n : Nat) : (if size < n then size else n) ≤ n := by split <;> omega
  simp only [read]
  split
  · exact h
  · split
    · rename_i hfree
      exact (advance_spec (fill_spec hdev h hfree w).1 (hle _)).1
    · exact (advance_spec h (hle _)).1

theorem mode_read (w : σ) (data : Option (List UInt8)) (size : Nat) :
    (d.read dev w data size).1.1.mode = d.mode := by
  simp only [read]
  split
  · rfl
  · split
    · simp only [advance, fill]
      split <;> rfl
    · rfl

theorem mode_skipSome (size : Nat) : (d.skipSome size).1.mode = d.mode := by
  rw [skipSome]
  split <;> rfl

theorem mode_seek (isSequential : Bool) (pos : Nat) :
    (d.seek isSequential pos).1.mode = d.mode := by
  simp only [seek]
  split
  · rfl
  · split
    · rfl
    · split <;> rfl

theorem read_zero (w : σ) (data : Option (List UInt8)) : d.read dev w data 0 = ((d, w), data, 0) := by
  simp [read]

theorem skipSome_nothing {size : Nat} (h : size = 0 ∨ d.size = 0) : d.skipSome size = (d, 0) := by
  have hzero : (if size < d.size then size else d.size) = 0 := by split <;> omega
  rw [skipSome]
  split
  · rfl
  · rw [hzero]
    simp

theorem seek_still {isSequential : Bool} {pos : Nat}
    (h : pos = 0 ∨ d.tail.val ≤ (d.head + pos) % 2 ^ 64 % BUFSIZE) :
    (d.seek isSequential pos).1 = d ∧ ((d.seek isSequential pos).2 = true → pos = 0) := by
  simp only [seek]
  split
  · exact ⟨rfl, nofun⟩
  · split
    · exact ⟨rfl, nofun⟩
    · split
      · exact ⟨rfl, nofun⟩
      · rename_i hlt
        have hpos : pos = 0 := h.resolve_right hlt
        have hhead : d.head.val < 2 ^ 64 := Nat.lt_trans d.head.isLt (by decide)
        refine ⟨?_, fun _ => hpos⟩
        rw [hpos, Nat.add_zero, Nat.mod_eq_of_lt hhead]
        simp

/-- A head that moves by itself keeps the equation of the tail only if it comes back. -/
theorem valid_moved_iff (h : d.Valid) (k : Nat) :
    ({ d with head := Fin.ofNat BUFSIZE (d.head + k) } : IODevice).Valid ↔ k % BUFSIZE = 0 := by
  have htail := h.tail_eq
  have hhead := d.head.isLt
  constructor
  · intro hmoved
    have hsum : d.tail.val = ((d.head + k) % BUFSIZE + d.size) % BUFSIZE := hmoved.tail_eq
    simp only [BUFSIZE] at *
    omega
  · intro hzero
    refine ⟨?_, h.size_le⟩
    change d.tail.val = ((d.head + k) % BUFSIZE + d.size) % BUFSIZE
    simp only [BUFSIZE] at *
    omega

theorem valid_skipSome_iff (h : d.Valid) (hmode : d.hasReadMode = true) (size : Nat) :
    (d.skipSome size).1.Valid ↔ min size d.size % BUFSIZE = 0 := by
  have hmin : (if size < d.size then size else d.size) = min size d.size := by
    split <;> omega
  simp only [skipSome, hmode, Bool.not_true, Bool.false_eq_true, if_false, hmin]
  exact valid_moved_iff h _

/-- The ring divides the range of `size_t`. -/
theorem ofNat_sizeT (x : Nat) : Fin.ofNat BUFSIZE (x % 2 ^ 64) = Fin.ofNat BUFSIZE x := by
  apply Fin.ext
  change x % 2 ^ 64 % BUFSIZE = x % BUFSIZE
  simp only [BUFSIZE]
  omega

theorem valid_seek_iff (h : d.Valid) (pos : Nat) :
    (d.seek false pos).1.Valid ↔ ((d.seek false pos).2 = true → pos % BUFSIZE = 0) := by
  rw [seek, if_neg Bool.false_ne_true]
  split
  · exact iff_of_true h nofun
  · split
    · exact iff_of_true h nofun
    · rw [ofNat_sizeT, valid_moved_iff h]
      exact ⟨fun hzero _ => hzero, fun hzero => hzero rfl⟩

end IODevice

inductive PositionCall
  | read (data : Option (List UInt8)) (size : Nat)
  | peek (data : Option (List UInt8)) (size : Nat)
  | skip (size : Nat)
  | seek (pos : Nat)

structure Positioned (σ : Type u) where
  dev : IODevice
  world : σ

namespace Positioned

def machine (dev : Virtual σ) : Machine (Positioned σ) PositionCall where
  init s := ∃ mode, s.dev = IODevice.create.setOpenMode mode ∧ s.dev.hasReadMode = true
  step s
    | .read data size =>
      let out := s.dev.read dev s.world data size
      some ⟨out.1.1, out.1.2⟩
    | .peek _ _ => some s
    | .skip size => some { s with dev := (s.dev.skipSome size).1 }
    | .seek pos => some { s with dev := (s.dev.seek dev.isSequential pos).1 }

/-- `Skip` has nothing to skip, and `Seek` stays where it is or fails. -/
def Still (s : Positioned σ) : PositionCall → Prop
  | .skip size => size = 0 ∨ s.dev.size = 0
  | .seek pos => pos = 0 ∨ s.dev.tail.val ≤ (s.dev.head + pos) % 2 ^ 64 % BUFSIZE
  | .read _ _ | .peek _ _ => True

instance (s : Positioned σ) (call : PositionCall) : Decidable (s.Still call) :=
  match call with
  | .skip size => inferInstanceAs (Decidable (size = 0 ∨ s.dev.size = 0))
  | .seek pos =>
    inferInstanceAs (Decidable (pos = 0 ∨ s.dev.tail.val ≤ (s.dev.head + pos) % 2 ^ 64 % BUFSIZE))
  | .read _ _ | .peek _ _ => isTrue trivial

/-- A `Read` on `d'` returns what it returns behind a `Read` of `k` bytes. -/
def ReadsBehind (dev : Virtual σ) (s : Positioned σ) (d' : IODevice) (k : Nat) : Prop :=
  ∀ skipped data size, (d'.read dev s.world data size).2 =
    ((s.dev.read dev s.world (some skipped) k).1.1.read dev
      (s.dev.read dev s.world (some skipped) k).1.2 data size).2

/-- A successful call that moves the position stands for a `Read` of the skipped bytes. -/
def Transparent (dev : Virtual σ) (s : Positioned σ) : PositionCall → Prop
  | .skip size => s.ReadsBehind dev (s.dev.skipSome size).1 (s.dev.skipSome size).2
  | .seek pos => (s.dev.seek dev.isSequential pos).2 = true →
    s.ReadsBehind dev (s.dev.seek dev.isSequential pos).1 pos
  | .read _ _ | .peek _ _ => True

/-- The calls that move the head around the whole ring or nowhere. -/
def Around (dev : Virtual σ) (s : Positioned σ) : PositionCall → Prop
  | .skip size => min size s.dev.size % BUFSIZE = 0
  | .seek pos => (s.dev.seek dev.isSequential pos).2 = true → pos % BUFSIZE = 0
  | .read _ _ | .peek _ _ => True

variable {s s' : Positioned σ} {call : PositionCall}

theorem mode_step (hstep : (machine dev).step s call = some s') : s'.dev.mode = s.dev.mode := by
  cases call with
  | read data size =>
    cases hstep
    exact IODevice.mode_read s.world data size
  | peek data size =>
    cases hstep
    rfl
  | skip size =>
    cases hstep
    exact IODevice.mode_skipSome size
  | seek pos =>
    cases hstep
    exact IODevice.mode_seek _ pos

theorem readable_step (h : s.dev.hasReadMode = true)
    (hstep : (machine dev).step s call = some s') : s'.dev.hasReadMode = true := by
  rwa [IODevice.hasReadMode, mode_step hstep]

theorem valid_step_iff (hdev : dev.Bounded) (hseq : dev.isSequential = false) (h : s.dev.Valid)
    (hmode : s.dev.hasReadMode = true) (hstep : (machine dev).step s call = some s') :
    s'.dev.Valid ↔ s.Around dev call := by
  cases call with
  | read data size =>
    cases hstep
    exact iff_of_true (IODevice.read_valid hdev h s.world data size) trivial
  | peek data size =>
    cases hstep
    exact iff_of_true h trivial
  | skip size =>
    cases hstep
    exact IODevice.valid_skipSome_iff h hmode size
  | seek pos =>
    cases hstep
    rw [Around, hseq]
    exact IODevice.valid_seek_iff h pos

theorem around_of_still (h : s.Still call) : s.Around dev call := by
  cases call with
  | read | peek => trivial
  | skip size =>
    have hzero : min size s.dev.size = 0 := by
      cases h with
      | inl hsize => rw [hsize, Nat.zero_min]
      | inr hempty => rw [hempty, Nat.min_zero]
    change min size s.dev.size % BUFSIZE = 0
    rw [hzero, Nat.zero_mod]
  | seek pos =>
    intro hsuccess
    rw [(IODevice.seek_still h).2 hsuccess, Nat.zero_mod]

theorem transparent_of_still (h : s.Still call) : s.Transparent dev call := by
  cases call with
  | read | peek => trivial
  | skip size =>
    intro skipped data size'
    rw [IODevice.skipSome_nothing h, IODevice.read_zero]
  | seek pos =>
    obtain ⟨hsame, hzero⟩ := @IODevice.seek_still s.dev dev.isSequential pos h
    intro hsuccess skipped data size
    rw [hsame, hzero hsuccess, IODevice.read_zero]

theorem start_valid (hinit : (machine dev).init s) :
    s.dev.hasReadMode = true ∧ s.dev.Valid := by
  obtain ⟨mode, hdev, hmode⟩ := hinit
  refine ⟨hmode, ?_⟩
  rw [hdev]
  exact ⟨rfl, Nat.zero_le _⟩

/-- Over a run the ring stays as it has to be exactly if no call leaves the head elsewhere. -/
theorem valid_iff_around (hdev : dev.Bounded) (hseq : dev.isSequential = false)
    (hinit : (machine dev).init s) (calls : List PositionCall) :
    (machine dev).AllStates (fun s => s.dev.Valid) s calls ↔
      (machine dev).AllSteps (Around dev) s calls := by
  obtain ⟨hmode, hvalid⟩ := start_valid hinit
  refine Machine.allStates_iff_allSteps (fun s call s' h _ _ hstep => readable_step h hstep)
    (fun s call s' h hv hstep => valid_step_iff hdev hseq hv h hstep) hmode hvalid calls

/-- Where nothing is skipped and no `Seek` leaves its place, the ring is as it has to be in
every state, and a call that moves the position stands for a `Read`. -/
theorem ring_kept_of_still (hdev : dev.Bounded) (hseq : dev.isSequential = false)
    (h : (machine dev).ReachableUnder Still s) :
    s.dev.Valid ∧ ∀ call, s.Still call → s.Transparent dev call := by
  have hstep : (machine dev).Preserves Still fun s => s.dev.hasReadMode = true ∧ s.dev.Valid := by
    intro s call s' hs hstill hstep
    exact ⟨readable_step hs.1 hstep,
      (valid_step_iff hdev hseq hs.2 hs.1 hstep).mpr (around_of_still hstill)⟩
  have hboth := h.invariant (fun s hinit => start_valid hinit) hstep
  exact ⟨hboth.2, fun call => transparent_of_still⟩

def start : Positioned Unit := ⟨IODevice.create.setOpenMode .R, ()⟩

theorem ring_kept_of_still_trickle : ∃ s, (machine Session.trickle).runUnder Still start
    [.read (some [0]) 1, .seek 0, .skip 0, .read (some [0]) 1] = some s ∧ s.dev.size = 4 ∧
    s.dev.Valid ∧ ∀ call, s.Still call → s.Transparent Session.trickle call := by
  obtain ⟨s, hrun, hsize⟩ : ∃ s, (machine Session.trickle).runUnder Still start
    [.read (some [0]) 1, .seek 0, .skip 0, .read (some [0]) 1] = some s ∧ s.dev.size = 4 :=
    ⟨_, rfl, rfl⟩
  exact ⟨s, hrun, hsize, ring_kept_of_still Session.trickle_bounded rfl
    (Machine.reachableUnder_of_runUnder ⟨.R, rfl, rfl⟩ hrun)⟩

/-- Two bytes are buffered; after the first of them was skipped the size is still two. -/
theorem skip_breaks_ring : Session.trickle.Bounded ∧ Session.trickle.isSequential = false ∧
    ∃ s, (machine Session.trickle).init start ∧
      (machine Session.trickle).run start [.read (some [0]) 1, .skip 1] = some s ∧
      s.dev.tail.val ≠ (s.dev.head + s.dev.size) % BUFSIZE :=
  ⟨Session.trickle_bounded, rfl, _, ⟨.R, rfl, rfl⟩, rfl, by decide⟩

end Positioned

end ServerDevLib.Device
