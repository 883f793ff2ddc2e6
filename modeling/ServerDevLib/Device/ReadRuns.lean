import ServerDevLib.Device.Ring
import ServerDevLib.Foundation.ConservedStream

/-!
# Runs of `Read` and `Peek`

A session keeps the bytes that the reads have stored in their destinations,
and the environment keeps a log of the bytes that `ReadData` has delivered.
Between the calls the session is a conduit from the log to the destinations,
as long as no fill closes the ring completely.
-/

namespace ServerDevLib.Device

open CircularBuffer Memory Transition ConservedStream

universe u

variable {σ : Type u}

/-- `ReadData` returns between zero and the requested size and stores that many bytes. -/
def Virtual.Bounded (dev : Virtual σ) : Prop :=
  ∀ w n, (dev.readData w n).1.ret = (dev.readData w n).1.bytes.length ∧
    (dev.readData w n).1.bytes.length ≤ n

def Virtual.logged (dev : Virtual σ) : Virtual (σ × List UInt8) where
  readData w n := ((dev.readData w.1 n).1, ((dev.readData w.1 n).2, w.2 ++ (dev.readData w.1 n).1.bytes))
  isSequential := dev.isSequential

theorem Virtual.Bounded.logged {dev : Virtual σ} (h : dev.Bounded) : dev.logged.Bounded :=
  fun w n => h w.1 n

/-- The bytes that `ReadData` has for the next fill of the device. -/
def Virtual.arriving (dev : Virtual σ) (d : IODevice) (w : σ) : List UInt8 :=
  let r := dev.readData w d.tailSegment
  if d.tail.val > d.head.val ∧ r.1.bytes.length ≥ d.tailSegment then
    r.1.bytes ++ (dev.readData r.2 d.head).1.bytes
  else r.1.bytes

namespace IODevice

variable {dev : Virtual σ} {d : IODevice}

theorem toSizeT_natCast {n : Nat} (h : n ≤ BUFSIZE) : toSizeT n = n := by
  simp only [BUFSIZE] at h
  simp only [toSizeT]
  omega

theorem tailSegment_le (d : IODevice) : d.tail + d.tailSegment ≤ BUFSIZE := by
  have htail := d.tail.isLt
  have hhead := d.head.isLt
  simp only [tailSegment]
  split_ifs <;> omega

theorem Valid.size_add_tailSegment_le (h : d.Valid) (hfree : d.size < BUFSIZE) :
    d.size + d.tailSegment ≤ BUFSIZE := by
  have hhead := d.head.isLt
  simp only [tailSegment]
  rcases h.tail_cases with ⟨hlinear, htail⟩ | ⟨hwrapped, htail⟩ <;> split_ifs <;> omega

theorem commit_commit (d : IODevice) (a b : Nat) :
    (d.commit a).commit b = d.commit ((a + b) % 2 ^ 64) := by
  have htail : Fin.ofNat BUFSIZE ((d.tail + a) % BUFSIZE + b) =
      Fin.ofNat BUFSIZE (d.tail + (a + b) % 2 ^ 64) := by
    apply Fin.ext
    change ((d.tail + a) % BUFSIZE + b) % BUFSIZE = (d.tail + (a + b) % 2 ^ 64) % BUFSIZE
    simp only [BUFSIZE]
    omega
  have hsize : ((d.size + a) % 2 ^ 64 + b) % 2 ^ 64 = (d.size + (a + b) % 2 ^ 64) % 2 ^ 64 := by
    omega
  change IODevice.mk d.mode d.isOpen d.head (Fin.ofNat BUFSIZE ((d.tail + a) % BUFSIZE + b))
    (((d.size + a) % 2 ^ 64 + b) % 2 ^ 64) d.buf = _
  rw [htail, hsize]
  rfl

/-- A second `receive` behind a first one that ended at the end of the ring. -/
theorem receive_receive {a b : List UInt8} (hend : d.tail + a.length = BUFSIZE) :
    (d.receive a).receive b =
      { d with buf := store (store d.buf d.tail a) 0 b }.commit ((a.length + b.length) % 2 ^ 64) := by
  rw [← commit_commit]
  have hzero : (d.receive a).tail.val = 0 := by
    change (d.tail.val + a.length) % BUFSIZE = 0
    rw [hend, Nat.mod_self]
  simp only [receive] at hzero ⊢
  rw [hzero]
  rfl

theorem toSizeT_readData (hdev : dev.Bounded) (w : σ) {n : Nat} (hn : n ≤ BUFSIZE) :
    toSizeT (dev.readData w n).1.ret = (dev.readData w n).1.bytes.length := by
  obtain ⟨hret, hle⟩ := hdev w n
  rw [hret, toSizeT_natCast (hle.trans hn)]

theorem fill_spec (hdev : dev.Bounded) (h : d.Valid) (hfree : d.size < BUFSIZE) (w : σ) :
    (d.fill dev w).1.Valid ∧ (d.fill dev w).1.mode = d.mode ∧
      (d.fill dev w).1.pending = d.pending ++ dev.arriving d w := by
  have hroom := h.size_add_tailSegment_le hfree
  have hfit := d.tailSegment_le
  have hle := (hdev w d.tailSegment).2
  have hconv := toSizeT_readData hdev w (n := d.tailSegment) (by omega)
  simp only [fill, Virtual.arriving, hconv]
  generalize dev.readData w d.tailSegment = r at hle
  obtain ⟨hvalid, hpending, hsize⟩ := receive_spec h r.1.bytes (by omega) (by omega)
  split_ifs with hwrap
  · have hle' := (hdev r.2 d.head).2
    rw [toSizeT_readData hdev r.2 d.head.isLt.le]
    generalize dev.readData r.2 d.head = r' at hle'
    have hend : d.tail + r.1.bytes.length = BUFSIZE := by
      have hseg : d.tailSegment = BUFSIZE - d.tail := if_pos (by omega)
      omega
    have hzero : (d.receive r.1.bytes).tail.val = 0 := by
      change (d.tail.val + r.1.bytes.length) % BUFSIZE = 0
      rw [hend, Nat.mod_self]
    have htail : d.tail.val = d.head + d.size := by
      rcases h.tail_cases with ⟨_, htail⟩ | ⟨_, htail⟩ <;> omega
    obtain ⟨hvalid', hpending', _⟩ := receive_spec hvalid r'.1.bytes
      (by rw [hsize]; omega) (by rw [hzero]; omega)
    rw [← receive_receive hend]
    refine ⟨hvalid', rfl, ?_⟩
    rw [hpending', hpending, List.append_assoc]
  · exact ⟨hvalid, rfl, hpending⟩

/-- What is unread after a fill fits into the ring. -/
theorem length_filled_le (hdev : dev.Bounded) (h : d.Valid) (hfree : d.size < BUFSIZE) (w : σ) :
    (d.pending ++ dev.arriving d w).length ≤ BUFSIZE := by
  obtain ⟨hvalid, _, hpending⟩ := fill_spec hdev h hfree w
  rw [← hpending, length_pending]
  exact hvalid.size_le

theorem fill_logged (hdev : dev.Bounded) (d : IODevice) (w : σ × List UInt8) :
    (d.fill dev.logged w).2.2 = w.2 ++ dev.logged.arriving d w := by
  have hfit := d.tailSegment_le
  simp only [fill, Virtual.arriving, toSizeT_readData hdev.logged w (n := d.tailSegment) (by omega)]
  split_ifs
  · exact List.append_assoc _ _ _
  · rfl

/-- The device and the environment when the copying starts. -/
def filled (dev : Virtual σ) (d : IODevice) (w : σ) : IODevice × σ :=
  if BUFSIZE > d.size then d.fill dev w else (d, w)

theorem filled_of_free (hfree : d.size < BUFSIZE) (w : σ) : d.filled dev w = d.fill dev w :=
  if_pos hfree

/-- Once past its guard `Read` takes the count from the ring, whatever is copied. -/
theorem read_eq_filled (hmode : d.hasReadMode = true) {n : Nat} (hn : 0 < n) (w : σ)
    (data : List UInt8) : d.read dev w (some data) n =
      (((d.filled dev w).1.advance (min n (d.filled dev w).1.size), (d.filled dev w).2),
        ((d.filled dev w).1.peek dev.isSequential (some data)
          (min n (d.filled dev w).1.size)).1, min n (d.filled dev w).1.size) := by
  have hcond : ((some data).isNone || !d.hasReadMode || n == 0) = false := by
    simp [hmode, Nat.ne_of_gt hn]
  have hmin (size : Nat) : (if n < size then n else size) = min n size := by
    split_ifs <;> omega
  simp only [read, hcond, Bool.false_eq_true, if_false, hmin, filled]

/-- `Read` on a ring that its fill leaves with a free slot: it hands over the oldest bytes of
what was pending and what arrived. -/
theorem read_spec (hdev : dev.Bounded) (hseq : dev.isSequential = false) (h : d.Valid)
    (hmode : d.hasReadMode = true) (w : σ) {data : List UInt8} (hdata : data ≠ [])
    {all : List UInt8} (hall : all = d.pending ++ dev.arriving d w) (hslot : all.length < BUFSIZE)
    {k : Nat} (hk : k = min data.length all.length) :
    ∃ d', d.read dev w (some data) data.length =
        ((d', (d.fill dev w).2), some (overwrite data 0 (all.take k)), k) ∧
      d'.Valid ∧ d'.hasReadMode = true ∧ d'.size < BUFSIZE ∧ d'.pending = all.drop k := by
  have hfree : d.size < BUFSIZE := by
    rw [hall, List.length_append, length_pending] at hslot
    omega
  obtain ⟨hvalid, hfillmode, hpending⟩ := fill_spec hdev h hfree w
  rw [← hall] at hpending
  have hsize : (d.fill dev w).1.size = all.length := by rw [← hpending, length_pending]
  have hreadmode : (d.fill dev w).1.hasReadMode = true := by rwa [hasReadMode, hfillmode]
  have hread := @read_eq_filled _ dev d hmode _ (List.length_pos_iff.mpr hdata) w data
  rw [filled_of_free hfree, hsize, ← hk, hseq, peek_spec hvalid hreadmode (by omega),
    hpending] at hread
  obtain ⟨hadv, hdrop⟩ := advance_spec hvalid (k := k) (by omega)
  refine ⟨(d.fill dev w).1.advance k, hread, hadv, hreadmode, ?_, ?_⟩
  · change (d.fill dev w).1.size - k < BUFSIZE
    omega
  · rw [hdrop, hpending]

/-- `Read` whose fill closes the ring: the count and the head move on, the destination keeps
what it held before the call. -/
theorem read_full_spec (hdev : dev.Bounded) (hseq : dev.isSequential = false) (h : d.Valid)
    (hmode : d.hasReadMode = true) (hfree : d.size < BUFSIZE) (w : σ) (data : List UInt8)
    (hdata : data ≠ []) {all : List UInt8} (hall : all = d.pending ++ dev.arriving d w)
    (hfull : all.length = BUFSIZE) {k : Nat} (hk : k = min data.length BUFSIZE) :
    ∃ d', d.read dev w (some data) data.length = ((d', (d.fill dev w).2), some data, k) ∧
      d'.pending = all.drop k := by
  obtain ⟨hvalid, hfillmode, hpending⟩ := fill_spec hdev h hfree w
  rw [← hall] at hpending
  have hsize : (d.fill dev w).1.size = BUFSIZE := by rw [← hfull, ← hpending, length_pending]
  have hreadmode : (d.fill dev w).1.hasReadMode = true := by rwa [hasReadMode, hfillmode]
  have hread := @read_eq_filled _ dev d hmode _ (List.length_pos_iff.mpr hdata) w data
  rw [filled_of_free hfree, hsize, ← hk, hseq, peek_full hvalid hreadmode hsize] at hread
  obtain ⟨_, hdrop⟩ := advance_spec hvalid (k := k) (by omega)
  exact ⟨(d.fill dev w).1.advance k, hread, by rw [hdrop, hpending]⟩

/-- A read of `n` bytes delivers them into every destination exactly if its fill leaves a slot. -/
theorem read_delivers_iff (hdev : dev.Bounded) (hseq : dev.isSequential = false) (h : d.Valid)
    (hmode : d.hasReadMode = true) (hfree : d.size < BUFSIZE) (w : σ) {n : Nat} (hn : 0 < n)
    {all : List UInt8} (hall : all = d.pending ++ dev.arriving d w) :
    (∀ data : List UInt8, data.length = n →
      (d.read dev w (some data) n).2.1 = some (overwrite data 0 (all.take n))) ↔
      all.length < BUFSIZE := by
  have hne {data : List UInt8} (hlen : data.length = n) : data ≠ [] := by
    rintro rfl
    rw [List.length_nil] at hlen
    omega
  constructor
  · intro hdelivers
    have hle := length_filled_le hdev h hfree w
    rw [← hall] at hle
    by_contra hnot
    have hfull : all.length = BUFSIZE := by omega
    obtain ⟨b, rest, rfl⟩ : ∃ b rest, all = b :: rest := by
      cases all with
      | nil => cases hfull
      | cons b rest => exact ⟨b, rest, rfl⟩
    have hlen : (List.replicate n (b + 1)).length = n := List.length_replicate
    obtain ⟨d', hread, _⟩ := read_full_spec hdev hseq h hmode hfree w _ (hne hlen) hall hfull rfl
    have hcopy := hdelivers _ hlen
    rw [hlen] at hread
    obtain ⟨m, rfl⟩ := Nat.exists_eq_succ_of_ne_zero hn.ne'
    rw [hread, overwrite_zero] at hcopy
    have hhead := congrArg List.head? (Option.some.inj hcopy)
    simp [List.replicate_succ] at hhead
  · intro hslot data hlen
    obtain ⟨d', hread, _⟩ := read_spec hdev hseq h hmode w (hne hlen) hall hslot rfl
    rw [hlen] at hread
    rw [hread]
    cases Nat.le_total n all.length with
    | inl hle => rw [Nat.min_eq_left hle]
    | inr hle =>
      rw [Nat.min_eq_right hle, List.take_of_length_le hle, List.take_of_length_le (Nat.le_refl _)]

theorem read_nil (dev : Virtual σ) (d : IODevice) (w : σ) :
    d.read dev w (some []) 0 = ((d, w), some [], 0) := by
  simp [read]

end IODevice

/-- A run of calls on one device; `stored` is what the reads left in their destinations. -/
structure Session (σ : Type u) where
  dev : IODevice
  world : σ × List UInt8
  stored : List UInt8

inductive Call
  | read (data : List UInt8)
  | peek (data : List UInt8)

namespace Session

def start (mode : Mode) (w : σ) : Session σ :=
  { dev := IODevice.create.setOpenMode mode, world := (w, []), stored := [] }

def machine (dev : Virtual σ) : Machine (Session σ) Call where
  init s := ∃ mode w, s = start mode w ∧ s.dev.hasReadMode = true
  step s
    | .read data =>
      let out := s.dev.read dev.logged s.world (some data) data.length
      some { dev := out.1.1, world := out.1.2, stored := s.stored ++ (out.2.1.getD []).take out.2.2 }
    | .peek _ => some s

/-- The fill of the read leaves at least one slot of the ring free. -/
def LeavesSlot (dev : Virtual σ) (s : Session σ) : Call → Prop
  | .read data => data ≠ [] → s.dev.size + (dev.arriving s.dev s.world.1).length < BUFSIZE
  | .peek _ => True

/-- What the caller of the device relies on between two calls. -/
structure Faithful (dev : Virtual σ) (s : Session σ) : Prop where
  conserved : s.stored ++ s.dev.pending = s.world.2
  peeks : ∀ data : List UInt8, s.dev.peek dev.isSequential (some data) data.length =
    (some (overwrite data 0 (s.dev.pending.take data.length)), min data.length s.dev.size)
  unchanged : ∀ data, (machine dev).step s (.peek data) = some s

def abs (s : Session σ) : Conduit UInt8 := ⟨s.world.2, s.stored, s.dev.pending⟩

structure Ready (s : Session σ) : Prop where
  valid : s.dev.Valid
  readable : s.dev.hasReadMode = true
  notFull : s.dev.size < BUFSIZE

theorem start_ready {mode : Mode} {w : σ} (h : (start mode w).dev.hasReadMode = true) :
    (start mode w).Ready where
  valid := ⟨rfl, Nat.zero_le _⟩
  readable := h
  notFull := (by decide : 0 < BUFSIZE)

variable {dev : Virtual σ}

/-- One call on a ready session keeps it ready and moves bytes through the conduit. -/
theorem step_spec (hdev : dev.Bounded) (hseq : dev.isSequential = false) {s s' : Session σ}
    {c : Call} (h : s.Ready) (hslot : LeavesSlot dev s c)
    (hstep : (machine dev).step s c = some s') : s'.Ready ∧ Moves s.abs s'.abs := by
  cases c with
  | peek data =>
    cases hstep
    exact ⟨h, .refl⟩
  | read data =>
    by_cases hdata : data = []
    · subst hdata
      have hread := IODevice.read_nil dev.logged s.dev s.world
      simp only [machine, List.length_nil, hread, Option.getD_some, List.take_nil, List.append_nil,
        Option.some.injEq] at hstep
      subst hstep
      exact ⟨h, .refl⟩
    · have hall : (s.dev.pending ++ dev.logged.arriving s.dev s.world).length < BUFSIZE := by
        rw [List.length_append, IODevice.length_pending]
        exact hslot hdata
      obtain ⟨d', hread, hvalid, hmode, hfull, hpending⟩ := IODevice.read_spec hdev.logged hseq
        h.valid h.readable s.world hdata rfl hall rfl
      simp only [machine, hread, Option.getD_some, Option.some.injEq] at hstep
      subst hstep
      refine ⟨⟨hvalid, hmode, hfull⟩, ?_⟩
      generalize hk : min data.length _ = k at hpending
      have htake := take_overwrite_start data (s.dev.pending ++ dev.logged.arriving s.dev s.world)
        (k := k) (by omega)
      simp only [abs, hpending, htake, IODevice.fill_logged hdev]
      exact Moves.enter_leave _ _ _ _ k

theorem ready_of_reachable (hdev : dev.Bounded) (hseq : dev.isSequential = false) {s : Session σ}
    (h : (machine dev).ReachableUnder (LeavesSlot dev) s) : s.Ready := by
  apply h.invariant
  · rintro s ⟨mode, w, rfl, hmode⟩
    exact start_ready hmode
  · intro s c s' hs hslot hstep
    exact (step_spec hdev hseq hs hslot hstep).1

/-- Reads and peeks of one device are faithful in every run whose fills all leave a slot free. -/
theorem faithful_of_reachable (dev : Virtual σ) (hdev : dev.Bounded)
    (hseq : dev.isSequential = false) (s : Session σ)
    (h : (machine dev).ReachableUnder (LeavesSlot dev) s) : Faithful dev s where
  conserved := by
    refine conserved_of_refines abs (fun _ => ready_of_reachable hdev hseq) ?_ ?_ h
    · rintro s ⟨mode, w, rfl, _⟩
      rfl
    · intro s c s' hs hslot hstep
      exact (step_spec hdev hseq hs hslot hstep).2
  peeks data := by
    have hs := ready_of_reachable hdev hseq h
    rw [hseq, IODevice.peek_spec hs.valid hs.readable hs.notFull]
  unchanged _ := rfl

/-- A device that has three bytes for every request that can take them. -/
def trickle : Virtual Unit where
  readData _ n := (⟨(min n 3 : Nat), List.replicate (min n 3) 7⟩, ())
  isSequential := false

theorem trickle_bounded : trickle.Bounded :=
  fun _ n => ⟨by simp [trickle], by simp [trickle]⟩

theorem faithful_trickle : ∃ s, (machine trickle).run (start .R ()) [.read [0, 0], .peek [0]] =
    some s ∧ Faithful trickle s := by
  have hslot : LeavesSlot trickle (start .R ()) (.read [0, 0]) := fun _ => by decide
  have hread := (Machine.ReachableUnder.init (M := machine trickle) ⟨.R, (), rfl, rfl⟩).step hslot rfl
  exact ⟨_, rfl, faithful_of_reachable trickle trickle_bounded rfl _
    (hread.step (a := .peek [0]) trivial rfl)⟩

/-- A device that has as many bytes as are asked for. -/
def eager : Virtual Unit where
  readData _ n := (⟨n, List.replicate n 1⟩, ())
  isSequential := false

theorem eager_bounded : eager.Bounded :=
  fun _ n => ⟨by simp [eager], by simp [eager]⟩

/-- The first read of one byte closes the ring and leaves its destination as it was. -/
theorem eager_loses_first_byte : eager.Bounded ∧ eager.isSequential = false ∧
    ∃ s, (machine eager).Reachable s ∧ s.stored ++ s.dev.pending ≠ s.world.2 := by
  have hstart : (start .R ()).dev.hasReadMode = true := rfl
  have hready := start_ready hstart
  have hall : (start .R ()).dev.pending ++ eager.logged.arriving (start .R ()).dev ((), []) =
      List.replicate BUFSIZE 1 := rfl
  obtain ⟨d', hread, hpending⟩ := IODevice.read_full_spec eager_bounded.logged rfl hready.valid
    hready.readable hready.notFull ((), []) [0] (by simp) hall.symm
    List.length_replicate rfl
  refine ⟨eager_bounded, rfl, ⟨d', ((start .R ()).dev.fill eager.logged ((), [])).2, [0]⟩, ?_, ?_⟩
  · refine .step (.init ⟨.R, (), rfl, hstart⟩) (a := .read [0]) trivial ?_
    simp only [machine]
    rw [show (start .R ()).world = ((), []) from rfl, hread]
    rfl
  · intro hconserved
    rw [IODevice.fill_logged eager_bounded] at hconserved
    have hhead := congrArg List.head? hconserved
    cases hhead

end Session

end ServerDevLib.Device
