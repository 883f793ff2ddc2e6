import ServerDevLib.Reactor.Channel
import ServerDevLib.Foundation.Transition
import Mathlib.Algebra.Ring.Int.Defs
import Mathlib.Algebra.Ring.Nat

/-!
# The requests of `Read`

The loop of `Read` one call of `::read` after the other. `validSize` is a
difference of `size_t`, and what `::read` returns is stored in an `int`. A
request of no bytes has the result 0 as well; the loop would take it for the
end of the file.
-/

namespace ServerDevLib.Reactor

open Text Transition

inductive ReadResult
  | data (bytes : List UInt8)
  | endOfFile
  | fullBuffer
  | error

namespace ReadResult

def value : ReadResult → Int
  | .data bytes => bytes.length
  | .endOfFile | .fullBuffer => 0
  | .error => -1

def stored : ReadResult → List UInt8
  | .data bytes => bytes
  | .endOfFile | .fullBuffer | .error => []

/-- What `::read` may return when it is asked for `count` bytes. -/
def Possible (count : Nat) : ReadResult → Prop
  | .data bytes => bytes ≠ [] ∧ bytes.length ≤ count
  | .endOfFile => 0 < count
  | .fullBuffer => count = 0
  | .error => True

instance (count : Nat) (r : ReadResult) : Decidable (r.Possible count) :=
  match r with
  | .data _ => inferInstanceAs (Decidable (_ ∧ _))
  | .endOfFile => inferInstanceAs (Decidable (0 < count))
  | .fullBuffer => inferInstanceAs (Decidable (count = 0))
  | .error => isTrue trivial

end ReadResult

/-- Where a call of `Read` is: before the next round of the loop, or in `::read`. -/
inductive ReadPc
  | idle
  | round (validSize got : Nat)
  | request (validSize : Nat)
  deriving DecidableEq

inductive ReadEvent
  | read
  | round
  | result (r : ReadResult)
  | getReceivedData

structure Reading where
  channel : Channel
  pc : ReadPc

namespace Reading

def INT_MAX : Nat := 2 ^ 31 - 1

def toInt (n : Int) : Int := n.bmod (2 ^ 32)

/-- `_receivedBuf.capacity() - _receivedCount` -/
def validSize (ch : Channel) : Nat :=
  (2 ^ 64 + ch.receivedBuf.capacity - ch.receivedCount) % 2 ^ 64

variable (A : Allocator)

/-- The body of the do-while loop. -/
def loopBody (validSize got : Nat) (ch : Channel) : Channel :=
  { ch with
    receivedBuf :=
      if validSize = got then ch.receivedBuf.reserve A (3 * ch.receivedBuf.capacity / 2)
      else ch.receivedBuf
    receivedCount := ch.receivedCount + got }

def store (ch : Channel) (r : ReadResult) : Channel :=
  { ch with receivedBuf := ch.receivedBuf.poke ch.receivedCount r.stored }

/-- `::read` returns; the loop goes on with a positive `got`, and an end of the file closes. -/
def afterRead (ch : Channel) (validSize : Nat) (r : ReadResult) : Reading :=
  let got := toInt r.value
  if 0 < got then ⟨store ch r, .round validSize got.toNat⟩
  else if got = 0 then ⟨(store ch r).inactive, .idle⟩
  else ⟨store ch r, .idle⟩

def step (s : Reading) (e : ReadEvent) : Option Reading :=
  match e, s.pc with
  | .read, .idle =>
    if !s.channel.active then some s
    else some ⟨s.channel, .round (validSize s.channel) 0⟩
  | .round, .round valid got =>
    some ⟨loopBody A valid got s.channel, .request (validSize (loopBody A valid got s.channel))⟩
  | .result r, .request valid =>
    if r.Possible valid then some (afterRead s.channel valid r) else none
  | .getReceivedData, .idle => some ⟨s.channel.getReceivedData.1, .idle⟩
  | _, _ => none

def machine : Machine Reading ReadEvent where
  init s := ∃ fd ptr, s = ⟨Channel.create A fd ptr, .idle⟩
  step := step A

def FitsInt (s : Reading) : Prop :=
  s.channel.receivedBuf.capacity ≤ INT_MAX ∧ s.channel.receivedCount ≤ INT_MAX

instance (s : Reading) : Decidable s.FitsInt := inferInstanceAs (Decidable (_ ∧ _))

/-- What each event does, with the guards it has passed. -/
inductive Step (s : Reading) : ReadEvent → Reading → Prop
  | readInactive (idle : s.pc = .idle) (inactive : s.channel.active = false) : Step s .read s
  | read (idle : s.pc = .idle) (active : s.channel.active = true) :
      Step s .read ⟨s.channel, .round (validSize s.channel) 0⟩
  | round {valid got} (round : s.pc = .round valid got) :
      Step s .round ⟨loopBody A valid got s.channel,
        .request (validSize (loopBody A valid got s.channel))⟩
  | result {r valid} (request : s.pc = .request valid) (possible : r.Possible valid) :
      Step s (.result r) (afterRead s.channel valid r)
  | getReceivedData (idle : s.pc = .idle) :
      Step s .getReceivedData ⟨s.channel.getReceivedData.1, .idle⟩

variable {A} {s s' : Reading} {e : ReadEvent}

theorem step_cases (hstep : (machine A).step s e = some s') : Step A s e s' := by
  simp only [machine, step] at hstep
  split at hstep
  · rename_i hidle
    cases hactive : s.channel.active with
    | false =>
      simp only [hactive, Bool.not_false, if_true, Option.some.injEq] at hstep
      exact hstep ▸ .readInactive hidle hactive
    | true =>
      simp only [hactive, Bool.not_true, Bool.false_eq_true, if_false, Option.some.injEq] at hstep
      exact hstep ▸ .read hidle hactive
  · rename_i hround
    cases hstep
    exact .round hround
  · rename_i hrequest
    split at hstep <;> cases hstep
    exact .result hrequest ‹_›
  · rename_i hidle
    cases hstep
    exact .getReceivedData hidle
  · cases hstep

/-- There is room in the buffer where `::read` is called. -/
structure Room (s : Reading) : Prop where
  capacity : Channel.BUFSIZE ≤ s.channel.receivedBuf.capacity
  count : s.channel.receivedCount ≤ s.channel.receivedBuf.capacity
  round : ∀ valid got, s.pc = .round valid got →
    s.channel.receivedCount + valid = s.channel.receivedBuf.capacity ∧ got ≤ valid
  request : ∀ valid, s.pc = .request valid → valid = validSize s.channel ∧
    s.channel.receivedCount < s.channel.receivedBuf.capacity

theorem validSize_eq {ch : Channel} (hcount : ch.receivedCount ≤ ch.receivedBuf.capacity)
    (hfits : ch.receivedBuf.capacity ≤ INT_MAX) :
    validSize ch = ch.receivedBuf.capacity - ch.receivedCount := by
  simp only [INT_MAX] at hfits
  simp only [validSize]
  omega

theorem toInt_natCast {n : Nat} (h : n ≤ INT_MAX) : toInt n = n := by
  simp only [INT_MAX] at h
  exact Int.bmod_eq_of_le (by omega) (by omega)

/-- The body leaves room: it grows a buffer that is full. -/
theorem loopBody_room {ch : Channel} {valid got : Nat}
    (hcapacity : Channel.BUFSIZE ≤ ch.receivedBuf.capacity)
    (hvalid : ch.receivedCount + valid = ch.receivedBuf.capacity) (hgot : got ≤ valid) :
    ch.receivedBuf.capacity ≤ (loopBody A valid got ch).receivedBuf.capacity ∧
      (loopBody A valid got ch).receivedCount < (loopBody A valid got ch).receivedBuf.capacity := by
  simp only [Channel.BUFSIZE] at hcapacity
  by_cases hfull : valid = got
  · have hgrows : ch.receivedBuf.capacity < 3 * ch.receivedBuf.capacity / 2 := by omega
    have hreserve := CxxString.capacity_reserve A hgrows
    have hle := A.le_capacityFor ch.receivedBuf.capacity (3 * ch.receivedBuf.capacity / 2)
    simp only [loopBody, if_pos hfull, hreserve]
    omega
  · simp only [loopBody, if_neg hfull]
    omega

theorem length_stored_le {valid : Nat} {r : ReadResult} (h : r.Possible valid) :
    r.stored.length ≤ valid := by
  cases r with
  | data bytes => exact h.2
  | endOfFile | fullBuffer | error => exact Nat.zero_le valid

/-- The loop goes on exactly where bytes were stored. -/
theorem afterRead_pc (ch : Channel) {valid : Nat} {r : ReadResult} (h : r.Possible valid)
    (hfits : valid ≤ INT_MAX) :
    (∃ bytes, r = .data bytes ∧ (afterRead ch valid r).pc = .round valid bytes.length) ∨
      r.value ≤ 0 ∧ (afterRead ch valid r).pc = .idle := by
  cases r with
  | data bytes =>
    have hlength : bytes.length ≤ INT_MAX := Nat.le_trans h.2 hfits
    have hpos : 0 < bytes.length := List.length_pos_iff.mpr h.1
    have hgot : (0 : Int) < bytes.length := by omega
    refine .inl ⟨bytes, rfl, ?_⟩
    simp only [afterRead, ReadResult.value, toInt_natCast hlength, if_pos hgot, Int.toNat_natCast]
  | endOfFile => exact .inr ⟨Int.le_refl 0, rfl⟩
  | fullBuffer => exact .inr ⟨Int.le_refl 0, rfl⟩
  | error => exact .inr ⟨by decide, rfl⟩

theorem afterRead_channel (ch : Channel) (valid : Nat) (r : ReadResult) :
    (afterRead ch valid r).channel.receivedBuf = ch.receivedBuf.poke ch.receivedCount r.stored ∧
      (afterRead ch valid r).channel.receivedCount = ch.receivedCount := by
  simp only [afterRead]
  split
  · exact ⟨rfl, rfl⟩
  · split <;> exact ⟨rfl, rfl⟩

theorem start_room (A : Allocator) (fd : Int) (ptr : Option Nat) :
    Room ⟨Channel.create A fd ptr, .idle⟩ := by
  have hcapacity : Channel.BUFSIZE ≤ (Channel.create A fd ptr).receivedBuf.capacity := by
    have hsize : (Channel.create A fd ptr).receivedBuf.size = Channel.BUFSIZE :=
      List.length_replicate
    exact hsize ▸ CxxString.size_le _
  constructor
  · exact hcapacity
  · exact Nat.zero_le _
  · exact fun _ _ => nofun
  · exact fun _ => nofun

theorem room_step (h : s.Room) (hfits : s.FitsInt) (hstep : Step A s e s') : s'.Room := by
  cases hstep with
  | readInactive => exact h
  | read hidle hactive =>
    refine ⟨h.capacity, h.count, ?_, fun _ => nofun⟩
    rintro _ _ ⟨⟩
    rw [validSize_eq h.count hfits.1]
    exact ⟨Nat.add_sub_of_le h.count, Nat.zero_le _⟩
  | @round valid got hround =>
    obtain ⟨hvalid, hgot⟩ := h.round valid got hround
    obtain ⟨hgrown, hroom⟩ := loopBody_room (A := A) h.capacity hvalid hgot
    refine ⟨Nat.le_trans h.capacity hgrown, Nat.le_of_lt hroom, fun _ _ => nofun, ?_⟩
    rintro _ ⟨⟩
    exact ⟨rfl, hroom⟩
  | @result r valid hrequest hpossible =>
    obtain ⟨hvalid, hroom⟩ := h.request valid hrequest
    rw [validSize_eq h.count hfits.1] at hvalid
    have hlength := length_stored_le hpossible
    have hpoke : (s.channel.receivedBuf.poke s.channel.receivedCount r.stored).capacity =
        s.channel.receivedBuf.capacity := CxxString.capacity_poke (by omega)
    obtain ⟨hbuf, hcount⟩ := afterRead_channel s.channel valid r
    have hfitsValid : valid ≤ INT_MAX := by
      have hcapacity := hfits.1
      omega
    have hpc := afterRead_pc s.channel hpossible hfitsValid
    constructor
    · rw [hbuf, hpoke]
      exact h.capacity
    · rw [hbuf, hcount, hpoke]
      exact h.count
    · intro v g hround
      rw [hbuf, hcount, hpoke]
      rcases hpc with ⟨bytes, rfl, hpc⟩ | ⟨-, hpc⟩
      · rw [hpc] at hround
        cases hround
        exact ⟨by omega, hlength⟩
      · rw [hpc] at hround
        cases hround
    · intro v hv
      rcases hpc with ⟨bytes, rfl, hpc⟩ | ⟨-, hpc⟩ <;> rw [hpc] at hv <;> cases hv
  | getReceivedData hidle =>
    obtain ⟨count, heq, hle, -⟩ := Channel.getReceivedData_cases s.channel
    rw [heq]
    exact ⟨h.capacity, Nat.le_trans hle h.count, fun _ _ => nofun, fun _ => nofun⟩

theorem room_of_reachable (h : (machine A).ReachableUnder (fun s _ => s.FitsInt) s) : s.Room := by
  have hinit : ∀ t, (machine A).init t → t.Room := by
    rintro _ ⟨fd, ptr, rfl⟩
    exact start_room A fd ptr
  exact Machine.ReachableUnder.invariant hinit
    (fun t e t' ht hfits hstep => room_step ht hfits (step_cases hstep)) h

/-- Every request asks for bytes that the allocation has room for, and the loop ends only at a
result that is not positive, where 0 stands for the end of the file. -/
theorem requests_in_bounds (A : Allocator) (s : Reading)
    (h : (machine A).ReachableUnder (fun s _ => s.FitsInt) s) (hfits : s.FitsInt) :
    (∀ valid, s.pc = .request valid → 0 < valid ∧
      s.channel.receivedCount + valid ≤ s.channel.receivedBuf.capacity) ∧
    (∀ r s', (machine A).step s (.result r) = some s' →
      s.channel.receivedCount + r.stored.length ≤ s.channel.receivedBuf.capacity ∧
      (r.value = 0 → r = .endOfFile)) ∧
    ∀ e s', (machine A).step s e = some s' → s.pc ≠ .idle → s'.pc = .idle →
      ∃ r, e = .result r ∧ r.value ≤ 0 := by
  have hroom := room_of_reachable h
  have hrequest : ∀ valid, s.pc = .request valid → 0 < valid ∧
      s.channel.receivedCount + valid ≤ s.channel.receivedBuf.capacity := by
    intro valid hvalid
    obtain ⟨heq, hlt⟩ := hroom.request valid hvalid
    rw [validSize_eq hroom.count hfits.1] at heq
    omega
  refine ⟨hrequest, ?_, ?_⟩
  · intro r s' hstep
    cases step_cases hstep with
    | result hpc hpossible =>
      obtain ⟨hpos, hinside⟩ := hrequest _ hpc
      have hlength := length_stored_le hpossible
      refine ⟨by omega, fun hzero => ?_⟩
      cases r with
      | data bytes => exact absurd (List.length_eq_zero_iff.mp (Int.natCast_eq_zero.mp hzero)) hpossible.1
      | endOfFile => rfl
      | fullBuffer => exact absurd hpossible (Nat.ne_of_gt hpos)
      | error => cases hzero
  · intro e s' hstep hbusy hidle
    cases step_cases hstep with
    | readInactive hpc | read hpc | getReceivedData hpc => exact absurd hpc hbusy
    | round hpc => cases hidle
    | @result r valid hpc hpossible =>
      have hvalid : valid ≤ INT_MAX := by
        have hcapacity := hfits.1
        have hinside := hrequest valid hpc
        omega
      rcases afterRead_pc s.channel hpossible hvalid with ⟨bytes, rfl, hround⟩ | ⟨hle, -⟩
      · rw [hround] at hidle
        cases hidle
      · exact ⟨r, rfl, hle⟩

/-- The first chunk fills the buffer, which has grown when `::read` is called again. -/
def fillsBuffer : List ReadEvent :=
  [.read, .round, .result (.data (List.replicate 128 1)), .round]

theorem requests_in_bounds_fillsBuffer : ∃ s,
    (machine Allocator.doubling).runUnder (fun s _ => s.FitsInt)
      ⟨Channel.create Allocator.doubling 5 none, .idle⟩ fillsBuffer = some s ∧
      (Channel.create Allocator.doubling 5 none).receivedBuf.capacity = 128 ∧
      s.channel.receivedBuf.capacity = 256 ∧ s.channel.receivedCount = 128 ∧
      s.pc = .request 128 ∧ s.channel.receivedCount + 128 ≤ s.channel.receivedBuf.capacity := by
  have hpc : ((machine Allocator.doubling).runUnder (fun s _ => s.FitsInt)
      ⟨Channel.create Allocator.doubling 5 none, .idle⟩ fillsBuffer).map
        (fun s => (s.pc, decide s.FitsInt, s.channel.receivedBuf.capacity,
          s.channel.receivedCount)) = some (.request 128, true, 256, 128) := by decide +kernel
  obtain ⟨s, hrun, hs⟩ := Option.map_eq_some_iff.mp hpc
  simp only [Prod.mk.injEq] at hs
  obtain ⟨hrequest, hfits, hcapacity, hcount⟩ := hs
  have hreach := Machine.reachableUnder_of_runUnder (M := machine Allocator.doubling)
    ⟨5, none, rfl⟩ hrun
  have hbounds := requests_in_bounds Allocator.doubling s hreach (of_decide_eq_true hfits)
  exact ⟨s, hrun, by decide +kernel, hcapacity, hcount, hrequest, (hbounds.1 128 hrequest).2⟩

section Rounds

def rounds (ended : ReadResult) : List (List UInt8) → List ReadEvent
  | [] => [.round, .result ended]
  | chunk :: chunks => .round :: .result (.data chunk) :: rounds ended chunks

def endResult : ReadEnd → ReadResult
  | .eof => .endOfFile
  | .error => .error

/-- A round of the loop as it was modelled in one piece. -/
theorem readLoop_cons {ch : Channel} {valid got : Nat} {chunk : List UInt8}
    {chunks : List (List UInt8)} {out : CxxString × Nat}
    (h : Channel.readLoop A ch.receivedBuf ch.receivedCount valid got (chunk :: chunks) = some out) :
    let body := loopBody A valid got ch
    let room := body.receivedBuf.capacity - body.receivedCount
    (ReadResult.data chunk).Possible room ∧
      Channel.readLoop A (store body (.data chunk)).receivedBuf body.receivedCount room
        chunk.length chunks = some out := by
  intro body room
  have hround : Channel.readLoop A ch.receivedBuf ch.receivedCount valid got (chunk :: chunks) =
      if (ReadResult.data chunk).Possible room then
        Channel.readLoop A (store body (.data chunk)).receivedBuf body.receivedCount room
          chunk.length chunks
      else none := rfl
  rw [hround] at h
  split at h
  · exact ⟨‹_›, h⟩
  · cases h

theorem capacity_loopBody (valid got : Nat) (ch : Channel) :
    ch.receivedBuf.capacity ≤ (loopBody A valid got ch).receivedBuf.capacity := by
  simp only [loopBody]
  split
  · exact CxxString.le_capacity_reserve A _ ch.receivedBuf
  · exact Nat.le_refl _

theorem capacity_readLoop (chunks : List (List UInt8)) {ch : Channel} {valid got : Nat}
    {out : CxxString × Nat}
    (h : Channel.readLoop A ch.receivedBuf ch.receivedCount valid got chunks = some out) :
    (loopBody A valid got ch).receivedBuf.capacity ≤ out.1.capacity := by
  induction chunks generalizing ch valid got with
  | nil =>
    cases h
    exact Nat.le_refl _
  | cons chunk chunks ih =>
    let stored := store (loopBody A valid got ch) (.data chunk)
    have hstored : (loopBody A valid got ch).receivedBuf.capacity ≤ stored.receivedBuf.capacity :=
      Memory.le_length_overwrite _ chunk _
    exact Nat.le_trans hstored (Nat.le_trans (capacity_loopBody _ _ stored) (ih (readLoop_cons h).2))

theorem Room.fitsInt (h : s.Room) (hcapacity : s.channel.receivedBuf.capacity ≤ INT_MAX) :
    s.FitsInt :=
  ⟨hcapacity, Nat.le_trans h.count hcapacity⟩

theorem step_data (A : Allocator) (ch : Channel) {valid : Nat} {chunk : List UInt8}
    (hpossible : (ReadResult.data chunk).Possible valid) (hfits : valid ≤ INT_MAX) :
    (machine A).step ⟨ch, .request valid⟩ (.result (.data chunk)) =
      some ⟨store ch (.data chunk), .round valid chunk.length⟩ := by
  have hlength : chunk.length ≤ INT_MAX := Nat.le_trans hpossible.2 hfits
  have hpos : 0 < chunk.length := List.length_pos_iff.mpr hpossible.1
  have hgot : (0 : Int) < chunk.length := by omega
  simp only [machine, step, if_pos hpossible, afterRead, ReadResult.value, toInt_natCast hlength,
    if_pos hgot, Int.toNat_natCast]

/-- The rounds are those of the loop that was modelled in one piece. -/
theorem run_rounds (chunks : List (List UInt8)) {ended : ReadResult}
    (hended : ∀ n, 0 < n → ended.Possible n) {ch : Channel} {valid got : Nat} {out : CxxString × Nat}
    (hroom : Room ⟨ch, .round valid got⟩)
    (h : Channel.readLoop A ch.receivedBuf ch.receivedCount valid got chunks = some out)
    (hfits : out.1.capacity ≤ INT_MAX) :
    (machine A).run ⟨ch, .round valid got⟩ (rounds ended chunks) =
      some (afterRead { ch with receivedBuf := out.1, receivedCount := out.2 }
        (out.1.capacity - out.2) ended) := by
  induction chunks generalizing ch valid got with
  | nil =>
    obtain ⟨hvalid, hgot⟩ := hroom.round valid got rfl
    obtain ⟨-, hlt⟩ := loopBody_room (A := A) hroom.capacity hvalid hgot
    cases h
    have hsize := validSize_eq (Nat.le_of_lt hlt) hfits
    have hpossible := hended _ (Nat.sub_pos_of_lt hlt)
    simp only [rounds, Machine.run_cons, machine, step, hsize, Option.bind_some, Machine.run]
    rw [if_pos hpossible]
    rfl
  | cons chunk chunks ih =>
    let body := loopBody A valid got ch
    have hcapacity : body.receivedBuf.capacity ≤ INT_MAX :=
      Nat.le_trans (capacity_readLoop _ h) hfits
    have hround : (machine A).step ⟨ch, .round valid got⟩ .round =
        some ⟨body, .request (validSize body)⟩ := rfl
    have hbody := room_step hroom (hroom.fitsInt (Nat.le_trans (capacity_loopBody _ _ _) hcapacity))
      (step_cases hround)
    have hsize : validSize body = body.receivedBuf.capacity - body.receivedCount :=
      validSize_eq hbody.count hcapacity
    obtain ⟨hpossible, hrest⟩ := readLoop_cons h
    rw [← hsize] at hpossible hrest
    have hdata := step_data A body hpossible (by omega)
    have hstored := room_step hbody (hbody.fitsInt hcapacity) (step_cases hdata)
    rw [rounds, Machine.run_cons, hround, Option.bind_some, Machine.run_cons, hdata,
      Option.bind_some]
    exact ih hstored hrest

theorem store_of_nil (ch : Channel) {r : ReadResult} (h : r.stored = []) : store ch r = ch := by
  have hpoke : ch.receivedBuf.poke ch.receivedCount r.stored = ch.receivedBuf := by
    simp [CxxString.poke, h]
  rw [store, hpoke]

theorem afterRead_endOfFile (ch : Channel) (valid : Nat) :
    afterRead ch valid .endOfFile = ⟨ch.inactive, .idle⟩ := by
  have hread : afterRead ch valid .endOfFile = ⟨(store ch .endOfFile).inactive, .idle⟩ := rfl
  rw [hread, store_of_nil ch rfl]

theorem afterRead_error (ch : Channel) (valid : Nat) : afterRead ch valid .error = ⟨ch, .idle⟩ := by
  have hread : afterRead ch valid .error = ⟨store ch .error, .idle⟩ := rfl
  rw [hread, store_of_nil ch rfl]

/-- A call of `Read` that was modelled in one piece is a run of its steps. -/
theorem run_read {ch ch' : Channel} {chunks : List (List UInt8)} {ended : ReadEnd}
    {n : Option Notification} (hroom : Room ⟨ch, .idle⟩) (hactive : ch.active = true)
    (h : ch.read A chunks ended = some (ch', n)) (hfits : ch'.receivedBuf.capacity ≤ INT_MAX) :
    (machine A).run ⟨ch, .idle⟩ (.read :: rounds (endResult ended) chunks) = some ⟨ch', .idle⟩ := by
  have hcond : (!ch.active) = false := by simp [hactive]
  simp only [Channel.read, hcond, Bool.false_eq_true, if_false] at h
  obtain ⟨received, hreceive, hch⟩ := Option.map_eq_some_iff.mp h
  obtain ⟨buf, count, hloop, rfl⟩ := Channel.receive_cases hreceive
  have hbuf : buf.capacity ≤ INT_MAX := by
    cases ended <;> (cases hch; exact hfits)
  have hcapacity : ch.receivedBuf.capacity ≤ INT_MAX :=
    Nat.le_trans (capacity_loopBody _ _ ch) (Nat.le_trans (capacity_readLoop chunks hloop) hbuf)
  have hstart : (machine A).step ⟨ch, .idle⟩ .read = some ⟨ch, .round (validSize ch) 0⟩ := by
    simp only [machine, step, hcond, Bool.false_eq_true, if_false]
  have hround := room_step hroom (hroom.fitsInt hcapacity) (step_cases hstart)
  rw [← validSize_eq hroom.count hcapacity] at hloop
  have hended : ∀ n, 0 < n → (endResult ended).Possible n := by
    cases ended with
    | eof => exact fun _ hn => hn
    | error => exact fun _ _ => trivial
  rw [Machine.run_cons, hstart, Option.bind_some, run_rounds chunks hended hround hloop hbuf]
  cases ended with
  | eof =>
    cases hch
    exact congrArg some (afterRead_endOfFile _ _)
  | error =>
    cases hch
    exact congrArg some (afterRead_error _ _)

end Rounds

end Reading

end ServerDevLib.Reactor
