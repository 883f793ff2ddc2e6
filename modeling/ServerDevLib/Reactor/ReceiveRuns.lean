import ServerDevLib.Reactor.Channel
import ServerDevLib.Foundation.ConservedStream

/-!
# Runs of `Read` and `GetReceivedData`

`_receivedBuf` keeps its constructed size of `BUFSIZE` characters, so that a
growth of the buffer copies no more than these and `substr` returns no more
than these. A run loses nothing as long as the first allocation that is
larger than the size never fills up, and the bytes that are fetched fit into
the size.
-/

namespace ServerDevLib.Reactor

open Text Transition ConservedStream

namespace Channel

variable {A : Allocator}

/-- The loop ends below the capacity of the first allocation that exceeds the string's size. -/
def Fits (A : Allocator) (buf : CxxString) (total : Nat) : Prop :=
  total < buf.capacity ∨
    (buf.capacity = buf.size ∧ total < A.capacityFor buf.capacity (3 * buf.capacity / 2))

theorem take_reserve_of_full {buf : CxxString} (hfull : buf.capacity = buf.size) (m : Nat) :
    (buf.reserve A m).mem.take buf.capacity = buf.mem := by
  have hcontent : buf.content = buf.mem := List.take_of_length_le (by
    change buf.capacity ≤ buf.size
    omega)
  have hreserve := CxxString.content_reserve A m buf
  rw [CxxString.content, CxxString.size_reserve, ← hfull, hcontent] at hreserve
  exact hreserve

/-- One round of the loop before `::read`: the stored bytes survive the growth, and the buffer
has room again. -/
theorem grow_spec {buf : CxxString} {stored total : Nat} (hsize : 2 ≤ buf.size)
    (hstored : stored ≤ buf.capacity) (htotal : stored ≤ total) (hfits : Fits A buf total)
    {grown : CxxString}
    (hgrown : grown = if buf.capacity = stored then buf.reserve A (3 * buf.capacity / 2) else buf) :
    grown.mem.take stored = buf.mem.take stored ∧ stored < grown.capacity ∧
      grown.size = buf.size ∧ Fits A grown total := by
  by_cases hfull : buf.capacity = stored
  · rw [if_pos hfull] at hgrown
    subst hgrown
    rcases hfits with hbelow | ⟨heq, hnext⟩
    · omega
    · have hm : buf.capacity < 3 * buf.capacity / 2 := by omega
      have hcap := CxxString.capacity_reserve A hm
      have hle := A.le_capacityFor buf.capacity (3 * buf.capacity / 2)
      refine ⟨?_, by omega, CxxString.size_reserve A _ buf, .inl (by omega)⟩
      rw [← hfull, take_reserve_of_full heq]
      exact (List.take_of_length_le (Nat.le_refl _)).symm
  · rw [if_neg hfull] at hgrown
    subst hgrown
    exact ⟨rfl, by omega, rfl, hfits⟩

theorem readLoop_spec (chunks : List (List UInt8)) {buf out : CxxString}
    {count got total count' : Nat} (hsize : 2 ≤ buf.size) (hstored : count + got ≤ buf.capacity)
    (htotal : total = count + got + chunks.flatten.length) (hfits : Fits A buf total)
    (h : readLoop A buf count (buf.capacity - count) got chunks = some (out, count')) :
    out.mem.take count' = buf.mem.take (count + got) ++ chunks.flatten ∧
      count' < out.capacity ∧ out.size = buf.size := by
  have hguard : (buf.capacity - count = got) = (buf.capacity = count + got) := by
    apply propext
    omega
  induction chunks generalizing buf count got with
  | nil =>
    simp only [readLoop, Option.some.injEq, Prod.mk.injEq] at h
    obtain ⟨hout, rfl⟩ := h
    simp only [hguard] at hout
    obtain ⟨htake, hroom, hsz, _⟩ := grow_spec hsize hstored (by omega) hfits hout.symm
    rw [List.flatten_nil, List.append_nil]
    exact ⟨htake, hroom, hsz⟩
  | cons chunk chunks ih =>
    simp only [readLoop, hguard] at h
    generalize hgrown : (if buf.capacity = count + got then
      buf.reserve A (3 * buf.capacity / 2) else buf) = grown at h
    obtain ⟨htake, hroom, hsz, hfits'⟩ :=
      grow_spec hsize hstored (by omega) hfits hgrown.symm
    split at h
    · rename_i hchunk
      have hinside : count + got + chunk.length ≤ grown.capacity := by omega
      have hcap := CxxString.capacity_poke hinside
      have htotal' : total = count + got + chunk.length + chunks.flatten.length := by
        rw [htotal, List.flatten_cons, List.length_append]
        omega
      have hfits'' : Fits A (grown.poke (count + got) chunk) total := by
        rw [Fits, hcap]
        exact hfits'
      rw [← hcap] at h
      have hsize' : 2 ≤ (grown.poke (count + got) chunk).size := by
        change 2 ≤ grown.size
        omega
      obtain ⟨hout, hbelow, hszOut⟩ := ih hsize' (by omega) htotal' hfits'' h (by
          apply propext
          omega)
      refine ⟨?_, hbelow, hszOut.trans hsz⟩
      rw [hout, List.flatten_cons, ← List.append_assoc, ← htake]
      congr 1
      exact Memory.take_overwrite chunk (Nat.le_of_lt hroom)
    · cases h

theorem fits_of_le_size {buf : CxxString} {total : Nat} (hsize : 2 ≤ buf.size)
    (htotal : total ≤ buf.size) : Fits A buf total := by
  have hle : buf.size ≤ buf.capacity := buf.size_le
  cases Nat.lt_or_eq_of_le hle with
  | inl hlt => exact .inl (Nat.lt_of_le_of_lt htotal hlt)
  | inr heq =>
    have hcap := A.le_capacityFor buf.capacity (3 * buf.capacity / 2)
    exact .inr ⟨heq.symm, by omega⟩

theorem receive_spec {ch ch' : Channel} {chunks : List (List UInt8)}
    (hsize : 2 ≤ ch.receivedBuf.size) (hroom : ch.receivedCount ≤ ch.receivedBuf.capacity)
    (hfits : Fits A ch.receivedBuf (ch.receivedCount + chunks.flatten.length))
    (h : ch.receive A chunks = some ch') : ch'.buffered = ch.buffered ++ chunks.flatten ∧
      ch'.receivedCount < ch'.receivedBuf.capacity := by
  obtain ⟨buf, count, hloop, rfl⟩ := receive_cases h
  obtain ⟨htake, hbelow, _⟩ := readLoop_spec chunks hsize hroom rfl hfits hloop
  exact ⟨htake, hbelow⟩

end Channel

/-- A run of calls on one channel, with the bytes that `::read` stored and those that
`GetReceivedData` returned. -/
structure Receiving where
  channel : Channel
  log : List UInt8
  returned : List UInt8

inductive ReceiveCall
  | read (chunks : List (List UInt8))
  | getReceivedData

namespace Receiving

variable (A : Allocator)

def start (fd : Int) (ptr : Option Nat) : Receiving :=
  { channel := Channel.create A fd ptr, log := [], returned := [] }

def machine : Machine Receiving ReceiveCall where
  init s := ∃ fd ptr, fd > 0 ∧ s = start A fd ptr
  step s
    | .read chunks => (s.channel.read A chunks .error).map fun out =>
      { s with channel := out.1, log := s.log ++ chunks.flatten }
    | .getReceivedData =>
      some { s with
        channel := s.channel.getReceivedData.1
        returned := s.returned ++ s.channel.getReceivedData.2 }

def KeepsWithinSize (s : Receiving) : ReceiveCall → Prop
  | .read chunks => Channel.Fits A s.channel.receivedBuf
      (s.channel.receivedCount + chunks.flatten.length)
  | .getReceivedData => s.channel.receivedCount ≤ s.channel.receivedBuf.size

def abs (s : Receiving) : Conduit UInt8 := ⟨s.log, s.returned, s.channel.buffered⟩

structure Ready (s : Receiving) : Prop where
  active : s.channel.active = true
  size_eq : s.channel.receivedBuf.size = Channel.BUFSIZE
  room : s.channel.receivedCount < s.channel.receivedBuf.capacity

variable {A}

theorem start_ready {fd : Int} (ptr : Option Nat) (hfd : fd > 0) : (start A fd ptr).Ready where
  active := decide_eq_true hfd
  size_eq := List.length_replicate
  room := by
    have hsize : (start A fd ptr).channel.receivedBuf.size = Channel.BUFSIZE := List.length_replicate
    have hle := (start A fd ptr).channel.receivedBuf.size_le
    rw [hsize] at hle
    exact Nat.lt_of_lt_of_le (by decide : 0 < Channel.BUFSIZE) hle

theorem step_spec {s s' : Receiving} {c : ReceiveCall} (h : s.Ready) (hkeeps : s.KeepsWithinSize A c)
    (hstep : (machine A).step s c = some s') : s'.Ready ∧ Moves s.abs s'.abs := by
  have hactive : (!s.channel.active) = false := by simp [h.active]
  have hroom := h.room
  cases c with
  | read chunks =>
    obtain ⟨⟨ch, _⟩, hread, rfl⟩ := Option.map_eq_some_iff.mp hstep
    simp only [Channel.read, hactive, Bool.false_eq_true, if_false] at hread
    obtain ⟨received, hreceive, hch⟩ := Option.map_eq_some_iff.mp hread
    cases hch
    obtain ⟨buf, count, _, rfl⟩ := Channel.receive_cases hreceive
    have htwo : 2 ≤ s.channel.receivedBuf.size := by
      rw [h.size_eq]
      decide
    obtain ⟨hbuffered, hbelow⟩ := Channel.receive_spec htwo (Nat.le_of_lt hroom) hkeeps hreceive
    refine ⟨⟨h.active, (Channel.receive_count hreceive).1.trans h.size_eq, hbelow⟩, ?_⟩
    change Moves ⟨s.log, s.returned, s.channel.buffered⟩
      ⟨s.log ++ chunks.flatten, s.returned, Channel.buffered _⟩
    rw [hbuffered]
    exact .single (.enter _ _ _ _)
  | getReceivedData =>
    simp only [machine, Channel.getReceivedData_eq (fun _ => h.active) hkeeps, Option.some.injEq] at hstep
    subst hstep
    refine ⟨⟨h.active, h.size_eq, Nat.zero_lt_of_lt hroom⟩, ?_⟩
    have htake : s.channel.buffered.take s.channel.receivedCount = s.channel.buffered :=
      List.take_of_length_le (List.length_take_le _ _)
    have hdrop : s.channel.buffered.drop s.channel.receivedCount = [] :=
      List.drop_eq_nil_of_le (List.length_take_le _ _)
    have hmove := Move.leave s.log s.returned s.channel.buffered s.channel.receivedCount
    rw [htake, hdrop] at hmove
    exact .single hmove

theorem ready_of_reachable {s : Receiving}
    (h : (machine A).ReachableUnder (KeepsWithinSize A) s) : s.Ready := by
  apply h.invariant
  · rintro s ⟨fd, ptr, hfd, rfl⟩
    exact start_ready ptr hfd
  · intro s c s' hs hkeeps hstep
    exact (step_spec hs hkeeps hstep).1

/-- Nothing is lost, repeated, altered or reordered in a run that keeps within the size. -/
theorem conserved_of_reachable (A : Allocator) (s : Receiving)
    (h : (machine A).ReachableUnder (KeepsWithinSize A) s) :
    s.returned ++ s.channel.buffered = s.log := by
  refine conserved_of_refines abs (fun _ => ready_of_reachable) ?_ ?_ h
  · rintro s ⟨fd, ptr, _, rfl⟩
    rfl
  · intro s c s' hs hkeeps hstep
    exact (step_spec hs hkeeps hstep).2

theorem conserved_doubling : ∃ s,
    (machine Allocator.doubling).run (start Allocator.doubling 5 none)
      [.read [[1, 2], [3]], .getReceivedData] = some s ∧
      s.returned ++ s.channel.buffered = s.log := by
  have hinit : (machine Allocator.doubling).init (start Allocator.doubling 5 none) :=
    ⟨5, none, by decide, rfl⟩
  have hfits : KeepsWithinSize Allocator.doubling (start Allocator.doubling 5 none)
      (.read [[1, 2], [3]]) := .inl (by decide +kernel)
  obtain ⟨t, ht⟩ : ∃ t, (machine Allocator.doubling).step (start Allocator.doubling 5 none)
      (.read [[1, 2], [3]]) = some t := Option.isSome_iff_exists.mp (by decide +kernel)
  have hread := (Machine.ReachableUnder.init hinit).step hfits ht
  have hcount : ((machine Allocator.doubling).step (start Allocator.doubling 5 none)
      (.read [[1, 2], [3]])).map (fun t => t.channel.receivedCount) = some 3 := by decide +kernel
  rw [ht, Option.map_some, Option.some.injEq] at hcount
  have hkeeps : KeepsWithinSize Allocator.doubling t .getReceivedData := by
    have hsize := (ready_of_reachable hread).size_eq
    simp only [KeepsWithinSize, hcount, hsize]
    decide
  refine ⟨_, ?_, conserved_of_reachable Allocator.doubling _ (hread.step hkeeps rfl)⟩
  rw [Machine.run_cons, ht]
  rfl

/-- The last byte of 129 that one `Read` stores is behind the size of the string. -/
theorem byte_behind_size_is_lost : ∃ s, (machine Allocator.doubling).Reachable s ∧
    s.returned ++ s.channel.buffered ≠ s.log := by
  have hlengths : ((machine Allocator.doubling).run (start Allocator.doubling 5 none)
      [.read [List.replicate 128 1, [2]], .getReceivedData]).map
        (fun s => (s.returned.length + s.channel.buffered.length, s.log.length)) =
      some (128, 129) := by decide +kernel
  obtain ⟨s, hrun, hlength⟩ := Option.map_eq_some_iff.mp hlengths
  refine ⟨s, Machine.reachable_of_run ⟨5, none, by decide, rfl⟩ hrun, ?_⟩
  intro hconserved
  have hcongr := congrArg List.length hconserved
  simp only [Prod.mk.injEq] at hlength
  rw [List.length_append] at hcongr
  omega

end Receiving

end ServerDevLib.Reactor
