import ServerDevLib.Reactor.Announcements
import ServerDevLib.Reactor.ReceiveRuns

/-!
# Bytes and the end of the file

The bytes that `::read` stores in a channel and those that `GetReceivedData`
returns are recorded beside the center. A `Read` that meets the end of the
file makes the channel inactive and reports the close instead of the bytes it
has stored, and `GetReceivedData` returns nothing for an inactive channel. Only
what has been fetched by then is not lost.
-/

namespace ServerDevLib.Reactor

open Transition

/-- The center, with the bytes stored in each channel and those returned from it. -/
structure Delivery (W D : Type) where
  center : NotificationCenter W D
  stored : Nat → List UInt8
  returned : Nat → List UInt8

namespace NotificationCenter

variable {W D : Type}

/-- The channel whose buffer the step fills, with the bytes. -/
def stores (s : NotificationCenter W D) : Action W D → Option (Nat × List UInt8)
  | .store w chunks _ =>
    match s.worker w with
    | .reading c => some (c, chunks.flatten)
    | _ => none
  | _ => none

/-- The channel whose buffer the step empties, with the bytes. -/
def returns (s : NotificationCenter W D) : Action W D → Option (Nat × List UInt8)
  | .getReceivedData =>
    match s.consumer with
    | .holding c _ _ => some (c, (s.chan c).getReceivedData.2)
    | _ => none
  | _ => none

end NotificationCenter

def record (log : Nat → List UInt8) : Option (Nat × List UInt8) → Nat → List UInt8
  | none => log
  | some (c, bytes) => Function.update log c (log c ++ bytes)

theorem record_self (log : Nat → List UInt8) (c : Nat) (bytes : List UInt8) :
    record log (some (c, bytes)) c = log c ++ bytes :=
  Function.update_self ..

theorem record_of_ne {c c' : Nat} (h : c' ≠ c) (log : Nat → List UInt8) (bytes : List UInt8) :
    record log (some (c, bytes)) c' = log c' :=
  Function.update_of_ne h ..

namespace Delivery

open NotificationCenter

variable {W D : Type} {A : Text.Allocator} {s s' : Delivery W D} {c : Nat}

def start (A : Text.Allocator) : Delivery W D :=
  { center := initial A, stored := fun _ => [], returned := fun _ => [] }

/-- The buffer of a channel holds what was stored in it and not returned yet, within its size. -/
structure Held (s : Delivery W D) (c : Nat) : Prop where
  sized : (s.center.chan c).receivedBuf.size = Channel.BUFSIZE
  room : (s.center.chan c).receivedCount < (s.center.chan c).receivedBuf.capacity
  bound : (s.center.chan c).receivedCount ≤ Channel.BUFSIZE
  stored_eq : s.stored c = s.returned c ++ (s.center.chan c).buffered

theorem Held.two_le (h : s.Held c) : 2 ≤ (s.center.chan c).receivedBuf.size := by
  rw [h.sized]
  decide

theorem Held.congr (h : s.Held c)
    (hbuf : (s'.center.chan c).receivedBuf = (s.center.chan c).receivedBuf)
    (hcount : (s'.center.chan c).receivedCount = (s.center.chan c).receivedCount)
    (hstored : s'.stored c = s.stored c) (hreturned : s'.returned c = s.returned c) :
    s'.Held c where
  sized := by
    rw [hbuf]
    exact h.sized
  room := by
    rw [hbuf, hcount]
    exact h.room
  bound := by
    rw [hcount]
    exact h.bound
  stored_eq := by
    rw [hstored, hreturned, h.stored_eq, Channel.buffered, Channel.buffered, hbuf, hcount]

/-- A step that writes one channel keeps what the others hold. -/
theorem Held.of_ne (h : s.Held c) {c' : Nat} {ch : Channel} (hne : c ≠ c')
    (hchan : s'.center.chan c = (s.center.setChan c' ch).chan c)
    (hstored : s'.stored c = s.stored c) (hreturned : s'.returned c = s.returned c) :
    s'.Held c := by
  rw [setChan_of_ne hne] at hchan
  exact h.congr (congrArg _ hchan) (congrArg _ hchan) hstored hreturned

/-- A step that changes nothing of what a channel has received. -/
theorem Held.setChan (h : s.Held c) (c' : Nat) (ch : Channel)
    (hbuf : ch.receivedBuf = (s.center.chan c').receivedBuf)
    (hcount : ch.receivedCount = (s.center.chan c').receivedCount)
    (hchan : s'.center.chan c = (s.center.setChan c' ch).chan c)
    (hstored : s'.stored c = s.stored c) (hreturned : s'.returned c = s.returned c) :
    s'.Held c := by
  by_cases hc : c = c'
  · subst hc
    rw [setChan_self] at hchan
    exact h.congr ((congrArg _ hchan).trans hbuf) ((congrArg _ hchan).trans hcount) hstored hreturned
  · exact h.of_ne hc hchan hstored hreturned

theorem Held.store (h : s.Held c) {ch : Channel} {chunks : List (List UInt8)}
    (hreceive : (s.center.chan c).receive A chunks = some ch)
    (hfits : (s.center.chan c).receivedCount + chunks.flatten.length ≤ Channel.BUFSIZE)
    (hchan : s'.center.chan c = ch) (hstored : s'.stored c = s.stored c ++ chunks.flatten)
    (hreturned : s'.returned c = s.returned c) : s'.Held c := by
  obtain ⟨hsize, hcount⟩ := Channel.receive_count hreceive
  obtain ⟨hbuffered, hroom⟩ := Channel.receive_spec h.two_le (Nat.le_of_lt h.room)
    (Channel.fits_of_le_size h.two_le (h.sized ▸ hfits)) hreceive
  subst hchan
  constructor
  · exact hsize.trans h.sized
  · exact hroom
  · exact hcount ▸ hfits
  · rw [hstored, hreturned, hbuffered, h.stored_eq, List.append_assoc]

theorem Held.fetch (h : s.Held c)
    (hactive : 0 < (s.center.chan c).receivedCount → (s.center.chan c).active = true)
    (hchan : s'.center.chan c = (s.center.chan c).getReceivedData.1)
    (hstored : s'.stored c = s.stored c)
    (hreturned : s'.returned c = s.returned c ++ (s.center.chan c).getReceivedData.2) :
    s'.Held c := by
  rw [Channel.getReceivedData_eq hactive (h.sized ▸ h.bound)] at hchan hreturned
  have hempty : (s'.center.chan c).buffered = [] := by
    rw [hchan]
    exact List.take_zero
  constructor
  · rw [hchan]
    exact h.sized
  · rw [hchan]
    exact Nat.zero_lt_of_lt h.room
  · rw [hchan]
    exact Nat.zero_le _
  · rw [hstored, hreturned, hempty, h.stored_eq, List.append_nil]

/-- The object of a channel that is still to be created holds nothing. -/
theorem Held.create (h : s.Held c) (fd : Int)
    (hempty : (s.center.chan c).receivedCount = 0)
    (hchan : s'.center.chan c = Channel.create A fd (some 0))
    (hstored : s'.stored c = s.stored c) (hreturned : s'.returned c = s.returned c) :
    s'.Held c := by
  have hsize : (Channel.create A fd (some 0)).receivedBuf.size = Channel.BUFSIZE :=
    List.length_replicate
  have hle := (Channel.create A fd (some 0)).receivedBuf.size_le
  rw [hsize] at hle
  have hold : (s.center.chan c).buffered = [] := by rw [Channel.buffered, hempty, List.take_zero]
  have hnew : (s'.center.chan c).buffered = [] := by
    rw [hchan]
    exact List.take_zero
  constructor
  · rw [hchan, hsize]
  · rw [hchan]
    exact Nat.lt_of_lt_of_le (by decide : 0 < Channel.BUFSIZE) hle
  · rw [hchan]
    exact Nat.zero_le _
  · rw [hstored, hreturned, h.stored_eq, hold, hnew]

theorem start_held (c : Nat) : (start A : Delivery W D).Held c := by
  have hsize : ((start A : Delivery W D).center.chan c).receivedBuf.size = Channel.BUFSIZE :=
    List.length_replicate
  have hle := ((start A : Delivery W D).center.chan c).receivedBuf.size_le
  rw [hsize] at hle
  constructor
  · exact hsize
  · exact Nat.lt_of_lt_of_le (by decide : 0 < Channel.BUFSIZE) hle
  · exact Nat.zero_le _
  · exact (List.take_zero (l := ((start A : Delivery W D).center.chan c).receivedBuf.mem)).symm

section Steps

variable [DecidableEq W] [DecidableEq D]

def machine (W D : Type) [DecidableEq W] [DecidableEq D] (A : Text.Allocator) :
    Machine (Delivery W D) (Action W D) where
  init s := s = start A
  step s a := (NotificationCenter.step A s.center a).map fun center =>
    { center, stored := record s.stored (s.center.stores a)
      returned := record s.returned (s.center.returns a) }

def Careful (s : Delivery W D) (a : Action W D) : Prop := s.center.Careful a

theorem center_reachable (h : (machine W D A).ReachableUnder Careful s) :
    (NotificationCenter.machine W D A).ReachableUnder NotificationCenter.Careful s.center := by
  apply h.project Delivery.center
  · rintro s rfl
    rfl
  · intro s a s' hcareful hstep
    obtain ⟨center, hcenter, rfl⟩ := Option.map_eq_some_iff.mp hstep
    exact .inr ⟨a, hcareful, hcenter⟩

theorem held_step (s : Delivery W D) (a : Action W D) (s' : Delivery W D)
    (hbase : s.center.Orderly ∧ s.center.Tended) (h : ∀ c, s.Held c) (hcareful : s.Careful a)
    (hstep : (machine W D A).step s a = some s') : ∀ c, s'.Held c := by
  obtain ⟨ho, ht⟩ := hbase
  obtain ⟨center, hcenter, rfl⟩ := Option.map_eq_some_iff.mp hstep
  intro c
  cases step_cases hcenter with
  | @storeError w c' chunks ch hpc hreceive | @storeEof w c' chunks ch hpc hreceive =>
    have hfits : (s.center.chan c').receivedCount + chunks.flatten.length ≤ Channel.BUFSIZE := by
      cases hcareful c' hpc with
      | inl hnone =>
        rw [hnone]
        exact (h c').bound
      | inr hactive => exact hactive.2
    have hstores (ended : ReadEnd) :
        s.center.stores (.store w chunks ended) = some (c', chunks.flatten) := by
      simp only [stores, hpc]
    rw [hstores]
    by_cases hc : c = c'
    · subst hc
      exact (h c).store hreceive hfits (setChan_self c ch) (record_self ..) rfl
    · exact (h c).of_ne hc rfl (record_of_ne hc ..) rfl
  | @getReceivedData c' fd rest hpc =>
    have hreturns : s.center.returns .getReceivedData =
        some (c', (s.center.chan c').getReceivedData.2) := by
      simp only [returns, hpc]
    rw [hreturns]
    by_cases hc : c = c'
    · subst hc
      exact (h c).fetch (fun hpos => (ht.counted c hpos).1) (setChan_self ..) rfl (record_self ..)
    · exact (h c).of_ne hc rfl rfl (record_of_ne hc ..)
  | @accept fd =>
    by_cases hc : c = s.center.nextChan
    · subst hc
      refine (h _).create fd ?_ (setChan_self ..) rfl rfl
      refine Nat.eq_zero_of_not_pos fun hpos => ?_
      exact Nat.lt_irrefl _ (ho.current _ (ht.counted _ hpos).1).1
    · exact (h c).of_ne hc rfl rfl rfl
  | @inactivate w c' | @removeSome d fd c' =>
    exact (h c).setChan c' (s.center.chan c').inactive rfl rfl rfl rfl rfl
  | @append i a =>
    obtain ⟨buf, hch⟩ := (s.center.chan a.target).appendToSend_cases A a.data
    exact (h c).setChan a.target ((s.center.chan a.target).appendToSend A a.data) (by rw [hch])
      (by rw [hch]) rfl rfl rfl
  | enter | findNone | findSome | emplaceNone | emplaceSome | promote | promoteDangling
  | notifyClose | copy | scanned | getChannel | demote | demoteDangling | register | close
  | removeNone | respondSome | respondNone | appendInactive | discard =>
    exact ⟨(h c).sized, (h c).room, (h c).bound, (h c).stored_eq⟩

theorem held_of_reachable (h : (machine W D A).ReachableUnder Careful s) (c : Nat) : s.Held c := by
  have hall : ∀ c, s.Held c := by
    refine h.invariant_on (fun s hs => ?_) ?_ held_step
    · have hcenter := center_reachable hs
      exact ⟨orderly_of_reachable hcenter, tended_of_reachable hcenter⟩
    · rintro s rfl
      exact start_held
  exact hall c

/-- What was stored has been returned or is what `GetReceivedData` returns next. In the latter
case `HandleReadyData` finds the channel, and its entry makes it fetch the bytes, unless a worker
is still in the call that stored them. -/
theorem received_bytes_kept (s : Delivery W D) (h : (machine W D A).ReachableUnder Careful s)
    (c : Nat) :
    s.stored c = s.returned c ++ (s.center.chan c).getReceivedData.2 ∧
    ((s.center.chan c).getReceivedData.2 ≠ [] →
      s.center.allChannel (s.center.chan c).fd = some c ∧
      ((∃ e, s.center.waitToHandleFD.lookup (s.center.chan c).fd = some e ∧ e.state ≠ .ONE) ∨
        ∃ w, (s.center.worker w).Notifies (s.center.chan c).fd ∨ s.center.worker w = .eof c)) := by
  have hcenter := center_reachable h
  have ht := tended_of_reachable hcenter
  have hheld := held_of_reachable h c
  have hdata := Channel.getReceivedData_eq (fun hpos => (ht.counted c hpos).1)
    (hheld.sized ▸ hheld.bound)
  rw [hdata]
  constructor
  · exact hheld.stored_eq
  · intro hne
    have hpos : 0 < (s.center.chan c).receivedCount := by
      refine Nat.pos_of_ne_zero fun hzero => hne ?_
      change (s.center.chan c).receivedBuf.mem.take (s.center.chan c).receivedCount = []
      rw [hzero, List.take_zero]
    obtain ⟨hactive, hregistered⟩ := ht.counted c hpos
    constructor
    · exact ((orderly_of_reachable hcenter).current c hactive).2.resolve_left hregistered
    · rcases ht.attended c hpos with (⟨e, he, hone, _⟩ | ⟨w, hw⟩) | ⟨w, hw⟩
      · exact .inl ⟨e, he, hone⟩
      · exact .inr ⟨w, .inl (notifies_of_announces hw)⟩
      · exact .inr ⟨w, .inr hw⟩

/-- What an inactive channel holds is never returned. -/
theorem inactive_step (a : Action W D) (hcreated : c < s.center.nextChan)
    (hinactive : (s.center.chan c).active = false)
    (hstep : (machine W D A).step s a = some s') :
    c < s'.center.nextChan ∧ (s'.center.chan c).active = false ∧ s'.returned c = s.returned c := by
  obtain ⟨center, hcenter, rfl⟩ := Option.map_eq_some_iff.mp hstep
  have hset {c' : Nat} {ch : Channel} (hactive : ch.active = true → (s.center.chan c').active = true) :
      ((s.center.setChan c' ch).chan c).active = false := by
    refine Bool.eq_false_iff.mpr fun hnow => ?_
    have hold := active_of_setChan hactive hnow
    rw [hinactive] at hold
    cases hold
  cases step_cases hcenter with
  | storeError _ hreceive | storeEof _ hreceive =>
    obtain ⟨buf, count, _, hch⟩ := Channel.receive_cases hreceive
    exact ⟨hcreated, hset (by rw [hch]; exact id), rfl⟩
  | inactivate | removeSome => exact ⟨hcreated, hset nofun, rfl⟩
  | @getReceivedData c' fd rest hpc =>
    have hreturns : s.center.returns .getReceivedData =
        some (c', (s.center.chan c').getReceivedData.2) := by
      simp only [returns, hpc]
    obtain ⟨count, hch, _⟩ := (s.center.chan c').getReceivedData_cases
    refine ⟨hcreated, hset (by rw [hch]; exact id), ?_⟩
    rw [hreturns]
    by_cases hc : c = c'
    · subst hc
      have hnone : (s.center.chan c).getReceivedData.2 = [] := by
        rw [Channel.getReceivedData, hinactive]
        rfl
      apply (record_self ..).trans
      rw [hnone, List.append_nil]
    · exact record_of_ne hc ..
  | accept =>
    refine ⟨Nat.lt_succ_of_lt hcreated, ?_, rfl⟩
    exact (congrArg Channel.active (setChan_of_ne (Nat.ne_of_lt hcreated) _)).trans hinactive
  | @append i a =>
    obtain ⟨buf, hch⟩ := (s.center.chan a.target).appendToSend_cases A a.data
    exact ⟨hcreated, hset (by rw [hch]; exact id), rfl⟩
  | enter | findNone | findSome | emplaceNone | emplaceSome | promote | promoteDangling
  | notifyClose | copy | scanned | getChannel | demote | demoteDangling | register | close
  | removeNone | respondSome | respondNone | appendInactive | discard =>
    exact ⟨hcreated, hinactive, rfl⟩

theorem inactive_run {as : List (Action W D)} (hcreated : c < s.center.nextChan)
    (hinactive : (s.center.chan c).active = false)
    (hrun : (machine W D A).run s as = some s') : s'.returned c = s.returned c := by
  induction as generalizing s with
  | nil =>
    cases hrun
    rfl
  | cons a as ih =>
    obtain ⟨t, ht, hrest⟩ := Option.bind_eq_some_iff.mp hrun
    obtain ⟨hcreated', hinactive', hsame⟩ := inactive_step a hcreated hinactive ht
    exact (ih hcreated' hinactive' hrest).trans hsame

end Steps

instance {W D : Type} [Fintype W] [Fintype D] (s : Delivery W D) (a : Action W D) :
    Decidable (Careful s a) :=
  inferInstanceAs (Decidable (s.center.Careful a))

/-- The number of a connection that has ended is used again, and the new one holds a byte. -/
theorem received_bytes_kept_reuse : ∃ s, (machine Unit Unit .doubling).runUnder Careful
    (start .doubling) [.accept 5, .register, .enter () 0, .store () [[104]] .error, .find (),
      .emplace (), .copy [(5, .MORE)], .getChannel, .getReceivedData, .demote, .getChannel,
      .enter () 0, .store () [] .eof, .inactivate (), .notifyClose (), .close () 5, .remove (),
      .accept 5, .register, .enter () 1, .store () [[105]] .error, .find (), .emplace ()] = some s ∧
    s.stored 1 = s.returned 1 ++ (s.center.chan 1).getReceivedData.2 ∧
    ((s.center.chan 1).getReceivedData.2 ≠ [] →
      s.center.allChannel (s.center.chan 1).fd = some 1 ∧
      ((∃ e, s.center.waitToHandleFD.lookup (s.center.chan 1).fd = some e ∧ e.state ≠ .ONE) ∨
        ∃ w, (s.center.worker w).Notifies (s.center.chan 1).fd ∨ s.center.worker w = .eof 1)) := by
  obtain ⟨s, hs⟩ : ∃ s, (machine Unit Unit .doubling).runUnder Careful
      (start .doubling) [.accept 5, .register, .enter () 0, .store () [[104]] .error, .find (),
        .emplace (), .copy [(5, .MORE)], .getChannel, .getReceivedData, .demote, .getChannel,
        .enter () 0, .store () [] .eof, .inactivate (), .notifyClose (), .close () 5, .remove (),
        .accept 5, .register, .enter () 1, .store () [[105]] .error, .find (), .emplace ()] =
          some s := Option.isSome_iff_exists.mp (by decide +kernel)
  exact ⟨s, hs, received_bytes_kept s (Machine.reachableUnder_of_runUnder rfl hs) 1⟩

/-- One `Read` stores a byte and meets the end of the file; no continuation returns the byte. -/
theorem byte_before_end_is_lost : ∃ s, (machine Unit Unit .doubling).run (start .doubling)
    [.accept 5, .register, .enter () 0, .store () [[104]] .eof, .inactivate (), .notifyClose ()] =
      some s ∧ s.stored 0 = [104] ∧ (s.center.chan 0).getReceivedData.2 = [] ∧
    ∀ as s', (machine Unit Unit .doubling).run s as = some s' → s'.returned 0 = [] := by
  have hview : ((machine Unit Unit .doubling).run (start .doubling)
      [.accept 5, .register, .enter () 0, .store () [[104]] .eof, .inactivate (),
        .notifyClose ()]).map (fun s => (s.stored 0, (s.center.chan 0).getReceivedData.2,
          s.center.nextChan, (s.center.chan 0).active, s.returned 0)) =
            some ([104], [], 1, false, []) := by decide +kernel
  obtain ⟨s, hs, hview⟩ := Option.map_eq_some_iff.mp hview
  simp only [Prod.mk.injEq] at hview
  obtain ⟨hstored, hdata, hnext, hinactive, hreturned⟩ := hview
  refine ⟨s, hs, hstored, hdata, fun as s' hrun => ?_⟩
  have hcreated : 0 < s.center.nextChan := by
    rw [hnext]
    exact Nat.zero_lt_one
  exact (inactive_run hcreated hinactive hrun).trans hreturned

end Delivery

end ServerDevLib.Reactor
