import ServerDevLib.Reactor.IteratorValidity

/-!
# Connections that stay

In a run in which no connection is closed from either side, a channel that is
registered is the one `_allChannel` holds for its descriptor, and it stays
active. Nothing is erased from the map of waiting descriptors.
-/

namespace ServerDevLib.Reactor

open Transition

namespace NotificationCenter

variable {W D : Type} {A : Text.Allocator} {s : NotificationCenter W D}

/-- Channels stay active and in `_allChannel`. -/
def Staying (_ : NotificationCenter W D) : Action W D → Prop
  | .store _ _ .eof => False
  | .close _ _ => False
  | _ => True

instance (s : NotificationCenter W D) (a : Action W D) : Decidable (Staying s a) :=
  match a with
  | .store _ _ .eof | .close _ _ => isFalse id
  | .store _ _ .error | .enter _ _ | .inactivate _ | .find _ | .emplace _ | .promote _
  | .notifyClose _ | .copy _ | .getChannel | .getReceivedData | .demote | .accept _ | .register
  | .remove _ | .respond _ _ | .append _ | .discard _ => isTrue trivial

def Registered (s : NotificationCenter W D) (c : Nat) : Prop :=
  c < s.nextChan ∧ s.accepted ≠ some c

/-- What connections that stay add to the registry. -/
structure Settled (s : NotificationCenter W D) : Prop where
  opened : ∀ d, s.closer d = none
  mapped : ∀ c, s.Registered c → s.allChannel (s.chan c).fd = some c
  known : ∀ fd c, s.allChannel fd = some c → s.isOpen fd = true ∧ s.Registered c
  fresh : ∀ c, s.accepted = some c → s.isOpen (s.chan c).fd = true ∧ s.allChannel (s.chan c).fd = none
  reading : ∀ w c, s.worker w = .reading c → s.Registered c ∧ (s.chan c).active = true
  stays : ∀ w c fd, s.worker w ≠ .eof c ∧ s.worker w ≠ .closing fd
  counted : ∀ c, 0 < (s.chan c).receivedCount → s.Registered c ∧ (s.chan c).active = true
  held : ∀ c fd rest, s.consumer = .holding c fd rest → s.allChannel fd = some c

theorem initial_settled : (initial A : NotificationCenter W D).Settled where
  opened _ := rfl
  mapped _ h := absurd h.1 (Nat.not_lt_zero _)
  known := nofun
  fresh := nofun
  reading := nofun
  stays _ _ _ := ⟨nofun, nofun⟩
  counted _ h := absurd h (Nat.lt_irrefl _)
  held := nofun

theorem Settled.setChan (h : s.Settled) (c : Nat) (ch : Channel) (hfd : ch.fd = (s.chan c).fd)
    (hactive : ch.active = (s.chan c).active)
    (hcounted : 0 < ch.receivedCount → s.Registered c ∧ ch.active = true) :
    (s.setChan c ch).Settled where
  opened := h.opened
  mapped c' hc' := by
    rw [setChan_fd hfd]
    exact h.mapped c' hc'
  known := h.known
  fresh c' hc' := by
    rw [setChan_fd hfd]
    exact h.fresh c' hc'
  reading w c' hc' := by
    rcases eq_or_ne c' c with rfl | hne
    · rw [setChan_self, hactive]
      exact h.reading w c' hc'
    · rw [setChan_of_ne hne]
      exact h.reading w c' hc'
  stays := h.stays
  counted c' hc' := by
    rcases eq_or_ne c' c with rfl | hne
    · rw [setChan_self] at hc' ⊢
      exact hcounted hc'
    · rw [setChan_of_ne hne] at hc' ⊢
      exact h.counted c' hc'
  held := h.held

theorem Settled.goto [DecidableEq W] (h : s.Settled) (w : W) (pc : WorkerPc)
    (hreading : ∀ c, pc = .reading c → s.Registered c ∧ (s.chan c).active = true)
    (hstays : ∀ c fd, pc ≠ .eof c ∧ pc ≠ .closing fd) : (s.goto w pc).Settled where
  opened := h.opened
  mapped := h.mapped
  known := h.known
  fresh := h.fresh
  reading v c hv := by
    rcases worker_goto hv with ⟨_, hpc⟩ | ⟨_, hv⟩
    · exact hreading c hpc
    · exact h.reading v c hv
  stays v c fd := by
    rcases eq_or_ne v w with rfl | hne
    · rw [worker_goto_self]
      exact hstays c fd
    · rw [worker_goto_of_ne hne]
      exact h.stays v c fd
  counted := h.counted
  held := h.held

theorem Settled.consume (h : s.Settled) {pc : ConsumerPc}
    (hpc : ∀ c fd rest, pc = .holding c fd rest → s.allChannel fd = some c) :
    ({ s with consumer := pc } : NotificationCenter W D).Settled :=
  ⟨h.opened, h.mapped, h.known, h.fresh, h.reading, h.stays, h.counted, hpc⟩

theorem Settled.register (h : s.Settled) {c : Nat} (hc : s.accepted = some c)
    (hlt : c < s.nextChan) :
    ({ s with allChannel := s.allChannel.emplace (s.chan c).fd c, accepted := none } :
      NotificationCenter W D).Settled := by
  obtain ⟨hopen, hnone⟩ := h.fresh c hc
  have hregistered {c' : Nat} (hc' : s.Registered c') : c' < s.nextChan ∧ none ≠ some c' :=
    ⟨hc'.1, nofun⟩
  refine ⟨h.opened, fun c' hc' => ?_, fun fd c' hc' => ?_, nofun, fun w c' hc' => ?_, h.stays,
    fun c' hc' => ?_, fun c' fd rest hc' => ChannelMap.emplace_of_some (h.held c' fd rest hc')⟩
  · change s.allChannel.emplace (s.chan c).fd c (s.chan c').fd = some c'
    rcases eq_or_ne c' c with rfl | hne
    · exact ChannelMap.emplace_self hnone c'
    · refine ChannelMap.emplace_of_some (h.mapped c' ⟨hc'.1, ?_⟩)
      rw [hc]
      exact fun heq => hne (Option.some.inj heq).symm
  · rcases ChannelMap.emplace_cases hc' with hc' | ⟨_, rfl, rfl⟩
    · exact ⟨(h.known fd c' hc').1, hregistered (h.known fd c' hc').2⟩
    · exact ⟨hopen, hlt, nofun⟩
  · exact ⟨hregistered (h.reading w c' hc').1, (h.reading w c' hc').2⟩
  · exact ⟨hregistered (h.counted c' hc').1, (h.counted c' hc').2⟩

theorem Settled.accept (h : s.Settled) {fd : Int} (hclosed : s.isOpen fd = false)
    (hidle : s.accepted = none) :
    ({ s.setChan s.nextChan (.create A fd (some 0)) with
        nextChan := s.nextChan + 1
        isOpen := Function.update s.isOpen fd true
        accepted := some s.nextChan } : NotificationCenter W D).Settled := by
  have hchan {c : Nat} (hc : c < s.nextChan) :
      (s.setChan s.nextChan (.create A fd (some 0))).chan c = s.chan c :=
    setChan_of_ne (Nat.ne_of_lt hc) _
  have hregistered {c : Nat} (hc : s.Registered c) :
      c < s.nextChan + 1 ∧ some s.nextChan ≠ some c :=
    ⟨Nat.lt_succ_of_lt hc.1, fun heq => Nat.ne_of_lt hc.1 (Option.some.inj heq).symm⟩
  have hback {c : Nat} (hlt : c < s.nextChan + 1) (hne : some s.nextChan ≠ some c) :
      s.Registered c := by
    refine ⟨Nat.lt_of_le_of_ne (Nat.le_of_lt_succ hlt) ?_, by rw [hidle]; nofun⟩
    rintro rfl
    exact hne rfl
  refine ⟨h.opened, fun c hc => ?_, fun fd' c hc => ?_, ?_, fun w c hc => ?_, h.stays,
    fun c hc => ?_, h.held⟩
  · have hc' := hback hc.1 hc.2
    exact (congrArg _ (congrArg Channel.fd (hchan hc'.1))).trans (h.mapped c hc')
  · exact ⟨open_stays_open (h.known fd' c hc).1, hregistered (h.known fd' c hc).2⟩
  · rintro c ⟨⟩
    have hself : (s.setChan s.nextChan (.create A fd (some 0))).chan s.nextChan =
        .create A fd (some 0) := setChan_self ..
    change Function.update s.isOpen fd true ((s.setChan s.nextChan _).chan s.nextChan).fd = true ∧
      s.allChannel ((s.setChan s.nextChan _).chan s.nextChan).fd = none
    rw [hself]
    refine ⟨Function.update_self .., Option.eq_none_iff_forall_ne_some.mpr fun c hc => ?_⟩
    have hopened := (h.known fd c hc).1
    rw [hclosed] at hopened
    cases hopened
  · obtain ⟨hreg, hactive⟩ := h.reading w c hc
    exact ⟨hregistered hreg, (congrArg Channel.active (hchan hreg.1)).trans hactive⟩
  · rcases eq_or_ne c s.nextChan with rfl | hne
    · change 0 < ((s.setChan s.nextChan _).chan s.nextChan).receivedCount at hc
      rw [setChan_self] at hc
      exact absurd hc (Nat.lt_irrefl _)
    · have hsame : (s.setChan s.nextChan (.create A fd (some 0))).chan c = s.chan c :=
        setChan_of_ne hne _
      have hc' : 0 < (s.chan c).receivedCount := hsame ▸ hc
      obtain ⟨hreg, hactive⟩ := h.counted c hc'
      exact ⟨hregistered hreg, (congrArg Channel.active hsame).trans hactive⟩

variable [DecidableEq W] [DecidableEq D]

theorem settled_step (s : NotificationCenter W D) (a : Action W D) (s' : NotificationCenter W D)
    (hr : s.Registry) (h : s.Settled) (hstaying : Staying s a)
    (hstep : (machine W D A).step s a = some s') : s'.Settled := by
  have hsame {s' : NotificationCenter W D} (hidle : s'.Settled) (m : AList fun _ : Int => Entry)
      (next : Nat) (b : Bool) :
      ({ s' with waitToHandleFD := m, nextNode := next, dangled := b } :
        NotificationCenter W D).Settled :=
    ⟨hidle.opened, hidle.mapped, hidle.known, hidle.fresh, hidle.reading, hidle.stays,
      hidle.counted, hidle.held⟩
  cases step_cases hstep with
  | @enter w c _ hcreated hregistered hactive =>
    refine h.goto w _ ?_ fun _ _ => ⟨nofun, nofun⟩
    rintro c' ⟨⟩
    exact ⟨⟨hcreated, hregistered⟩, hactive⟩
  | storeEof | close => exact hstaying.elim
  | @storeError w c chunks ch hpc hreceive =>
    obtain ⟨buf, count, _, hch⟩ := Channel.receive_cases hreceive
    obtain ⟨hreg, hactive⟩ := h.reading w c hpc
    have hset := h.setChan c ch (by rw [hch]) (by rw [hch]) fun _ => ⟨hreg, by rw [hch, ← hactive]⟩
    exact hset.goto w _ nofun fun _ _ => ⟨nofun, nofun⟩
  | inactivate hpc => exact absurd hpc (h.stays _ _ 0).1
  | notifyClose hpc => exact absurd hpc (h.stays _ 0 _).2
  | findNone | findSome | emplaceSome => exact h.goto _ _ nofun fun _ _ => ⟨nofun, nofun⟩
  | emplaceNone | promote | promoteDangling =>
    exact hsame (h.goto _ .idle nofun fun _ _ => ⟨nofun, nofun⟩) _ _ _
  | copy | scanned => exact h.consume nofun
  | getChannel =>
    apply h.consume
    intro c fd rest hpc
    obtain ⟨hc, rfl⟩ := visit_eq_holding hpc
    exact hc
  | @getReceivedData c =>
    obtain ⟨count, hch, hle, _⟩ := (s.chan c).getReceivedData_cases
    have hset := h.setChan c (s.chan c).getReceivedData.1 (by rw [hch]) (by rw [hch]) fun hpos => by
      rw [hch] at hpos ⊢
      exact h.counted c (Nat.lt_of_lt_of_le hpos hle)
    exact ⟨hset.opened, hset.mapped, hset.known, hset.fresh, hset.reading, hset.stays, hset.counted,
      nofun⟩
  | demote | demoteDangling =>
    exact ⟨h.opened, h.mapped, h.known, h.fresh, h.reading, h.stays, h.counted, nofun⟩
  | accept hidle hunused => exact h.accept hunused hidle
  | register hc => exact h.register hc (hr.fresh _ hc)
  | @removeSome d fd c hclosed | @removeNone d fd hclosed =>
    rw [h.opened d] at hclosed
    cases hclosed
  | respondSome | respondNone | appendInactive | discard =>
    exact ⟨h.opened, h.mapped, h.known, h.fresh, h.reading, h.stays, h.counted, h.held⟩
  | @append i a =>
    obtain ⟨buf, hch⟩ := (s.chan a.target).appendToSend_cases A a.data
    have hset := h.setChan a.target ((s.chan a.target).appendToSend A a.data) (by rw [hch])
      (by rw [hch]) fun hpos => by
        rw [hch] at hpos ⊢
        exact h.counted a.target hpos
    exact ⟨hset.opened, hset.mapped, hset.known, hset.fresh, hset.reading, hset.stays,
      hset.counted, hset.held⟩

theorem settled_of_reachable (h : (machine W D A).ReachableUnder Staying s) : s.Settled := by
  refine h.invariant_on (fun _ => registry_of_reachable) ?_ settled_step
  rintro s rfl
  exact initial_settled

/-- Without closing connections no entry is ever erased. -/
theorem valid_of_staying (h : (machine W D A).ReachableUnder Staying s) : s.Valid := by
  refine valid_of_reachable (h.mono_on (fun _ => settled_of_reachable) ?_)
  intro s a s' hs _ hstep
  cases step_cases hstep with
  | notifyClose hpc => exact absurd hpc (hs.stays _ 0 _).2
  | _ => trivial

end NotificationCenter

end ServerDevLib.Reactor
