import ServerDevLib.Reactor.Readiness

/-!
# Connections that close

Connections come and go, and their numbers are given away again. In the runs
considered here a number is given away when no thread works for its last
connection any more, and a channel that is made inactive has been emptied
before. Then at most one channel of each number is active, a channel with
buffered bytes is active, and these bytes are announced as long as it has any.
-/

namespace ServerDevLib.Reactor

open Transition

/-- The worker is in a call of `Read` on the channel. -/
def WorkerPc.Reads (c : Nat) : WorkerPc → Prop
  | .reading c' | .eof c' => c' = c
  | _ => False

/-- The worker is at work for the connection with this number. -/
def WorkerPc.Serves (chan : Nat → Channel) (fd : Int) : WorkerPc → Prop
  | .idle => False
  | .reading c | .eof c => (chan c).fd = fd
  | .notifying fd' | .emplacing fd' | .found fd' _ | .closing fd' => fd' = fd

theorem WorkerPc.serves_of_reads {chan : Nat → Channel} {pc : WorkerPc} {c : Nat}
    (h : pc.Reads c) : pc.Serves chan (chan c).fd := by
  cases pc with
  | reading c' | eof c' =>
    cases h
    rfl
  | idle | notifying fd' | emplacing fd' | found fd' node | closing fd' => exact h.elim

namespace NotificationCenter

variable {W D : Type} {A : Text.Allocator} {s s' : NotificationCenter W D}

structure Unattended (s : NotificationCenter W D) (fd : Int) : Prop where
  workers : ∀ w, ¬ (s.worker w).Serves s.chan fd
  consumer : ¬ s.consumer.Pending fd
  closers : ∀ d, s.closer d ≠ some fd

/-- A number is given away when nobody works for it, a connection is closed after it was
registered, and bytes are stored within the size of an active channel, which is emptied before
it becomes inactive. -/
def Careful (s : NotificationCenter W D) : Action W D → Prop
  | .store w chunks _ => ∀ c, s.worker w = .reading c → chunks.flatten = [] ∨
      (s.chan c).active = true ∧
        (s.chan c).receivedCount + chunks.flatten.length ≤ Channel.BUFSIZE
  | .inactivate w => ∀ c, s.worker w = .eof c → (s.chan c).receivedCount = 0
  | .remove d => ∀ fd c, s.closer d = some fd → s.allChannel fd = some c →
      (s.chan c).receivedCount = 0
  | .close _ fd => s.allChannel fd ≠ none
  | .accept fd => s.Unattended fd
  | _ => True

instance (chan : Nat → Channel) (fd : Int) (pc : WorkerPc) : Decidable (pc.Serves chan fd) :=
  match pc with
  | .idle => isFalse id
  | .reading c | .eof c => inferInstanceAs (Decidable ((chan c).fd = fd))
  | .notifying fd' | .emplacing fd' | .found fd' _ | .closing fd' =>
    inferInstanceAs (Decidable (fd' = fd))

instance [Fintype W] [Fintype D] (s : NotificationCenter W D) (fd : Int) :
    Decidable (s.Unattended fd) :=
  decidable_of_iff ((∀ w, ¬ (s.worker w).Serves s.chan fd) ∧ ¬ s.consumer.Pending fd ∧
      ∀ d, s.closer d ≠ some fd)
    ⟨fun h => ⟨h.1, h.2.1, h.2.2⟩, fun h => ⟨h.workers, h.consumer, h.closers⟩⟩

instance [Fintype W] [Fintype D] (s : NotificationCenter W D) (a : Action W D) :
    Decidable (Careful s a) :=
  match a with
  | .store w chunks _ =>
    match h : s.worker w with
    | .reading c => decidable_of_iff (chunks.flatten = [] ∨ (s.chan c).active = true ∧
          (s.chan c).receivedCount + chunks.flatten.length ≤ Channel.BUFSIZE)
        (by simp only [Careful, h, WorkerPc.reading.injEq, forall_eq'])
    | .idle | .eof _ | .notifying _ | .emplacing _ | .found _ _ | .closing _ =>
      isTrue fun _ hc => WorkerPc.noConfusion (h.symm.trans hc)
  | .inactivate w =>
    match h : s.worker w with
    | .eof c => decidable_of_iff ((s.chan c).receivedCount = 0)
        (by simp only [Careful, h, WorkerPc.eof.injEq, forall_eq'])
    | .idle | .reading _ | .notifying _ | .emplacing _ | .found _ _ | .closing _ =>
      isTrue fun _ hc => WorkerPc.noConfusion (h.symm.trans hc)
  | .remove d => decidable_of_iff
      (∀ fd ∈ s.closer d, ∀ c ∈ s.allChannel fd, (s.chan c).receivedCount = 0)
      ⟨fun h fd c hd hc => h fd hd c hc, fun h fd hd c hc => h fd c hd hc⟩
  | .close _ fd => inferInstanceAs (Decidable (s.allChannel fd ≠ none))
  | .accept fd => inferInstanceAs (Decidable (s.Unattended fd))
  | .enter _ _ | .find _ | .emplace _ | .promote _ | .notifyClose _ | .copy _ | .getChannel
  | .getReceivedData | .demote | .register | .respond _ _ | .append _ | .discard _ => isTrue trivial

def InUse (s : NotificationCenter W D) (fd : Int) : Prop :=
  s.isOpen fd = true ∨ ∃ d, s.closer d = some fd

/-- Every channel that has had this number is inactive. -/
def Dead (s : NotificationCenter W D) (fd : Int) : Prop :=
  ∀ c, (s.chan c).fd = fd → (s.chan c).active = false

/-- No other channel of the number is active. -/
def Alone (s : NotificationCenter W D) (c : Nat) : Prop :=
  ∀ c', (s.chan c').fd = (s.chan c).fd → (s.chan c').active = true → c' = c

structure Orderly (s : NotificationCenter W D) : Prop where
  filed : ∀ fd c, s.allChannel fd = some c →
    c < s.nextChan ∧ (s.chan c).fd = fd ∧ s.accepted ≠ some c ∧ s.InUse fd
  accepted : ∀ c, s.accepted = some c →
    c < s.nextChan ∧ s.isOpen (s.chan c).fd = true ∧ s.allChannel (s.chan c).fd = none
  current : ∀ c, (s.chan c).active = true →
    c < s.nextChan ∧ (s.accepted = some c ∨ s.allChannel (s.chan c).fd = some c)
  reading : ∀ w c, (s.worker w).Reads c → c < s.nextChan ∧ s.accepted ≠ some c ∧ s.Alone c
  closing : ∀ w fd, s.worker w = .closing fd → s.Dead fd

theorem initial_orderly : (initial A : NotificationCenter W D).Orderly where
  filed := nofun
  accepted := nofun
  current _ h := Bool.noConfusion h
  reading _ _ h := h.elim
  closing := nofun

theorem active_of_setChan {c : Nat} {ch : Channel}
    (hactive : ch.active = true → (s.chan c).active = true) {c' : Nat}
    (h : ((s.setChan c ch).chan c').active = true) : (s.chan c').active = true := by
  rcases eq_or_ne c' c with rfl | hne
  · rw [setChan_self] at h
    exact hactive h
  · rw [setChan_of_ne hne] at h
    exact h

theorem Dead.setChan {fd : Int} (h : s.Dead fd) {c : Nat} {ch : Channel}
    (hfd : ch.fd = (s.chan c).fd) (hactive : ch.active = true → (s.chan c).active = true) :
    (s.setChan c ch).Dead fd := by
  intro c' hc'
  rw [setChan_fd hfd] at hc'
  refine Bool.eq_false_iff.mpr fun hactive' => ?_
  have hold := active_of_setChan hactive hactive'
  rw [h c' hc'] at hold
  cases hold

/-- At most one channel of each number is active. -/
theorem Orderly.alone (h : s.Orderly) {c : Nat} (hactive : (s.chan c).active = true) :
    s.Alone c := by
  intro c' hfd hactive'
  cases (h.current c hactive).2 with
  | inl hc =>
    have hnone := (h.accepted c hc).2.2
    cases (h.current c' hactive').2 with
    | inl hc' => exact Option.some.inj (hc'.symm.trans hc)
    | inr hc' =>
      rw [hfd, hnone] at hc'
      cases hc'
  | inr hc =>
    cases (h.current c' hactive').2 with
    | inl hc' =>
      have hnone := (h.accepted c' hc').2.2
      rw [hfd, hc] at hnone
      cases hnone
    | inr hc' =>
      rw [hfd, hc] at hc'
      exact (Option.some.inj hc').symm

/-- A filed channel is the one of its number that may be active. -/
theorem Orderly.alone_of_filed (h : s.Orderly) {fd : Int} {c : Nat}
    (hc : s.allChannel fd = some c) : s.Alone c := by
  obtain ⟨_, hfd, _⟩ := h.filed fd c hc
  intro c' hfd' hactive'
  rw [hfd] at hfd'
  cases (h.current c' hactive').2 with
  | inl hc' =>
    have hnone := (h.accepted c' hc').2.2
    rw [hfd', hc] at hnone
    cases hnone
  | inr hc' =>
    rw [hfd', hc] at hc'
    exact (Option.some.inj hc').symm

theorem dead_of_alone {c : Nat} (halone : s.Alone c) :
    (s.setChan c (s.chan c).inactive).Dead (s.chan c).fd := by
  intro c' hfd
  have hsame : (s.chan c).inactive.fd = (s.chan c).fd := rfl
  rw [setChan_fd hsame] at hfd
  rcases eq_or_ne c' c with rfl | hne
  · rw [setChan_self]
    rfl
  · rw [setChan_of_ne hne]
    exact Bool.eq_false_iff.mpr fun hactive => hne (halone c' hfd hactive)

theorem Orderly.setChan (h : s.Orderly) (c : Nat) (ch : Channel) (hfd : ch.fd = (s.chan c).fd)
    (hactive : ch.active = true → (s.chan c).active = true) : (s.setChan c ch).Orderly where
  filed fd c' hc' := by
    rw [setChan_fd hfd]
    exact h.filed fd c' hc'
  accepted c' hc' := by
    rw [setChan_fd hfd]
    exact h.accepted c' hc'
  current c' hc' := by
    rw [setChan_fd hfd]
    exact h.current c' (active_of_setChan hactive hc')
  reading w c' hc' := by
    obtain ⟨hlt, hregistered, halone⟩ := h.reading w c' hc'
    refine ⟨hlt, hregistered, fun c'' hfd' hactive' => ?_⟩
    rw [setChan_fd hfd, setChan_fd hfd] at hfd'
    exact halone c'' hfd' (active_of_setChan hactive hactive')
  closing w fd hw := (h.closing w fd hw).setChan hfd hactive

theorem Orderly.goto [DecidableEq W] (h : s.Orderly) (w : W) (pc : WorkerPc)
    (hreads : ∀ c, pc.Reads c → c < s.nextChan ∧ s.accepted ≠ some c ∧ s.Alone c)
    (hclosing : ∀ fd, pc = .closing fd → s.Dead fd) : (s.goto w pc).Orderly where
  filed := h.filed
  accepted := h.accepted
  current := h.current
  reading v c hv := by
    rcases eq_or_ne v w with rfl | hne
    · rw [worker_goto_self] at hv
      exact hreads c hv
    · rw [worker_goto_of_ne hne] at hv
      exact h.reading v c hv
  closing v fd hv := by
    rcases worker_goto hv with ⟨_, hpc⟩ | ⟨_, hv⟩
    · exact hclosing fd hpc
    · exact h.closing v fd hv

/-- A new channel has another number. -/
theorem Dead.accept {fd fd' : Int} (h : s.Dead fd') (hne : fd' ≠ fd) :
    (s.setChan s.nextChan (.create A fd (some 0))).Dead fd' := by
  intro c hfd
  rcases eq_or_ne c s.nextChan with rfl | hother
  · rw [setChan_self] at hfd
    exact absurd hfd.symm hne
  · rw [setChan_of_ne hother] at hfd ⊢
    exact h c hfd

theorem Orderly.unfiled (h : s.Orderly) {fd : Int} (hunused : s.isOpen fd = false)
    (hclosers : ∀ d, s.closer d ≠ some fd) : s.allChannel fd = none := by
  refine Option.eq_none_iff_forall_ne_some.mpr fun c hc => ?_
  rcases (h.filed fd c hc).2.2.2 with hopen | ⟨d, hd⟩
  · rw [hunused] at hopen
    cases hopen
  · exact hclosers d hd

theorem Orderly.accept (h : s.Orderly) {fd : Int} (hidle : s.accepted = none)
    (hunused : s.isOpen fd = false) (hun : s.Unattended fd) :
    ({ s.setChan s.nextChan (.create A fd (some 0)) with
        nextChan := s.nextChan + 1
        isOpen := Function.update s.isOpen fd true
        accepted := some s.nextChan } : NotificationCenter W D).Orderly := by
  have hold {c : Nat} (hc : c < s.nextChan) :
      (s.setChan s.nextChan (.create A fd (some 0))).chan c = s.chan c :=
    setChan_of_ne (Nat.ne_of_lt hc) _
  have hnew : (s.setChan s.nextChan (.create A fd (some 0))).chan s.nextChan =
      .create A fd (some 0) := setChan_self ..
  have hne {c : Nat} (hc : c < s.nextChan) : some s.nextChan ≠ some c :=
    fun heq => Nat.ne_of_lt hc (Option.some.inj heq).symm
  have hunfiled := h.unfiled hunused hun.closers
  constructor
  · intro fd' c hc
    obtain ⟨hlt, hfd, _, huse⟩ := h.filed fd' c hc
    refine ⟨Nat.lt_succ_of_lt hlt, (congrArg Channel.fd (hold hlt)).trans hfd, hne hlt, ?_⟩
    exact huse.imp_left open_stays_open
  · rintro c ⟨⟩
    change s.nextChan < s.nextChan + 1 ∧ Function.update s.isOpen fd true _ = true ∧
      s.allChannel ((s.setChan s.nextChan _).chan s.nextChan).fd = none
    rw [hnew]
    exact ⟨Nat.lt_succ_self _, Function.update_self .., hunfiled⟩
  · intro c hc
    rcases eq_or_ne c s.nextChan with rfl | hother
    · exact ⟨Nat.lt_succ_self _, .inl rfl⟩
    · have hsame : (s.setChan s.nextChan (.create A fd (some 0))).chan c = s.chan c :=
        setChan_of_ne hother _
      obtain ⟨hlt, hc⟩ := h.current c ((congrArg Channel.active hsame).symm.trans hc)
      refine ⟨Nat.lt_succ_of_lt hlt, .inr ?_⟩
      cases hc with
      | inl hc =>
        rw [hidle] at hc
        cases hc
      | inr hc => exact (congrArg _ (congrArg Channel.fd hsame)).trans hc
  · intro w c hw
    obtain ⟨hlt, _, halone⟩ := h.reading w c hw
    refine ⟨Nat.lt_succ_of_lt hlt, hne hlt, fun c' hfd hactive => ?_⟩
    have hserved : (s.chan c).fd ≠ fd := by
      rintro rfl
      exact hun.workers w (WorkerPc.serves_of_reads hw)
    have hfd' := hfd.trans (congrArg Channel.fd (hold hlt))
    rcases eq_or_ne c' s.nextChan with rfl | hother
    · exact absurd ((congrArg Channel.fd hnew).symm.trans hfd').symm hserved
    · have hsame : (s.setChan s.nextChan (.create A fd (some 0))).chan c' = s.chan c' :=
        setChan_of_ne hother _
      exact halone c' ((congrArg Channel.fd hsame).symm.trans hfd')
        ((congrArg Channel.active hsame).symm.trans hactive)
  · intro w fd' hw
    have hne : fd' ≠ fd := by
      rintro rfl
      refine absurd ?_ (hun.workers w)
      rw [show s.worker w = .closing fd' from hw]
      rfl
    exact (h.closing w fd' hw).accept hne

theorem Orderly.register (h : s.Orderly) {c : Nat} (hc : s.accepted = some c) :
    ({ s with allChannel := s.allChannel.emplace (s.chan c).fd c, accepted := none } :
      NotificationCenter W D).Orderly := by
  obtain ⟨hlt, hopen, hnone⟩ := h.accepted c hc
  constructor
  · intro fd c' hc'
    rcases ChannelMap.emplace_cases hc' with hc' | ⟨_, rfl, rfl⟩
    · obtain ⟨hlt', hfd, _, huse⟩ := h.filed fd c' hc'
      exact ⟨hlt', hfd, nofun, huse⟩
    · exact ⟨hlt, rfl, nofun, .inl hopen⟩
  · exact nofun
  · intro c' hc'
    obtain ⟨hlt', hcases⟩ := h.current c' hc'
    refine ⟨hlt', .inr ?_⟩
    cases hcases with
    | inl hc' =>
      obtain rfl := Option.some.inj (hc.symm.trans hc')
      exact ChannelMap.emplace_self hnone c
    | inr hc' => exact ChannelMap.emplace_of_some hc'
  · intro w c' hw
    obtain ⟨hlt', _, halone⟩ := h.reading w c' hw
    exact ⟨hlt', nofun, halone⟩
  · exact h.closing

section Closers

variable [DecidableEq D]

theorem Orderly.close (h : s.Orderly) {d : D} {fd : Int} (hidle : s.closer d = none)
    (hfiled : s.allChannel fd ≠ none) :
    ({ s with
        isOpen := Function.update s.isOpen fd false
        closer := Function.update s.closer d (some fd) } : NotificationCenter W D).Orderly := by
  constructor
  · intro fd' c hc
    obtain ⟨hlt, hfd, hregistered, huse⟩ := h.filed fd' c hc
    refine ⟨hlt, hfd, hregistered, ?_⟩
    rcases eq_or_ne fd' fd with rfl | hne
    · exact .inr ⟨d, Function.update_self ..⟩
    · rcases huse with hopen | ⟨d', hd'⟩
      · exact .inl ((Function.update_of_ne hne ..).trans hopen)
      · have hother : d' ≠ d := by
          rintro rfl
          rw [hidle] at hd'
          cases hd'
        exact .inr ⟨d', (Function.update_of_ne hother ..).trans hd'⟩
  · intro c hc
    obtain ⟨hlt, hopen, hnone⟩ := h.accepted c hc
    have hne : (s.chan c).fd ≠ fd := by
      rintro rfl
      exact hfiled hnone
    exact ⟨hlt, (Function.update_of_ne hne ..).trans hopen, hnone⟩
  · exact h.current
  · exact h.reading
  · exact h.closing

/-- The number of the removed channel is the only one that stops being in use. -/
theorem InUse.remove {fd fd' : Int} (h : s.InUse fd') {d : D} (hclosed : s.closer d = some fd)
    (hne : fd' ≠ fd) :
    ({ s with closer := Function.update s.closer d none } : NotificationCenter W D).InUse fd' := by
  rcases h with hopen | ⟨d', hd'⟩
  · exact .inl hopen
  · have hother : d' ≠ d := by
      rintro rfl
      exact hne (Option.some.inj (hd'.symm.trans hclosed))
    exact .inr ⟨d', (Function.update_of_ne hother ..).trans hd'⟩

theorem Orderly.removeSome (h : s.Orderly) {d : D} {fd : Int} {c : Nat}
    (hclosed : s.closer d = some fd) (hfiled : s.allChannel fd = some c) :
    ({ s.setChan c (s.chan c).inactive with
        closer := Function.update s.closer d none
        allChannel := s.allChannel.erase fd } : NotificationCenter W D).Orderly := by
  have hset := h.setChan c (s.chan c).inactive rfl nofun
  constructor
  · intro fd' c' hc'
    obtain ⟨hne, hc'⟩ := ChannelMap.erase_cases hc'
    obtain ⟨hlt, hfd, hregistered, huse⟩ := hset.filed fd' c' hc'
    exact ⟨hlt, hfd, hregistered, huse.remove hclosed hne⟩
  · intro c' hc'
    obtain ⟨hlt, hopen, hnone⟩ := hset.accepted c' hc'
    exact ⟨hlt, hopen, ChannelMap.erase_of_none hnone⟩
  · intro c' hc'
    obtain ⟨hlt, hcases⟩ := hset.current c' hc'
    refine ⟨hlt, hcases.imp_right fun hc'' => (ChannelMap.erase_of_ne ?_).trans hc''⟩
    intro hfd
    obtain rfl := Option.some.inj (hfiled.symm.trans ((congrArg _ hfd).symm.trans hc''))
    change ((s.setChan c (s.chan c).inactive).chan c).active = true at hc'
    rw [setChan_self] at hc'
    cases hc'
  · exact hset.reading
  · exact hset.closing

theorem Orderly.removeNone (h : s.Orderly) {d : D} {fd : Int} (hclosed : s.closer d = some fd)
    (hnone : s.allChannel fd = none) :
    ({ s with closer := Function.update s.closer d none } : NotificationCenter W D).Orderly := by
  constructor
  · intro fd' c hc
    obtain ⟨hlt, hfd, hregistered, huse⟩ := h.filed fd' c hc
    have hne : fd' ≠ fd := by
      rintro rfl
      rw [show s.allChannel fd' = some c from hc] at hnone
      cases hnone
    exact ⟨hlt, hfd, hregistered, huse.remove hclosed hne⟩
  · exact h.accepted
  · exact h.current
  · exact h.reading
  · exact h.closing

end Closers

section Steps

variable [DecidableEq W] [DecidableEq D]

theorem orderly_step : (machine W D A).Preserves Careful Orderly := by
  intro s a s' h hcareful hstep
  have hsame {s' : NotificationCenter W D} (hidle : s'.Orderly) (m : AList fun _ : Int => Entry)
      (next : Nat) (b : Bool) :
      ({ s' with waitToHandleFD := m, nextNode := next, dangled := b } :
        NotificationCenter W D).Orderly :=
    ⟨hidle.filed, hidle.accepted, hidle.current, hidle.reading, hidle.closing⟩
  cases step_cases hstep with
  | @enter w c _ hcreated hregistered hactive =>
    refine h.goto w _ ?_ nofun
    rintro c' rfl
    exact ⟨hcreated, hregistered, h.alone hactive⟩
  | @storeError w c chunks ch hpc hreceive =>
    obtain ⟨buf, count, _, hch⟩ := Channel.receive_cases hreceive
    have hset := h.setChan c ch (by rw [hch]) (by rw [hch]; exact id)
    exact hset.goto w _ (fun _ => False.elim) nofun
  | @storeEof w c chunks ch hpc hreceive =>
    obtain ⟨buf, count, _, hch⟩ := Channel.receive_cases hreceive
    have hset := h.setChan c ch (by rw [hch]) (by rw [hch]; exact id)
    refine hset.goto w _ ?_ nofun
    rintro c' rfl
    apply hset.reading w
    rw [show (s.setChan c ch).worker w = .reading c from hpc]
    rfl
  | @inactivate w c hpc =>
    have hset := h.setChan c (s.chan c).inactive rfl nofun
    refine hset.goto w _ (fun _ => False.elim) ?_
    rintro fd ⟨⟩
    refine dead_of_alone (h.reading w c ?_).2.2
    rw [hpc]
    rfl
  | findNone | findSome | emplaceSome => exact h.goto _ _ (fun _ => False.elim) nofun
  | emplaceNone | promote | promoteDangling | notifyClose =>
    exact hsame (h.goto _ .idle (fun _ => False.elim) nofun) _ _ _
  | copy | scanned | getChannel | demote | demoteDangling | respondSome | respondNone
  | appendInactive | discard => exact ⟨h.filed, h.accepted, h.current, h.reading, h.closing⟩
  | @getReceivedData c =>
    obtain ⟨count, hch, _⟩ := (s.chan c).getReceivedData_cases
    have hset := h.setChan c (s.chan c).getReceivedData.1 (by rw [hch]) (by rw [hch]; exact id)
    exact ⟨hset.filed, hset.accepted, hset.current, hset.reading, hset.closing⟩
  | accept hidle hunused => exact h.accept hidle hunused hcareful
  | register hc => exact h.register hc
  | close hidle => exact h.close hidle hcareful
  | removeSome hclosed hfiled => exact h.removeSome hclosed hfiled
  | removeNone hclosed hnone => exact h.removeNone hclosed hnone
  | @append i a =>
    obtain ⟨buf, hch⟩ := (s.chan a.target).appendToSend_cases A a.data
    have hset := h.setChan a.target ((s.chan a.target).appendToSend A a.data) (by rw [hch])
      (by rw [hch]; exact id)
    exact ⟨hset.filed, hset.accepted, hset.current, hset.reading, hset.closing⟩

theorem orderly_of_reachable (h : (machine W D A).ReachableUnder Careful s) : s.Orderly := by
  refine h.invariant ?_ orderly_step
  rintro s rfl
  exact initial_orderly

end Steps

end NotificationCenter

end ServerDevLib.Reactor
