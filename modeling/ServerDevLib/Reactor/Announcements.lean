import ServerDevLib.Reactor.ClosingChannels

/-!
# Announced bytes of connections that close

Once a connection has ended, the entry of its number may go while a worker or
`HandleReadyData` still means to use it. Nothing depends on it any more: the
bytes of the last channel are gone, and no other channel has the number yet.
Where a number is not dead, its entry is there as in the runs in which
connections stay. A worker that has seen the end of the file does not announce
what it has stored; the channel counts as attended until it is made inactive.
-/

namespace ServerDevLib.Reactor

open Transition

namespace NotificationCenter

variable {W D : Type} {A : Text.Allocator} {s s' : NotificationCenter W D}

/-- What is buffered is announced, or the `Read` that met the end of the file is not finished. -/
def Attended (s : NotificationCenter W D) (c : Nat) : Prop :=
  s.Announced (s.chan c).fd ∨ ∃ w, s.worker w = .eof c

structure Tended (s : NotificationCenter W D) : Prop where
  found : ∀ w fd node, s.worker w = .found fd node →
    s.Dead fd ∨ ∃ e, s.waitToHandleFD.lookup fd = some e ∧ e.node = node
  raised : ∀ fd, s.consumer.Pending fd →
    s.Dead fd ∨ ∃ e, s.waitToHandleFD.lookup fd = some e ∧ e.state ≠ .ONE
  once : s.consumer.queue.Nodup
  held : ∀ c fd rest, s.consumer = .holding c fd rest → s.Dead fd ∨ s.allChannel fd = some c
  counted : ∀ c, 0 < (s.chan c).receivedCount → (s.chan c).active = true ∧ s.accepted ≠ some c
  attended : ∀ c, 0 < (s.chan c).receivedCount → s.Attended c

theorem initial_tended : (initial A : NotificationCenter W D).Tended where
  found := nofun
  raised _ h := h.elim
  once := List.nodup_nil
  held := nofun
  counted _ h := absurd h (Nat.lt_irrefl 0)
  attended _ h := absurd h (Nat.lt_irrefl 0)

theorem Tended.not_dead (h : s.Tended) {c : Nat} (hcount : 0 < (s.chan c).receivedCount) :
    ¬ s.Dead (s.chan c).fd := by
  intro hdead
  have hactive := (h.counted c hcount).1
  rw [hdead c rfl] at hactive
  cases hactive

theorem Attended.congr {c : Nat} (h : s.Attended c) (hworker : s'.worker = s.worker)
    (hfd : (s'.chan c).fd = (s.chan c).fd)
    (hlookup : s'.waitToHandleFD.lookup (s.chan c).fd = s.waitToHandleFD.lookup (s.chan c).fd)
    (hdrained : s'.consumer.Drained (s.chan c).fd → s.consumer.Drained (s.chan c).fd) :
    s'.Attended c := by
  rcases h with hann | ⟨w, hw⟩
  · left
    rw [hfd]
    exact hann.congr hworker hlookup hdrained
  · exact .inr ⟨w, (congrFun hworker w).trans hw⟩

theorem Attended.goto [DecidableEq W] {c : Nat} (h : s.Attended c) {w : W} {pc : WorkerPc}
    (hpc : (s.worker w).Announces (s.chan c).fd (s.waitToHandleFD.lookup (s.chan c).fd = none) →
      pc.Announces (s.chan c).fd (s.waitToHandleFD.lookup (s.chan c).fd = none) ∨
        s.Covered (s.chan c).fd)
    (heof : s.worker w ≠ .eof c) : (s.goto w pc).Attended c := by
  rcases h with hann | ⟨v, hv⟩
  · exact .inl (hann.goto hpc)
  · have hne : v ≠ w := by
      rintro rfl
      exact heof hv
    exact .inr ⟨v, (worker_goto_of_ne hne pc).trans hv⟩

theorem Tended.goto [DecidableEq W] (h : s.Tended) {w : W} {pc : WorkerPc}
    (hfound : ∀ fd node, pc = .found fd node →
      s.Dead fd ∨ ∃ e, s.waitToHandleFD.lookup fd = some e ∧ e.node = node)
    (hattended : ∀ c, 0 < (s.chan c).receivedCount → (s.goto w pc).Attended c) :
    (s.goto w pc).Tended where
  found v fd node hv := by
    rcases worker_goto hv with ⟨_, hpc⟩ | ⟨_, hv⟩
    · exact hfound fd node hpc
    · exact h.found v fd node hv
  raised := h.raised
  once := h.once
  held := h.held
  counted := h.counted
  attended := hattended

theorem Tended.setChan (h : s.Tended) (c : Nat) (ch : Channel) (hfd : ch.fd = (s.chan c).fd)
    (hactive : ch.active = true → (s.chan c).active = true)
    (hcounted : 0 < ch.receivedCount → ch.active = true ∧ s.accepted ≠ some c)
    (hattended : 0 < ch.receivedCount → s.Attended c) : (s.setChan c ch).Tended where
  found w fd node hw := (h.found w fd node hw).imp_left fun hdead => hdead.setChan hfd hactive
  raised fd hp := (h.raised fd hp).imp_left fun hdead => hdead.setChan hfd hactive
  once := h.once
  held c' fd rest hc' := (h.held c' fd rest hc').imp_left fun hdead => hdead.setChan hfd hactive
  counted c' hcount := by
    rcases eq_or_ne c' c with rfl | hne
    · rw [setChan_self] at hcount ⊢
      exact hcounted hcount
    · rw [setChan_of_ne hne] at hcount ⊢
      exact h.counted c' hcount
  attended c' hcount := by
    have hold : s.Attended c' := by
      rcases eq_or_ne c' c with rfl | hne
      · rw [setChan_self] at hcount
        exact hattended hcount
      · rw [setChan_of_ne hne] at hcount
        exact h.attended c' hcount
    exact hold.congr rfl (setChan_fd hfd c') rfl id

/-- An empty channel can be made inactive. -/
theorem Tended.inactive (h : s.Tended) {c : Nat} (hzero : (s.chan c).receivedCount = 0) :
    (s.setChan c (s.chan c).inactive).Tended := by
  have hempty : ¬ 0 < (s.chan c).inactive.receivedCount := by
    change ¬ 0 < (s.chan c).receivedCount
    rw [hzero]
    exact Nat.lt_irrefl 0
  exact h.setChan c (s.chan c).inactive rfl nofun (fun hpos => absurd hpos hempty)
    fun hpos => absurd hpos hempty

theorem Tended.consume (h : s.Tended) {pc : ConsumerPc}
    (hpending : ∀ fd, pc.Pending fd →
      s.Dead fd ∨ ∃ e, s.waitToHandleFD.lookup fd = some e ∧ e.state ≠ .ONE)
    (hqueue : pc.queue.Nodup)
    (hheld : ∀ c fd rest, pc = .holding c fd rest → s.allChannel fd = some c)
    (hdrained : ∀ fd, ¬ pc.Drained fd) :
    ({ s with consumer := pc } : NotificationCenter W D).Tended where
  found := h.found
  raised := hpending
  once := hqueue
  held c fd rest hc := .inr (hheld c fd rest hc)
  counted := h.counted
  attended c hcount := (h.attended c hcount).congr rfl rfl rfl fun hd => absurd hd (hdrained _)

/-- Writing an entry that is above `ONE`, under a number that is dead or at `MOREPLUS` while a
unit is still to be taken off. -/
theorem Tended.insert (h : s.Tended) {fd : Int} {e : Entry} (next : Nat)
    (hnode : ∀ e', s.waitToHandleFD.lookup fd = some e' → e'.node = e.node)
    (hone : e.state ≠ .ONE)
    (hplus : s.consumer.Drained fd → s.Dead fd ∨ e.state = .MOREPLUS) :
    ({ s with waitToHandleFD := s.waitToHandleFD.insert fd e, nextNode := next } :
      NotificationCenter W D).Tended where
  found w fd' node hw := by
    rcases h.found w fd' node hw with hdead | ⟨e', he', hnode'⟩
    · exact .inl hdead
    · right
      rcases eq_or_ne fd' fd with rfl | hne
      · exact ⟨e, AList.lookup_insert _, (hnode e' he').symm.trans hnode'⟩
      · exact ⟨e', (AList.lookup_insert_ne hne).trans he', hnode'⟩
  raised fd' hp := by
    rcases eq_or_ne fd' fd with rfl | hne
    · exact .inr ⟨e, AList.lookup_insert _, hone⟩
    · rcases h.raised fd' hp with hdead | ⟨e', he', hone'⟩
      · exact .inl hdead
      · exact .inr ⟨e', (AList.lookup_insert_ne hne).trans he', hone'⟩
  once := h.once
  held := h.held
  counted := h.counted
  attended c hcount := by
    by_cases hfd : (s.chan c).fd = fd
    · have hlive := h.not_dead hcount
      rw [hfd] at hlive
      refine .inl (.inl ⟨e, ?_, hone, ?_⟩)
      · rw [hfd]
        exact AList.lookup_insert _
      · rw [hfd]
        exact fun hdrained => (hplus hdrained).resolve_left hlive
    · exact (h.attended c hcount).congr rfl rfl (AList.lookup_insert_ne hfd) id

/-- The entry of a dead number can go. -/
theorem Tended.erase (h : s.Tended) {fd : Int} (hdead : s.Dead fd) :
    ({ s with waitToHandleFD := s.waitToHandleFD.erase fd } : NotificationCenter W D).Tended where
  found w fd' node hw := by
    by_cases hfd : fd' = fd
    · subst hfd
      exact .inl hdead
    · rcases h.found w fd' node hw with hdead' | ⟨e, he, hnode⟩
      · exact .inl hdead'
      · exact .inr ⟨e, (AList.lookup_erase_ne hfd).trans he, hnode⟩
  raised fd' hp := by
    by_cases hfd : fd' = fd
    · subst hfd
      exact .inl hdead
    · rcases h.raised fd' hp with hdead' | ⟨e, he, hone⟩
      · exact .inl hdead'
      · exact .inr ⟨e, (AList.lookup_erase_ne hfd).trans he, hone⟩
  once := h.once
  held := h.held
  counted := h.counted
  attended c hcount := by
    have hne : (s.chan c).fd ≠ fd := by
      rintro rfl
      exact h.not_dead hcount hdead
    exact (h.attended c hcount).congr rfl rfl (AList.lookup_erase_ne hne) id

/-- Lowering the state takes back the unit of the bytes that were fetched. -/
theorem Tended.demote (h : s.Tended) {fd : Int} {rest : List (Int × ReadyState)} {e : Entry}
    (hpc : s.consumer = .drained fd rest) (he : s.waitToHandleFD.lookup fd = some e) :
    ({ s.applySection .HandleReadyData fd e with consumer := .scanning rest } :
      NotificationCenter W D).Tended := by
  have honce := h.once
  rw [hpc] at honce
  obtain ⟨hfresh, hrest⟩ := List.nodup_cons.mp honce
  constructor
  · intro w fd' node hw
    rcases h.found w fd' node hw with hdead | ⟨e', he', hnode⟩
    · exact .inl hdead
    · right
      rcases eq_or_ne fd' fd with rfl | hne
      · obtain rfl := Option.some.inj (he.symm.trans he')
        exact ⟨_, AList.lookup_insert _, hnode⟩
      · exact ⟨e', (AList.lookup_insert_ne hne).trans he', hnode⟩
  · intro fd' hp
    have hne : fd' ≠ fd := by
      rintro rfl
      exact hfresh (mem_queue_of_unvisited hp)
    rcases h.raised fd' (by rw [hpc]; exact .inr hp) with hdead | ⟨e', he', hone⟩
    · exact .inl hdead
    · exact .inr ⟨e', (AList.lookup_insert_ne hne).trans he', hone⟩
  · exact hrest
  · exact nofun
  · exact h.counted
  · intro c hcount
    have hattended : s.Attended c := h.attended c hcount
    by_cases hfd : (s.chan c).fd = fd
    · subst hfd
      rcases hattended with (⟨e', he', _, hplus⟩ | ⟨w, hw⟩) | ⟨w, hw⟩
      · obtain rfl := Option.some.inj (he.symm.trans he')
        have hstate : e.state = .MOREPLUS := hplus (by rw [hpc]; rfl)
        refine .inl (.inl ⟨_, AList.lookup_insert _, ?_, False.elim⟩)
        simp only [hstate]
        exact ReadyState.noConfusion
      · refine .inl (.inr ⟨w, hw.mono fun habsent => ?_⟩)
        rw [he] at habsent
        cases habsent
      · exact .inr ⟨w, hw⟩
    · exact hattended.congr rfl rfl (AList.lookup_insert_ne hfd) False.elim

/-- Once its bytes are fetched, a channel needs no announcement. -/
theorem Tended.fetch (h : s.Tended) (ho : s.Orderly) {c : Nat} {fd : Int}
    {rest : List (Int × ReadyState)} (hpc : s.consumer = .holding c fd rest) (r : List Request) :
    ({ s.setChan c (s.chan c).getReceivedData.1 with
        consumer := .drained fd rest, requests := r } : NotificationCenter W D).Tended := by
  obtain ⟨count, hch, hle, hzero⟩ := (s.chan c).getReceivedData_cases
  have hfd : (s.chan c).getReceivedData.1.fd = (s.chan c).fd := by rw [hch]
  have hempty : ¬ 0 < (s.chan c).getReceivedData.1.receivedCount := by
    intro hpos
    rw [hch] at hpos
    have hactive := (h.counted c (Nat.lt_of_lt_of_le hpos hle)).1
    exact absurd (hzero hactive ▸ hpos) (Nat.lt_irrefl 0)
  have hset := h.setChan c (s.chan c).getReceivedData.1 hfd (by rw [hch]; exact id)
    (fun hpos => absurd hpos hempty) fun hpos => absurd hpos hempty
  have hordered := ho.setChan c (s.chan c).getReceivedData.1 hfd (by rw [hch]; exact id)
  have hpc' : (s.setChan c (s.chan c).getReceivedData.1).consumer = .holding c fd rest := hpc
  have honce := h.once
  rw [hpc] at honce
  constructor
  · exact hset.found
  · intro fd' hp
    apply hset.raised fd'
    rw [hpc']
    exact hp
  · exact honce
  · exact nofun
  · exact hset.counted
  · intro c' hcount
    refine (hset.attended c' hcount).congr rfl rfl rfl fun hdrained => ?_
    -- the drained number is that of the channel that has just been emptied
    have hfd' : fd = ((s.setChan c (s.chan c).getReceivedData.1).chan c').fd := hdrained
    have hlive := hset.not_dead hcount
    rw [← hfd'] at hlive
    have hfiled := (hset.held c fd rest hpc').resolve_left hlive
    have hsame := hfd'.symm.trans (hordered.filed fd c hfiled).2.1.symm
    obtain rfl := hordered.alone_of_filed hfiled c' hsame (hset.counted c' hcount).1
    change 0 < ((s.setChan c' _).chan c').receivedCount at hcount
    rw [setChan_self] at hcount
    exact absurd hcount hempty

theorem Tended.accept (h : s.Tended) {fd : Int} (hun : s.Unattended fd) :
    ({ s.setChan s.nextChan (.create A fd (some 0)) with
        nextChan := s.nextChan + 1
        isOpen := Function.update s.isOpen fd true
        accepted := some s.nextChan } : NotificationCenter W D).Tended := by
  have hnew : (s.setChan s.nextChan (.create A fd (some 0))).chan s.nextChan =
      .create A fd (some 0) := setChan_self ..
  have hold {c : Nat} (hcount : 0 < ((s.setChan s.nextChan
      (.create A fd (some 0))).chan c).receivedCount) : c ≠ s.nextChan := by
    rintro rfl
    rw [hnew] at hcount
    exact absurd hcount (Nat.lt_irrefl 0)
  constructor
  · intro w fd' node hw
    have hne : fd' ≠ fd := by
      rintro rfl
      refine absurd ?_ (hun.workers w)
      rw [show s.worker w = .found fd' node from hw]
      rfl
    exact (h.found w fd' node hw).imp_left fun hdead => hdead.accept hne
  · intro fd' hp
    have hne : fd' ≠ fd := by
      rintro rfl
      exact hun.consumer hp
    exact (h.raised fd' hp).imp_left fun hdead => hdead.accept hne
  · exact h.once
  · intro c fd' rest hpc
    have hne : fd' ≠ fd := by
      rintro rfl
      apply hun.consumer
      rw [show s.consumer = .holding c fd' rest from hpc]
      exact .inl rfl
    exact (h.held c fd' rest hpc).imp_left fun hdead => hdead.accept hne
  · intro c hcount
    have hc := hold hcount
    have hsame : (s.setChan s.nextChan (.create A fd (some 0))).chan c = s.chan c :=
      setChan_of_ne hc _
    obtain ⟨hactive, _⟩ := h.counted c (by rw [← hsame]; exact hcount)
    exact ⟨(congrArg Channel.active hsame).trans hactive, fun heq => hc (Option.some.inj heq).symm⟩
  · intro c hcount
    have hsame : (s.setChan s.nextChan (.create A fd (some 0))).chan c = s.chan c :=
      setChan_of_ne (hold hcount) _
    refine (h.attended c (by rw [← hsame]; exact hcount)).congr rfl ?_ rfl id
    exact congrArg Channel.fd hsame

section Closers

variable [DecidableEq D]

theorem Tended.removeSome (h : s.Tended) (ho : s.Orderly) {d : D} {fd : Int} {c : Nat}
    (hfiled : s.allChannel fd = some c) (hzero : (s.chan c).receivedCount = 0) :
    ({ s.setChan c (s.chan c).inactive with
        closer := Function.update s.closer d none
        allChannel := s.allChannel.erase fd } : NotificationCenter W D).Tended := by
  have hset := h.inactive hzero
  constructor
  · exact hset.found
  · exact hset.raised
  · exact hset.once
  · intro c' fd' rest hpc
    by_cases hfd : fd' = fd
    · subst hfd
      have hdead := dead_of_alone (ho.alone_of_filed hfiled)
      rw [(ho.filed fd' c hfiled).2.1] at hdead
      exact .inl hdead
    · exact (hset.held c' fd' rest hpc).imp_right fun hc' => (ChannelMap.erase_of_ne hfd).trans hc'
  · exact hset.counted
  · exact hset.attended

end Closers

section Steps

variable [DecidableEq W]

/-- A worker may move on when it passes its announcement on or the entry has taken it over. -/
theorem Tended.pass (h : s.Tended) {w : W} {old pc : WorkerPc} (hpc : s.worker w = old)
    (hfound : ∀ fd node, pc = .found fd node →
      s.Dead fd ∨ ∃ e, s.waitToHandleFD.lookup fd = some e ∧ e.node = node)
    (hannounces : ∀ fd, ¬ s.Dead fd → old.Announces fd (s.waitToHandleFD.lookup fd = none) →
      pc.Announces fd (s.waitToHandleFD.lookup fd = none) ∨ s.Covered fd)
    (heof : ∀ c, old ≠ .eof c) : (s.goto w pc).Tended := by
  subst hpc
  exact h.goto hfound fun c hcount =>
    (h.attended c hcount).goto (hannounces _ (h.not_dead hcount)) (heof c)

theorem Tended.store (h : s.Tended) {w : W} {c : Nat} (hpc : s.worker w = .reading c)
    {ch : Channel} (hfd : ch.fd = (s.chan c).fd)
    (hactive : ch.active = true → (s.chan c).active = true)
    (hcounted : 0 < ch.receivedCount → ch.active = true ∧ s.accepted ≠ some c) {pc : WorkerPc}
    (hnext : pc = .notifying ch.fd ∨ pc = .eof c) : ((s.setChan c ch).goto w pc).Tended := by
  have hgoto : (s.goto w pc).Tended := by
    refine h.pass hpc ?_ (fun _ _ hann => hann.elim) nofun
    rintro fd node rfl
    rcases hnext with hnext | hnext <;> cases hnext
  refine hgoto.setChan c ch hfd hactive hcounted fun _ => ?_
  rcases hnext with rfl | rfl
  · refine .inl (.inr ⟨w, ?_⟩)
    rw [worker_goto_self]
    exact hfd
  · exact .inr ⟨w, worker_goto_self ..⟩

theorem Tended.inactivate (h : s.Tended) {w : W} {c : Nat} (hpc : s.worker w = .eof c)
    (hzero : (s.chan c).receivedCount = 0) :
    ((s.setChan c (s.chan c).inactive).goto w (.closing (s.chan c).fd)).Tended := by
  have hgoto : (s.goto w (.closing (s.chan c).fd)).Tended := by
    refine h.goto nofun fun c' hcount => (h.attended c' hcount).goto ?_ ?_
    · intro hann
      rw [hpc] at hann
      exact hann.elim
    · intro heof
      obtain rfl : c = c' := WorkerPc.eof.inj (hpc.symm.trans heof)
      rw [hzero] at hcount
      exact absurd hcount (Nat.lt_irrefl 0)
  exact hgoto.inactive hzero

theorem Tended.emplace (h : s.Tended) {w : W} {fd : Int} (hpc : s.worker w = .emplacing fd)
    (hnone : s.waitToHandleFD.lookup fd = none) :
    ({ s with
        waitToHandleFD := s.waitToHandleFD.insert fd ⟨s.nextNode, .MORE⟩
        nextNode := s.nextNode + 1 }.goto w .idle : NotificationCenter W D).Tended := by
  have hinsert : ({ s with
      waitToHandleFD := s.waitToHandleFD.insert fd ⟨s.nextNode, .MORE⟩
      nextNode := s.nextNode + 1 } : NotificationCenter W D).Tended := by
    apply h.insert (s.nextNode + 1) _ ReadyState.noConfusion
    · intro hdrained
      rcases h.raised fd (pending_of_drained hdrained) with hdead | ⟨e, he, _⟩
      · exact .inl hdead
      · rw [hnone] at he
        cases he
    · intro e' he'
      rw [hnone] at he'
      cases he'
  refine hinsert.pass hpc nofun ?_ nofun
  rintro fd' _ ⟨rfl, habsent⟩
  rw [AList.lookup_insert] at habsent
  cases habsent

theorem Tended.promote (h : s.Tended) {w : W} {fd : Int} {e : Entry}
    (hpc : s.worker w = .found fd e.node) (he : s.waitToHandleFD.lookup fd = some e) :
    ((s.applySection .NotifyDataReady fd e).goto w .idle).Tended := by
  have hplus (hd : s.consumer.Drained fd) :
      s.Dead fd ∨ Section.NotifyDataReady.apply e.state = .MOREPLUS := by
    rcases h.raised fd (pending_of_drained hd) with hdead | ⟨e', he', hone⟩
    · exact .inl hdead
    · obtain rfl := Option.some.inj (he.symm.trans he')
      exact .inr (apply_notify_of_ne_one hone)
  have hsection : (s.applySection .NotifyDataReady fd e).Tended := by
    apply h.insert s.nextNode _ (apply_notify_ne_one e.state) hplus
    intro e' he'
    obtain rfl := Option.some.inj (he.symm.trans he')
    rfl
  refine hsection.pass hpc nofun ?_ nofun
  rintro fd' hlive rfl
  exact .inr ⟨_, AList.lookup_insert _, apply_notify_ne_one e.state,
    fun hd => (hplus hd).resolve_left hlive⟩

/-- Only under a dead number does a worker find its entry gone. -/
theorem Tended.promoteDangling (h : s.Tended) {w : W} {fd : Int} {node : Nat}
    (hpc : s.worker w = .found fd node)
    (hgone : ∀ e, s.waitToHandleFD.lookup fd = some e → e.node ≠ node) :
    (s.goto w .idle).Tended := by
  have hdead : s.Dead fd := by
    rcases h.found w fd node hpc with hdead | ⟨e, he, hnode⟩
    · exact hdead
    · exact absurd hnode (hgone e he)
  refine h.pass hpc nofun ?_ nofun
  rintro fd' hlive rfl
  exact absurd hdead hlive

variable [DecidableEq D]

theorem tended_step (s : NotificationCenter W D) (a : Action W D) (s' : NotificationCenter W D)
    (ho : s.Orderly) (h : s.Tended) (hcareful : Careful s a)
    (hstep : (machine W D A).step s a = some s') : s'.Tended := by
  cases step_cases hstep with
  | enter hpc => exact h.pass hpc nofun (fun _ _ hann => hann.elim) nofun
  | @storeError w c chunks ch hpc hreceive | @storeEof w c chunks ch hpc hreceive =>
    obtain ⟨buf, count, _, hch⟩ := Channel.receive_cases hreceive
    refine h.store hpc (by rw [hch]) (by rw [hch]; exact id) (fun hpos => ?_) (by simp)
    have hregistered := (ho.reading w c (by rw [hpc]; rfl)).2.1
    refine ⟨?_, hregistered⟩
    rw [(Channel.receive_count hreceive).2] at hpos
    rw [hch]
    cases hcareful c hpc with
    | inl hnone =>
      rw [hnone] at hpos
      exact (h.counted c hpos).1
    | inr hactive => exact hactive.1
  | @inactivate w c hpc => exact h.inactivate hpc (hcareful c hpc)
  | findNone hpc hnone =>
    refine h.pass hpc nofun ?_ nofun
    rintro fd _ rfl
    exact .inl ⟨rfl, hnone⟩
  | findSome hpc he =>
    refine h.pass hpc ?_ (fun _ _ hann => .inl hann) nofun
    rintro fd node ⟨⟩
    exact .inr ⟨_, he, rfl⟩
  | emplaceNone hpc hnone => exact h.emplace hpc hnone
  | emplaceSome hpc he =>
    refine h.pass hpc nofun ?_ nofun
    rintro fd _ ⟨rfl, habsent⟩
    rw [he] at habsent
    cases habsent
  | promote hpc he => exact h.promote hpc he
  | promoteDangling hpc hgone =>
    have hpass := h.promoteDangling hpc hgone
    exact ⟨hpass.found, hpass.raised, hpass.once, hpass.held, hpass.counted, hpass.attended⟩
  | @notifyClose w fd hpc =>
    exact (h.erase (ho.closing w fd hpc)).pass hpc nofun (fun _ _ hann => hann.elim) nofun
  | copy _ hperm =>
    refine h.consume (fun fd hp => ?_) (nodup_of_perm_snapshot hperm) nofun fun _ => id
    obtain ⟨⟨_, state⟩, hmem, rfl, hone⟩ := hp
    obtain ⟨e, he, rfl⟩ := lookup_of_mem_snapshot (hperm.subset hmem)
    exact .inr ⟨e, he, hone⟩
  | scanned => exact h.consume (fun _ => False.elim) List.nodup_nil nofun fun _ => id
  | @getChannel fd state rest hpc =>
    have honce := h.once
    rw [hpc] at honce
    refine h.consume (fun fd' hp => h.raised fd' ?_) (honce.sublist (queue_visit fd state rest))
      (fun c fd' rest' hc => ?_) fun _ => not_drained_visit
    · rw [hpc]
      exact pending_of_visit hp
    · obtain ⟨hc, rfl⟩ := visit_eq_holding hc
      exact hc
  | getReceivedData hpc => exact h.fetch ho hpc _
  | demote hpc he => exact h.demote hpc he
  | @demoteDangling fd rest hpc =>
    have honce := h.once
    rw [hpc] at honce
    refine ⟨h.found, fun fd' hp => h.raised fd' ?_, (List.nodup_cons.mp honce).2, nofun, h.counted,
      fun c hcount => (h.attended c hcount).congr rfl rfl rfl False.elim⟩
    rw [hpc]
    exact .inr hp
  | accept => exact h.accept hcareful
  | register =>
    refine ⟨h.found, h.raised, h.once, fun c fd rest hpc => ?_,
      fun c hcount => ⟨(h.counted c hcount).1, nofun⟩, h.attended⟩
    exact (h.held c fd rest hpc).imp_right ChannelMap.emplace_of_some
  | @removeSome d fd c hclosed hfiled => exact h.removeSome ho hfiled (hcareful fd c hclosed hfiled)
  | close | removeNone | respondSome | respondNone | appendInactive | discard =>
    exact ⟨h.found, h.raised, h.once, h.held, h.counted, h.attended⟩
  | @append i a =>
    obtain ⟨buf, hch⟩ := (s.chan a.target).appendToSend_cases A a.data
    have hset := h.setChan a.target ((s.chan a.target).appendToSend A a.data) (by rw [hch])
      (by rw [hch]; exact id) (by rw [hch]; exact h.counted a.target)
      (by rw [hch]; exact h.attended a.target)
    exact ⟨hset.found, hset.raised, hset.once, hset.held, hset.counted, hset.attended⟩

theorem tended_of_reachable (h : (machine W D A).ReachableUnder Careful s) : s.Tended := by
  refine h.invariant_on (fun _ => orderly_of_reachable) ?_ tended_step
  rintro s rfl
  exact initial_tended

end Steps

end NotificationCenter

end ServerDevLib.Reactor
