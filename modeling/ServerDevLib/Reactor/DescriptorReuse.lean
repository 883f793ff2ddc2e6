import ServerDevLib.Reactor.EventPool

/-!
# Descriptors that are given away again

A worker tests `_active` before it takes a mutex or makes a system call, and in
between the number may be closed and given to another connection. An active
channel is filed under its number, which belongs to its connection or is just
being closed, so that a test that succeeds is right at that moment.
-/

namespace ServerDevLib.Reactor

open Transition

namespace EventPool

variable {W : Type} {A : Text.Allocator} {s s' : EventPool W}

/-- An active channel is filed under its number, which belongs to its connection until the
thread of `Dispatch` closes it. -/
structure Standing (s : EventPool W) : Prop where
  handlers : ∀ fd c, s.handlers fd = some c → c < s.nextChan
  tasks : ∀ task ∈ s.tasks, task.1 < s.nextChan
  worker : ∀ w c, (s.worker w).channel = some c → c < s.nextChan
  filed : ∀ fd c, s.allChannel fd = some c →
    c < s.nextChan ∧ (s.owner fd = some c ∨ s.dispatch = .closed fd)
  active : ∀ c, (s.chan c).active = true →
    c < s.nextChan ∧ s.allChannel (s.chan c).fd = some c
  closed : ∀ fd, s.dispatch = .closed fd → s.owner fd = none
  accepted : ∀ fd, s.dispatch = .accepted fd → s.owner fd = some s.nextChan

theorem standing_initial (A : Text.Allocator) : (initial A : EventPool W).Standing where
  handlers := nofun
  tasks := nofun
  worker := nofun
  filed := nofun
  active := nofun
  closed := nofun
  accepted := nofun

theorem Standing.goto [DecidableEq W] (h : s.Standing) {w : W} {pc : EventPc}
    (hpc : ∀ c, pc.channel = some c → c < s.nextChan) : (s.goto w pc).Standing where
  handlers := h.handlers
  tasks := h.tasks
  worker v c hc := by
    change (Function.update s.worker w pc v).channel = some c at hc
    by_cases hv : v = w
    · subst hv
      rw [Function.update_self] at hc
      exact hpc c hc
    · rw [Function.update_of_ne hv] at hc
      exact h.worker v c hc
  filed := h.filed
  active := h.active
  closed := h.closed
  accepted := h.accepted

/-- A worker goes on to the next call of `DisableReceive` or `DisableSend`. -/
theorem Standing.goto_disable [DecidableEq W] (h : s.Standing) {w : W} {c : Nat}
    (hw : (s.worker w).channel = some c) (ds : List Direction) (next : Afterwards) :
    (s.goto w (.disable c ds next)).Standing := by
  refine h.goto fun c' hc' => ?_
  obtain rfl := EventPc.channel_disable hc'
  exact h.worker w c hw

theorem fd_setChan {c : Nat} {ch : Channel} (hfd : ch.fd = (s.chan c).fd) (c' : Nat) :
    ((s.setChan c ch).chan c').fd = (s.chan c').fd := by
  change (Function.update s.chan c ch c').fd = _
  by_cases hc : c' = c
  · subst hc
    rw [Function.update_self, hfd]
  · rw [Function.update_of_ne hc]

theorem active_setChan {c : Nat} {ch : Channel}
    (hactive : ch.active = true → (s.chan c).active = true) {c' : Nat}
    (h : ((s.setChan c ch).chan c').active = true) : (s.chan c').active = true := by
  change (Function.update s.chan c ch c').active = true at h
  by_cases hc : c' = c
  · subst hc
    rw [Function.update_self] at h
    exact hactive h
  · rwa [Function.update_of_ne hc] at h

theorem Standing.setChan (h : s.Standing) (c : Nat) {ch : Channel} (hfd : ch.fd = (s.chan c).fd)
    (hactive : ch.active = true → (s.chan c).active = true) : (s.setChan c ch).Standing where
  handlers := h.handlers
  tasks := h.tasks
  worker := h.worker
  filed := h.filed
  active c' hc' := by
    rw [fd_setChan hfd]
    exact h.active c' (active_setChan hactive hc')
  closed := h.closed
  accepted := h.accepted

theorem Standing.mutexes (h : s.Standing) (receive send : Nat → Bool) :
    ({ s with receiveMutex := receive, sendMutex := send } : EventPool W).Standing :=
  ⟨h.handlers, h.tasks, h.worker, h.filed, h.active, h.closed, h.accepted⟩

/-- The thread of `Dispatch` is at no connection. -/
theorem Standing.owned (h : s.Standing) (hwaiting : s.dispatch = .waiting) {fd : Int} {c : Nat}
    (hc : s.allChannel fd = some c) : s.owner fd = some c := by
  refine (h.filed fd c hc).2.resolve_right fun hclosed => ?_
  rw [hwaiting] at hclosed
  cases hclosed

theorem Standing.event (h : s.Standing) {fd : Int} {events : Events} {c : Nat}
    (hwaiting : s.dispatch = .waiting) (hc : s.handlers fd = some c) :
    ({ s with
        tasks := s.tasks ++ [(c, events)]
        dispatch := if events.unexpected then .unexpected fd else .waiting } :
      EventPool W).Standing := by
  constructor
  · exact h.handlers
  · intro task htask
    cases List.mem_append.mp htask with
    | inl hold => exact h.tasks task hold
    | inr hnew =>
      rw [List.mem_singleton.mp hnew]
      exact h.handlers fd c hc
  · exact h.worker
  · exact fun fd' c' hc' => ⟨(h.filed fd' c' hc').1, .inl (h.owned hwaiting hc')⟩
  · exact h.active
  · intro fd' hclosed
    change (if events.unexpected then DispatchPc.unexpected fd else .waiting) = _ at hclosed
    split at hclosed <;> cases hclosed
  · intro fd' haccepted
    change (if events.unexpected then DispatchPc.unexpected fd else .waiting) = _ at haccepted
    split at haccepted <;> cases haccepted

theorem Standing.close (h : s.Standing) {fd : Int} (hunexpected : s.dispatch = .unexpected fd) :
    ({ s with
        handlers := s.handlers.erase fd
        owner := Function.update s.owner fd none
        dispatch := .closed fd } : EventPool W).Standing := by
  constructor
  · exact fun fd' c hc => h.handlers fd' c (ChannelMap.erase_cases hc).2
  · exact h.tasks
  · exact h.worker
  · intro fd' c hc
    obtain ⟨hlt, howner⟩ := h.filed fd' c hc
    refine ⟨hlt, ?_⟩
    by_cases hfd : fd' = fd
    · subst hfd
      exact .inr rfl
    · refine .inl ((Function.update_of_ne hfd ..).trans (howner.resolve_right fun hclosed => ?_))
      rw [hunexpected] at hclosed
      cases hclosed
  · exact h.active
  · rintro fd' ⟨⟩
    exact Function.update_self ..
  · nofun

theorem Standing.drop (h : s.Standing) {fd : Int} (hclosed : s.dispatch = .closed fd) {c : Nat}
    (hc : s.allChannel fd = some c) :
    ({ s.setChan c (s.chan c).inactive with
        allChannel := s.allChannel.erase fd
        dispatch := .waiting } : EventPool W).Standing := by
  have hset : (s.setChan c (s.chan c).inactive).Standing := h.setChan c rfl nofun
  constructor
  · exact hset.handlers
  · exact hset.tasks
  · exact hset.worker
  · intro fd' c' hc'
    obtain ⟨hfd, hold⟩ := ChannelMap.erase_cases hc'
    obtain ⟨hlt, howner⟩ := h.filed fd' c' hold
    refine ⟨hlt, .inl (howner.resolve_right fun hclosed' => hfd ?_)⟩
    rw [hclosed] at hclosed'
    exact (DispatchPc.closed.inj hclosed').symm
  · intro c' hc'
    obtain ⟨hlt, hfiled⟩ := hset.active c' hc'
    refine ⟨hlt, (ChannelMap.erase_of_ne ?_).trans hfiled⟩
    intro hfd
    have hsame : some c' = some c := hfiled.symm.trans ((congrArg s.allChannel hfd).trans hc)
    obtain rfl := Option.some.inj hsame
    change (Function.update s.chan c' (s.chan c').inactive c').active = true at hc'
    rw [Function.update_self] at hc'
    cases hc'
  · nofun
  · nofun

theorem Standing.dropNone (h : s.Standing) {fd : Int} (hclosed : s.dispatch = .closed fd)
    (hnone : s.allChannel fd = none) : ({ s with dispatch := .waiting } : EventPool W).Standing := by
  constructor
  · exact h.handlers
  · exact h.tasks
  · exact h.worker
  · intro fd' c hc
    obtain ⟨hlt, howner⟩ := h.filed fd' c hc
    refine ⟨hlt, .inl (howner.resolve_right fun hclosed' => ?_)⟩
    rw [hclosed] at hclosed'
    cases hclosed'
    rw [hnone] at hc
    cases hc
  · exact h.active
  · nofun
  · nofun

theorem Standing.accept (h : s.Standing) {fd : Int} (hwaiting : s.dispatch = .waiting)
    (hunused : s.owner fd = none) :
    ({ s with
        owner := Function.update s.owner fd (some s.nextChan)
        dispatch := .accepted fd } : EventPool W).Standing := by
  constructor
  · exact h.handlers
  · exact h.tasks
  · exact h.worker
  · intro fd' c hc
    have howner := h.owned hwaiting hc
    refine ⟨(h.filed fd' c hc).1, .inl ((Function.update_of_ne ?_ ..).trans howner)⟩
    rintro rfl
    rw [hunused] at howner
    cases howner
  · exact h.active
  · nofun
  · rintro fd' ⟨⟩
    exact Function.update_self ..

theorem Standing.register (h : s.Standing) {fd : Int} (haccepted : s.dispatch = .accepted fd) :
    ({ s.setChan s.nextChan (.create A fd (some 0)) with
        nextChan := s.nextChan + 1
        allChannel := s.allChannel.emplace fd s.nextChan
        handlers := s.handlers.emplace fd s.nextChan
        dispatch := .waiting } : EventPool W).Standing := by
  have howner {fd' c} (hc : s.allChannel fd' = some c) : s.owner fd' = some c := by
    refine (h.filed fd' c hc).2.resolve_right fun hclosed => ?_
    rw [haccepted] at hclosed
    cases hclosed
  have hnone : s.allChannel fd = none := by
    refine Option.eq_none_iff_forall_ne_some.mpr fun c hc => ?_
    obtain rfl := Option.some.inj ((h.accepted fd haccepted).symm.trans (howner hc))
    exact Nat.lt_irrefl _ (h.filed fd _ hc).1
  constructor
  · intro fd' c hc
    rcases ChannelMap.emplace_cases hc with hold | ⟨_, _, rfl⟩
    · exact Nat.lt_succ_of_lt (h.handlers fd' c hold)
    · exact Nat.lt_succ_self _
  · exact fun task htask => Nat.lt_succ_of_lt (h.tasks task htask)
  · exact fun w c hc => Nat.lt_succ_of_lt (h.worker w c hc)
  · intro fd' c hc
    rcases ChannelMap.emplace_cases hc with hold | ⟨_, rfl, rfl⟩
    · exact ⟨Nat.lt_succ_of_lt (h.filed fd' c hold).1, .inl (howner hold)⟩
    · exact ⟨Nat.lt_succ_self _, .inl (h.accepted fd' haccepted)⟩
  · intro c hc
    change (Function.update s.chan s.nextChan (.create A fd (some 0)) c).active = true at hc
    change c < s.nextChan + 1 ∧ s.allChannel.emplace fd s.nextChan
      (Function.update s.chan s.nextChan (.create A fd (some 0)) c).fd = some c
    by_cases hnew : c = s.nextChan
    · subst hnew
      rw [Function.update_self]
      exact ⟨Nat.lt_succ_self _, ChannelMap.emplace_self hnone _⟩
    · rw [Function.update_of_ne hnew] at hc ⊢
      obtain ⟨hlt, hfiled⟩ := h.active c hc
      exact ⟨Nat.lt_succ_of_lt hlt, ChannelMap.emplace_of_some hfiled⟩
  · nofun
  · nofun

/-- A worker that has passed its test finds its own connection under the number, or none. -/
def Own (s : EventPool W) : Prop :=
  ∀ w c, (s.worker w).Committed c → ∀ c', s.owner (s.chan c).fd = some c' → c' = c

/-- `accept` returns a number for which no worker has a system call to make. -/
def Spaced (s : EventPool W) : Action W → Prop
  | .accept fd => ∀ w c, (s.worker w).Committed c → (s.chan c).fd ≠ fd
  | .event _ _ | .close | .drop | .register | .start _ | .test _ | .lock _ | .read _ _
  | .readEnd _ _ | .write _ _ | .shutdown _ | .leave _ | .notifyWriteEvent _ _
  | .getReceivedData _ => True

/-- The number of an active channel belongs to its connection, or is closed. -/
theorem Standing.own_of_active (h : s.Standing) {c c' : Nat} (hactive : (s.chan c).active = true)
    (hc' : s.owner (s.chan c).fd = some c') : c' = c := by
  cases (h.filed _ c (h.active c hactive).2).2 with
  | inl howner => exact Option.some.inj (hc'.symm.trans howner)
  | inr hclosed =>
    rw [h.closed _ hclosed] at hc'
    cases hc'

/-- Workers get committed to active channels alone. -/
theorem Own.of_worker (hown : s.Own) (h : s.Standing)
    (hworker : ∀ w c, (s'.worker w).Committed c →
      (s.worker w).Committed c ∨ (s.chan c).active = true)
    (hfd : ∀ c < s.nextChan, (s'.chan c).fd = (s.chan c).fd)
    (howner : ∀ fd c, s'.owner fd = some c → s.owner fd = some c) : s'.Own := by
  intro w c hc c' hc'
  cases hworker w c hc with
  | inl hcommitted =>
    rw [hfd c (h.worker w c (EventPc.channel_of_committed hcommitted))] at hc'
    exact hown w c hcommitted c' (howner _ c' hc')
  | inr hactive =>
    rw [hfd c (h.active c hactive).1] at hc'
    exact h.own_of_active hactive (howner _ c' hc')

section Own

variable [DecidableEq W] {a : Action W}

theorem committed_goto {w v : W} {pc : EventPc} {c : Nat}
    (hpc : pc.Committed c → (s.worker w).Committed c ∨ (s.chan c).active = true)
    (h : ((s.goto w pc).worker v).Committed c) :
    (s.worker v).Committed c ∨ (s.chan c).active = true := by
  change (Function.update s.worker w pc v).Committed c at h
  by_cases hv : v = w
  · subst hv
    rw [Function.update_self] at h
    exact hpc h
  · rw [Function.update_of_ne hv] at h
    exact .inl h

theorem standing_step {cond : EventPool W → Action W → Prop} :
    (machine W A).Preserves cond Standing := by
  intro s a s' h _ hstep
  cases step_cases hstep with
  | event hwaiting hc => exact h.event hwaiting hc
  | close hunexpected => exact h.close hunexpected
  | dropSome hclosed hc => exact h.drop hclosed hc
  | dropNone hclosed hnone => exact h.dropNone hclosed hnone
  | accept hwaiting hunused => exact h.accept hwaiting hunused
  | register haccepted => exact h.register haccepted
  | @start w c events tasks _ hqueued =>
    have hpopped : ({ s with tasks := tasks } : EventPool W).Standing := by
      refine ⟨h.handlers, fun task htask => h.tasks task ?_, h.worker, h.filed, h.active, h.closed,
        h.accepted⟩
      rw [hqueued]
      exact List.mem_cons_of_mem _ htask
    apply hpopped.goto
    rintro c' ⟨⟩
    apply h.tasks (c, events)
    rw [hqueued]
    exact List.mem_cons_self ..
  | @test w pc htest => exact h.goto fun c hc => h.worker w c (channel_of_test htest hc)
  | @lockReceive w c hpc | @lockSend w c hpc =>
    refine (h.mutexes _ _).goto fun c' hc' => h.worker w c' ?_
    rw [hpc]
    exact hc'
  | lockEmpty => exact h.goto nofun
  | @read w chunk c chunks hpc =>
    refine h.goto fun c' hc' => h.worker w c' ?_
    rw [hpc]
    exact hc'
  | @readEnd w ended c chunks ch pc' hpc hreceive hnext =>
    obtain ⟨buf, count, _, hch⟩ := Channel.receive_cases hreceive
    have hset : (s.setChan c ch).Standing := h.setChan c (by rw [hch]) (by rw [hch]; exact id)
    cases hnext with
    | inl hidle =>
      subst hidle
      exact (hset.mutexes _ _).goto nofun
    | inr hdisable =>
      subst hdisable
      exact (hset.mutexes _ _).goto_disable (congrArg EventPc.channel hpc) _ _
  | @writeSome w sent c =>
    have hset : (s.setChan c ((s.chan c).eraseSent A sent.toNat)).Standing := h.setChan c rfl id
    exact (hset.mutexes _ _).goto nofun
  | writeNone | unlock => exact (h.mutexes _ _).goto nofun
  | writeFails hpc | shutdown hpc => exact h.goto_disable (congrArg EventPc.channel hpc) _ _
  | @inactivate w c =>
    have hset : (s.setChan c (s.chan c).inactive).Standing := h.setChan c rfl nofun
    exact hset.goto nofun
  | @notifyWriteEvent c data =>
    obtain ⟨buf, hch⟩ := (s.chan c).appendToSend_cases A data
    exact h.setChan c (by rw [hch]) (by rw [hch]; exact id)
  | @getReceivedData c =>
    obtain ⟨count, hch, _⟩ := (s.chan c).getReceivedData_cases
    exact h.setChan c (by rw [hch]) (by rw [hch]; exact id)

/-- A worker moves on from where it was committed, or to where it is not. -/
theorem Own.goto {t : EventPool W} (hown : s.Own) (h : s.Standing) {w : W} {pc : EventPc}
    (ht : t.worker = s.worker) (howner : t.owner = s.owner)
    (hfd : ∀ c, (t.chan c).fd = (s.chan c).fd)
    (hpc : ∀ c, pc.Committed c → (s.worker w).Committed c ∨ (s.chan c).active = true) :
    (t.goto w pc).Own := by
  refine hown.of_worker h (fun v c hc => ?_) (fun c _ => hfd c) fun fd c hc => ?_
  · change (Function.update t.worker w pc v).Committed c at hc
    rw [ht] at hc
    exact committed_goto (hpc c) hc
  · exact (congrFun howner fd).symm.trans hc

theorem own_step_iff (h : s.Standing) (hown : s.Own) (hstep : (machine W A).step s a = some s') :
    s'.Own ↔ s.Spaced a := by
  cases step_cases hstep with
  | @accept fd hwaiting hunused =>
    constructor
    · rintro hown' w c hc rfl
      have hnew : s.nextChan = c := hown' w c hc s.nextChan (Function.update_self ..)
      exact Nat.lt_irrefl c (hnew ▸ h.worker w c (EventPc.channel_of_committed hc))
    · intro hspaced w c hc c' hc'
      apply hown w c hc c'
      exact (Function.update_of_ne (hspaced w c hc) ..).symm.trans hc'
  | event =>
    exact iff_of_true (hown.of_worker h (fun _ _ => .inl) (fun _ _ => rfl) fun _ _ => id) trivial
  | @close fd =>
    refine iff_of_true ?_ trivial
    refine hown.of_worker h (fun _ _ => .inl) (fun _ _ => rfl) fun fd' c hc => ?_
    have herased : ChannelMap.erase s.owner fd fd' = some c := hc
    exact (ChannelMap.erase_cases herased).2
  | @dropSome fd c =>
    have hfd (c' : Nat) : ((s.setChan c (s.chan c).inactive).chan c').fd = (s.chan c').fd :=
      fd_setChan (by rfl) c'
    exact iff_of_true (hown.of_worker h (fun _ _ => .inl) (fun c' _ => hfd c') fun _ _ => id) trivial
  | dropNone =>
    exact iff_of_true (hown.of_worker h (fun _ _ => .inl) (fun _ _ => rfl) fun _ _ => id) trivial
  | @register fd =>
    refine iff_of_true ?_ trivial
    refine hown.of_worker h (fun _ _ => .inl) (fun c hlt => ?_) fun _ _ => id
    exact congrArg Channel.fd (Function.update_of_ne (Nat.ne_of_lt hlt) ..)
  | @start w c events tasks =>
    exact iff_of_true (hown.goto h rfl rfl (fun _ => rfl) fun _ => False.elim) trivial
  | @test w pc htest =>
    refine iff_of_true (hown.goto h rfl rfl (fun _ => rfl) fun c hc => .inr ?_) trivial
    exact committed_of_test htest hc
  | @lockReceive w c hpc | @lockSend w c hpc =>
    refine iff_of_true (hown.goto h rfl rfl (fun _ => rfl) fun c' hc => .inl ?_) trivial
    rw [hpc]
    exact hc
  | @read w chunk c chunks hpc =>
    refine iff_of_true (hown.goto h rfl rfl (fun _ => rfl) fun c' hc => .inl ?_) trivial
    rw [hpc]
    exact hc
  | lockEmpty | writeNone | unlock =>
    exact iff_of_true (hown.goto h rfl rfl (fun _ => rfl) fun _ => False.elim) trivial
  | @readEnd w ended c chunks ch pc' hpc hreceive hnext =>
    obtain ⟨buf, count, _, hch⟩ := Channel.receive_cases hreceive
    refine iff_of_true ?_ trivial
    refine hown.goto h rfl rfl (fun c' => fd_setChan (by rw [hch]) c') fun c' hc' => ?_
    cases hnext with
    | inl hidle =>
      subst hidle
      exact hc'.elim
    | inr hdisable =>
      subst hdisable
      exact absurd hc' (EventPc.not_committed_disable c _ _)
  | @writeSome w sent c =>
    have hfd (c' : Nat) : ((s.setChan c ((s.chan c).eraseSent A sent.toNat)).chan c').fd =
        (s.chan c').fd := fd_setChan (by rfl) c'
    exact iff_of_true (hown.goto h rfl rfl hfd fun _ => False.elim) trivial
  | @writeFails w sent c =>
    refine iff_of_true (hown.goto h rfl rfl (fun _ => rfl) fun c' hc => ?_) trivial
    exact absurd hc (EventPc.not_committed_disable c _ _)
  | @shutdown w c d rest next =>
    refine iff_of_true (hown.goto h rfl rfl (fun _ => rfl) fun c' hc => ?_) trivial
    exact absurd hc (EventPc.not_committed_disable c _ _)
  | @inactivate w c =>
    have hfd (c' : Nat) : ((s.setChan c (s.chan c).inactive).chan c').fd = (s.chan c').fd :=
      fd_setChan (by rfl) c'
    exact iff_of_true (hown.goto h rfl rfl hfd fun _ => False.elim) trivial
  | @notifyWriteEvent c data =>
    obtain ⟨buf, hch⟩ := (s.chan c).appendToSend_cases A data
    refine iff_of_true ?_ trivial
    exact hown.of_worker h (fun _ _ => .inl) (fun c' _ => fd_setChan (by rw [hch]) c') fun _ _ => id
  | @getReceivedData c =>
    obtain ⟨count, hch, _⟩ := (s.chan c).getReceivedData_cases
    refine iff_of_true ?_ trivial
    exact hown.of_worker h (fun _ _ => .inl) (fun c' _ => fd_setChan (by rw [hch]) c') fun _ _ => id

/-- Throughout a run every system call of a worker is made on its own connection exactly if no
number is given away while a worker has a call to make on it. -/
theorem own_iff_spaced (A : Text.Allocator) (actions : List (Action W)) :
    (machine W A).AllStates Own (initial A) actions ↔
      (machine W A).AllSteps Spaced (initial A) actions := by
  have hstanding : (machine W A).Preserves Spaced Standing := standing_step
  exact Machine.allStates_iff_allSteps (fun s a s' h _ => hstanding s a s' h)
    (fun _ _ _ h hown hstep => own_step_iff h hown hstep) (standing_initial A) nofun actions

end Own

/-- A worker is about to call `::shutdown` after a hang-up when the number goes to another
connection. -/
theorem shuts_down_another : ∃ s : EventPool Unit, (machine Unit .doubling).run (initial .doubling)
      [.accept 5, .register, .event 5 EPOLLHUP, .start (), .test (), .test (), .close, .drop,
        .accept 5, .register] = some s ∧
    s.worker () = .shutting 0 .send [.receive] .done ∧ (s.chan 0).fd = 5 ∧ s.owner 5 = some 1 ∧
      (s.chan 1).active = true ∧ ¬ s.Own := by
  refine ⟨_, rfl, rfl, rfl, rfl, rfl, fun h => ?_⟩
  exact absurd (h () 0 rfl 1 rfl) (by decide)

end EventPool

end ServerDevLib.Reactor
