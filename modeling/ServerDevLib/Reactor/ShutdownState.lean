import ServerDevLib.Reactor.HeldChannels

/-!
# What `Shutdown` leaves behind

Until it is shut down, a dispatcher has every slave that was ever added, and
its active channels are those that `_allChannel` has under a number above 0:
`RemoveHandler` makes inactive what it erases, provided that the erased node
still has the channel when it is read. `Shutdown` asks for the flags that are
set at that moment and not for what there is.
-/

namespace ServerDevLib.Reactor

open Transition

namespace Serving

/-- The calls before `Shutdown`, where the erased node is read as it was. -/
def Preceding (s : Serving) : Call → Prop
  | .enableSlave _ | .addSlaveDispatcher _ | .setMasterFD _ _ _ | .registerHandler _ _ _ _
  | .handleNewConnection _ _ | .openFd _ => True
  | .removeHandler _ fd stale => stale = s.allChannel fd
  | .handleUnexpected _ _ _ | .extractExistedChannel | .restoreAllChannel _ _
  | .addPendingFunctor _ | .shutdown | .closeFd _ => False

instance (s : Serving) (call : Call) : Decidable (s.Preceding call) :=
  match call with
  | .enableSlave _ | .addSlaveDispatcher _ | .setMasterFD _ _ _ | .registerHandler _ _ _ _
  | .handleNewConnection _ _ | .openFd _ => inferInstanceAs (Decidable True)
  | .removeHandler _ fd stale => inferInstanceAs (Decidable (stale = s.allChannel fd))
  | .handleUnexpected _ _ _ | .extractExistedChannel | .restoreAllChannel _ _
  | .addPendingFunctor _ | .shutdown | .closeFd _ => inferInstanceAs (Decidable False)

/-- The slaves that were ever added are stopped, the channels are inactive, and the descriptors
that had a handler are closed. -/
structure ShutDown (s s' : Serving) : Prop where
  stopped : ∀ d ∈ s'.former ++ s'.dispatchers.slaves, d.stop = true
  inactive : ∀ c < s.dispatchers.nextChan, (s'.dispatchers.chan c).active = false
  closed : ∀ i d fd, s.dispatcher i = some d → (d.handlers fd).isSome = true →
    s'.dispatchers.isOpen fd = false

/-- No dispatcher is stopped, and the active channels are filed. -/
structure Running (s : Serving) : Prop where
  running : s.dispatchers.Everywhere fun d => d.stop = false
  former : s.former = []
  opened : ∀ fd c, s.allChannel fd = some c → 0 ≤ fd → s.dispatchers.isOpen fd = true
  active : ∀ c < s.dispatchers.nextChan, (s.dispatchers.chan c).active = true ↔
    s.allChannel (s.dispatchers.chan c).fd = some c ∧ 0 < (s.dispatchers.chan c).fd

variable {A : Text.Allocator} {s s' : Serving} {call : Call} {c : Nat} {fd : Int}

theorem running_initial (A : Text.Allocator) : (initial A).Running := by
  constructor
  · exact Dispatchers.everywhere_initial A rfl
  · rfl
  · nofun
  · nofun

/-- A call that concerns the dispatchers alone. -/
theorem Running.of_dispatchers (h : s.Running) {d : Dispatchers}
    (hrunning : d.Everywhere fun d => d.stop = false) (hmap : d.allChannel = s.allChannel)
    (hchan : d.chan = s.dispatchers.chan) (hnext : d.nextChan = s.dispatchers.nextChan)
    (hopen : ∀ fd, s.dispatchers.isOpen fd = true → d.isOpen fd = true) : (s.put d).Running := by
  constructor
  · exact hrunning
  · exact h.former
  · intro fd c hc hfd
    exact hopen fd (h.opened fd c ((congrFun hmap fd).symm.trans hc) hfd)
  · intro c hlt
    change (d.chan c).active = true ↔ d.allChannel (d.chan c).fd = some c ∧ 0 < (d.chan c).fd
    rw [hchan, hmap]
    exact h.active c (Nat.lt_of_lt_of_eq hlt hnext)

theorem Running.modify (h : s.Running) (i : Nat) {f : Dispatcher → Dispatcher}
    (hf : ∀ d, (f d).stop = d.stop) : (s.put (s.dispatchers.modify i f)).Running := by
  obtain ⟨hmap, hnext⟩ := s.dispatchers.modify_frame i f
  obtain ⟨hchan, hopen⟩ := s.dispatchers.chan_modify i f
  refine h.of_dispatchers ?_ hmap hchan hnext fun fd hfd => (congrFun hopen fd).trans hfd
  refine (Dispatchers.everywhere_modify h.running i f).mpr fun d hd => ?_
  exact (hf d).trans (h.running i d hd)

theorem Running.handleNewConnection (h : s.Running) (fd : Int) (ok : Bool) {isOpen : Int → Bool}
    (hnone : 0 < fd → s.allChannel fd = none) (hself : 0 ≤ fd → isOpen fd = true)
    (hopen : ∀ fd, s.dispatchers.isOpen fd = true → isOpen fd = true) :
    (s.put (({ s.dispatchers with isOpen := isOpen } :
      Dispatchers).handleNewConnection A fd ok)).Running := by
  obtain ⟨hmap, hnext⟩ := Dispatchers.handleNewConnection_frame (A := A)
    { s.dispatchers with isOpen := isOpen } fd ok
  obtain ⟨hchan, hisOpen⟩ := Dispatchers.chan_handleNewConnection (A := A)
    { s.dispatchers with isOpen := isOpen } fd ok
  constructor
  · refine (Dispatchers.everywhere_handleNewConnection (s := { s.dispatchers with
      isOpen := isOpen }) h.running A fd ok).mpr fun d hd => ?_
    exact (Dispatchers.masterfd_registerHandler d ..).2.trans (h.running _ d hd)
  · exact h.former
  · intro fd' c hc hfd'
    apply (congrFun hisOpen fd').trans
    rcases ChannelMap.emplace_cases ((congrFun hmap fd').symm.trans hc) with hold | ⟨_, rfl, _⟩
    · exact hopen fd' (h.opened fd' c hold hfd')
    · exact hself hfd'
  · intro c hlt
    have hcases : c < s.dispatchers.nextChan ∨ c = s.dispatchers.nextChan :=
      Nat.lt_succ_iff_lt_or_eq.mp (Nat.lt_of_lt_of_eq hlt hnext)
    change (Dispatchers.chan (Dispatchers.handleNewConnection ..) c).active = true ↔
      Dispatchers.allChannel (Dispatchers.handleNewConnection ..)
        (Dispatchers.chan (Dispatchers.handleNewConnection ..) c).fd = some c ∧
          0 < (Dispatchers.chan (Dispatchers.handleNewConnection ..) c).fd
    rw [hchan, hmap]
    cases hcases with
    | inl hold =>
      rw [Function.update_of_ne (Nat.ne_of_lt hold), h.active c hold]
      refine and_congr_left fun _ => ?_
      constructor
      · exact ChannelMap.emplace_of_some
      · intro hc
        rcases ChannelMap.emplace_cases hc with hfiled | ⟨_, _, rfl⟩
        · exact hfiled
        · exact absurd hold (Nat.lt_irrefl _)
    | inr hnew =>
      subst hnew
      rw [Function.update_self]
      change decide (fd > 0) = true ↔ _ ∧ 0 < fd
      rw [decide_eq_true_iff]
      constructor
      · exact fun hpos => ⟨ChannelMap.emplace_self (hnone hpos) _, hpos⟩
      · exact fun hnew => hnew.2

theorem Running.eraseChannel (h : s.Running) (hfiled : s.Filed) (i : Nat) (fd : Int) :
    (s.put ((s.dispatchers.eraseChannel fd (s.allChannel fd)).modify i
      fun d => d.eraseHandler fd)).Running := by
  have herased : (s.put (s.dispatchers.eraseChannel fd (s.allChannel fd))).Running := by
    obtain ⟨hmap, hnext⟩ := s.dispatchers.eraseChannel_frame fd (s.allChannel fd)
    constructor
    · exact (Dispatchers.everywhere_congr (s.dispatchers.dispatcher_eraseChannel fd _)).mpr
        h.running
    · exact h.former
    · intro fd' c hc hfd'
      apply (congrFun (s.dispatchers.isOpen_eraseChannel fd _) fd').trans
      exact h.opened fd' c (ChannelMap.erase_cases ((congrFun hmap fd').symm.trans hc)).2 hfd'
    · intro c hlt
      change ((s.dispatchers.eraseChannel fd (s.allChannel fd)).chan c).active = true ↔
        (s.dispatchers.eraseChannel fd (s.allChannel fd)).allChannel
          ((s.dispatchers.eraseChannel fd (s.allChannel fd)).chan c).fd = some c ∧
            0 < ((s.dispatchers.eraseChannel fd (s.allChannel fd)).chan c).fd
      rw [Dispatchers.active_eraseChannel, Dispatchers.fd_eraseChannel, hmap,
        ChannelMap.erase_apply, Bool.and_eq_true, h.active c (Nat.lt_of_lt_of_eq hlt hnext)]
      by_cases hfd : (s.dispatchers.chan c).fd = fd
      · rw [hfd, if_pos rfl]
        change (s.allChannel fd = some c ∧ 0 < fd) ∧
          (!((s.allChannel fd).isSome && s.allChannel fd == some c)) = true ↔ _
        cases s.allChannel fd with
        | none => simp
        | some c' => simp +contextual
      · rw [if_neg hfd]
        refine and_iff_left_of_imp fun hactive => ?_
        have hother : s.allChannel fd ≠ some c := fun hc =>
          hfd (hfiled.fd _ (List.mem_cons_self ..) fd c hc).2
        rw [beq_eq_false_iff_ne.mpr hother, Bool.and_false]
        rfl
  exact herased.modify i fun _ => rfl

theorem running_step (h : s.Running) (hfiled : s.Filed) (hc : s.Preceding call)
    (hstep : (machine A).step s call = some s') : s'.Running := by
  cases step_cases hstep with
  | @enableSlave b =>
    refine h.of_dispatchers ?_ rfl rfl rfl fun _ hfd => hfd
    exact Dispatchers.everywhere_master h.running (h.running 0 s.dispatchers.master rfl)
  | @addSlaveDispatcher n =>
    refine h.of_dispatchers ?_ rfl rfl rfl fun _ hfd => hfd
    exact (Dispatchers.everywhere_append h.running).mpr fun _ => rfl
  | @setMasterFD i fd ok =>
    exact h.modify i fun d =>
      (Dispatchers.masterfd_registerHandler { d with masterfd := fd } fd .accept ok).2
  | @registerHandler i fd handler ok =>
    exact h.modify i fun d => (Dispatchers.masterfd_registerHandler d fd handler ok).2
  | @removeHandler i fd stale =>
    obtain rfl := hc
    exact h.eraseChannel hfiled i fd
  | @failedConnection fd ok hneg =>
    refine h.handleNewConnection fd ok (fun hpos => ?_) (fun hnonneg => ?_) fun _ hfd => hfd
    · omega
    · omega
  | @handleNewConnection fd ok hnonneg hunused =>
    refine h.handleNewConnection fd ok (fun _ => ?_) (fun _ => Function.update_self ..)
      fun _ hfd => open_stays_open hfd
    by_contra hsome
    obtain ⟨c, hfd⟩ := Option.ne_none_iff_exists'.mp hsome
    rw [h.opened fd c hfd hnonneg] at hunused
    cases hunused
  | openFd => exact h.of_dispatchers h.running rfl rfl rfl fun _ hfd => open_stays_open hfd
  | enableSlaveStopped | addSlaveDispatcherRefused | setMasterFDRefused
  | removeHandlerRefused => exact h
  | handleUnexpected | handleExpected | extractExistedChannel | restoreAllChannel | pend | pendSlave
  | shutdown | shutdownStopped | closeFd => exact hc.elim

theorem filed_of_reachable {cond : Serving → Call → Prop}
    (h : (machine A).ReachableUnder cond s) : s.Filed := by
  refine h.invariant ?_ filed_step
  rintro s rfl
  refine ⟨fun m hm => ?_, List.pairwise_singleton ..⟩
  rw [List.mem_singleton.mp hm]
  nofun

theorem running_of_reachable (h : (machine A).ReachableUnder Preceding s) : s.Running := by
  refine h.invariant_on (fun _ => filed_of_reachable) ?_
    fun s call s' hfiled hrunning hc hstep => running_step hrunning hfiled hc hstep
  rintro s rfl
  exact running_initial A

theorem stopped_shutdown_iff (h : s.Running) :
    (∀ d ∈ s.shutdown.former ++ s.shutdown.dispatchers.slaves, d.stop = true) ↔
      s.dispatchers.master.enableSlave = true ∨ s.dispatchers.slaves = [] := by
  have hstop : s.dispatchers.master.stop = false := h.running 0 _ rfl
  have hformer : s.shutdown.former = if s.dispatchers.master.enableSlave then
      s.dispatchers.slaves.map Dispatcher.shutdown else [] := by
    rw [shutdown, hstop, h.former]
    rfl
  rw [hformer, show s.shutdown.dispatchers.slaves = _ from Dispatchers.slaves_shutdown hstop]
  cases henabled : s.dispatchers.master.enableSlave with
  | true =>
    refine iff_of_true (fun d hd => ?_) (.inl rfl)
    rw [if_pos rfl, if_pos rfl, List.append_nil] at hd
    obtain ⟨d', _, rfl⟩ := List.mem_map.mp hd
    rfl
  | false =>
    rw [if_neg Bool.false_ne_true, if_neg Bool.false_ne_true, List.nil_append,
      or_iff_right Bool.false_ne_true]
    constructor
    · intro hall
      by_contra hsome
      obtain ⟨d, hd⟩ := List.exists_mem_of_ne_nil _ hsome
      obtain ⟨j, hj⟩ := List.mem_iff_getElem?.mp hd
      have hstopped : d.stop = true :=
        hall (d.removeFds fun fd => (s.dispatchers.master.handlers fd).isSome)
          (List.mem_map_of_mem hd)
      exact Bool.false_ne_true ((h.running (j + 1) d hj).symm.trans hstopped)
    · intro hnil d hd
      rw [hnil] at hd
      cases hd

theorem inactive_shutdown_iff (h : s.Running) (hfiled : s.Filed) :
    (∀ c < s.dispatchers.nextChan, (s.shutdown.dispatchers.chan c).active = false) ↔
      s.dispatchers.clears = true ∨ ∀ fd c, s.allChannel fd = some c → fd ≤ 0 := by
  have hactive := Dispatchers.active_shutdown (h.running 0 _ rfl)
  constructor
  · intro hall
    by_contra hnot
    push Not at hnot
    obtain ⟨hclears, fd, c, hc, hpos⟩ := hnot
    obtain ⟨hlt, hfd⟩ := hfiled.fd _ (List.mem_cons_self ..) fd c hc
    have hstays := hall c hlt
    rw [← hfd] at hc hpos
    rw [show (s.shutdown.dispatchers.chan c).active = _ from hactive c,
      (h.active c hlt).mpr ⟨hc, hpos⟩, Bool.eq_false_iff.mpr hclears] at hstays
    cases hstays
  · intro hcond c hlt
    rw [show (s.shutdown.dispatchers.chan c).active = _ from hactive c, Bool.and_eq_false_iff]
    by_cases hc : (s.dispatchers.chan c).active = true
    · obtain ⟨hfiled, hpos⟩ := (h.active c hlt).mp hc
      have hclears : s.dispatchers.clears = true :=
        hcond.resolve_right fun hall => absurd (hall _ c hfiled) (Int.not_le.mpr hpos)
      right
      rw [hclears, show s.dispatchers.allChannel _ = _ from hfiled, beq_self_eq_true]
      rfl
    · exact .inl (Bool.eq_false_iff.mpr hc)

/-- A call of `Shutdown` that returns is complete exactly if the slaves are enabled, or none was
added, and a dispatcher that it shuts down has a master descriptor, or no connection is filed. -/
theorem shutDown_shutdown_iff (A : Text.Allocator) (s : Serving)
    (h : (machine A).ReachableUnder Preceding s) :
    s.ShutDown s.shutdown ↔
      (s.dispatchers.master.enableSlave = true ∨ s.dispatchers.slaves = []) ∧
        (s.dispatchers.clears = true ∨ ∀ fd c, s.allChannel fd = some c → fd ≤ 0) := by
  have hrunning : s.Running := running_of_reachable h
  rw [← stopped_shutdown_iff hrunning, ← inactive_shutdown_iff hrunning (filed_of_reachable h)]
  constructor
  · exact fun hall => ⟨hall.stopped, hall.inactive⟩
  · rintro ⟨hstopped, hinactive⟩
    refine ⟨hstopped, hinactive, fun i d fd hd hhandler => ?_⟩
    refine (Dispatchers.isOpen_shutdown_iff (hrunning.running 0 _ rfl) fd).mpr
      (.inr ⟨i, d, hd, ?_, hhandler⟩)
    cases i with
    | zero => exact .inl rfl
    | succ j =>
      refine .inr (((stopped_shutdown_iff hrunning).mp hstopped).resolve_right fun hnil => ?_)
      rw [dispatcher, Dispatchers.dispatcher, hnil] at hd
      cases hd

end Serving

end ServerDevLib.Reactor
