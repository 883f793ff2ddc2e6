import ServerDevLib.Reactor.HeldChannels

/-!
# The life of a dispatcher

A dispatcher creates its epoll descriptor, accepts connections, and in the end
is destroyed, together with its demultiplexer. Every `::close` is counted for
the descriptor that it is meant for: a connection is closed with its handler,
by `HandleUnexpected` or `Shutdown`, and the epoll descriptor by
`Demultiplexer::Shutdown`, which both `Shutdown` and the destructor of the
demultiplexer call. `_fd` keeps its value. The rest of the process opens and
closes descriptors of its own.
-/

namespace ServerDevLib.Reactor

open Transition

def Handler.channel : Handler → Option Nat
  | .events c => some c
  | .accept | .other => none

namespace Serving

/-- The channel whose handler the dispatcher has under the number. -/
def channelAt (s : Serving) (fd : Int) : Option Nat :=
  (s.dispatchers.master.handlers fd).bind Handler.channel

/-- How often the call closes the descriptor of the connection. -/
def closesConnection (s : Serving) (call : Call) (c : Nat) : Nat :=
  match call with
  | .handleUnexpected _ fd events => if events.unexpected && s.channelAt fd = some c then 1 else 0
  | .shutdown =>
    if !s.dispatchers.master.stop && s.channelAt (s.dispatchers.chan c).fd = some c then 1 else 0
  | _ => 0

end Serving

inductive Owned
  | epoll
  | connection (c : Nat)

structure Lifetime where
  serving : Serving
  epfd : Int
  destroyed : Bool
  closes : Owned → Nat

namespace Lifetime

inductive Action
  | call (call : Serving.Call)
  | destroy

/-- A dispatcher without slaves; only what it does not own is closed elsewhere. -/
def admits (s : Lifetime) : Serving.Call → Bool
  | .setMasterFD _ _ _ | .handleNewConnection _ _ | .handleUnexpected _ _ _
  | .removeHandler _ _ _ | .shutdown | .openFd _ => true
  | .closeFd fd => (s.serving.dispatchers.master.handlers fd).isNone &&
    (fd ≠ s.epfd || s.serving.dispatchers.master.stop)
  | .enableSlave _ | .addSlaveDispatcher _ | .registerHandler _ _ _ _ | .extractExistedChannel
  | .restoreAllChannel _ _ | .addPendingFunctor _ => false

def count (s : Lifetime) (call : Serving.Call) (t : Serving) : Lifetime :=
  { s with
    serving := t
    closes := fun
      | .epoll => s.closes .epoll
      | .connection c => s.closes (.connection c) + s.serving.closesConnection call c }

/-- `Shutdown` of the demultiplexer, where `Valid` is the value of `_fd`. -/
def shutdownDemultiplexer (s : Lifetime) : Lifetime :=
  if s.epfd = 0 then s
  else { s with
    serving := s.serving.put (s.serving.dispatchers.close s.epfd)
    closes := fun
      | .epoll => s.closes .epoll + 1
      | .connection c => s.closes (.connection c) }

def shutdown (s : Lifetime) : Lifetime :=
  if s.serving.dispatchers.master.stop then s
  else (s.count .shutdown s.serving.shutdown).shutdownDemultiplexer

def step (A : Text.Allocator) (s : Lifetime) : Action → Option Lifetime
  | .call .shutdown => if s.destroyed then none else some s.shutdown
  | .call call =>
    if !s.destroyed && s.admits call then
      ((Serving.machine A).step s.serving call).map (s.count call)
    else none
  | .destroy =>
    if s.destroyed then none
    else some { s.shutdown.shutdownDemultiplexer with destroyed := true }

/-- What `epoll_create` returns is open, unless it is negative. -/
def create (A : Text.Allocator) (epfd : Int) : Lifetime :=
  { serving := (Serving.initial A).put { (Serving.initial A).dispatchers with
      isOpen := fun fd => decide (0 ≤ fd ∧ fd = epfd) }
    epfd := epfd, destroyed := false, closes := fun _ => 0 }

def machine (A : Text.Allocator) : Machine Lifetime Action where
  init s := ∃ epfd, s = create A epfd
  step := step A

/-- No descriptor has been closed twice. -/
def Once (s : Lifetime) : Prop :=
  (0 ≤ s.epfd → s.closes .epoll ≤ 1) ∧ ∀ c, s.closes (.connection c) ≤ 1

/-- The connections that have a handler have not been closed. -/
structure Connections (s : Lifetime) : Prop where
  slaves : s.serving.dispatchers.slaves = []
  handled : ∀ fd c, s.serving.channelAt fd = some c → c < s.serving.dispatchers.nextChan ∧
    (s.serving.dispatchers.chan c).fd = fd ∧ s.closes (.connection c) = 0
  unused : ∀ c, s.serving.dispatchers.nextChan ≤ c → s.closes (.connection c) = 0
  once : ∀ c, s.closes (.connection c) ≤ 1

variable {A : Text.Allocator} {s s' : Lifetime} {call : Serving.Call} {t : Serving} {fd : Int}

/-- A call that closes no connection and gives no handler to one. -/
theorem Connections.count (h : s.Connections) (hslaves : t.dispatchers.slaves = [])
    (hchannel : ∀ fd c, t.channelAt fd = some c → s.serving.channelAt fd = some c)
    (hnext : t.dispatchers.nextChan = s.serving.dispatchers.nextChan)
    (hfd : ∀ c, (t.dispatchers.chan c).fd = (s.serving.dispatchers.chan c).fd)
    (hcloses : ∀ c, s.serving.closesConnection call c = 0) : (s.count call t).Connections := by
  have hsame (c : Nat) : (s.count call t).closes (.connection c) = s.closes (.connection c) :=
    congrArg (s.closes (.connection c) + ·) (hcloses c)
  constructor
  · exact hslaves
  · intro fd c hc
    obtain ⟨hlt, hfiled, hzero⟩ := h.handled fd c (hchannel fd c hc)
    exact ⟨Nat.lt_of_lt_of_eq hlt hnext.symm, (hfd c).trans hfiled, (hsame c).trans hzero⟩
  · intro c hle
    exact (hsame c).trans (h.unused c (Nat.le_trans (Nat.le_of_eq hnext.symm) hle))
  · intro c
    rw [hsame]
    exact h.once c

theorem channel_registerHandler {d : Dispatcher} {handler : Handler} {ok : Bool} {fd' : Int}
    {c : Nat} (h : ((d.registerHandler fd handler ok).handlers fd').bind Handler.channel = some c) :
    (d.handlers fd').bind Handler.channel = some c ∨ fd' = fd ∧ handler.channel = some c := by
  rcases Dispatchers.registerHandler_cases d fd handler ok with hsame | ⟨_, _, handlers, heq, hh⟩
  · rw [hsame] at h
    exact .inl h
  · rw [heq] at h
    obtain ⟨handler', hhandler, hc⟩ := Option.bind_eq_some_iff.mp h
    rcases hh fd' handler' hhandler with hold | ⟨hfd, rfl⟩
    · rw [hold]
      exact .inl hc
    · exact .inr ⟨hfd, hc⟩

theorem Connections.handleNewConnection (h : s.Connections) (fd : Int) (ok : Bool)
    (isOpen : Int → Bool) : (s.count (.handleNewConnection fd ok) (s.serving.put
      (({ s.serving.dispatchers with isOpen := isOpen } :
        Dispatchers).handleNewConnection A fd ok))).Connections := by
  rw [Dispatchers.handleNewConnection_master (s := { s.serving.dispatchers with isOpen := isOpen })
    (.inr h.slaves)]
  have hold {fd' c} (hc : s.serving.channelAt fd' = some c) :
      c < s.serving.dispatchers.nextChan + 1 ∧
        (Function.update s.serving.dispatchers.chan s.serving.dispatchers.nextChan
          (.create A fd (some 0)) c).fd = fd' ∧ s.closes (.connection c) = 0 := by
    obtain ⟨hlt, hfd, hzero⟩ := h.handled fd' c hc
    rw [Function.update_of_ne (Nat.ne_of_lt hlt)]
    exact ⟨Nat.lt_succ_of_lt hlt, hfd, hzero⟩
  constructor
  · exact h.slaves
  · intro fd' c hc
    rcases channel_registerHandler hc with hkept | ⟨rfl, hnew⟩
    · exact hold hkept
    · obtain rfl : s.serving.dispatchers.nextChan = c := Option.some.inj hnew
      refine ⟨Nat.lt_succ_self _, ?_, h.unused _ (Nat.le_refl _)⟩
      exact congrArg Channel.fd (Function.update_self s.serving.dispatchers.nextChan
        (Channel.create A fd' (some 0)) s.serving.dispatchers.chan)
  · exact fun c hle => h.unused c (Nat.le_of_succ_le hle)
  · exact h.once

theorem Connections.handleUnexpected (h : s.Connections) {events : Events}
    (hevents : events.unexpected = true)
    (ht : t.dispatchers = s.serving.dispatchers.handleUnexpected 0 fd) :
    (s.count (.handleUnexpected 0 fd events) t).Connections := by
  obtain ⟨chan, heq⟩ := s.serving.dispatchers.handleUnexpected_eq fd
  have hmaster : t.dispatchers.master =
      ((s.serving.dispatchers.master.eraseHandler fd).removeFd fd).removeFd fd := by
    rw [ht, heq]
  have hchannel (fd' : Int) :
      t.channelAt fd' = if fd' = fd then none else s.serving.channelAt fd' := by
    rw [Serving.channelAt, hmaster]
    change (Function.update s.serving.dispatchers.master.handlers fd none fd').bind _ = _
    rw [Function.update_apply]
    split <;> rfl
  have hcloses (c : Nat) : (s.count (.handleUnexpected 0 fd events) t).closes (.connection c) =
      s.closes (.connection c) + if s.serving.channelAt fd = some c then 1 else 0 := by
    change s.closes (.connection c) +
      (if events.unexpected && decide (s.serving.channelAt fd = some c) then 1 else 0) = _
    rw [hevents, Bool.true_and]
    simp only [decide_eq_true_eq]
  obtain ⟨_, hnext⟩ := s.serving.dispatchers.handleUnexpected_frame 0 fd
  rw [← ht] at hnext
  constructor
  · change t.dispatchers.slaves = []
    rw [ht, heq]
    exact congrArg (List.map _) h.slaves
  · intro fd' c hc
    change t.channelAt fd' = some c at hc
    rw [hchannel] at hc
    obtain ⟨hfd, hold⟩ := Option.ite_none_left_eq_some.mp hc
    obtain ⟨hlt, hfiled, hzero⟩ := h.handled fd' c hold
    refine ⟨Nat.lt_of_lt_of_eq hlt hnext.symm, ?_, ?_⟩
    · change (t.dispatchers.chan c).fd = fd'
      rw [ht, Dispatchers.fd_handleUnexpected, hfiled]
    · rw [hcloses, if_neg, hzero]
      exact fun hfd' => hfd (hfiled.symm.trans (h.handled fd c hfd').2.1)
  · intro c hle
    have hunused : s.serving.dispatchers.nextChan ≤ c := Nat.le_trans (Nat.le_of_eq hnext.symm) hle
    rw [hcloses, if_neg, h.unused c hunused]
    exact fun hfd => Nat.not_lt.mpr hunused (h.handled fd c hfd).1
  · intro c
    rw [hcloses]
    split
    · rename_i hfd
      rw [(h.handled fd c hfd).2.2]
    · exact h.once c

theorem Connections.shutdown (h : s.Connections)
    (hstop : s.serving.dispatchers.master.stop = false) :
    (s.count .shutdown s.serving.shutdown).Connections := by
  have hcloses (c : Nat) : (s.count .shutdown s.serving.shutdown).closes (.connection c) =
      s.closes (.connection c) +
        if s.serving.channelAt (s.serving.dispatchers.chan c).fd = some c then 1 else 0 := by
    change s.closes (.connection c) + (if !s.serving.dispatchers.master.stop &&
      decide (s.serving.channelAt (s.serving.dispatchers.chan c).fd = some c) then 1 else 0) = _
    rw [hstop, Bool.not_false, Bool.true_and]
    simp only [decide_eq_true_eq]
  obtain ⟨_, hnext, _⟩ := Dispatchers.shutdown_frame hstop
  constructor
  · apply (Dispatchers.slaves_shutdown hstop).trans
    rw [h.slaves]
    exact ite_self []
  · intro fd c hc
    have hmaster : s.serving.shutdown.dispatchers.master = _ := Dispatchers.master_shutdown hstop
    change (s.serving.shutdown.dispatchers.master.handlers fd).bind _ = some c at hc
    rw [hmaster] at hc
    cases hc
  · intro c hle
    have hunused : s.serving.dispatchers.nextChan ≤ c := Nat.le_trans (Nat.le_of_eq hnext.symm) hle
    rw [hcloses, if_neg, h.unused c hunused]
    exact fun hfd => Nat.not_lt.mpr hunused (h.handled _ c hfd).1
  · intro c
    rw [hcloses]
    split
    · rename_i hfd
      rw [(h.handled _ c hfd).2.2]
    · exact h.once c

theorem Connections.shutdownDemultiplexer (h : s.Connections) :
    s.shutdownDemultiplexer.Connections := by
  rw [Lifetime.shutdownDemultiplexer]
  split
  · exact h
  · constructor
    · exact congrArg (List.map _) h.slaves
    · exact h.handled
    · exact h.unused
    · exact h.once

theorem shutdownDemultiplexer_frame (s : Lifetime) :
    s.shutdownDemultiplexer.epfd = s.epfd ∧ s.shutdownDemultiplexer.destroyed = s.destroyed ∧
      s.shutdownDemultiplexer.serving.dispatchers.master.stop =
        s.serving.dispatchers.master.stop := by
  rw [shutdownDemultiplexer]
  split
  · exact ⟨rfl, rfl, rfl⟩
  · exact ⟨rfl, rfl, rfl⟩

theorem epoll_shutdownDemultiplexer (s : Lifetime) : s.shutdownDemultiplexer.closes .epoll =
    s.closes .epoll + if s.epfd = 0 then 0 else 1 := by
  rw [shutdownDemultiplexer]
  split
  · rfl
  · rfl

/-- Every `Shutdown` there was has closed the epoll descriptor, and the destructor once more. -/
structure Accounted (s : Lifetime) : Prop where
  connections : s.Connections
  ended : s.destroyed = true → s.serving.dispatchers.master.stop = true
  epoll : s.closes .epoll = if s.epfd = 0 then 0
    else s.serving.dispatchers.master.stop.toNat + s.destroyed.toNat

theorem accounted_create (A : Text.Allocator) (epfd : Int) : (create A epfd).Accounted where
  connections := ⟨rfl, nofun, fun _ _ => rfl, fun _ => Nat.zero_le 1⟩
  ended := nofun
  epoll := (ite_self 0).symm

theorem Accounted.count (h : s.Accounted) (hconnections : (s.count call t).Connections)
    (hstop : t.dispatchers.master.stop = s.serving.dispatchers.master.stop) :
    (s.count call t).Accounted where
  connections := hconnections
  ended hdestroyed := hstop.trans (h.ended hdestroyed)
  epoll := by
    change s.closes .epoll = if s.epfd = 0 then 0
      else t.dispatchers.master.stop.toNat + s.destroyed.toNat
    rw [hstop, h.epoll]

theorem stop_shutdown (s : Lifetime) : s.shutdown.serving.dispatchers.master.stop = true := by
  rw [shutdown]
  split
  · assumption
  · rename_i hrunning
    rw [(shutdownDemultiplexer_frame _).2.2]
    exact congrArg Dispatcher.stop (Dispatchers.master_shutdown (Bool.eq_false_iff.mpr hrunning))

theorem Accounted.shutdown (h : s.Accounted) : s.shutdown.Accounted := by
  cases hstop : s.serving.dispatchers.master.stop with
  | true =>
    rw [Lifetime.shutdown, if_pos hstop]
    exact h
  | false =>
    have hdestroyed : s.destroyed = false := by
      by_contra hnot
      rw [h.ended (Bool.eq_true_of_not_eq_false hnot)] at hstop
      cases hstop
    have hstopped := s.stop_shutdown
    rw [Lifetime.shutdown, hstop, if_neg Bool.false_ne_true] at hstopped ⊢
    obtain ⟨hepfd, hdestroyed', _⟩ :=
      (s.count .shutdown s.serving.shutdown).shutdownDemultiplexer_frame
    constructor
    · exact (h.connections.shutdown hstop).shutdownDemultiplexer
    · exact fun _ => hstopped
    · rw [epoll_shutdownDemultiplexer, hstopped, hepfd, hdestroyed']
      change s.closes .epoll + (if s.epfd = 0 then 0 else 1) =
        if s.epfd = 0 then 0 else 1 + s.destroyed.toNat
      rw [h.epoll, hstop, hdestroyed]
      split <;> rfl

theorem Accounted.destroy (h : s.Accounted) (hdestroyed : s.destroyed = false) :
    ({ s.shutdown.shutdownDemultiplexer with destroyed := true } : Lifetime).Accounted := by
  have hshutdown : s.shutdown.Accounted := h.shutdown
  obtain ⟨hepfd, _, hstop⟩ := s.shutdown.shutdownDemultiplexer_frame
  have hrunning : s.shutdown.destroyed = false := by
    rw [Lifetime.shutdown]
    split
    · exact hdestroyed
    · exact ((s.count .shutdown s.serving.shutdown).shutdownDemultiplexer_frame.2.1).trans hdestroyed
  have hconnections := hshutdown.connections.shutdownDemultiplexer
  constructor
  · exact ⟨hconnections.slaves, hconnections.handled, hconnections.unused, hconnections.once⟩
  · exact fun _ => hstop.trans s.stop_shutdown
  · change s.shutdown.shutdownDemultiplexer.closes .epoll =
      if s.shutdown.shutdownDemultiplexer.epfd = 0 then 0
      else s.shutdown.shutdownDemultiplexer.serving.dispatchers.master.stop.toNat + true.toNat
    rw [epoll_shutdownDemultiplexer, hepfd, hstop, s.stop_shutdown, hshutdown.epoll,
      s.stop_shutdown, hrunning]
    split <;> rfl

/-- A call that touches no connection that has a handler. -/
theorem Accounted.untouched (h : s.Accounted) (hslaves : t.dispatchers.slaves = [])
    (hchannel : ∀ fd c, t.channelAt fd = some c → s.serving.channelAt fd = some c)
    (hnext : t.dispatchers.nextChan = s.serving.dispatchers.nextChan)
    (hfd : ∀ c, (t.dispatchers.chan c).fd = (s.serving.dispatchers.chan c).fd)
    (hcloses : ∀ c, s.serving.closesConnection call c = 0)
    (hstop : t.dispatchers.master.stop = s.serving.dispatchers.master.stop) :
    (s.count call t).Accounted :=
  h.count (h.connections.count hslaves hchannel hnext hfd hcloses) hstop

theorem dispatcher_eq_master (h : s.Connections) {i : Nat} {d : Dispatcher}
    (hd : s.serving.dispatcher i = some d) : i = 0 ∧ d = s.serving.dispatchers.master := by
  cases i with
  | zero => exact ⟨rfl, (Option.some.inj hd).symm⟩
  | succ i =>
    change s.serving.dispatchers.slaves[i]? = some d at hd
    rw [h.slaves] at hd
    cases hd

theorem accounted_call (h : s.Accounted) (hcall : call ≠ .shutdown) (hadmits : s.admits call = true)
    (hstep : (Serving.machine A).step s.serving call = some t) : (s.count call t).Accounted := by
  have hslaves := h.connections.slaves
  cases Serving.step_cases hstep with
  | @failedConnection fd ok =>
    apply h.count (h.connections.handleNewConnection fd ok s.serving.dispatchers.isOpen)
    rw [Dispatchers.handleNewConnection_master (.inr hslaves)]
    exact (Dispatchers.masterfd_registerHandler ..).2
  | @handleNewConnection fd ok =>
    apply h.count (h.connections.handleNewConnection fd ok _)
    rw [Dispatchers.handleNewConnection_master (s := { s.serving.dispatchers with
      isOpen := Function.update s.serving.dispatchers.isOpen fd true }) (.inr hslaves)]
    exact (Dispatchers.masterfd_registerHandler ..).2
  | @handleUnexpected i fd events d handler hd hhandler hevents =>
    obtain ⟨rfl, rfl⟩ := dispatcher_eq_master h.connections hd
    apply h.count (h.connections.handleUnexpected hevents rfl)
    obtain ⟨chan, heq⟩ := s.serving.dispatchers.handleUnexpected_eq fd
    exact congrArg (fun d => d.master.stop) heq
  | handleExpected hexpected =>
    refine h.untouched hslaves (fun _ _ => id) rfl (fun _ => rfl) (fun c => ?_) rfl
    rw [Serving.closesConnection, hexpected]
    rfl
  | @removeHandler i fd stale d hd =>
    obtain ⟨rfl, rfl⟩ := dispatcher_eq_master h.connections hd
    obtain ⟨_, hnext⟩ := s.serving.dispatchers.eraseChannel_frame fd stale
    have hsame (j : Nat) := s.serving.dispatchers.dispatcher_eraseChannel fd stale j
    have hmaster : (s.serving.dispatchers.eraseChannel fd stale).master =
        s.serving.dispatchers.master := Option.some.inj (hsame 0)
    refine h.untouched ?_ (fun fd' c hc => ?_) hnext ?_ (fun _ => rfl) ?_
    · change (s.serving.dispatchers.eraseChannel fd stale).slaves = []
      simp only [Dispatchers.eraseChannel]
      split <;> exact hslaves
    · change (Function.update (s.serving.dispatchers.eraseChannel fd stale).master.handlers fd none
        fd').bind _ = some c at hc
      rw [hmaster] at hc
      by_cases hfd : fd' = fd
      · subst hfd
        rw [Function.update_self] at hc
        cases hc
      · rwa [Function.update_of_ne hfd] at hc
    · exact s.serving.dispatchers.fd_eraseChannel fd stale
    · have hstop := congrArg Dispatcher.stop hmaster
      exact hstop
  | @setMasterFD i fd ok =>
    cases i with
    | zero =>
      refine h.untouched hslaves (fun fd' c hc => ?_) rfl (fun _ => rfl) (fun _ => rfl) ?_
      · rcases channel_registerHandler hc with hold | ⟨_, hnone⟩
        · exact hold
        · cases hnone
      · exact (Dispatchers.masterfd_registerHandler { s.serving.dispatchers.master with
          masterfd := fd } fd .accept ok).2
    | succ i =>
      refine h.untouched ?_ (fun _ _ => id) rfl (fun _ => rfl) (fun _ => rfl) rfl
      exact (congrArg (List.modify · i fun d =>
        { d with masterfd := fd }.registerHandler fd .accept ok) hslaves).trans (List.modify_nil ..)
  | closeFd =>
    refine h.untouched (congrArg (List.map _) hslaves) (fun _ _ => id) rfl (fun _ => rfl)
      (fun _ => rfl) rfl
  | openFd | setMasterFDRefused | removeHandlerRefused =>
    exact h.untouched hslaves (fun _ _ => id) rfl (fun _ => rfl) (fun _ => rfl) rfl
  | shutdown | shutdownStopped => exact absurd rfl hcall
  | enableSlave | enableSlaveStopped | addSlaveDispatcher | addSlaveDispatcherRefused
  | registerHandler | extractExistedChannel | restoreAllChannel | pend | pendSlave => cases hadmits

theorem accounted_step {cond : Lifetime → Action → Prop} :
    (machine A).Preserves cond Accounted := by
  intro s a s' h _ hstep
  cases a with
  | destroy =>
    obtain ⟨hdestroyed, hnext⟩ := Option.ite_none_left_eq_some.mp hstep
    cases hnext
    exact h.destroy (Bool.eq_false_iff.mpr hdestroyed)
  | call call =>
    by_cases hcall : call = .shutdown
    · subst hcall
      obtain ⟨_, hnext⟩ := Option.ite_none_left_eq_some.mp hstep
      cases hnext
      exact h.shutdown
    · have hguarded : step A s (.call call) = if !s.destroyed && s.admits call then
          ((Serving.machine A).step s.serving call).map (s.count call) else none := by
        cases call <;> first | rfl | exact absurd rfl hcall
      obtain ⟨hguard, hcounted⟩ := Option.ite_none_right_eq_some.mp (hguarded.symm.trans hstep)
      obtain ⟨t, ht, rfl⟩ := Option.map_eq_some_iff.mp hcounted
      exact accounted_call h hcall (Bool.and_eq_true_iff.mp hguard).2 ht

/-- When a dispatcher is destroyed, nothing has been closed twice exactly if there was no epoll
descriptor that it could use. -/
theorem once_iff (A : Text.Allocator) (s : Lifetime) (h : (machine A).Reachable s)
    (hdestroyed : s.destroyed = true) : s.Once ↔ s.epfd ≤ 0 := by
  have haccounted : s.Accounted := by
    refine h.invariant ?_ accounted_step
    rintro s ⟨epfd, rfl⟩
    exact accounted_create A epfd
  have hepoll := haccounted.epoll
  rw [haccounted.ended hdestroyed, hdestroyed] at hepoll
  constructor
  · intro honce
    by_contra hpos
    have hle : s.closes .epoll ≤ 1 := honce.1 (by omega)
    rw [hepoll, if_neg (by omega)] at hle
    exact absurd hle (by decide)
  · intro hle
    refine ⟨fun hnonneg => ?_, haccounted.connections.once⟩
    rw [hepoll, if_pos (by omega)]
    exact Nat.zero_le 1

theorem once_iff_failed : ∃ s, (machine .doubling).run (create .doubling (-1))
    [.call (.handleNewConnection 5 false), .destroy] = some s ∧ s.Once := by
  obtain ⟨s, hrun, hdestroyed, hepfd⟩ : ∃ s, (machine .doubling).run (create .doubling (-1))
      [.call (.handleNewConnection 5 false), .destroy] = some s ∧
      s.destroyed = true ∧ s.epfd = -1 := ⟨_, rfl, rfl, rfl⟩
  refine ⟨s, hrun, (once_iff .doubling s (Machine.reachable_of_run ⟨_, rfl⟩ hrun) hdestroyed).mpr ?_⟩
  rw [hepfd]
  decide

/-- The destructor of the demultiplexer closes a descriptor that was opened after `Shutdown`. -/
theorem reused_number_is_closed : ∃ s t, (machine .doubling).run (create .doubling 3)
      [.call .shutdown, .call (.openFd 3)] = some s ∧ s.serving.dispatchers.isOpen 3 = true ∧
    (machine .doubling).run s [.destroy] = some t ∧
      t.serving.dispatchers.isOpen 3 = false ∧ t.closes .epoll = 2 ∧ ¬ t.Once :=
  ⟨_, _, rfl, rfl, rfl, rfl, rfl, fun h => absurd (h.1 (by decide)) (by decide)⟩

end Lifetime

end ServerDevLib.Reactor
