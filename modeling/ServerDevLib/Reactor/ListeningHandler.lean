import ServerDevLib.Reactor.Registration

/-!
# The handler of the listening descriptor

`Dispatch` casts the handler of `_masterfd` to an `AcceptHandler` and uses the
result without a test. `_masterfd` and `_handlers` are set independently of
each other: the first is 0 until `SetMasterFD` is called, and a descriptor
keeps the handler it was registered with first.
-/

namespace ServerDevLib.Reactor

open Transition

namespace Dispatcher

/-- The handler of `_masterfd`, if there is one, is an `AcceptHandler`. -/
def Accepts (d : Dispatcher) : Prop :=
  ∀ handler, d.handlers d.masterfd = some handler → handler = .accept

variable {d d' : Dispatcher} {fd : Int} {ok : Bool}

theorem accepts_create : create.Accepts := nofun

theorem Accepts.of_handlers (h : d.Accepts) (hmaster : d'.masterfd = d.masterfd)
    (hhandlers : ∀ fd handler, d'.handlers fd = some handler → d.handlers fd = some handler) :
    d'.Accepts := by
  intro handler hhandler
  rw [hmaster] at hhandler
  exact h handler (hhandlers _ handler hhandler)

theorem handlers_eraseHandler {handler : Handler} {fd' : Int}
    (h : (d.eraseHandler fd).handlers fd' = some handler) : d.handlers fd' = some handler := by
  by_cases hfd : fd' = fd
  · subst hfd
    rw [show (d.eraseHandler fd').handlers fd' = none from Function.update_self ..] at h
    cases h
  · rwa [show (d.eraseHandler fd).handlers fd' = _ from Function.update_of_ne hfd ..] at h

/-- A refused registration leaves the handlers as they are. -/
theorem handlers_of_not_registers (h : d.registers fd = false) (handler : Handler) (ok : Bool)
    (fd' : Int) : (d.registerHandler fd handler ok).handlers fd' = d.handlers fd' := by
  rw [registerHandler]
  split
  · rfl
  · rename_i hguard
    rw [registers, Bool.eq_false_iff.mpr hguard] at h
    simp only [Bool.not_false, Bool.true_and] at h
    rw [h]
    rfl

theorem Accepts.registerHandler_iff (h : d.Accepts) (handler : Handler) (ok : Bool) :
    (d.registerHandler fd handler ok).Accepts ↔
      (d.registers fd = true → fd = d.masterfd → handler = .accept) := by
  have hmaster := (Dispatchers.masterfd_registerHandler d fd handler ok).1
  cases hreg : d.registers fd with
  | false =>
    refine iff_of_true ?_ nofun
    refine h.of_handlers hmaster fun fd' x hx => ?_
    rwa [handlers_of_not_registers hreg] at hx
  | true =>
    rw [registerHandler_of_registers hreg]
    constructor
    · rintro haccepts _ rfl
      exact haccepts handler (Function.update_self ..)
    · intro hfits x hx
      change Function.update d.handlers fd (some handler) d.masterfd = some x at hx
      by_cases hfd : d.masterfd = fd
      · rw [hfd, Function.update_self] at hx
        rw [← Option.some.inj hx]
        exact hfits rfl hfd.symm
      · rw [Function.update_of_ne hfd] at hx
        exact h x hx

/-- `SetMasterFD` keeps a handler that the descriptor has. -/
theorem accepts_setMasterFD_iff :
    ({ d with masterfd := fd }.registerHandler fd .accept ok).Accepts ↔
      ∀ handler, d.handlers fd = some handler → handler = .accept := by
  have hmaster := (Dispatchers.masterfd_registerHandler { d with masterfd := fd } fd .accept ok).1
  constructor
  · intro haccepts handler hhandler
    apply haccepts
    rw [hmaster]
    exact Dispatchers.handlers_registerHandler_of_some (d := { d with masterfd := fd }) hhandler
      .accept ok
  · intro hold x hx
    rw [hmaster] at hx
    cases hreg : Dispatcher.registers { d with masterfd := fd } fd with
    | false =>
      rw [handlers_of_not_registers hreg] at hx
      exact hold x hx
    | true =>
      rw [registerHandler_of_registers hreg] at hx
      change Function.update d.handlers fd (some .accept) fd = some x at hx
      rw [Function.update_self] at hx
      exact (Option.some.inj hx).symm

end Dispatcher

namespace Serving

open Dispatcher

def Accepts (s : Serving) : Prop := s.dispatchers.Everywhere Dispatcher.Accepts

/-- A handler that is registered for `_masterfd` is an `AcceptHandler`, and `_masterfd` is set to a
descriptor that has no handler of another kind. -/
def Fitting (s : Serving) : Call → Prop
  | .registerHandler i fd handler _ => ∀ d, s.dispatcher i = some d → d.registers fd = true →
    fd = d.masterfd → handler = .accept
  | .setMasterFD i fd _ => 0 ≤ fd → ∀ d, s.dispatcher i = some d →
    ∀ handler, d.handlers fd = some handler → handler = .accept
  | .handleNewConnection fd _ => ∀ d, s.dispatcher s.dispatchers.assignee = some d →
    d.registers fd = true → fd ≠ d.masterfd
  | .enableSlave _ | .addSlaveDispatcher _ | .removeHandler _ _ _ | .handleUnexpected _ _ _
  | .extractExistedChannel | .restoreAllChannel _ _ | .addPendingFunctor _ | .shutdown
  | .openFd _ | .closeFd _ => True

variable {A : Text.Allocator} {s s' : Serving} {call : Call}

theorem initial_accepts (A : Text.Allocator) : (initial A).Accepts :=
  Dispatchers.everywhere_initial A accepts_create

theorem accepts_handleNewConnection_iff {d : Dispatchers} (h : d.Everywhere Dispatcher.Accepts)
    (fd : Int) (ok : Bool) : (d.handleNewConnection A fd ok).Everywhere Dispatcher.Accepts ↔
      ∀ d', d.dispatcher d.assignee = some d' → d'.registers fd = true → fd ≠ d'.masterfd := by
  apply (Dispatchers.everywhere_handleNewConnection h A fd ok).trans
  refine forall₂_congr fun d' hd' => ((h _ d' hd').registerHandler_iff _ ok).trans ?_
  exact forall_congr' fun _ => forall_congr' fun _ => ⟨nofun, False.elim⟩

theorem accepts_step_iff (h : s.Accepts) (hstep : (machine A).step s call = some s') :
    s'.Accepts ↔ s.Fitting call := by
  cases step_cases hstep with
  | @enableSlave b =>
    refine iff_of_true ?_ trivial
    exact Dispatchers.everywhere_master h (h 0 s.dispatchers.master rfl)
  | @addSlaveDispatcher n =>
    refine iff_of_true ?_ trivial
    exact (Dispatchers.everywhere_append h).mpr fun _ => accepts_create
  | enableSlaveStopped | addSlaveDispatcherRefused | pend | pendSlave | extractExistedChannel
  | restoreAllChannel | openFd | removeHandlerRefused | handleExpected | shutdownStopped =>
    exact iff_of_true h trivial
  | @setMasterFD i fd ok hfd =>
    apply (Dispatchers.everywhere_modify h i _).trans
    constructor
    · intro hall _ d hd
      exact accepts_setMasterFD_iff.mp (hall d hd)
    · intro hall d hd
      exact accepts_setMasterFD_iff.mpr (hall hfd d hd)
  | setMasterFDRefused hneg => exact iff_of_true h fun hfd => absurd hneg (Int.not_lt.mpr hfd)
  | @registerHandler i fd handler ok =>
    apply (Dispatchers.everywhere_modify h i _).trans
    exact forall₂_congr fun d hd => (h i d hd).registerHandler_iff handler ok
  | @removeHandler i fd stale =>
    refine iff_of_true ?_ trivial
    have herased : (s.dispatchers.eraseChannel fd stale).Everywhere Dispatcher.Accepts :=
      (Dispatchers.everywhere_congr (s.dispatchers.dispatcher_eraseChannel fd stale)).mpr h
    refine (Dispatchers.everywhere_modify herased i _).mpr fun d hd => ?_
    exact (herased i d hd).of_handlers rfl fun _ _ => handlers_eraseHandler
  | failedConnection => exact accepts_handleNewConnection_iff h _ _
  | @handleNewConnection fd =>
    exact accepts_handleNewConnection_iff (d := { s.dispatchers with
      isOpen := Function.update s.dispatchers.isOpen fd true }) h _ _
  | @handleUnexpected i fd =>
    refine iff_of_true ?_ trivial
    refine (Dispatchers.everywhere_map (s.dispatchers.dispatcher_handleUnexpected i fd)).mpr ?_
    intro j d hd
    split
    · exact (h j d hd).of_handlers rfl fun _ _ => handlers_eraseHandler
    · exact h j d hd
  | shutdown hstop =>
    refine iff_of_true ?_ trivial
    refine (Dispatchers.everywhere_shutdown hstop).mpr ⟨nofun, fun _ j d hd => ?_⟩
    exact h (j + 1) d hd
  | @closeFd fd =>
    refine iff_of_true ?_ trivial
    exact (Dispatchers.everywhere_map (s.dispatchers.dispatcher_close fd)).mpr h

/-- The cast of `Dispatch` succeeds throughout a run exactly if every call is fitting. -/
theorem accepts_iff_fitting (A : Text.Allocator) (calls : List Call) :
    (machine A).AllStates Accepts (initial A) calls ↔
      (machine A).AllSteps Fitting (initial A) calls :=
  Machine.allStates_iff_allSteps_of_exact (fun _ _ _ h hstep => accepts_step_iff h hstep)
    (initial_accepts A) calls

/-- Descriptor 0 of a dispatcher without a listener, and a listener that had a handler before. -/
theorem cast_fails :
    (∃ s, (machine .doubling).run (initial .doubling) [.registerHandler 0 0 .other true] = some s ∧
      ¬ s.Accepts) ∧
    ∃ s, (machine .doubling).run (initial .doubling)
      [.registerHandler 0 5 .other true, .setMasterFD 0 5 true] = some s ∧ ¬ s.Accepts :=
  ⟨⟨_, rfl, fun h => Handler.noConfusion (h 0 _ rfl .other rfl)⟩,
    ⟨_, rfl, fun h => Handler.noConfusion (h 0 _ rfl .other rfl)⟩⟩

end Serving

end ServerDevLib.Reactor
