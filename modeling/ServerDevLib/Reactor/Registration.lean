import ServerDevLib.Reactor.Serving

/-!
# Handlers and registered descriptors

A dispatcher keeps the handlers of its descriptors in `_handlers`, and its
`epoll` instance keeps the descriptors that were added to it. The calls change
the two in separate steps. They agree throughout a run exactly if every
descriptor that gets a handler is added successfully, and no descriptor loses
its handler, or is closed, in only one of the places that have it.
-/

namespace ServerDevLib.Reactor

open Transition

namespace Dispatcher

/-- What `RegisterHandler` returns. -/
def registers (d : Dispatcher) (fd : Int) : Bool :=
  !(d.stop || fd < 0) && (d.handlers fd).isNone

/-- The descriptors with a handler are those of the interest list. -/
def Synced (d : Dispatcher) : Prop :=
  ∀ fd, (d.handlers fd).isSome = (d.demultiplexer.interest fd).isSome

/-- The descriptor is new in both places. -/
def Adds (d d' : Dispatcher) (fd : Int) : Prop :=
  (d.handlers fd = none ∧ d'.handlers fd ≠ none) ∧
    d.demultiplexer.interest fd = none ∧ d'.demultiplexer.interest fd ≠ none

variable {d : Dispatcher} {fd : Int}

theorem registers_iff :
    d.registers fd = true ↔ d.stop = false ∧ 0 ≤ fd ∧ d.handlers fd = none := by
  simp [registers, and_assoc]

theorem registerHandler_of_registers (h : d.registers fd = true) (handler : Handler) (ok : Bool) :
    d.registerHandler fd handler ok = { d with
      demultiplexer := d.demultiplexer.registerFd fd ok
      handlers := Function.update d.handlers fd (some handler) } := by
  obtain ⟨hstop, hfd, hnone⟩ := registers_iff.mp h
  rw [registerHandler, hstop, decide_eq_false (Int.not_lt.mpr hfd), hnone]
  rfl

/-- A descriptor with a handler is in the interest list, where it cannot be added again. -/
theorem Synced.registerHandler_of_not (h : d.Synced) (hnot : d.registers fd = false)
    (handler : Handler) (ok : Bool) : d.registerHandler fd handler ok = d := by
  rw [registerHandler]
  split
  · rfl
  · rename_i hguard
    have hsome : (d.handlers fd).isSome = true := by
      rw [registers, Bool.eq_false_iff.mpr hguard] at hnot
      simpa [← Option.not_isSome] using hnot
    have hhandlers : (d.handlers fd).isNone = false := by rw [← Option.not_isSome, hsome]; rfl
    have hinterest : (d.demultiplexer.interest fd).isNone = false := by
      rw [← Option.not_isSome, ← h fd, hsome]
      rfl
    rw [hhandlers, Demultiplexer.registerFd, hinterest, Bool.and_false]
    simp

theorem synced_create : Synced create := fun _ => rfl

theorem Synced.registerHandler_iff (h : d.Synced) (handler : Handler) (ok : Bool) :
    (d.registerHandler fd handler ok).Synced ↔ (d.registers fd = true → ok = true) := by
  cases hreg : d.registers fd with
  | false =>
    rw [h.registerHandler_of_not hreg]
    exact ⟨fun _ => nofun, fun _ => h⟩
  | true =>
    obtain ⟨_, hfd, hnone⟩ := registers_iff.mp hreg
    rw [registerHandler_of_registers hreg]
    have hunlisted : (d.demultiplexer.interest fd).isSome = false := by
      rw [← h fd, hnone]
      rfl
    have hadded := Demultiplexer.interest_registerFd_self (d := d.demultiplexer) ok hfd
    rw [hunlisted, Bool.or_false] at hadded
    constructor
    · intro hsynced _
      rw [← hadded, ← hsynced fd]
      exact congrArg Option.isSome (Function.update_self fd (some handler) d.handlers)
    · intro hok fd'
      by_cases hfd' : fd' = fd
      · subst hfd'
        refine Eq.trans ?_ (hadded.trans (hok rfl)).symm
        exact congrArg Option.isSome (Function.update_self fd' (some handler) d.handlers)
      · change (Function.update d.handlers fd (some handler) fd').isSome =
          ((d.demultiplexer.registerFd fd ok).interest fd').isSome
        rw [Function.update_of_ne hfd', Demultiplexer.interest_registerFd_of_ne hfd' ok, h fd']

/-- In agreement, `RegisterHandler` is truthful exactly if a new descriptor is added. -/
theorem Synced.adds_iff (h : d.Synced) {handler : Handler} {ok : Bool}
    (hok : d.registers fd = true → ok = true) :
    d.registers fd = true ↔ d.Adds (d.registerHandler fd handler ok) fd := by
  constructor
  · intro hreg
    obtain ⟨_, hfd, hnone⟩ := registers_iff.mp hreg
    have hunlisted : d.demultiplexer.interest fd = none := by
      have hsome := h fd
      rw [hnone] at hsome
      exact Option.isSome_eq_false_iff.mp hsome.symm |> Option.isNone_iff_eq_none.mp
    have hadded := Demultiplexer.interest_registerFd_self (d := d.demultiplexer) ok hfd
    rw [hok hreg, Bool.true_or] at hadded
    rw [registerHandler_of_registers hreg, hok hreg]
    refine ⟨⟨hnone, ?_⟩, hunlisted, Option.isSome_iff_ne_none.mp hadded⟩
    change Function.update d.handlers fd (some handler) fd ≠ none
    rw [Function.update_self]
    exact Option.some_ne_none handler
  · rintro ⟨⟨hnone, hsome⟩, _⟩
    by_contra hnot
    rw [h.registerHandler_of_not (Bool.eq_false_iff.mpr hnot)] at hsome
    exact hsome hnone

theorem Synced.eraseHandler_iff (h : d.Synced) :
    (d.eraseHandler fd).Synced ↔ d.handlers fd = none := by
  constructor
  · intro hsynced
    have hfd : false = (d.demultiplexer.interest fd).isSome := by
      rw [← show _ = (d.demultiplexer.interest fd).isSome from hsynced fd]
      exact (congrArg Option.isSome (Function.update_self fd none d.handlers)).symm
    rw [← h fd] at hfd
    exact Option.isNone_iff_eq_none.mp (Option.isSome_eq_false_iff.mp hfd.symm)
  · intro hnone
    have hsame : Function.update d.handlers fd none = d.handlers :=
      Function.update_eq_self_iff.mpr hnone.symm
    rw [eraseHandler, hsame]
    exact h

/-- What is closed elsewhere must not have a handler here. -/
theorem Synced.removeFds_iff (h : d.Synced) (closed : Int → Bool) :
    (d.removeFds closed).Synced ↔ ∀ fd, closed fd = true → d.handlers fd = none := by
  have hfds (fd : Int) : ((d.removeFds closed).demultiplexer.interest fd).isSome =
      (!closed fd && (d.handlers fd).isSome) := by
    change (if closed fd then none else d.demultiplexer.interest fd).isSome = _
    rw [h fd]
    cases closed fd <;> rfl
  constructor
  · intro hsynced fd hfd
    have hnone : (d.handlers fd).isSome = false := by
      rw [show (d.handlers fd).isSome = _ from hsynced fd, hfds fd, hfd]
      rfl
    exact Option.isNone_iff_eq_none.mp (Option.isSome_eq_false_iff.mp hnone)
  · intro hnone fd
    rw [hfds fd]
    cases hfd : closed fd with
    | false => exact (Bool.true_and _).symm
    | true => exact congrArg Option.isSome (hnone fd hfd)

theorem removeFd_eq (d : Dispatcher) (fd : Int) : d.removeFd fd = d.removeFds (decide <| · = fd) := by
  have hinterest : Function.update d.demultiplexer.interest fd none =
      fun fd' => if decide (fd' = fd) then none else d.demultiplexer.interest fd' := by
    funext fd'
    by_cases hfd : fd' = fd
    · subst hfd
      simp
    · simp [hfd]
  rw [removeFd, Demultiplexer.removeFd, hinterest, removeFds]

theorem Synced.removeFd_iff (h : d.Synced) :
    (d.removeFd fd).Synced ↔ d.handlers fd = none := by
  rw [removeFd_eq, h.removeFds_iff]
  simp

/-- `HandleUnexpected` takes the descriptor out of both places. -/
theorem Synced.unexpected (h : d.Synced) (fd : Int) :
    (((d.eraseHandler fd).removeFd fd).removeFd fd).Synced := by
  intro fd'
  change (Function.update d.handlers fd none fd').isSome =
    (Function.update (Function.update d.demultiplexer.interest fd none) fd none fd').isSome
  by_cases hfd : fd' = fd
  · subst hfd
    rw [Function.update_self, Function.update_self]
    rfl
  · rw [Function.update_of_ne hfd, Function.update_of_ne hfd, Function.update_of_ne hfd, h fd']

end Dispatcher

namespace Serving

open Dispatcher

def Synced (s : Serving) : Prop := s.dispatchers.Everywhere Dispatcher.Synced

/-- A descriptor that gets a handler is added, and one that loses its handler, or is closed, in
one place has a handler in no other. -/
def Agreeing (s : Serving) : Call → Prop
  | .registerHandler i fd _ ok | .setMasterFD i fd ok =>
    ∀ d, s.dispatcher i = some d → d.registers fd = true → ok = true
  | .handleNewConnection fd ok =>
    ∀ d, s.dispatcher s.dispatchers.assignee = some d → d.registers fd = true → ok = true
  | .removeHandler i fd _ =>
    ∀ d, s.dispatcher i = some d → d.stop = false → 0 ≤ fd → d.handlers fd = none
  | .handleUnexpected i fd events => events.unexpected = true →
    ∀ j d, j ≠ i → s.dispatcher j = some d → d.handlers fd = none
  | .closeFd fd => s.dispatchers.Everywhere fun d => d.handlers fd = none
  | .shutdown => s.dispatchers.master.stop = false → s.dispatchers.master.enableSlave = false →
    ∀ j d, s.dispatcher (j + 1) = some d →
      ∀ fd, (s.dispatchers.master.handlers fd).isSome = true → d.handlers fd = none
  | .enableSlave _ | .addSlaveDispatcher _ | .extractExistedChannel | .restoreAllChannel _ _
  | .addPendingFunctor _ | .openFd _ => True

/-- `RegisterHandler` returns true exactly if it adds the descriptor in both places. -/
def Truthful (s : Serving) : Call → Prop
  | .registerHandler i fd handler ok => ∀ d, s.dispatcher i = some d →
    (d.registers fd = true ↔ d.Adds (d.registerHandler fd handler ok) fd)
  | _ => True

variable {A : Text.Allocator} {s s' : Serving} {call : Call}

theorem initial_synced (A : Text.Allocator) : (initial A).Synced :=
  Dispatchers.everywhere_initial A synced_create

theorem Synced.truthful (h : s.Synced) (hagreeing : s.Agreeing call) : s.Truthful call := by
  cases call with
  | registerHandler i fd handler ok =>
    intro d hd
    exact (h i d hd).adds_iff (hagreeing d hd)
  | enableSlave | addSlaveDispatcher | setMasterFD | removeHandler | handleNewConnection
  | handleUnexpected | extractExistedChannel | restoreAllChannel | addPendingFunctor | shutdown
  | openFd | closeFd => trivial

theorem synced_step_iff (h : s.Synced) (hstep : (machine A).step s call = some s') :
    s'.Synced ↔ s.Agreeing call := by
  cases step_cases hstep with
  | @enableSlave b =>
    refine iff_of_true ?_ trivial
    exact Dispatchers.everywhere_master h (h 0 s.dispatchers.master rfl)
  | @addSlaveDispatcher n =>
    refine iff_of_true ?_ trivial
    exact (Dispatchers.everywhere_append h).mpr fun _ => synced_create
  | enableSlaveStopped | addSlaveDispatcherRefused | pend | pendSlave | extractExistedChannel
  | restoreAllChannel | openFd => exact iff_of_true h trivial
  | @setMasterFD i fd ok =>
    apply (Dispatchers.everywhere_modify h i _).trans
    refine forall₂_congr fun d hd => ?_
    exact Synced.registerHandler_iff (d := { d with masterfd := fd }) (h i d hd) .accept ok
  | @setMasterFDRefused i fd ok hneg =>
    refine iff_of_true h fun d hd hreg => ?_
    exact absurd hneg (Int.not_lt.mpr (registers_iff.mp hreg).2.1)
  | @registerHandler i fd handler ok =>
    apply (Dispatchers.everywhere_modify h i _).trans
    exact forall₂_congr fun d hd => (h i d hd).registerHandler_iff handler ok
  | @removeHandler i fd stale d hd hstop hfd =>
    have herased : (s.dispatchers.eraseChannel fd stale).Everywhere Dispatcher.Synced :=
      (Dispatchers.everywhere_congr (s.dispatchers.dispatcher_eraseChannel fd stale)).mpr h
    apply (Dispatchers.everywhere_modify herased i _).trans
    rw [s.dispatchers.dispatcher_eraseChannel fd stale i]
    constructor
    · intro herase d' hd' _ _
      exact (h i d' hd').eraseHandler_iff.mp (herase d' hd')
    · intro hnone d' hd'
      obtain rfl := Option.some.inj (hd'.symm.trans hd)
      exact (h i d' hd').eraseHandler_iff.mpr (hnone d' hd' hstop hfd)
  | @removeHandlerRefused i fd stale d hd hrefused =>
    refine iff_of_true h fun d' hd' hstop hfd => ?_
    obtain rfl := Option.some.inj (hd'.symm.trans hd)
    cases hrefused with
    | inl hstopped => exact Bool.noConfusion (hstop.symm.trans hstopped)
    | inr hneg => exact absurd hneg (Int.not_lt.mpr hfd)
  | @failedConnection fd ok hneg =>
    apply (Dispatchers.everywhere_handleNewConnection h A fd ok).trans
    exact forall₂_congr fun d hd => (h _ d hd).registerHandler_iff _ ok
  | @handleNewConnection fd ok hnonneg hunused =>
    refine (Dispatchers.everywhere_handleNewConnection (s := { s.dispatchers with
      isOpen := Function.update s.dispatchers.isOpen fd true }) h A fd ok).trans ?_
    exact forall₂_congr fun d hd => (h _ d hd).registerHandler_iff _ ok
  | @handleUnexpected i fd events d handler hd hhandler hevents =>
    apply (Dispatchers.everywhere_map (s.dispatchers.dispatcher_handleUnexpected i fd)).trans
    constructor
    · intro hall _ j d' hne hd'
      have hsynced := hall j d' hd'
      rw [if_neg (Ne.symm hne)] at hsynced
      exact (h j d' hd').removeFd_iff.mp hsynced
    · intro hothers j d' hd'
      by_cases hj : i = j
      · rw [if_pos hj]
        exact (h j d' hd').unexpected fd
      · rw [if_neg hj]
        exact (h j d' hd').removeFd_iff.mpr (hothers hevents j d' (Ne.symm hj) hd')
  | @handleExpected i fd events hevents =>
    refine iff_of_true h fun hunexpected => ?_
    rw [hevents] at hunexpected
    cases hunexpected
  | shutdown hstop =>
    apply (Dispatchers.everywhere_shutdown hstop).trans
    constructor
    · rintro ⟨_, hslaves⟩ _ hdisabled j d hd
      exact ((h (j + 1) d hd).removeFds_iff _).mp (hslaves hdisabled j d hd)
    · intro hslaves
      refine ⟨fun _ => rfl, fun hdisabled j d hd => ?_⟩
      exact ((h (j + 1) d hd).removeFds_iff _).mpr (hslaves hstop hdisabled j d hd)
  | shutdownStopped hstop =>
    refine iff_of_true h fun hrunning => ?_
    rw [hstop] at hrunning
    cases hrunning
  | @closeFd fd hused =>
    apply (Dispatchers.everywhere_map (s.dispatchers.dispatcher_close fd)).trans
    exact forall_congr' fun j => forall₂_congr fun d hd => (h j d hd).removeFd_iff

/-- Handlers and registered descriptors agree throughout a run, and every `RegisterHandler` is
truthful, exactly if every call keeps them in agreement. -/
theorem synced_iff_agreeing (A : Text.Allocator) (calls : List Call) :
    (machine A).AllStates Synced (initial A) calls ∧
        (machine A).AllSteps Truthful (initial A) calls ↔
      (machine A).AllSteps Agreeing (initial A) calls := by
  have hiff : (machine A).AllStates Synced (initial A) calls ↔
      (machine A).AllSteps Agreeing (initial A) calls :=
    Machine.allStates_iff_allSteps_of_exact (fun _ _ _ h hstep => synced_step_iff h hstep)
      (initial_synced A) calls
  rw [hiff]
  refine and_iff_left_of_imp fun hagreeing => ?_
  exact hagreeing.imp_on (fun _ _ _ h hc hstep => (synced_step_iff h hstep).mpr hc)
    (fun _ _ _ h hc _ => h.truthful hc) (initial_synced A)

/-- A descriptor that cannot be added gets a handler, and one that loses its handler stays in the
interest list. -/
theorem registries_apart :
    (∃ s, (machine .doubling).run (initial .doubling) [.registerHandler 0 5 .other false] = some s ∧
      Dispatcher.registers (initial .doubling).dispatchers.master 5 = true ∧ ¬ s.Synced) ∧
    ∃ s, (machine .doubling).run (initial .doubling)
      [.registerHandler 0 5 .other true, .removeHandler 0 5 none] = some s ∧ ¬ s.Synced :=
  ⟨⟨_, rfl, rfl, fun h => Bool.noConfusion (h 0 _ rfl 5)⟩,
    ⟨_, rfl, fun h => Bool.noConfusion (h 0 _ rfl 5)⟩⟩

end Serving

end ServerDevLib.Reactor
