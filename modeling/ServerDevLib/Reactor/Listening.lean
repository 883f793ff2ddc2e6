import ServerDevLib.Reactor.Dispatch

/-!
# The listen backlog under edge-triggered reports

The dispatch loop is put together with the listening socket. A connection
that completes joins the backlog and raises the edge of the listening
descriptor; `epoll_wait` turns the edge into one report, however many
connections have come, and the report leads to one call of `accept`. Reports
of other descriptors are dispatched in between. Closing the listening
descriptor drops its backlog.
-/

namespace ServerDevLib.Reactor

open Transition

namespace Dispatching

/-- The listening descriptor is served as it was registered, or is closed. -/
structure Listens (s : Dispatching) : Prop where
  single : s.dispatchers.slaves = []
  nonneg : 0 ≤ s.master.masterfd
  apart : s.acceptor.accepted ≠ s.master.masterfd
  served : s.isOpen s.master.masterfd = true → s.master.handlers s.master.masterfd = some .accept ∧
    s.master.demultiplexer.interest s.master.masterfd = some DEFAULT_EVENTS
  closed : s.isOpen s.master.masterfd = false → s.master.handlers s.master.masterfd = none

variable {A : Text.Allocator} {s : Dispatching}

theorem start_listens {fd : Int} (enabled : Bool) (hfd : 0 ≤ fd) :
    (start A fd enabled true).Listens := by
  obtain ⟨hlistening, _⟩ := masterfd_start (A := A) fd enabled true
  have hopen : (start A fd enabled true).isOpen fd = true := by
    change Function.update (fun _ => false) fd true fd = true
    exact Function.update_self ..
  have hinterest : (Demultiplexer.create.registerFd fd true).interest fd = some DEFAULT_EVENTS := by
    rw [Demultiplexer.registerFd, if_neg (Int.not_lt.mpr hfd)]
    exact Function.update_self fd _ _
  constructor
  · rfl
  · rw [hlistening]
    exact hfd
  · rw [hlistening]
    intro heq
    change -1 = fd at heq
    omega
  · rw [hlistening]
    intro _
    constructor
    · exact Dispatchers.handlers_registerHandler rfl hfd rfl
    · have hregistered : (start A fd enabled true).master.demultiplexer =
          Demultiplexer.create.registerFd fd true :=
        Dispatchers.demultiplexer_registerHandler rfl hfd
      rw [hregistered]
      exact hinterest
  · rw [hlistening, hopen]
    intro hclosed
    cases hclosed

/-- Registering another descriptor changes nothing for the listening one. -/
theorem Listens.handleNewConnection (h : s.Listens) {fd : Int} (hne : s.master.masterfd ≠ fd)
    (ok : Bool) : (s.handleNewConnection A fd ok).Listens ∧
      (s.handleNewConnection A fd ok).master.masterfd = s.master.masterfd := by
  obtain ⟨hmaster, _⟩ := Dispatchers.masterfd_registerHandler s.master fd
    (.events s.dispatchers.nextChan) ok
  rw [Dispatching.handleNewConnection, Dispatchers.handleNewConnection_master (.inr h.single)]
  refine ⟨⟨h.single, ?_, ?_, ?_, ?_⟩, hmaster⟩
  all_goals change (s.master.registerHandler fd _ ok).masterfd = s.master.masterfd at hmaster
  · change 0 ≤ (s.master.registerHandler fd _ ok).masterfd
    rw [hmaster]
    exact h.nonneg
  · change s.acceptor.accepted ≠ (s.master.registerHandler fd _ ok).masterfd
    rw [hmaster]
    exact h.apart
  · change s.isOpen (s.master.registerHandler fd _ ok).masterfd = true →
      (s.master.registerHandler fd _ ok).handlers (s.master.registerHandler fd _ ok).masterfd = _ ∧
      (s.master.registerHandler fd _ ok).demultiplexer.interest
        (s.master.registerHandler fd _ ok).masterfd = _
    rw [hmaster, Dispatchers.handlers_registerHandler_of_ne _ hne,
      Dispatchers.interest_registerHandler_of_ne _ hne]
    exact h.served
  · change s.isOpen (s.master.registerHandler fd _ ok).masterfd = false →
      (s.master.registerHandler fd _ ok).handlers (s.master.registerHandler fd _ ok).masterfd = _
    rw [hmaster, Dispatchers.handlers_registerHandler_of_ne _ hne]
    exact h.closed

theorem Listens.accept (h : s.Listens) {e : Event} (hreturns : s.Returns e)
    (hopen : s.isOpen s.master.masterfd = true) : (s.accept e.events e.result).Listens := by
  have hresult := hreturns.ne_listening h.nonneg hopen
  obtain ⟨hmaster, _, hslaves⟩ := master_accept s e.events e.result
  have hstays : (s.accept e.events e.result).isOpen s.master.masterfd = true := by
    rw [Dispatching.accept]
    split
    · exact open_stays_open hopen
    · exact hopen
  constructor
  · rw [hslaves]
    exact h.single
  · rw [hmaster]
    exact h.nonneg
  · rw [hmaster]
    exact accepted_accept_ne _ h.apart hresult
  · rw [hmaster]
    exact fun _ => h.served hopen
  · rw [hmaster, hstays]
    intro hclosed
    cases hclosed

theorem masterfd_handleUnexpected (s : Dispatching) (fd : Int) (events : Events) :
    (s.handleUnexpected fd events).master.masterfd = s.master.masterfd := by
  rw [Dispatching.handleUnexpected]
  split
  · obtain ⟨chan, heq⟩ := s.dispatchers.handleUnexpected_eq fd
    rw [heq]
    rfl
  · rfl

theorem isOpen_handleUnexpected_of_ne (s : Dispatching) {fd fd' : Int} (h : fd' ≠ fd)
    (events : Events) : (s.handleUnexpected fd events).isOpen fd' = s.isOpen fd' := by
  rw [Dispatching.handleUnexpected]
  split
  · obtain ⟨chan, heq⟩ := s.dispatchers.handleUnexpected_eq fd
    rw [heq]
    exact Function.update_of_ne h ..
  · rfl

theorem Listens.handleUnexpected (h : s.Listens) (fd : Int) (events : Events) :
    (s.handleUnexpected fd events).Listens := by
  rw [Dispatching.handleUnexpected]
  split
  · obtain ⟨chan, heq⟩ := s.dispatchers.handleUnexpected_eq fd
    rw [heq]
    have hslaves : (s.dispatchers.slaves.map fun d => d.removeFd fd) = [] :=
      List.map_eq_nil_iff.mpr h.single
    rcases eq_or_ne s.master.masterfd fd with rfl | hne
    · refine ⟨hslaves, h.nonneg, h.apart, fun hopen => ?_, fun _ => Function.update_self ..⟩
      change Function.update s.isOpen s.master.masterfd false s.master.masterfd = true at hopen
      rw [Function.update_self] at hopen
      cases hopen
    · refine ⟨hslaves, h.nonneg, h.apart, ?_, ?_⟩
      · change Function.update s.isOpen fd false s.master.masterfd = true →
          Function.update s.master.handlers fd none s.master.masterfd = _ ∧
          Function.update (Function.update s.master.demultiplexer.interest fd none) fd none
            s.master.masterfd = _
        rw [Function.update_of_ne hne, Function.update_of_ne hne, Function.update_of_ne hne,
          Function.update_of_ne hne]
        exact h.served
      · change Function.update s.isOpen fd false s.master.masterfd = false →
          Function.update s.master.handlers fd none s.master.masterfd = _
        rw [Function.update_of_ne hne, Function.update_of_ne hne]
        exact h.closed
  · exact h

theorem Listens.open_of_handler (h : s.Listens) {handler : Handler}
    (hhandler : s.master.handlers s.master.masterfd = some handler) :
    s.isOpen s.master.masterfd = true := by
  cases hopen : s.isOpen s.master.masterfd with
  | true => rfl
  | false =>
    rw [h.closed hopen] at hhandler
    cases hhandler

/-- Whatever is dispatched, the listening descriptor is served as before or closed. -/
theorem Listens.step (h : s.Listens) {e : Event} {s' : Dispatching}
    (hstep : (machine A).step s e = some s') :
    s'.Listens ∧ s'.master.masterfd = s.master.masterfd := by
  cases step_cases hstep with
  | unhandled => exact ⟨h, rfl⟩
  | listening hreturns hlistener hhandler =>
    rw [hlistener] at hhandler
    have haccept := h.accept hreturns (h.open_of_handler hhandler)
    have hne := haccept.apart.symm
    obtain ⟨hnew, hmaster⟩ := haccept.handleNewConnection (A := A) hne e.ok
    refine ⟨hnew.handleUnexpected e.fd e.events, ?_⟩
    rw [masterfd_handleUnexpected, hmaster, (master_accept s e.events e.result).1]
  | @connection handler =>
    have htasks : ({ s with tasks := s.tasks ++ [(handler, e.events)] } : Dispatching).Listens :=
      ⟨h.single, h.nonneg, h.apart, h.served, h.closed⟩
    exact ⟨htasks.handleUnexpected e.fd e.events, masterfd_handleUnexpected ..⟩

/-- An event of another descriptor does not close the listening one. -/
theorem isOpen_listening_of_other {e : Event} {s' : Dispatching} (hother : e.fd ≠ s.master.masterfd)
    (hstep : (machine A).step s e = some s') :
    s'.isOpen s.master.masterfd = s.isOpen s.master.masterfd := by
  cases step_cases hstep with
  | unhandled => rfl
  | listening _ hlistener => exact absurd hlistener hother
  | connection => exact isOpen_handleUnexpected_of_ne _ hother.symm _

end Dispatching

structure Listening where
  dispatching : Dispatching
  backlog : Nat
  edge : Bool
  report : Option Events

namespace Listening

inductive Action
  | arrive
  | fetch (events : Events)
  | process (result : Int) (ok : Bool)
  | other (e : Event)

def fd (s : Listening) : Int := s.dispatching.master.masterfd

def isOpen (s : Listening) : Bool := s.dispatching.isOpen s.fd

/-- The listening descriptor is in the interest list with `EPOLLIN`. -/
def watched (s : Listening) : Bool :=
  match s.dispatching.master.demultiplexer.interest s.fd with
  | some events => events.has EPOLLIN
  | none => false

/-- The report leads to a call of `accept` that takes a connection. -/
def takes (s : Listening) (events : Events) (result : Int) : Bool :=
  (s.dispatching.master.handlers s.fd).isSome && events.has EPOLLIN && decide (0 ≤ result)

def step (A : Text.Allocator) (s : Listening) : Action → Option Listening
  | .arrive =>
    if s.isOpen then some { s with backlog := s.backlog + 1, edge := s.edge || s.watched } else none
  | .fetch events =>
    if s.isOpen = true ∧ s.report = none ∧ (s.edge = true → 0 < s.backlog → events.has EPOLLIN) then
      some { s with edge := false, report := some events }
    else none
  | .process result ok =>
    match s.report with
    | some events =>
      if s.takes events result ∧ s.backlog = 0 then none
      else ((Dispatching.machine A).step s.dispatching ⟨s.fd, events, result, ok⟩).map fun next =>
        if next.isOpen s.fd then
          { s with
            dispatching := next
            backlog := if s.takes events result then s.backlog - 1 else s.backlog
            report := none }
        else { dispatching := next, backlog := 0, edge := false, report := none }
    | none => none
  | .other e =>
    if e.fd = s.fd then none
    else ((Dispatching.machine A).step s.dispatching e).map fun next => { s with dispatching := next }

/-- The listening descriptor has been registered, and nobody has connected yet. -/
def start (A : Text.Allocator) (fd : Int) (enabled : Bool) : Listening :=
  { dispatching := Dispatching.start A fd enabled true, backlog := 0, edge := false, report := none }

def machine (A : Text.Allocator) : Machine Listening Action where
  init s := ∃ fd enabled, 0 ≤ fd ∧ s = start A fd enabled
  step := step A

/-- A connection arrives only after the edge of the one before it was fetched, and `accept` does
not fail while the backlog has a connection. -/
def OneByOne (s : Listening) : Action → Prop
  | .arrive => s.edge = false
  | .process result _ =>
    ∀ events, s.report = some events → events.has EPOLLIN = true → 0 < s.backlog → 0 ≤ result
  | .fetch _ | .other _ => True

/-- The connections that a report, once processed, takes from the backlog. -/
def due (s : Listening) : Nat :=
  match s.report with
  | some events => (events.has EPOLLIN).toNat
  | none => 0

structure Covered (s : Listening) : Prop where
  listens : s.dispatching.Listens
  gone : s.isOpen = false → s.backlog = 0
  covered : s.backlog ≤ s.edge.toNat + s.due

variable {A : Text.Allocator} {s : Listening}

theorem start_covered {fd : Int} (enabled : Bool) (hfd : 0 ≤ fd) : (start A fd enabled).Covered where
  listens := Dispatching.start_listens enabled hfd
  gone _ := rfl
  covered := Nat.zero_le _

theorem Covered.watched (h : s.Covered) (hopen : s.isOpen = true) : s.watched = true := by
  rw [Listening.watched, fd, (h.listens.served hopen).2]
  decide

theorem Covered.handler (h : s.Covered) (hopen : s.isOpen = true) :
    (s.dispatching.master.handlers s.fd).isSome = true := by
  rw [fd, (h.listens.served hopen).1]
  rfl

/-- The call of `accept` pays for its report. -/
theorem Covered.settle (h : s.Covered) {events : Events} {result : Int}
    (hreport : s.report = some events)
    (haccept : events.has EPOLLIN = true → 0 < s.backlog → 0 ≤ result) :
    (if s.takes events result then s.backlog - 1 else s.backlog) ≤ s.edge.toNat := by
  have hcovered : s.backlog ≤ s.edge.toNat + (events.has EPOLLIN).toNat := by
    have hcovered := h.covered
    rw [due, hreport] at hcovered
    exact hcovered
  split
  · have hone : (events.has EPOLLIN).toNat ≤ 1 := Bool.toNat_le _
    omega
  · rename_i hleft
    cases Nat.eq_zero_or_pos s.backlog with
    | inl hzero => omega
    | inr hpos =>
      have hopen : s.isOpen = true := by
        cases hopen : s.isOpen with
        | true => rfl
        | false => exact absurd (h.gone hopen) (Nat.ne_of_gt hpos)
      cases hin : events.has EPOLLIN with
      | false =>
        rw [hin] at hcovered
        exact hcovered
      | true =>
        rw [takes, h.handler hopen, hin, decide_eq_true (haccept hin hpos)] at hleft
        exact absurd rfl hleft

theorem covered_step : (machine A).Preserves OneByOne Covered := by
  intro s a s' h hcond hstep
  cases a with
  | arrive =>
    simp only [machine, step] at hstep
    split at hstep <;> cases hstep
    rename_i hopen
    have hedge : s.edge = false := hcond
    have hcovered := h.covered
    refine ⟨h.listens, fun hclosed => ?_, ?_⟩
    · rw [show s.isOpen = false from hclosed] at hopen
      cases hopen
    · change s.backlog + 1 ≤ (s.edge || s.watched).toNat + s.due
      rw [hedge, Bool.toNat_false] at hcovered
      rw [hedge, h.watched hopen, Bool.or_true, Bool.toNat_true]
      omega
  | fetch events =>
    simp only [machine, step] at hstep
    split at hstep <;> cases hstep
    rename_i hguard
    obtain ⟨_, hreport, hin⟩ := hguard
    have hcovered := h.covered
    rw [due, hreport] at hcovered
    refine ⟨h.listens, h.gone, ?_⟩
    change s.backlog ≤ 0 + (events.has EPOLLIN).toNat
    cases hedge : s.edge with
    | false =>
      rw [hedge] at hcovered
      exact Nat.le_trans hcovered (Nat.zero_le _)
    | true =>
      rw [hedge] at hcovered
      cases Nat.eq_zero_or_pos s.backlog with
      | inl hzero =>
        rw [hzero]
        exact Nat.zero_le _
      | inr hpos =>
        rw [hin hedge hpos]
        exact hcovered
  | process result ok =>
    simp only [machine, step] at hstep
    split at hstep
    · rename_i events hreport
      split at hstep
      · cases hstep
      · obtain ⟨next, hnext, hs'⟩ := Option.map_eq_some_iff.mp hstep
        obtain ⟨hlistens, hfd⟩ := h.listens.step hnext
        split at hs'
        · rename_i hopen
          subst hs'
          refine ⟨hlistens, fun hclosed => ?_, ?_⟩
          · change next.isOpen next.master.masterfd = false at hclosed
            rw [hfd, show next.isOpen s.dispatching.master.masterfd = true from hopen] at hclosed
            cases hclosed
          · exact h.settle hreport (hcond events hreport)
        · subst hs'
          exact ⟨hlistens, fun _ => rfl, Nat.zero_le _⟩
    · cases hstep
  | other e =>
    simp only [machine, step] at hstep
    split at hstep
    · cases hstep
    · rename_i hother
      obtain ⟨next, hnext, rfl⟩ := Option.map_eq_some_iff.mp hstep
      obtain ⟨hlistens, hfd⟩ := h.listens.step hnext
      refine ⟨hlistens, fun hclosed => ?_, h.covered⟩
      change next.isOpen next.master.masterfd = false at hclosed
      rw [hfd, Dispatching.isOpen_listening_of_other hother hnext] at hclosed
      exact h.gone hclosed

/-- When no report is outstanding and none is being processed, the backlog is empty. -/
theorem backlog_empty_of_quiet (s : Listening) (h : (machine A).ReachableUnder OneByOne s)
    (hedge : s.edge = false) (hreport : s.report = none) : s.backlog = 0 := by
  have hcovered : s.Covered := by
    apply h.invariant _ covered_step
    rintro s ⟨fd, enabled, hfd, rfl⟩
    exact start_covered enabled hfd
  have hle := hcovered.covered
  rw [due, hedge, hreport] at hle
  exact Nat.le_zero.mp hle

instance (s : Listening) (a : Action) : Decidable (s.OneByOne a) :=
  match a with
  | .arrive => inferInstanceAs (Decidable (s.edge = false))
  | .process result _ =>
    match h : s.report with
    | some events =>
      decidable_of_iff (events.has EPOLLIN = true → 0 < s.backlog → 0 ≤ result)
        (by simp [OneByOne, h])
    | none => isTrue (by simp [OneByOne, h])
  | .fetch _ | .other _ => isTrue trivial

/-- Two connections one after the other, the second between the report of the first and its
`accept`. -/
theorem backlog_empty_of_quiet_pair : ∃ s, (machine .doubling).runUnder OneByOne
    (start .doubling 3 true) [.arrive, .fetch EPOLLIN, .arrive, .process 7 true, .fetch EPOLLIN,
      .process 8 true] = some s ∧ s.backlog = 0 := by
  obtain ⟨s, hs, hquiet⟩ : ∃ s, (machine .doubling).runUnder OneByOne (start .doubling 3 true)
      [.arrive, .fetch EPOLLIN, .arrive, .process 7 true, .fetch EPOLLIN, .process 8 true] =
        some s ∧ (s.edge, s.report) = (false, none) :=
    Option.map_eq_some_iff.mp (by decide +kernel)
  have hinit : (machine .doubling).init (start .doubling 3 true) := ⟨3, true, by decide, rfl⟩
  obtain ⟨hedge, hreport⟩ := Prod.mk.inj hquiet
  exact ⟨s, hs, backlog_empty_of_quiet s (Machine.reachableUnder_of_runUnder hinit hs) hedge
    hreport⟩

/-- Two arrivals are merged into one report, and one of them is left in the backlog. -/
theorem connection_left_in_backlog : ∃ s, (machine .doubling).run (start .doubling 3 true)
    [.arrive, .arrive, .fetch EPOLLIN, .process 7 true] = some s ∧
    (s.edge, s.report, s.backlog) = (false, none, 1) :=
  Option.map_eq_some_iff.mp (by decide +kernel)

end Listening

end ServerDevLib.Reactor
