import ServerDevLib.Reactor.Dispatcher

/-!
# The body of the dispatch loop

A dispatcher without slaves handles the events that `epoll_wait` has fetched.
An event of the listening descriptor goes to the acceptor, whose `_accepted`
keeps its value when `accept` is not called and is -1 after it has failed; an
event of a connection is enqueued with its handler. What `accept` and
`epoll_ctl` return is part of the event. Functors that the application has
added are left out.

`connected` is the set of descriptors that `accept` has returned and that have
not been closed since.
-/

namespace ServerDevLib.Reactor

open Transition

structure AcceptHandler where
  master : Int
  accepted : Int

namespace AcceptHandler

def create (fd : Int) : AcceptHandler := { master := fd, accepted := -1 }

def handleEvent (h : AcceptHandler) (events : Events) (result : Int) : AcceptHandler :=
  if events.has EPOLLIN then { h with accepted := result } else h

end AcceptHandler

/-- The test of `HandleUnexpected`. -/
def Events.unexpected (events : Events) : Bool :=
  events.has EPOLLERR || events.has EPOLLHUP || events.has EPOLLRDHUP

structure Event where
  fd : Int
  events : Events
  result : Int
  ok : Bool

structure Dispatching where
  dispatchers : Dispatchers
  acceptor : AcceptHandler
  tasks : List (Handler × Events)
  connected : Int → Bool

namespace Dispatching

def master (s : Dispatching) : Dispatcher := s.dispatchers.master

def allChannel (s : Dispatching) : ChannelMap := s.dispatchers.allChannel

def isOpen (s : Dispatching) : Int → Bool := s.dispatchers.isOpen

/-- A dispatcher after `EnableSlave` and `SetMasterFD`. -/
def start (A : Text.Allocator) (fd : Int) (enabled ok : Bool) : Dispatching :=
  { dispatchers := { Dispatchers.initial A with
      master := { Dispatcher.create with
        enableSlave := enabled
        masterfd := fd }.registerHandler fd .accept ok
      isOpen := Function.update (fun _ => false) fd true }
    acceptor := .create fd, tasks := [], connected := fun _ => false }

/-- `HandleEvent` of the acceptor, with the descriptor that the kernel opens. -/
def accept (s : Dispatching) (events : Events) (result : Int) : Dispatching :=
  let s := { s with acceptor := s.acceptor.handleEvent events result }
  if events.has EPOLLIN = true ∧ 0 ≤ result then
    { s with
      dispatchers := { s.dispatchers with isOpen := Function.update s.isOpen result true }
      connected := Function.update s.connected result true }
  else s

def handleNewConnection (A : Text.Allocator) (s : Dispatching) (fd : Int) (ok : Bool) : Dispatching :=
  { s with dispatchers := s.dispatchers.handleNewConnection A fd ok }

def handleUnexpected (s : Dispatching) (fd : Int) (events : Events) : Dispatching :=
  if events.unexpected then
    { s with
      dispatchers := s.dispatchers.handleUnexpected 0 fd
      connected := Function.update s.connected fd false }
  else s

/-- An event of the listening descriptor needs an `AcceptHandler` for the `dynamic_cast`. -/
def dispatch (A : Text.Allocator) (s : Dispatching) (e : Event) : Option Dispatching :=
  match s.master.handlers e.fd with
  | none => some s
  | some handler =>
    if e.fd = s.master.masterfd then
      match handler with
      | .accept =>
        let s := s.accept e.events e.result
        some ((s.handleNewConnection A s.acceptor.accepted e.ok).handleUnexpected e.fd e.events)
      | .events _ | .other => none
    else some ({ s with tasks := s.tasks ++ [(handler, e.events)] }.handleUnexpected e.fd e.events)

/-- `accept` returns -1 or a descriptor that was not open. -/
def Returns (s : Dispatching) (e : Event) : Prop :=
  e.result = -1 ∨ 0 ≤ e.result ∧ s.isOpen e.result = false

instance (s : Dispatching) (e : Event) : Decidable (s.Returns e) :=
  inferInstanceAs (Decidable (e.result = -1 ∨ 0 ≤ e.result ∧ s.isOpen e.result = false))

def machine (A : Text.Allocator) : Machine Dispatching Event where
  init s := ∃ fd enabled ok, 0 ≤ fd ∧ s = start A fd enabled ok
  step s e := if s.Returns e then s.dispatch A e else none

/-- What an event does, with the guards it has passed. -/
inductive Step (A : Text.Allocator) (s : Dispatching) : Event → Dispatching → Prop
  | unhandled {e} (absent : s.master.handlers e.fd = none) : Step A s e s
  | listening {e} (returns : s.Returns e) (listener : e.fd = s.master.masterfd)
      (present : s.master.handlers e.fd = some .accept) :
      Step A s e (((s.accept e.events e.result).handleNewConnection A
        (s.accept e.events e.result).acceptor.accepted e.ok).handleUnexpected e.fd e.events)
  | connection {e handler} (other : e.fd ≠ s.master.masterfd)
      (present : s.master.handlers e.fd = some handler) :
      Step A s e
        ({ s with tasks := s.tasks ++ [(handler, e.events)] }.handleUnexpected e.fd e.events)

theorem dispatch_cases {A : Text.Allocator} {s s' : Dispatching} {e : Event}
    (hreturns : s.Returns e) (h : s.dispatch A e = some s') : Step A s e s' := by
  simp only [dispatch] at h
  split at h
  · rename_i habsent
    cases h
    exact .unhandled habsent
  · rename_i handler hpresent
    split at h
    · rename_i hlistener
      split at h <;> cases h
      exact .listening hreturns hlistener hpresent
    · rename_i hother
      cases h
      exact .connection hother hpresent

theorem step_cases {A : Text.Allocator} {s s' : Dispatching} {e : Event}
    (h : (machine A).step s e = some s') : Step A s e s' := by
  simp only [machine] at h
  split at h
  · rename_i hreturns
    exact dispatch_cases hreturns h
  · cases h

/-- Every key of `_allChannel` is a connected descriptor, and its channel is that of its handler. -/
def Filed (s : Dispatching) : Prop :=
  ∀ fd c, s.allChannel fd = some c →
    0 ≤ fd ∧ s.connected fd = true ∧ s.master.handlers fd = some (.events c)

/-- The acceptor hands over a descriptor that is connected. -/
def Delivers (s : Dispatching) (e : Event) : Prop :=
  e.fd = s.master.masterfd → s.master.handlers e.fd ≠ none →
    if e.events.has EPOLLIN then 0 ≤ e.result else s.connected s.acceptor.accepted = true

structure Tidy (s : Dispatching) : Prop where
  running : s.master.stop = false
  single : s.dispatchers.slaves = []
  nonneg : 0 ≤ s.master.masterfd
  handled : ∀ fd, s.master.handlers fd ≠ none → s.isOpen fd = true
  apart : s.acceptor.accepted ≠ s.master.masterfd
  known : ∀ fd, s.connected fd = true → 0 ≤ fd ∧ fd ≠ s.master.masterfd ∧ s.isOpen fd = true ∧
    (s.allChannel fd = none → s.master.handlers fd = none)

variable {A : Text.Allocator} {s : Dispatching}

theorem masterfd_start (fd : Int) (enabled ok : Bool) :
    (start A fd enabled ok).master.masterfd = fd ∧ (start A fd enabled ok).master.stop = false :=
  Dispatchers.masterfd_registerHandler { Dispatcher.create with
    enableSlave := enabled
    masterfd := fd } fd .accept ok

theorem start_tidy {fd : Int} (enabled ok : Bool) (hfd : 0 ≤ fd) :
    (start A fd enabled ok).Tidy := by
  obtain ⟨hlistening, hstop⟩ := masterfd_start (A := A) fd enabled ok
  constructor
  · exact hstop
  · rfl
  · rw [hlistening]
    exact hfd
  · intro fd' hhandler
    change Function.update (fun _ => false) fd true fd' = true
    rcases eq_or_ne fd' fd with rfl | hne
    · exact Function.update_self ..
    · exact absurd (Dispatchers.handlers_registerHandler_of_ne _ hne .accept ok) hhandler
  · rw [hlistening]
    intro heq
    change -1 = fd at heq
    omega
  · nofun

theorem start_filed (fd : Int) (enabled ok : Bool) : (start A fd enabled ok).Filed := nofun

theorem accept_of_fails {events : Events} {result : Int}
    (h : ¬ (events.has EPOLLIN = true ∧ 0 ≤ result)) : s.accept events result =
      { s with acceptor := s.acceptor.handleEvent events result } := if_neg h

theorem accept_of_succeeds {events : Events} {result : Int}
    (h : events.has EPOLLIN = true ∧ 0 ≤ result) : s.accept events result =
      { s with
        acceptor := { s.acceptor with accepted := result }
        dispatchers := { s.dispatchers with isOpen := Function.update s.isOpen result true }
        connected := Function.update s.connected result true } := by
  rw [accept, if_pos h, AcceptHandler.handleEvent, if_pos h.1]
  rfl

theorem master_accept (s : Dispatching) (events : Events) (result : Int) :
    (s.accept events result).master = s.master ∧
      (s.accept events result).allChannel = s.allChannel ∧
      (s.accept events result).dispatchers.slaves = s.dispatchers.slaves := by
  simp only [accept]
  split <;> exact ⟨rfl, rfl, rfl⟩

theorem Filed.accept (h : s.Filed) (events : Events) (result : Int) :
    (s.accept events result).Filed := by
  intro fd c hc
  rw [(master_accept s events result).2.1] at hc
  rw [(master_accept s events result).1]
  obtain ⟨hfd, hconnected, hhandler⟩ := h fd c hc
  refine ⟨hfd, ?_, hhandler⟩
  rw [Dispatching.accept]
  split
  · exact open_stays_open hconnected
  · exact hconnected

/-- `accept` does not return a listening descriptor that is open. -/
theorem Returns.ne_listening {e : Event} (h : s.Returns e) (hnonneg : 0 ≤ s.master.masterfd)
    (hlistening : s.isOpen s.master.masterfd = true) : e.result ≠ s.master.masterfd := by
  intro heq
  cases h with
  | inl hfailed =>
    rw [← heq, hfailed] at hnonneg
    exact absurd hnonneg (by decide)
  | inr hclosed =>
    rw [heq, hlistening] at hclosed
    cases hclosed.2

theorem accepted_accept_ne {fd : Int} (events : Events) {result : Int}
    (hold : s.acceptor.accepted ≠ fd) (hresult : result ≠ fd) :
    (s.accept events result).acceptor.accepted ≠ fd := by
  have hevent : (s.acceptor.handleEvent events result).accepted ≠ fd := by
    rw [AcceptHandler.handleEvent]
    split
    · exact hresult
    · exact hold
  rw [accept]
  split
  · exact hevent
  · exact hevent

theorem Tidy.accept (h : s.Tidy) {e : Event} (hreturns : s.Returns e)
    (hlistening : s.isOpen s.master.masterfd = true) : (s.accept e.events e.result).Tidy := by
  have hresult := hreturns.ne_listening h.nonneg hlistening
  by_cases hsucceeds : e.events.has EPOLLIN = true ∧ 0 ≤ e.result
  · have hclosed : s.isOpen e.result = false := by
      cases hreturns with
      | inl hfailed =>
        have hnonneg := hsucceeds.2
        rw [hfailed] at hnonneg
        exact absurd hnonneg (by decide)
      | inr hclosed => exact hclosed.2
    rw [accept_of_succeeds hsucceeds]
    refine ⟨h.running, h.single, h.nonneg, fun fd hhandler => ?_, hresult, fun fd hfd => ?_⟩
    · exact open_stays_open (h.handled fd hhandler)
    · rcases eq_or_ne fd e.result with rfl | hne
      · refine ⟨hsucceeds.2, hresult, Function.update_self .., fun _ => ?_⟩
        by_contra hhandler
        have hopen := h.handled e.result hhandler
        rw [hclosed] at hopen
        cases hopen
      · have hold : s.connected fd = true := (Function.update_of_ne hne ..).symm.trans hfd
        obtain ⟨hnonneg, hother, hopen, habsent⟩ := h.known fd hold
        exact ⟨hnonneg, hother, open_stays_open hopen, habsent⟩
  · rw [accept_of_fails hsucceeds]
    refine ⟨h.running, h.single, h.nonneg, h.handled, ?_, h.known⟩
    have hapart := accepted_accept_ne e.events h.apart hresult
    rw [accept_of_fails hsucceeds] at hapart
    exact hapart

/-- What the acceptor hands over is connected exactly under the condition. -/
theorem Tidy.delivers_iff (h : s.Tidy) (events : Events) (result : Int) :
    (s.accept events result).connected (s.accept events result).acceptor.accepted = true ↔
      if events.has EPOLLIN then 0 ≤ result else s.connected s.acceptor.accepted = true := by
  by_cases hsucceeds : events.has EPOLLIN = true ∧ 0 ≤ result
  · rw [accept_of_succeeds hsucceeds, if_pos hsucceeds.1]
    constructor
    · exact fun _ => hsucceeds.2
    · exact fun _ => Function.update_self ..
  · rw [accept_of_fails hsucceeds]
    change s.connected (s.acceptor.handleEvent events result).accepted = true ↔ _
    rw [AcceptHandler.handleEvent]
    split
    · rename_i hin
      constructor
      · exact fun hconnected => (h.known result hconnected).1
      · exact fun hnonneg => absurd ⟨hin, hnonneg⟩ hsucceeds
    · rfl

section Connection

variable {fd : Int} {events : Events} {ok : Bool}

theorem Tidy.handleNewConnection_eq (h : s.Tidy) : s.handleNewConnection A fd ok =
    { s with dispatchers :=
      { s.dispatchers.setChan s.dispatchers.nextChan (.create A fd (some 0)) with
        master := s.master.registerHandler fd (.events s.dispatchers.nextChan) ok
        nextChan := s.dispatchers.nextChan + 1
        allChannel := s.allChannel.emplace fd s.dispatchers.nextChan } } := by
  rw [Dispatching.handleNewConnection, Dispatchers.handleNewConnection_master (.inr h.single)]
  rfl

theorem Tidy.handleNewConnection (h : s.Tidy) (hconnected : s.connected fd = true) :
    (s.handleNewConnection A fd ok).Tidy := by
  obtain ⟨_, _, hopen, _⟩ := h.known fd hconnected
  obtain ⟨hmaster, hstop⟩ := Dispatchers.masterfd_registerHandler s.master fd
    (.events s.dispatchers.nextChan) ok
  rw [h.handleNewConnection_eq]
  refine ⟨hstop.trans h.running, h.single, ?_, fun fd' hhandler => ?_, ?_, fun fd' hfd' => ?_⟩
  · change 0 ≤ (s.master.registerHandler fd _ ok).masterfd
    rw [hmaster]
    exact h.nonneg
  · rcases eq_or_ne fd' fd with rfl | hne
    · exact hopen
    · refine h.handled fd' fun hnone => hhandler ?_
      exact (Dispatchers.handlers_registerHandler_of_ne _ hne _ _).trans hnone
  · change s.acceptor.accepted ≠ (s.master.registerHandler fd _ ok).masterfd
    rw [hmaster]
    exact h.apart
  · obtain ⟨hnonneg, hother, hopen', habsent⟩ := h.known fd' hfd'
    refine ⟨hnonneg, ?_, hopen', fun hnone => ?_⟩
    · change fd' ≠ (s.master.registerHandler fd _ ok).masterfd
      rw [hmaster]
      exact hother
    · change s.allChannel.emplace fd _ fd' = none at hnone
      have hold : s.allChannel fd' = none := by
        by_contra hsome
        obtain ⟨c, hc⟩ := Option.ne_none_iff_exists'.mp hsome
        rw [ChannelMap.emplace_of_some hc] at hnone
        cases hnone
      have hne : fd' ≠ fd := by
        rintro rfl
        rw [ChannelMap.emplace_self hold] at hnone
        cases hnone
      exact (Dispatchers.handlers_registerHandler_of_ne _ hne _ _).trans (habsent hold)

/-- `HandleNewConnection` files something under whatever it is given. -/
theorem Tidy.filed_accepted (h : s.Tidy) (fd : Int) (ok : Bool) :
    ∃ c, (s.handleNewConnection A fd ok).allChannel fd = some c := by
  rw [h.handleNewConnection_eq]
  cases hold : s.allChannel fd with
  | none => exact ⟨_, ChannelMap.emplace_self hold _⟩
  | some c => exact ⟨c, ChannelMap.emplace_of_some hold⟩

/-- A connected descriptor gets its channel and its handler, or keeps both. -/
theorem Filed.handleNewConnection (h : s.Filed) (ht : s.Tidy) (hconnected : s.connected fd = true) :
    (s.handleNewConnection A fd ok).Filed := by
  obtain ⟨hnonneg, _, _, habsent⟩ := ht.known fd hconnected
  rw [ht.handleNewConnection_eq]
  intro fd' c hc
  rcases ChannelMap.emplace_cases hc with hold | ⟨hnone, rfl, rfl⟩
  · obtain ⟨hfd', hconnected', hhandler⟩ := h fd' c hold
    refine ⟨hfd', hconnected', ?_⟩
    rcases eq_or_ne fd' fd with rfl | hne
    · exact Dispatchers.handlers_registerHandler_of_some hhandler _ _
    · exact (Dispatchers.handlers_registerHandler_of_ne _ hne _ _).trans hhandler
  · exact ⟨hnonneg, hconnected,
      Dispatchers.handlers_registerHandler ht.running hnonneg (habsent hnone)⟩

theorem Tidy.handleUnexpected (h : s.Tidy) (fd : Int) (events : Events) :
    (s.handleUnexpected fd events).Tidy := by
  rw [Dispatching.handleUnexpected]
  split
  · obtain ⟨chan, heq⟩ := s.dispatchers.handleUnexpected_eq fd
    rw [heq]
    refine ⟨h.running, List.map_eq_nil_iff.mpr h.single, h.nonneg, fun fd' hhandler => ?_, h.apart,
      fun fd' hfd' => ?_⟩
    · change Function.update s.master.handlers fd none fd' ≠ none at hhandler
      change Function.update s.isOpen fd false fd' = true
      rcases eq_or_ne fd' fd with rfl | hne
      · rw [Function.update_self] at hhandler
        exact absurd rfl hhandler
      · rw [Function.update_of_ne hne] at hhandler ⊢
        exact h.handled fd' hhandler
    · change Function.update s.connected fd false fd' = true at hfd'
      change 0 ≤ fd' ∧ fd' ≠ s.master.masterfd ∧ Function.update s.isOpen fd false fd' = true ∧
        (Function.update s.allChannel fd none fd' = none →
          Function.update s.master.handlers fd none fd' = none)
      rcases eq_or_ne fd' fd with rfl | hne
      · rw [Function.update_self] at hfd'
        cases hfd'
      · rw [Function.update_of_ne hne] at hfd'
        rw [Function.update_of_ne hne, Function.update_of_ne hne, Function.update_of_ne hne]
        exact h.known fd' hfd'
  · exact h

theorem Filed.handleUnexpected (h : s.Filed) (fd : Int) (events : Events) :
    (s.handleUnexpected fd events).Filed := by
  rw [Dispatching.handleUnexpected]
  split
  · obtain ⟨chan, heq⟩ := s.dispatchers.handleUnexpected_eq fd
    rw [heq]
    intro fd' c hc
    obtain ⟨hne, hold⟩ := ChannelMap.erase_cases hc
    change 0 ≤ fd' ∧ Function.update s.connected fd false fd' = true ∧
      Function.update s.master.handlers fd none fd' = some (.events c)
    rw [Function.update_of_ne hne, Function.update_of_ne hne]
    exact h fd' c hold
  · exact h

/-- What is filed under another descriptor is not affected. -/
theorem connected_of_filed (h : (s.handleUnexpected fd events).Filed) {fd' : Int} {c : Nat}
    (hne : fd' ≠ fd) (hc : s.allChannel fd' = some c) : s.connected fd' = true := by
  rw [Dispatching.handleUnexpected] at h
  split at h
  · obtain ⟨chan, heq⟩ := s.dispatchers.handleUnexpected_eq fd
    rw [heq] at h
    obtain ⟨_, hconnected, _⟩ := h fd' c ((Function.update_of_ne hne ..).trans hc)
    exact (Function.update_of_ne hne ..).symm.trans hconnected
  · exact (h fd' c hc).2.1

end Connection

theorem Tidy.open_of_handler (h : s.Tidy) {fd : Int} {handler : Handler}
    (hhandler : s.master.handlers fd = some handler) : s.isOpen fd = true := by
  apply h.handled
  rw [hhandler]
  exact Option.some_ne_none handler

theorem tidy_step (s : Dispatching) (e : Event) (s' : Dispatching) (h : s.Tidy)
    (hdelivers : s.Delivers e) (hstep : (machine A).step s e = some s') : s'.Tidy := by
  cases step_cases hstep with
  | unhandled => exact h
  | listening hreturns hlistener hhandler =>
    have haccept := h.accept hreturns (hlistener ▸ h.open_of_handler hhandler)
    have hconnected := (h.delivers_iff e.events e.result).mpr
      (hdelivers hlistener (by rw [hhandler]; exact Option.some_ne_none _))
    exact (haccept.handleNewConnection hconnected).handleUnexpected e.fd e.events
  | @connection handler =>
    have htasks : ({ s with tasks := s.tasks ++ [(handler, e.events)] } : Dispatching).Tidy :=
      ⟨h.running, h.single, h.nonneg, h.handled, h.apart, h.known⟩
    exact htasks.handleUnexpected e.fd e.events

/-- From a good state an event leads to a good one exactly if it delivers. -/
theorem filed_step_iff (s : Dispatching) (e : Event) (s' : Dispatching) (h : s.Tidy) (hs : s.Filed)
    (hstep : (machine A).step s e = some s') : s'.Filed ↔ s.Delivers e := by
  cases step_cases hstep with
  | unhandled habsent =>
    constructor
    · exact fun _ _ hhandler => absurd habsent hhandler
    · exact fun _ => hs
  | listening hreturns hlistener hhandler =>
    have haccept := h.accept hreturns (hlistener ▸ h.open_of_handler hhandler)
    have hfiled := hs.accept e.events e.result
    have hsome := Option.some_ne_none Handler.accept
    rw [← hhandler] at hsome
    constructor
    · intro hs' _ _
      apply (h.delivers_iff e.events e.result).mp
      have hne : (s.accept e.events e.result).acceptor.accepted ≠ e.fd := by
        have hapart := haccept.apart
        rw [(master_accept s e.events e.result).1] at hapart
        rw [hlistener]
        exact hapart
      obtain ⟨c, hc⟩ := haccept.filed_accepted (A := A)
        (s.accept e.events e.result).acceptor.accepted e.ok
      exact connected_of_filed hs' hne hc
    · intro hdelivers
      have hconnected := (h.delivers_iff e.events e.result).mpr (hdelivers hlistener hsome)
      exact (hfiled.handleNewConnection haccept hconnected).handleUnexpected e.fd e.events
  | @connection handler hother =>
    have htasks : ({ s with tasks := s.tasks ++ [(handler, e.events)] } : Dispatching).Filed := hs
    constructor
    · exact fun _ hlistener => absurd hlistener hother
    · exact fun _ => htasks.handleUnexpected e.fd e.events

/-- `_allChannel` is in order throughout a run exactly if every event of the listening descriptor
hands over a connected one. -/
theorem filed_iff_delivers (A : Text.Allocator) (lfd : Int) (enabled ok : Bool) (hlfd : 0 ≤ lfd)
    (as : List Event) :
    (machine A).AllStates Filed (start A lfd enabled ok) as ↔
      (machine A).AllSteps Delivers (start A lfd enabled ok) as :=
  Machine.allStates_iff_allSteps (fun s e s' h _ => tidy_step s e s' h) filed_step_iff
    (start_tidy enabled ok hlfd) (start_filed lfd enabled ok) as

instance (s : Dispatching) (e : Event) : Decidable (s.Delivers e) :=
  inferInstanceAs (Decidable (e.fd = s.master.masterfd → s.master.handlers e.fd ≠ none →
    if e.events.has EPOLLIN then 0 ≤ e.result else s.connected s.acceptor.accepted = true))

/-- A connection comes and goes, and its number is accepted again. -/
theorem filed_iff_delivers_reuse : (machine .doubling).AllStates Filed (start .doubling 3 true true)
    [⟨3, EPOLLIN, 7, true⟩, ⟨7, EPOLLRDHUP, -1, true⟩, ⟨3, EPOLLIN, 7, true⟩] := by
  obtain ⟨s, hs⟩ : ∃ s, (machine .doubling).runUnder Delivers (start .doubling 3 true true)
      [⟨3, EPOLLIN, 7, true⟩, ⟨7, EPOLLRDHUP, -1, true⟩, ⟨3, EPOLLIN, 7, true⟩] = some s :=
    Option.isSome_iff_exists.mp (by decide +kernel)
  exact (filed_iff_delivers .doubling 3 true true (by decide) _).mpr (Machine.AllSteps.of_runUnder hs)

/-- A failed `accept`, and an event without `EPOLLIN` after the connection was closed. -/
theorem unfiled_key :
    (∃ s, (machine .doubling).run (start .doubling 3 true true) [⟨3, EPOLLIN, -1, true⟩] = some s ∧
      s.allChannel (-1) = some 0) ∧
    ∃ s, (machine .doubling).run (start .doubling 3 true true)
      [⟨3, EPOLLIN, 7, true⟩, ⟨7, EPOLLRDHUP, -1, true⟩, ⟨3, EPOLLERR, -1, true⟩] = some s ∧
      (s.allChannel 7, s.connected 7) = (some 1, false) :=
  ⟨Option.map_eq_some_iff.mp (by decide +kernel), Option.map_eq_some_iff.mp (by decide +kernel)⟩

end Dispatching

end ServerDevLib.Reactor
