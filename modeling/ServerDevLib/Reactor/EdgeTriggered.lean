import ServerDevLib.Reactor.SendRuns

/-!
# Writing under edge-triggered reports

The descriptor of a connection is registered with `EPOLLET`. An edge is
reported once: it is pending until `epoll_wait` fetches it, pending edges are
merged into one report, and every report is passed to one call of
`HandleEvent`, which reads or writes but never does both. Setting a mask with
`EPOLLOUT` while the socket is writable raises the edge again. A `::write`
that takes less than it is given leaves the socket unwritable.
-/

namespace ServerDevLib.Reactor

open Transition

/-- What `EventsHandler::HandleEvent` does with a mask. -/
inductive Reaction
  | ignore
  | disable
  | read
  | write
  deriving DecidableEq

def handleEvent (active : Bool) (events : Events) : Reaction :=
  if !active then .ignore
  else if events.has EPOLLERR || events.has EPOLLHUP || events.has EPOLLRDHUP then .disable
  else if events.has EPOLLIN then .read
  else if events.has EPOLLOUT then .write
  else .ignore

def reportMask (readable sendable : Bool) : Events :=
  (if readable then EPOLLIN else 0#32) ||| (if sendable then EPOLLOUT else 0#32)

theorem handleEvent_reportMask (readable sendable : Bool) :
    handleEvent true (reportMask readable sendable) = .write ↔
      readable = false ∧ sendable = true := by
  cases readable <;> cases sendable <;> decide

inductive HandlerPc
  | idle
  | handling (events : Events)
  | reading
  | waiting
  | writing
  deriving DecidableEq

/-- The handler will call `Write`. -/
def HandlerPc.Sends : HandlerPc → Prop
  | .handling events => handleEvent true events = .write
  | .waiting => True
  | _ => False

/-- A connection with its socket and the reports about it. -/
structure EdgeTriggered (K H : Type) where
  send : Sending K
  writable : Bool
  edgeIn : Bool
  edgeOut : Bool
  reports : List Events
  handler : H → HandlerPc

namespace EdgeTriggered

inductive Action (K H : Type)
  | append (k : K) (data : List UInt8)
  | arm (k : K)
  | arrive
  | makeRoom
  | report (readable sendable : Bool)
  | deliver (h : H) (i : Nat)
  | handle (h : H)
  | readDone (h : H)
  | lock (h : H)
  | write (h : H) (sent : Int) (full : Bool)
  | finish (h : H)

variable {K H : Type} [DecidableEq K] [DecidableEq H]

def goto (s : EdgeTriggered K H) (h : H) (pc : HandlerPc) : EdgeTriggered K H :=
  { s with handler := Function.update s.handler h pc }

/-- The effect of a call of `ModifyEvent` on the pending write edge. -/
def modified (s : EdgeTriggered K H) (send : Sending K) : EdgeTriggered K H :=
  { s with send := send, edgeOut := send.mask.has EPOLLOUT && (s.edgeOut || s.writable) }

def step (A : Text.Allocator) (s : EdgeTriggered K H) : Action K H → Option (EdgeTriggered K H)
  | .append k data => (s.send.step A (.append k data)).map fun send => { s with send := send }
  | .arm k => (s.send.step A (.arm k)).map s.modified
  | .arrive => some { s with edgeIn := s.edgeIn || s.send.mask.has EPOLLIN }
  | .makeRoom =>
    if s.writable then none
    else some { s with writable := true, edgeOut := s.edgeOut || s.send.mask.has EPOLLOUT }
  | .report readable sendable =>
    if (s.edgeIn → readable) ∧ (s.edgeOut → sendable) ∧ (readable || sendable) then
      some { s with
        edgeIn := false
        edgeOut := false
        reports := s.reports ++ [reportMask readable sendable] }
    else none
  | .deliver h i =>
    match s.handler h, s.reports[i]? with
    | .idle, some events => some ({ s with reports := s.reports.eraseIdx i }.goto h (.handling events))
    | _, _ => none
  | .handle h =>
    match s.handler h with
    | .handling events =>
      match handleEvent s.send.channel.active events with
      | .ignore => some (s.goto h .idle)
      | .disable => some ({ s with send := s.send.disableSend }.goto h .idle)
      | .read => some (s.goto h .reading)
      | .write => some (s.goto h .waiting)
    | _ => none
  | .readDone h =>
    match s.handler h with
    | .reading => some (s.goto h .idle)
    | _ => none
  | .lock h =>
    match s.handler h with
    | .waiting => (s.send.step A .lock).map fun send =>
      { s with send := send }.goto h (if s.send.channel.active then .writing else .idle)
    | _ => none
  | .write h sent full =>
    match s.handler h, s.send.writer with
    | .writing, .locked size =>
      if 0 ≤ sent then
        (s.send.step A (.write sent)).map fun send =>
          { s with send := send, writable := s.writable && sent = size && !full }
      else none
    | _, _ => none
  | .finish h =>
    match s.handler h with
    | .writing => (s.send.step A .finish).map fun send =>
      (match s.send.writer with
        | .wrote sent => if sent = 0 then s.modified send else { s with send := send }
        | _ => s.modified send).goto h .idle
    | _ => none

def start (A : Text.Allocator) (fd : Int) (d : Nat) (events : Events) (writable : Bool) :
    EdgeTriggered K H :=
  { send := Sending.start A fd d events, writable := writable, edgeIn := false,
    edgeOut := writable && events.has EPOLLOUT, reports := [], handler := fun _ => .idle }

def machine (K H : Type) [DecidableEq K] [DecidableEq H] (A : Text.Allocator) :
    Machine (EdgeTriggered K H) (Action K H) where
  init s := ∃ fd d events writable, events.has EPOLLET = true ∧ s = start A fd d events writable
  step := step A

/-- Output is pending and could be sent, and no notifier is about to raise the edge. -/
structure Demanding (s : EdgeTriggered K H) : Prop where
  armed : s.send.mask.has EPOLLOUT = true
  writable : s.writable = true
  pending : s.send.channel.unsent ≠ []
  quiet : ∀ k, s.send.notifier k ≠ .appended

/-- Nothing is under way that would send it either. -/
structure Stranded (s : EdgeTriggered K H) : Prop extends s.Demanding where
  reported : s.edgeIn = false ∧ s.edgeOut = false ∧ s.reports = []
  idle : ∀ h, s.handler h = .idle

/-- No report that also says readable takes a write edge along while bytes are unsent. -/
def Unmerged (s : EdgeTriggered K H) : Action K H → Prop
  | .report readable _ =>
    ¬ (readable = true ∧ s.edgeOut = true ∧ s.send.channel.unsent ≠ [])
  | _ => True

end EdgeTriggered

/-- A `Write` in progress that will leave no bytes behind. -/
def Sending.Busy {K : Type} (send : Sending K) : Prop :=
  match send.writer with
  | .idle => False
  | .locked _ => True
  | .wrote sent => sent = send.channel.unsent.length

/-- A `Write` that does not set the mask leaves bytes only if it was given more than it sent. -/
theorem Sending.conclude_of_ne_zero {K : Type} {A : Text.Allocator} (send : Sending K) {sent : Int}
    (h : sent ≠ 0) : ∃ channel shut,
      send.conclude A sent = { send with channel := channel, writeShut := shut } ∧
        (channel.unsent ≠ [] →
          send.channel.unsent ≠ [] ∧ sent ≠ send.channel.unsent.length) := by
  cases Int.lt_or_gt_of_ne h with
  | inl hneg =>
    rw [conclude_error hneg, disableSend]
    have hlength : sent ≠ send.channel.unsent.length := by omega
    split
    · exact ⟨send.channel, send.writeShut, rfl, fun hrest => ⟨hrest, hlength⟩⟩
    · exact ⟨send.channel, true, rfl, fun hrest => ⟨hrest, hlength⟩⟩
  | inr hpos =>
    refine ⟨_, _, conclude_sent hpos, fun hrest => ⟨unsent_of_erase hrest, ?_⟩⟩
    rintro rfl
    rw [Channel.unsent_eraseSent, Int.toNat_natCast, List.drop_length] at hrest
    exact hrest rfl

theorem Sending.disableSend_channel {K : Type} (send : Sending K) :
    send.disableSend.channel = send.channel := by
  rw [Sending.disableSend]
  split <;> rfl

namespace EdgeTriggered

variable {K H : Type} {A : Text.Allocator} {s s' : EdgeTriggered K H}

def Attended (s : EdgeTriggered K H) : Prop :=
  s.edgeOut = true ∨ (∃ events ∈ s.reports, handleEvent true events = .write) ∨
    (∃ h, (s.handler h).Sends) ∨ s.send.Busy

structure Vigilant (s : EdgeTriggered K H) : Prop where
  coherent : s.send.Coherent
  owned : s.send.writer ≠ .idle → ∃ h, s.handler h = .writing
  attended : s.Demanding → s.Attended

theorem start_vigilant (fd : Int) (d : Nat) (events : Events) (writable : Bool) :
    (start A fd d events writable : EdgeTriggered K H).Vigilant where
  coherent := Sending.start_coherent A fd d events
  owned h := absurd rfl h
  attended h := absurd (Channel.unsent_create fd (some d)) h.pending

theorem Vigilant.not_stranded (h : s.Vigilant) : ¬ s.Stranded := by
  intro hs
  rcases h.attended hs.toDemanding with hedge | ⟨events, hmem, _⟩ | ⟨h', hsends⟩ | hbusy
  · rw [hs.reported.2.1] at hedge
    cases hedge
  · rw [hs.reported.2.2] at hmem
    cases hmem
  · rw [hs.idle h'] at hsends
    exact hsends
  · have hwriter : s.send.writer ≠ .idle := by
      intro hidle
      simp only [Sending.Busy, hidle] at hbusy
    obtain ⟨h', hwriting⟩ := h.owned hwriter
    rw [hs.idle h'] at hwriting
    cases hwriting

/-- A call of `ModifyEvent` makes up for a write edge that went unnoticed. -/
theorem attended_modified {send : Sending K} (h : (s.modified send).Demanding) :
    (s.modified send).Attended := by
  have harmed : send.mask.has EPOLLOUT = true := h.armed
  have hwritable : s.writable = true := h.writable
  left
  change (send.mask.has EPOLLOUT && (s.edgeOut || s.writable)) = true
  rw [harmed, hwritable, Bool.or_true, Bool.and_true]

theorem Attended.congr (h : s.Attended) (hedge : s'.edgeOut = s.edgeOut)
    (hreports : s'.reports = s.reports) (hhandler : s'.handler = s.handler)
    (hbusy : s.send.Busy → s'.send.Busy) : s'.Attended := by
  rcases h with h | h | h | h
  · exact .inl (hedge.trans h)
  · exact .inr (.inl (hreports ▸ h))
  · exact .inr (.inr (.inl (hhandler ▸ h)))
  · exact .inr (.inr (.inr (hbusy h)))

theorem Vigilant.disableSend (hs : s.Vigilant) :
    ({ s with send := s.send.disableSend } : EdgeTriggered K H).Vigilant := by
  rw [Sending.disableSend]
  split
  · exact hs
  · exact ⟨⟨hs.coherent.wired, hs.coherent.live, hs.coherent.locked, hs.coherent.wrote⟩, hs.owned,
      fun hd => (hs.attended ⟨hd.armed, hd.writable, hd.pending, hd.quiet⟩).congr rfl rfl rfl id⟩

/-- A report that takes the write edge along and does not say readable is answered by a `Write`. -/
theorem Vigilant.report (hs : s.Vigilant) {readable sendable : Bool}
    (hedge : s.edgeOut → sendable)
    (hunmerged : ¬ (readable = true ∧ s.edgeOut = true ∧ s.send.channel.unsent ≠ [])) :
    ({ s with
        edgeIn := false
        edgeOut := false
        reports := s.reports ++ [reportMask readable sendable] } : EdgeTriggered K H).Vigilant := by
  refine ⟨hs.coherent, hs.owned, fun hd => ?_⟩
  rcases hs.attended ⟨hd.armed, hd.writable, hd.pending, hd.quiet⟩ with h | ⟨events, hmem, h⟩ | h | h
  · have hsendable : sendable = true := hedge h
    have hreadable : readable = false := by
      cases readable with
      | false => rfl
      | true => exact absurd ⟨rfl, h, hd.pending⟩ hunmerged
    refine .inr (.inl ⟨_, List.mem_append_right _ (List.mem_singleton_self _), ?_⟩)
    exact (handleEvent_reportMask readable sendable).mpr ⟨hreadable, hsendable⟩
  · exact .inr (.inl ⟨events, List.mem_append_left _ hmem, h⟩)
  · exact .inr (.inr (.inl h))
  · exact .inr (.inr (.inr h))

section

variable [DecidableEq K]

/-- A notifier that has appended bytes is still to raise the edge. -/
theorem Vigilant.append (hs : s.Vigilant) {k : K} {data : List UInt8} {send : Sending K}
    (hsend : s.send.step A (.append k data) = some send) :
    ({ s with send := send } : EdgeTriggered K H).Vigilant := by
  have hcoherent := Sending.coherent_step s.send _ send hs.coherent hsend
  cases Sending.step_cases hsend with
  | append _ hwriter _ =>
    refine ⟨hcoherent, fun hne => absurd hwriter hne, fun hd => ?_⟩
    exact absurd (Function.update_self ..) (hd.quiet k)
  | appendInactive => exact hs

theorem Vigilant.arm (hs : s.Vigilant) {k : K} {send : Sending K}
    (hsend : s.send.step A (.arm k) = some send) : (s.modified send).Vigilant := by
  have hcoherent := Sending.coherent_step s.send _ send hs.coherent hsend
  have hwriter : send.writer = s.send.writer := by
    cases Sending.step_cases hsend with
    | arm => rw [hs.coherent.modifyEvent_eq]
  exact ⟨hcoherent, fun hne => hs.owned (hwriter ▸ hne), attended_modified⟩

/-- A `::write` that leaves bytes behind leaves the socket unwritable. -/
theorem Vigilant.write (hs : s.Vigilant) {h : H} {size : Nat} {sent : Int} {full : Bool}
    {send : Sending K} (hpc : s.handler h = .writing) (hwriter : s.send.writer = .locked size)
    (hsend : s.send.step A (.write sent) = some send) :
    ({ s with send := send, writable := s.writable && sent = size && !full } :
      EdgeTriggered K H).Vigilant := by
  have hcoherent := Sending.coherent_step s.send _ send hs.coherent hsend
  cases Sending.step_cases hsend with
  | write =>
    refine ⟨hcoherent, fun _ => ⟨h, hpc⟩, fun hd => .inr (.inr (.inr ?_))⟩
    have hfull : sent = size := by
      have hwritable := hd.writable
      simp only [Bool.and_eq_true, decide_eq_true_eq] at hwritable
      exact hwritable.1.2
    change sent = s.send.channel.unsent.length
    rw [hfull, ← hs.coherent.locked size hwriter]

end

section

variable [DecidableEq H]

theorem handler_goto_self (h : H) (pc : HandlerPc) : (s.goto h pc).handler h = pc :=
  Function.update_self ..

theorem handler_goto_of_ne {h h' : H} (hne : h' ≠ h) (pc : HandlerPc) :
    (s.goto h pc).handler h' = s.handler h' :=
  Function.update_of_ne hne ..

theorem Attended.goto (hs : s.Attended) {h : H} {pc : HandlerPc}
    (hpc : (s.handler h).Sends → (s.goto h pc).Attended) : (s.goto h pc).Attended := by
  rcases hs with hedge | hreports | ⟨h', hsends⟩ | hbusy
  · exact .inl hedge
  · exact .inr (.inl hreports)
  · rcases eq_or_ne h' h with rfl | hne
    · exact hpc hsends
    · refine .inr (.inr (.inl ⟨h', ?_⟩))
      rw [handler_goto_of_ne hne]
      exact hsends
  · exact .inr (.inr (.inr hbusy))

/-- The call of `HandleEvent` takes over from the report it is passed. -/
theorem Attended.deliver (hs : s.Attended) {h : H} {i : Nat} {events : Events}
    (hpc : s.handler h = .idle) (hevents : s.reports[i]? = some events) :
    ({ s with reports := s.reports.eraseIdx i }.goto h (.handling events) :
      EdgeTriggered K H).Attended := by
  rcases hs with hedge | ⟨r, hmem, hr⟩ | ⟨h', hsends⟩ | hbusy
  · exact .inl hedge
  · obtain ⟨j, hj⟩ := List.mem_iff_getElem?.mp hmem
    rcases eq_or_ne j i with rfl | hne
    · rw [hevents] at hj
      cases hj
      refine .inr (.inr (.inl ⟨h, ?_⟩))
      rw [handler_goto_self]
      exact hr
    · exact .inr (.inl ⟨r, List.mem_eraseIdx_iff_getElem?.mpr ⟨j, hne, hj⟩, hr⟩)
  · refine .inr (.inr (.inl ⟨h', ?_⟩))
    have hne : h' ≠ h := by
      rintro rfl
      rw [hpc] at hsends
      exact hsends
    rw [handler_goto_of_ne hne]
    exact hsends
  · exact .inr (.inr (.inr hbusy))

theorem owned_goto {h : H} {pc : HandlerPc}
    (howned : s.send.writer ≠ .idle → ∃ h, s.handler h = .writing)
    (hpc : s.handler h ≠ .writing) :
    (s.goto h pc).send.writer ≠ .idle → ∃ h', (s.goto h pc).handler h' = .writing := by
  intro hwriter
  obtain ⟨h', hwriting⟩ := howned hwriter
  have hne : h' ≠ h := by
    rintro rfl
    exact hpc hwriting
  exact ⟨h', (handler_goto_of_ne hne pc).trans hwriting⟩

theorem Vigilant.goto (hs : s.Vigilant) {h : H} {pc : HandlerPc} (hold : s.handler h ≠ .writing)
    (hpc : s.Demanding → (s.handler h).Sends → (s.goto h pc).Attended) : (s.goto h pc).Vigilant where
  coherent := hs.coherent
  owned := owned_goto hs.owned hold
  attended hd := by
    have hd' : s.Demanding := ⟨hd.armed, hd.writable, hd.pending, hd.quiet⟩
    exact (hs.attended hd').goto (hpc hd')

end

variable [DecidableEq K] [DecidableEq H]

/-- The end of a `Write` leaves no bytes, an unwritable socket, or a mask that was set anew. -/
theorem Vigilant.finish (hs : s.Vigilant) {h : H} {send : Sending K}
    (hpc : s.handler h = .writing) (hsend : s.send.step A .finish = some send) :
    ((match s.send.writer with
      | .wrote sent => if sent = 0 then s.modified send else { s with send := send }
      | _ => s.modified send).goto h .idle).Vigilant := by
  have hcoherent := Sending.coherent_step s.send _ send hs.coherent hsend
  have hsends : ¬ (s.handler h).Sends := by
    rw [hpc]
    exact id
  cases Sending.step_cases hsend with
  | finishEmpty hwriter _ =>
    rw [hs.coherent.modifyEvent_eq] at hcoherent ⊢
    rw [hwriter]
    refine ⟨hcoherent, fun hne => absurd rfl hne, fun hd => ?_⟩
    have harmed := hd.armed
    change (s.send.events.without EPOLLOUT).has EPOLLOUT = true at harmed
    rw [has_without_out] at harmed
    cases harmed
  | finish hwriter =>
    rw [hwriter]
    simp only
    split
    · refine ⟨hcoherent, fun hne => absurd rfl hne, fun hd => ?_⟩
      have hmodified := attended_modified (s := s) ⟨hd.armed, hd.writable, hd.pending, hd.quiet⟩
      exact hmodified.goto fun hold => absurd hold hsends
    · rename_i hnonzero
      obtain ⟨channel, shut, hconclude, hrest⟩ := s.send.conclude_of_ne_zero (A := A) hnonzero
      rw [hconclude] at hcoherent ⊢
      refine ⟨hcoherent, fun hne => absurd rfl hne, fun hd => ?_⟩
      obtain ⟨hpending, hlength⟩ := hrest hd.pending
      have hold : s.Attended := hs.attended ⟨hd.armed, hd.writable, hpending, hd.quiet⟩
      have hnew : ({ s with send := { s.send with
          channel := channel
          writeShut := shut
          writer := .idle } } : EdgeTriggered K H).Attended := by
        refine hold.congr rfl rfl rfl fun hbusy => ?_
        simp only [Sending.Busy, hwriter] at hbusy
        exact absurd hbusy hlength
      exact hnew.goto fun hold => absurd hold hsends

theorem Vigilant.handle (hs : s.Vigilant) {h : H} {events : Events}
    (hpc : s.handler h = .handling events)
    (hstep : (machine K H A).step s (.handle h) = some s') : s'.Vigilant := by
  have hold : s.handler h ≠ .writing := by
    intro hwriting
    cases hpc.symm.trans hwriting
  -- a pending byte implies an active channel, so the reaction is the one of the report
  have hreact (hpending : s.send.channel.unsent ≠ []) (hsends : (s.handler h).Sends) :
      handleEvent s.send.channel.active events = .write := by
    rw [hs.coherent.live hpending]
    rw [hpc] at hsends
    exact hsends
  simp only [machine, step, hpc] at hstep
  split at hstep <;> rename_i hreaction <;> cases hstep
  · apply hs.goto hold
    intro hd hsends
    cases hreaction.symm.trans (hreact hd.pending hsends)
  · apply hs.disableSend.goto hold
    intro hd hsends
    have hpending := hd.pending
    rw [Sending.disableSend_channel] at hpending
    cases hreaction.symm.trans (hreact hpending hsends)
  · apply hs.goto hold
    intro hd hsends
    cases hreaction.symm.trans (hreact hd.pending hsends)
  · refine hs.goto hold fun hd hsends => .inr (.inr (.inl ⟨h, ?_⟩))
    rw [handler_goto_self]
    trivial

theorem Vigilant.lock (hs : s.Vigilant) {h : H} {send : Sending K} (hpc : s.handler h = .waiting)
    (hsend : s.send.step A .lock = some send) :
    ({ s with send := send }.goto h (if s.send.channel.active then .writing else .idle) :
      EdgeTriggered K H).Vigilant := by
  have hcoherent := Sending.coherent_step s.send _ send hs.coherent hsend
  cases Sending.step_cases hsend with
  | lock _ hactive =>
    refine ⟨hcoherent, fun _ => ⟨h, ?_⟩, fun hd => .inr (.inr (.inr trivial))⟩
    rw [handler_goto_self]
    exact if_pos hactive
  | lockInactive hinactive =>
    apply hs.goto
    · intro hwriting
      cases hpc.symm.trans hwriting
    · intro hd _
      cases hinactive.symm.trans (hs.coherent.live hd.pending)

theorem vigilant_step : (machine K H A).Preserves Unmerged Vigilant := by
  intro s a s' hs hunmerged hstep
  cases a with
  | append k data =>
    obtain ⟨send, hsend, rfl⟩ := Option.map_eq_some_iff.mp hstep
    exact hs.append hsend
  | arm k =>
    obtain ⟨send, hsend, rfl⟩ := Option.map_eq_some_iff.mp hstep
    exact hs.arm hsend
  | arrive =>
    cases hstep
    refine ⟨hs.coherent, hs.owned, fun hd => ?_⟩
    exact (hs.attended ⟨hd.armed, hd.writable, hd.pending, hd.quiet⟩).congr rfl rfl rfl id
  | makeRoom =>
    simp only [machine, step] at hstep
    split at hstep <;> cases hstep
    refine ⟨hs.coherent, hs.owned, fun hd => .inl ?_⟩
    have harmed : s.send.mask.has EPOLLOUT = true := hd.armed
    change (s.edgeOut || s.send.mask.has EPOLLOUT) = true
    rw [harmed, Bool.or_true]
  | report readable sendable =>
    simp only [machine, step] at hstep
    split at hstep <;> cases hstep
    rename_i hguard
    exact hs.report hguard.2.1 hunmerged
  | deliver h i =>
    simp only [machine, step] at hstep
    split at hstep <;> cases hstep
    rename_i events hpc hevents
    refine ⟨hs.coherent, owned_goto hs.owned ?_, fun hd => ?_⟩
    · intro hwriting
      cases hpc.symm.trans hwriting
    · exact (hs.attended ⟨hd.armed, hd.writable, hd.pending, hd.quiet⟩).deliver hpc hevents
  | handle h =>
    have hstep' := hstep
    simp only [machine, step] at hstep'
    split at hstep'
    · rename_i events hpc
      exact hs.handle hpc hstep
    · cases hstep'
  | readDone h =>
    simp only [machine, step] at hstep
    split at hstep <;> cases hstep
    rename_i hpc
    refine hs.goto ?_ fun _ hsends => ?_
    · intro hwriting
      cases hpc.symm.trans hwriting
    · rw [hpc] at hsends
      exact hsends.elim
  | lock h =>
    simp only [machine, step] at hstep
    split at hstep
    · rename_i hpc
      obtain ⟨send, hsend, rfl⟩ := Option.map_eq_some_iff.mp hstep
      exact hs.lock hpc hsend
    · cases hstep
  | write h sent full =>
    simp only [machine, step] at hstep
    split at hstep
    · rename_i size hpc hwriter
      split at hstep
      · obtain ⟨send, hsend, rfl⟩ := Option.map_eq_some_iff.mp hstep
        exact hs.write hpc hwriter hsend
      · cases hstep
    · cases hstep
  | finish h =>
    simp only [machine, step] at hstep
    split at hstep
    · rename_i hpc
      obtain ⟨send, hsend, rfl⟩ := Option.map_eq_some_iff.mp hstep
      exact hs.finish hpc hsend
    · cases hstep

theorem vigilant_of_reachable (h : (machine K H A).ReachableUnder Unmerged s) : s.Vigilant := by
  refine h.invariant ?_ vigilant_step
  rintro s ⟨fd, d, events, writable, _, rfl⟩
  exact start_vigilant fd d events writable

theorem never_stranded (s : EdgeTriggered K H) (h : (machine K H A).ReachableUnder Unmerged s) :
    ¬ s.Stranded :=
  (vigilant_of_reachable h).not_stranded

instance (s : EdgeTriggered K H) (a : Action K H) : Decidable (Unmerged s a) :=
  match a with
  | .report readable _ => inferInstanceAs (Decidable
      (¬ (readable = true ∧ s.edgeOut = true ∧ s.send.channel.unsent ≠ [])))
  | .append _ _ | .arm _ | .arrive | .makeRoom | .deliver _ _ | .handle _ | .readDone _ | .lock _
  | .write _ _ _ | .finish _ => isTrue trivial

/-- The report of a request says writable as well; the edge of the response comes after it. -/
theorem never_stranded_separate : ∃ s, (machine Unit Unit .doubling).runUnder Unmerged
    (start .doubling 5 0 DEFAULT_EVENTS true)
    [.arrive, .report true true, .append () [104], .arm (), .report false true, .deliver () 0,
      .handle (), .readDone (), .deliver () 0, .handle (), .lock (), .write () 1 false,
      .finish ()] = some s ∧ ¬ s.Stranded := by
  obtain ⟨s, hs⟩ : ∃ s, (machine Unit Unit .doubling).runUnder Unmerged
      (start .doubling 5 0 DEFAULT_EVENTS true)
      [.arrive, .report true true, .append () [104], .arm (), .report false true, .deliver () 0,
        .handle (), .readDone (), .deliver () 0, .handle (), .lock (), .write () 1 false,
        .finish ()] = some s := Option.isSome_iff_exists.mp (by decide +kernel)
  have hinit : (machine Unit Unit .doubling).init (start .doubling 5 0 DEFAULT_EVENTS true) :=
    ⟨5, 0, DEFAULT_EVENTS, true, by decide, rfl⟩
  exact ⟨s, hs, never_stranded s (Machine.reachableUnder_of_runUnder hinit hs)⟩

/-- A merged report is answered with a read, and the write edge is gone. -/
theorem merged_report_strands : ∃ s, (machine Unit Unit .doubling).run
    (start .doubling 5 0 DEFAULT_EVENTS true)
    [.arrive, .append () [104], .arm (), .report true true, .deliver () 0, .handle (),
      .readDone ()] = some s ∧ s.Stranded := by
  have hview : ((machine Unit Unit .doubling).run (start .doubling 5 0 DEFAULT_EVENTS true)
      [.arrive, .append () [104], .arm (), .report true true, .deliver () 0, .handle (),
        .readDone ()]).map (fun s => (s.send.mask.has EPOLLOUT && s.writable && !s.edgeIn &&
          !s.edgeOut, s.send.channel.unsent, s.send.notifier (), s.reports, s.handler ())) =
      some (true, [104], .idle, [], .idle) := by decide +kernel
  obtain ⟨s, hs, hview⟩ := Option.map_eq_some_iff.mp hview
  simp only [Prod.mk.injEq, Bool.and_eq_true, Bool.not_eq_true'] at hview
  obtain ⟨⟨⟨⟨hmask, hwritable⟩, hin⟩, hout⟩, hunsent, hnotifier, hreports, hhandler⟩ := hview
  refine ⟨s, hs, ⟨⟨hmask, hwritable, ?_, ?_⟩, ⟨hin, hout, hreports⟩, ?_⟩⟩
  · rw [hunsent]
    exact List.cons_ne_nil _ _
  · rintro ⟨⟩
    rw [hnotifier]
    nofun
  · rintro ⟨⟩
    exact hhandler

end EdgeTriggered

end ServerDevLib.Reactor
