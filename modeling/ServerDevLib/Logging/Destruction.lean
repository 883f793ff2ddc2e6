import ServerDevLib.Foundation.Handover
import ServerDevLib.Logging.Delivery

/-!
# The last messages

`~Logger` stores to `_stop` and waits for the flush thread, which returns as
soon as it finds `_stop` set and leaves `_buf` as it is. A message is then
delivered exactly if it has left `_buf` by the time of the store, or if the
flush thread has passed its test of `_stop` and is about to swap the buffers.
-/

namespace ServerDevLib.Logging

open Transition

universe u

/-- `~Logger` has stored to `_stop`. -/
def Destructor.stopping : Destructor → Bool
  | .idle | .entered => false
  | .stopped | .notified | .returned => true

def CallerPc.ticket : CallerPc → Option Nat
  | .push msg => some msg.ticket
  | .idle | .notify _ => none

namespace Logger

variable {K : Type u}

def handover (s : Logger K) : Handover K Unit :=
  ⟨CallerPc.ticket ∘ s.caller, fun _ => s.entered.map LogMessage.ticket, s.nextTicket⟩

/-- Every message that was complete at the entry of `~Logger` was delivered to every sink. -/
def Handed (sinks : Nat) (s : Logger K) : Prop :=
  ∀ msg ∈ s.before, ∀ d < sinks, msg ∈ s.delivered d

/-- At the store to `_stop` those messages have left `_buf` or are about to. -/
def TakenInTime (sinks : Nat) (s : Logger K) : Action K → Prop
  | .setStop => sinks = 0 ∨ ∀ msg ∈ s.before, msg ∉ s.buf ∨ s.flush = .swap
  | _ => True

structure Registered (s : Logger K) : Prop where
  notifying : ∀ k msg, s.caller k = .notify msg → msg ∈ s.entered
  completed : ∀ msg ∈ s.completed, msg ∈ s.entered
  before : ∀ msg ∈ s.before, msg ∈ s.entered
  stopped : s.destructor.stopping = true → s.stop = true
  joined : s.destructor = .returned → s.flush = .returned

variable {sinks : Nat} {s s' : Logger K}

theorem Registered.move (h : s.Registered) {pc : FlushPc} (hlive : s.destructor ≠ .returned) :
    ({ s with flush := pc } : Logger K).Registered :=
  ⟨h.notifying, h.completed, h.before, h.stopped, fun hreturned => absurd hreturned hlive⟩

theorem registered_flush (h : s.Registered) (hlive : s.destructor ≠ .returned)
    (hstep : FlushStep s s') : s'.Registered := by
  have hjoined {pc : FlushPc} (hreturned : s.destructor = .returned) : pc = .returned :=
    absurd hreturned hlive
  cases hstep with
  | fatalStop => exact ⟨h.notifying, h.completed, h.before, fun _ => rfl, hjoined⟩
  | _ => exact ⟨h.notifying, h.completed, h.before, h.stopped, hjoined⟩

section Steps

variable [DecidableEq K] {a : Action K}

theorem Registered.setCaller (h : s.Registered) {k : K} {pc : CallerPc}
    (hpc : ∀ msg, pc = .notify msg → msg ∈ s.entered) : (s.setCaller k pc).Registered where
  notifying k' msg heq := by
    change Function.update s.caller k pc k' = .notify msg at heq
    obtain rfl | hne := eq_or_ne k' k
    · rw [Function.update_self] at heq
      exact hpc msg heq
    · rw [Function.update_of_ne hne] at heq
      exact h.notifying k' msg heq
  completed := h.completed
  before := h.before
  stopped := h.stopped
  joined := h.joined

theorem Registered.complete (h : s.Registered) {k : K} {msg : LogMessage}
    (hpc : s.caller k = .notify msg) :
    ({ s with completed := s.completed ++ [msg] }.setCaller k .idle : Logger K).Registered := by
  have hcomplete : ({ s with completed := s.completed ++ [msg] } : Logger K).Registered := by
    refine ⟨h.notifying, fun m hm => ?_, h.before, h.stopped, h.joined⟩
    cases List.mem_append.mp hm with
    | inl hold => exact h.completed m hold
    | inr hself => exact List.mem_singleton.mp hself ▸ h.notifying k msg hpc
  exact hcomplete.setCaller nofun

theorem registered_step : (machine K sinks).Preserves (fun _ _ => True) Registered := by
  intro s a s' h _ hstep
  have hlive := (alive_of_step hstep).2
  cases step_cases hstep with
  | logWithWaiting => exact ⟨h.notifying, h.completed, h.before, h.stopped, h.joined⟩
  | @call k level text hidle =>
    have hcall : ({ s with nextTicket := s.nextTicket + 1 } : Logger K).Registered :=
      ⟨h.notifying, h.completed, h.before, h.stopped, h.joined⟩
    exact hcall.setCaller nofun
  | @push k msg hpc =>
    have hold (m : LogMessage) (hm : m ∈ s.entered) : m ∈ s.entered ++ [msg] :=
      List.mem_append_left _ hm
    have hpush : ({ s with buf := s.buf ++ [msg], entered := s.entered ++ [msg] } :
        Logger K).Registered := by
      refine ⟨fun k' m hm => hold m (h.notifying k' m hm), fun m hm => hold m (h.completed m hm),
        fun m hm => hold m (h.before m hm), h.stopped, h.joined⟩
    refine hpush.setCaller fun m hm => ?_
    cases hm
    exact List.mem_append_right _ (List.mem_singleton_self msg)
  | @notifyOne k msg hpc =>
    obtain ⟨pc, heq, _⟩ := exists_notify s
    rw [heq]
    exact Registered.complete (h.move hlive) hpc
  | notifyNone hpc => exact h.complete hpc
  | flush hmoved => exact registered_flush h hlive hmoved
  | wake => exact h.move hlive
  | destroy => exact ⟨h.notifying, h.completed, h.completed, nofun, nofun⟩
  | setStop => exact ⟨h.notifying, h.completed, h.before, fun _ => rfl, nofun⟩
  | notifyAll hstopped =>
    obtain ⟨pc, heq, _⟩ := exists_notify s
    rw [heq]
    exact ⟨h.notifying, h.completed, h.before, fun _ => h.stopped (by rw [hstopped]; rfl), nofun⟩
  | join hnotified hpc =>
    exact ⟨h.notifying, h.completed, h.before, fun _ => h.stopped (by rw [hnotified]; rfl),
      fun _ => hpc⟩

theorem registered_of_reachable (h : (machine K sinks).Reachable s) : s.Registered := by
  refine h.invariant ?_ registered_step
  rintro s rfl
  exact ⟨nofun, nofun, nofun, nofun, nofun⟩

theorem ticket_update {k : K} {pc : CallerPc} :
    CallerPc.ticket ∘ Function.update s.caller k pc =
      Function.update (CallerPc.ticket ∘ s.caller) k pc.ticket :=
  Function.comp_update ..

theorem handover_return {k : K} {msg : LogMessage} (hpc : s.caller k = .notify msg) :
    (s.setCaller k .idle).handover = s.handover := by
  have hupdate : CallerPc.ticket ∘ Function.update s.caller k .idle = CallerPc.ticket ∘ s.caller := by
    have hnone : CallerPc.idle.ticket = (CallerPc.ticket ∘ s.caller) k := by
      rw [Function.comp_apply, hpc]
      rfl
    rw [ticket_update, hnone, Function.update_eq_self]
  exact congrArg (fun held => (⟨held, s.handover.entered, s.nextTicket⟩ : Handover K Unit)) hupdate

omit [DecidableEq K] in
theorem handover_notify (s : Logger K) : s.notify.handover = s.handover := by
  obtain ⟨pc, heq, _⟩ := exists_notify s
  rw [heq]
  rfl

theorem handover_of_step (hstep : Step s a s') : Handover.Move s.handover s'.handover := by
  cases hstep with
  | logWithWaiting | wake | destroy | setStop | join => exact .stay _
  | flush hmoved => cases hmoved <;> exact .stay _
  | notifyAll =>
    change Handover.Move s.handover s.notify.handover
    rw [handover_notify]
    exact .stay _
  | @notifyOne k msg hpc =>
    obtain ⟨pc, heq, _⟩ := exists_notify s
    rw [heq]
    change Handover.Move s.handover (s.setCaller k .idle).handover
    rw [handover_return hpc]
    exact .stay _
  | @notifyNone k msg hpc =>
    change Handover.Move s.handover (s.setCaller k .idle).handover
    rw [handover_return hpc]
    exact .stay _
  | @call k level text hidle =>
    have hissue : ({ s with nextTicket := s.nextTicket + 1 }.setCaller k
        (.push ⟨s.nextTicket, level, text⟩)).handover = s.handover.issue k :=
      congrArg (fun held => (⟨held, s.handover.entered, s.nextTicket + 1⟩ : Handover K Unit))
        ticket_update
    rw [hissue]
    exact .issue _ k (congrArg CallerPc.ticket hidle)
  | @push k msg hpc =>
    have hlog : (fun _ => (s.entered ++ [msg]).map LogMessage.ticket) = Function.update
        s.handover.entered () (s.entered.map LogMessage.ticket ++ [msg.ticket]) := by
      funext i
      cases i
      rw [List.map_append, Function.update_self]
      rfl
    have henter : ({ s with buf := s.buf ++ [msg], entered := s.entered ++ [msg] }.setCaller k
        (.notify msg)).handover = s.handover.enter k () msg.ticket :=
      congrArg₂ (fun held log => (⟨held, log, s.nextTicket⟩ : Handover K Unit)) ticket_update hlog
    rw [henter]
    exact .enter _ k () _ (congrArg CallerPc.ticket hpc)

theorem once_of_reachable (h : (machine K sinks).Reachable s) : s.handover.Once := by
  refine Handover.once_of_refines handover ?_ (fun s a s' hstep => ?_) h
  · rintro s rfl
    exact Handover.once_empty
  · exact handover_of_step (step_cases hstep)

theorem nodup_entered (h : (machine K sinks).Reachable s) : s.entered.Nodup :=
  ((once_of_reachable h).once ()).of_map

/-- What is still to be appended was not complete when `~Logger` was entered. -/
theorem not_mem_before (h : (machine K sinks).Reachable s) {k : K} {msg : LogMessage}
    (hpc : s.caller k = .push msg) : msg ∉ s.before := by
  intro hmem
  have hentered := (registered_of_reachable h).before msg hmem
  have hheld : s.handover.held k = some msg.ticket := congrArg CallerPc.ticket hpc
  exact ((once_of_reachable h).holding k _ hheld).2 () (List.mem_map_of_mem hentered)

def Taken (sinks : Nat) (s : Logger K) : Prop :=
  s.destructor.stopping = true → sinks = 0 ∨ ∀ msg ∈ s.before, msg ∉ s.buf ∨ s.flush = .swap

omit [DecidableEq K] in
theorem Taken.leave (h : s.Taken sinks) {pc pc' : FlushPc} (hpc : s.flush = pc) (hne : pc ≠ .swap) :
    ({ s with flush := pc' } : Logger K).Taken sinks := by
  intro hstopping
  refine (h hstopping).imp_right fun hbuf msg hmem => (hbuf msg hmem).imp_right fun hswap => ?_
  exact absurd (hpc.symm.trans hswap) hne

omit [DecidableEq K] in
theorem Taken.swap (buf : List LogMessage) (pc : FlushPc) :
    ({ s with buf := [], backupBuf := buf, flush := pc } : Logger K).Taken sinks :=
  fun _ => .inr fun _ _ => .inl nofun

omit [DecidableEq K] in
theorem taken_flush (hempty : s.flush.outside = true → s.backupBuf = []) (h : s.Taken sinks)
    (hstep : FlushStep s s') : s'.Taken sinks := by
  cases hstep with
  | enterLoop hpc | leaveLoop hpc | lock hpc | mode hpc | ready hpc | unready hpc | block hpc
  | retest hpc | timeOut hpc | stopReturn hpc | stopPass hpc | fatal hpc | next hpc | endBatch hpc
  | clear hpc | fatalStop hpc | fatalClearBackup hpc | fatalClearDest hpc | abort hpc =>
    exact h.leave hpc nofun
  | swap hpc =>
    rw [hempty (by rw [hpc]; rfl)]
    exact Taken.swap _ _
  | swapNone hpc hbuf =>
    have hswap := @Taken.swap K sinks s s.backupBuf (.writing 0 0)
    rwa [← hbuf] at hswap
  | deliver hpc => exact h.leave hpc nofun
  | fatalClearBuf => exact fun _ => .inr fun _ _ => .inl nofun

omit [DecidableEq K] in
theorem taken_notify (h : s.Taken sinks) : s.notify.Taken sinks := by
  obtain ⟨pc, heq, hpc⟩ := exists_notify s
  rw [heq]
  cases hpc with
  | inl hsame => exact hsame ▸ h
  | inr hwoken =>
    obtain ⟨timed, hblocked, _⟩ := hwoken
    exact h.leave hblocked nofun

theorem taken_step (hr : (machine K sinks).Reachable s) (h : s.Taken sinks)
    (hcond : s.TakenInTime sinks a) (hstep : (machine K sinks).step s a = some s') :
    s'.Taken sinks := by
  cases step_cases hstep with
  | logWithWaiting | call | notifyNone => exact h
  | @push k msg hpc =>
    intro hstopping
    refine (h hstopping).imp_right fun hbuf m hm => (hbuf m hm).imp_left fun hnew hmem => ?_
    cases List.mem_append.mp hmem with
    | inl hold => exact hnew hold
    | inr hself => exact not_mem_before hr hpc (List.mem_singleton.mp hself ▸ hm)
  | notifyOne => exact taken_notify h
  | flush hmoved => exact taken_flush (inOrder_of_reachable hr).empty h hmoved
  | wake hpc => exact h.leave hpc nofun
  | destroy => exact nofun
  | setStop => exact fun _ => hcond
  | notifyAll hstopped =>
    have hnotify := taken_notify h
    obtain ⟨pc, heq, _⟩ := exists_notify s
    rw [heq] at hnotify ⊢
    have hstopping : s.destructor.stopping = true := by rw [hstopped]; rfl
    exact fun _ => hnotify hstopping
  | join hnotified => exact fun _ => h (by rw [hnotified]; rfl)

theorem taken_of_reachable (h : (machine K sinks).ReachableUnder (TakenInTime sinks) s) :
    s.Taken sinks := by
  refine h.invariant_on (fun _ hr => hr.reachable) ?_ fun s a s' hr ht hcond hs =>
    taken_step hr ht hcond hs
  rintro s rfl
  exact nofun

/-- A message of `_buf` is left behind, or the branch for a `FATAL` message was entered. -/
def LeftBehind (sinks : Nat) (s : Logger K) : Prop :=
  s.destructor.stopping = true ∧
    (s.flush.inFatal = true ∨ 0 < sinks ∧ ∃ msg ∈ s.before, msg ∈ s.buf ∧ s.flush ≠ .swap)

omit [DecidableEq K] in
theorem LeftBehind.move (h : s.LeftBehind sinks) {pc pc' : FlushPc} (hpc : s.flush = pc)
    (hfatal : pc.inFatal = false) (hne : pc' ≠ .swap) :
    ({ s with flush := pc' } : Logger K).LeftBehind sinks := by
  refine ⟨h.1, .inr ?_⟩
  cases h.2 with
  | inl hin =>
    rw [hpc, hfatal] at hin
    cases hin
  | inr hleft =>
    obtain ⟨hsinks, msg, hmem, hbuf, _⟩ := hleft
    exact ⟨hsinks, msg, hmem, hbuf, hne⟩

omit [DecidableEq K] in
theorem leftBehind_flush (hstop : s.destructor.stopping = true → s.stop = true)
    (h : s.LeftBehind sinks) (hstep : FlushStep s s') : s'.LeftBehind sinks := by
  cases hstep with
  | enterLoop hpc | leaveLoop hpc | lock hpc | mode hpc | ready hpc | unready hpc | block hpc
  | retest hpc | timeOut hpc | stopReturn hpc | next hpc | endBatch hpc | clear hpc =>
    exact h.move hpc rfl nofun
  | deliver hpc => exact h.move hpc rfl nofun
  | stopPass hpc hrunning =>
    rw [hstop h.1] at hrunning
    cases hrunning
  | swap hpc | swapNone hpc =>
    cases h.2 with
    | inl hin =>
      rw [hpc] at hin
      cases hin
    | inr hleft =>
      obtain ⟨_, _, _, _, hne⟩ := hleft
      exact absurd hpc hne
  | fatal | fatalStop | fatalClearBuf | fatalClearBackup | fatalClearDest | abort =>
    exact ⟨h.1, .inl rfl⟩

omit [DecidableEq K] in
theorem leftBehind_notify (h : s.LeftBehind sinks) : s.notify.LeftBehind sinks := by
  obtain ⟨pc, heq, hpc⟩ := exists_notify s
  rw [heq]
  cases hpc with
  | inl hsame => exact hsame ▸ h
  | inr hwoken =>
    obtain ⟨timed, hblocked, rfl⟩ := hwoken
    exact h.move hblocked rfl nofun

theorem leftBehind_step (hr : (machine K sinks).Reachable s) (h : s.LeftBehind sinks)
    (hstep : (machine K sinks).step s a = some s') : s'.LeftBehind sinks := by
  cases step_cases hstep with
  | logWithWaiting | call | notifyNone => exact h
  | push =>
    refine ⟨h.1, h.2.imp_right fun hleft => ?_⟩
    obtain ⟨hsinks, msg, hmem, hbuf, hne⟩ := hleft
    exact ⟨hsinks, msg, hmem, List.mem_append_left _ hbuf, hne⟩
  | notifyOne => exact leftBehind_notify h
  | flush hmoved => exact leftBehind_flush (registered_of_reachable hr).stopped h hmoved
  | wake hpc => exact h.move hpc rfl nofun
  | destroy hidle =>
    have hstopping := h.1
    rw [hidle] at hstopping
    cases hstopping
  | setStop => exact ⟨rfl, h.2⟩
  | notifyAll => exact ⟨rfl, (leftBehind_notify h).2⟩
  | join => exact ⟨rfl, h.2⟩

theorem leftBehind_of_late (hstep : (machine K sinks).step s a = some s')
    (hlate : ¬ s.TakenInTime sinks a) : s'.LeftBehind sinks := by
  cases step_cases hstep with
  | setStop =>
    obtain ⟨hsinks, hleft⟩ := not_or.mp hlate
    refine ⟨rfl, .inr ⟨Nat.pos_of_ne_zero hsinks, ?_⟩⟩
    push Not at hleft
    exact hleft
  | _ => exact absurd trivial hlate

/-- When `~Logger` has returned, every message has been delivered or is in `_buf`. -/
theorem entered_of_returned (hr : (machine K sinks).Reachable s) (hreturned : s.destructor = .returned)
    {d : Nat} (hd : d < sinks) : s.delivered d ++ s.buf = s.entered := by
  have hpc : s.flush = .returned := (registered_of_reachable hr).joined hreturned
  have horder := inOrder_of_reachable hr
  have hempty : s.backupBuf = [] := horder.empty (by rw [hpc]; rfl)
  obtain ⟨earlier, hentered, hdelivered⟩ := horder.written (by rw [hpc]; rfl)
  rw [hdelivered d hd, hentered, hempty, List.take_nil, List.append_nil, List.nil_append]

/-- When `~Logger` has returned, the messages that were complete before it was entered
were delivered to every sink exactly if they were taken from `_buf` in time. -/
theorem handed_iff_takenInTime {as : List (Action K)}
    (hrun : (machine K sinks).run (initial sinks) as = some s)
    (hreturned : s.destructor = .returned) :
    s.Handed sinks ↔ (machine K sinks).AllSteps (TakenInTime sinks) (initial sinks) as := by
  have hr : (machine K sinks).Reachable s := Machine.reachable_of_run rfl hrun
  have hpc : s.flush = .returned := (registered_of_reachable hr).joined hreturned
  constructor
  · intro hhanded
    have hgood : ¬ s.LeftBehind sinks := by
      rintro ⟨_, hfatal | ⟨hsinks, msg, hmem, hbuf, _⟩⟩
      · rw [hpc] at hfatal
        cases hfatal
      · have hnodup := nodup_entered hr
        rw [← entered_of_returned hr hreturned hsinks] at hnodup
        exact (List.nodup_append.mp hnodup).2.2 msg (hhanded msg hmem 0 hsinks) msg hbuf rfl
    exact (Machine.AllSteps.of_avoids (fun _ _ _ _ hstep => leftBehind_of_late hstep)
      (fun _ _ _ hr h => leftBehind_step hr h) (.init rfl) hrun hgood).1
  · intro hall msg hmem d hd
    have hunder := Machine.ReachableUnder.of_allSteps (.init rfl) hall hrun
    have htaken := taken_of_reachable hunder
    cases htaken (by rw [hreturned]; rfl) with
    | inl hzero => exact absurd (hzero ▸ hd) (Nat.not_lt_zero d)
    | inr hbuf =>
      have hentered := (registered_of_reachable hr).before msg hmem
      rw [← entered_of_returned hr hreturned hd] at hentered
      refine (List.mem_append.mp hentered).resolve_right fun hin => ?_
      cases hbuf msg hmem with
      | inl hnot => exact hnot hin
      | inr hswap =>
        rw [hpc] at hswap
        cases hswap

end Steps

/-- The store to `_stop` falls between the test of `_stop` and the swap. -/
def inTimeRun : List (Action Unit) :=
  [.call () .INFO [], .push (), .notifyOne ()] ++ List.replicate 5 .flush ++ [.destroy, .setStop] ++
    List.replicate 6 .flush ++ [.notifyAll, .join]

theorem handed_iff_takenInTime_swap : ∃ s, (machine Unit 1).run (initial 1) inTimeRun = some s ∧
    s.before = [⟨0, .INFO, []⟩] ∧ s.delivered 0 = [⟨0, .INFO, []⟩] ∧
    (s.Handed 1 ↔ (machine Unit 1).AllSteps (TakenInTime 1) (initial 1) inTimeRun) := by
  obtain ⟨s, hrun, hreturned, hs⟩ : ∃ s, (machine Unit 1).run (initial 1) inTimeRun = some s ∧
    s.destructor = .returned ∧ s.before = [⟨0, .INFO, []⟩] ∧ s.delivered 0 = [⟨0, .INFO, []⟩] :=
    ⟨_, rfl, rfl, rfl, rfl⟩
  exact ⟨s, hrun, hs.1, hs.2, handed_iff_takenInTime hrun hreturned⟩

/-- The flush thread finds `_stop` set before it has looked at `_buf`. -/
theorem not_handed : ∃ s, (machine Unit 1).run (initial 1)
    [.call () .INFO [], .push (), .notifyOne (), .destroy, .setStop, .flush, .notifyAll, .join] =
      some s ∧
    s.destructor = .returned ∧ (∀ msg ∈ s.before, msg.level ≠ .FATAL) ∧ ¬ s.Handed 1 := by
  refine ⟨_, rfl, rfl, ?_, fun h => ?_⟩
  · intro msg hmem
    cases List.mem_singleton.mp hmem
    decide
  · exact nomatch h ⟨0, .INFO, []⟩ (List.mem_singleton_self _) 0 Nat.one_pos

end Logger

end ServerDevLib.Logging
