import ServerDevLib.Foundation.ConservedStream
import ServerDevLib.Reactor.SendRuns

/-!
# The order of the output

The runs of `NotifyWriteEvent` and `Write` on an active channel are recorded:
the data in the order in which the notifiers entered `_sendMutex`, and the
front of the buffer that each `::write` accepted. Between `::write` and the
erasure, which lie in one section, the accepted bytes are still in the buffer.
-/

namespace ServerDevLib.Reactor

open Transition ConservedStream

structure Output (K : Type) where
  sending : Sending K
  notified : List (List UInt8)
  accepted : List (List UInt8)

/-- What the buffer holds beyond the bytes that `::write` has accepted. -/
def Sending.waiting {K : Type} (s : Sending K) : List UInt8 :=
  match s.writer with
  | .wrote sent => s.channel.unsent.drop sent.toNat
  | .idle | .locked _ => s.channel.unsent

namespace Output

variable {K : Type}

def record (s : Output K) (next : Sending K) : Sending.Action K → Output K
  | .append _ data => { s with sending := next, notified := s.notified ++ [data] }
  | .write sent =>
    { s with
      sending := next
      accepted := s.accepted ++ [s.sending.channel.unsent.take sent.toNat] }
  | .arm _ | .lock | .finish => { s with sending := next }

def start (A : Text.Allocator) (fd : Int) (d : Nat) (events : Events) : Output K :=
  { sending := Sending.start A fd d events, notified := [], accepted := [] }

def machine (K : Type) [DecidableEq K] (A : Text.Allocator) :
    Machine (Output K) (Sending.Action K) where
  init s := ∃ fd d events, fd > 0 ∧ s = start A fd d events
  step s a := (s.sending.step A a).map fun next => s.record next a

def stream (s : Output K) : Conduit UInt8 :=
  ⟨s.notified.flatten, s.accepted.flatten, s.sending.waiting⟩

variable {A : Text.Allocator} {s : Output K}

theorem conclude_channel (s : Sending K) (sent : Int) :
    (s.conclude A sent).channel.unsent = s.channel.unsent.drop sent.toNat := by
  rcases lt_trichotomy sent 0 with hneg | rfl | hpos
  · have hzero : sent.toNat = 0 := Int.toNat_of_nonpos (Int.le_of_lt hneg)
    rw [Sending.conclude_error hneg, hzero, List.drop_zero, Sending.disableSend]
    split <;> rfl
  · rw [Sending.conclude, if_neg (Int.lt_irrefl 0), if_pos rfl, Sending.modifyEvent]
    split <;> rfl
  · rw [Sending.conclude_sent hpos, Channel.unsent_eraseSent]

theorem modifyEvent_channel (s : Sending K) (events : Events) :
    (s.modifyEvent events).channel = s.channel := by
  rw [Sending.modifyEvent]
  split <;> rfl

theorem modifyEvent_writer (s : Sending K) (events : Events) :
    (s.modifyEvent events).writer = s.writer := by
  rw [Sending.modifyEvent]
  split <;> rfl

variable [DecidableEq K]

theorem active_step : (machine K A).Preserves (fun _ _ => True)
    fun s => s.sending.channel.active = true := by
  intro s a s' hactive _ hstep
  obtain ⟨next, hnext, rfl⟩ := Option.map_eq_some_iff.mp hstep
  cases Sending.step_cases hnext with
  | appendInactive hinactive | lockInactive hinactive =>
    rw [hactive] at hinactive
    cases hinactive
  | @append k data =>
    obtain ⟨buf, hch⟩ := s.sending.channel.appendToSend_cases A data
    change (s.sending.channel.appendToSend A data).active = true
    rw [hch]
    exact hactive
  | arm | finishEmpty =>
    change (s.sending.modifyEvent _).channel.active = true
    rw [modifyEvent_channel]
    exact hactive
  | lock | write => exact hactive
  | @finish sent =>
    change (s.sending.conclude A sent).channel.active = true
    rw [Sending.conclude]
    split
    · exact hactive
    · split
      · rw [modifyEvent_channel]
        exact hactive
      · rw [Sending.disableSend]
        split <;> exact hactive

theorem active_of_reachable (h : (machine K A).Reachable s) : s.sending.channel.active = true := by
  apply h.invariant _ active_step
  rintro s ⟨fd, d, events, hfd, rfl⟩
  exact decide_eq_true hfd

/-- A notifier puts its data in at the back, and `::write` takes from the front. -/
theorem stream_moves (s : Output K) (a : Sending.Action K) (s' : Output K)
    (hactive : s.sending.channel.active = true) (hstep : (machine K A).step s a = some s') :
    Moves s.stream s'.stream := by
  obtain ⟨next, hnext, rfl⟩ := Option.map_eq_some_iff.mp hstep
  cases Sending.step_cases hnext with
  | appendInactive hinactive | lockInactive hinactive =>
    rw [hactive] at hinactive
    cases hinactive
  | @append k data _ hwriter =>
    have henter := Move.enter s.notified.flatten s.accepted.flatten s.sending.channel.unsent data
    simp only [stream, record, Sending.waiting, hwriter, Channel.unsent_appendToSend,
      List.flatten_append, List.flatten_singleton]
    exact .single henter
  | arm =>
    simp only [stream, record, Sending.waiting, modifyEvent_channel, modifyEvent_writer]
    exact .refl
  | lock hwriter =>
    simp only [stream, record, Sending.waiting, hwriter]
    exact .refl
  | @write size sent hwriter =>
    have hleave := Move.leave s.notified.flatten s.accepted.flatten s.sending.channel.unsent
      sent.toNat
    simp only [stream, record, Sending.waiting, hwriter, List.flatten_append,
      List.flatten_singleton]
    exact .single hleave
  | finishEmpty hwriter =>
    simp only [stream, record, Sending.waiting, hwriter, modifyEvent_channel]
    exact .refl
  | finish hwriter =>
    simp only [stream, record, Sending.waiting, hwriter, conclude_channel]
    exact .refl

/-- What `::write` has accepted followed by what is in the buffer is what was notified. -/
theorem output_in_order (s : Output K) (h : (machine K A).Reachable s) :
    ((∀ sent, s.sending.writer ≠ .wrote sent) →
      s.accepted.flatten ++ s.sending.channel.unsent = s.notified.flatten) ∧
    ∀ sent, s.sending.writer = .wrote sent →
      s.accepted.flatten ++ s.sending.channel.unsent.drop sent.toNat = s.notified.flatten := by
  have hconserved : s.accepted.flatten ++ s.sending.waiting = s.notified.flatten := by
    apply conserved_of_refines stream (fun _ => active_of_reachable) _ _ h
    · rintro s ⟨fd, d, events, _, rfl⟩
      exact Channel.unsent_create (A := A) fd (some d)
    · exact fun s a s' hactive _ => stream_moves s a s' hactive
  rw [Sending.waiting] at hconserved
  constructor
  · intro hwriter
    split at hconserved
    · rename_i sent hwrote
      exact absurd hwrote (hwriter sent)
    all_goals exact hconserved
  · intro sent hwrote
    rw [hwrote] at hconserved
    exact hconserved

/-- Two notifiers and a `::write` that accepts two of the five bytes. -/
theorem output_in_order_partial : ∃ s,
    (machine Bool .doubling).run (start .doubling 5 0 DEFAULT_EVENTS)
      [.append true [1, 2, 3], .append false [4, 5], .arm true, .lock, .write 2, .arm false,
        .finish] = some s ∧
    s.accepted = [[1, 2]] ∧ s.sending.channel.unsent = [3, 4, 5] ∧
    s.notified = [[1, 2, 3], [4, 5]] ∧ s.sending.writer = .idle ∧
    ((∀ sent, s.sending.writer ≠ .wrote sent) →
      s.accepted.flatten ++ s.sending.channel.unsent = s.notified.flatten) ∧
    ∀ sent, s.sending.writer = .wrote sent →
      s.accepted.flatten ++ s.sending.channel.unsent.drop sent.toNat = s.notified.flatten := by
  have hview : ((machine Bool .doubling).run (start .doubling 5 0 DEFAULT_EVENTS)
      [.append true [1, 2, 3], .append false [4, 5], .arm true, .lock, .write 2, .arm false,
        .finish]).map (fun s => (s.accepted, s.sending.channel.unsent, s.notified,
          s.sending.writer)) = some ([[1, 2]], [3, 4, 5], [[1, 2, 3], [4, 5]], .idle) := by
    decide +kernel
  obtain ⟨s, hs, hview⟩ := Option.map_eq_some_iff.mp hview
  simp only [Prod.mk.injEq] at hview
  obtain ⟨haccepted, hunsent, hnotified, hwriter⟩ := hview
  have hinit : (machine Bool .doubling).init (start .doubling 5 0 DEFAULT_EVENTS) :=
    ⟨5, 0, DEFAULT_EVENTS, by decide, rfl⟩
  exact ⟨s, hs, haccepted, hunsent, hnotified, hwriter,
    output_in_order s (Machine.reachable_of_run hinit hs)⟩

end Output

end ServerDevLib.Reactor
