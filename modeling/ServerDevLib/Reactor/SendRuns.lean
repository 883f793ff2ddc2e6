import ServerDevLib.Foundation.Transition
import ServerDevLib.Reactor.Channel
import ServerDevLib.Reactor.Demultiplexer

/-!
# Runs of `NotifyWriteEvent` and `Write`

A notifier appends under `_sendMutex` and arms the descriptor after it has
released the mutex. `Write` holds the mutex from its look at the size of the
buffer to its last effect, so that at most one `Write` is inside; its lock,
the call of `::write` and what follows from the result are separate steps,
between which notifiers may arm.

The result of `::write` decides whether the bytes that are left stay
sendable. A transient error shuts the write side down, and a result of zero
sets the mask of the demultiplexer, which has no `EPOLLOUT` of its own.
-/

namespace ServerDevLib.Reactor

open Transition

inductive NotifierPc
  | idle
  | appended
  deriving DecidableEq

inductive WriterPc
  | idle
  | locked (size : Nat)
  | wrote (sent : Int)
  deriving DecidableEq

/-- One connection; `mask` is the event mask last set for its descriptor. -/
structure Sending (K : Type) where
  channel : Channel
  events : Events
  mask : Events
  writeShut : Bool
  notifier : K → NotifierPc
  writer : WriterPc

namespace Sending

inductive Action (K : Type)
  | append (k : K) (data : List UInt8)
  | arm (k : K)
  | lock
  | write (sent : Int)
  | finish

variable {K : Type}

def modifyEvent (s : Sending K) (events : Events) : Sending K :=
  match s.channel.demultiplexer with
  | some _ => { s with mask := events }
  | none => s

def disableSend (s : Sending K) : Sending K :=
  if !s.channel.active then s else { s with writeShut := true }

/-- What `Write` does after `::write`, up to the release of the mutex. -/
def conclude (A : Text.Allocator) (s : Sending K) (sent : Int) : Sending K :=
  if sent > 0 then { s with channel := s.channel.eraseSent A sent.toNat }
  else if sent = 0 then s.modifyEvent s.events
  else s.disableSend

def step [DecidableEq K] (A : Text.Allocator) (s : Sending K) : Action K → Option (Sending K)
  | .append k data =>
    match s.notifier k, s.writer with
    | .idle, .idle =>
      if !s.channel.active then some s
      else some { s with
        channel := s.channel.appendToSend A data
        notifier := Function.update s.notifier k .appended }
    | _, _ => none
  | .arm k =>
    match s.notifier k with
    | .appended =>
      some { s.modifyEvent (s.events ||| EPOLLOUT) with
        notifier := Function.update s.notifier k .idle }
    | .idle => none
  | .lock =>
    match s.writer with
    | .idle =>
      if !s.channel.active then some s
      else some { s with writer := .locked s.channel.sendingBuf.size }
    | _ => none
  | .write sent =>
    match s.writer with
    | .locked size =>
      if 1 ≤ size ∧ -1 ≤ sent ∧ sent ≤ size then some { s with writer := .wrote sent } else none
    | _ => none
  | .finish =>
    match s.writer with
    | .locked size =>
      if size < 1 then some { s.modifyEvent (s.events.without EPOLLOUT) with writer := .idle }
      else none
    | .wrote sent => some { s.conclude A sent with writer := .idle }
    | .idle => none

/-- A channel that was registered with the mask of the demultiplexer `d`. -/
def start (A : Text.Allocator) (fd : Int) (d : Nat) (events : Events) : Sending K :=
  { channel := Channel.create A fd (some d), events := events, mask := events, writeShut := false,
    notifier := fun _ => .idle, writer := .idle }

def machine (K : Type) [DecidableEq K] (A : Text.Allocator) : Machine (Sending K) (Action K) where
  init s := ∃ fd d events, s = start A fd d events
  step := step A

/-- What each action does, with the guards it has passed. -/
inductive Step [DecidableEq K] (A : Text.Allocator) (s : Sending K) :
    Action K → Sending K → Prop
  | append {k data} (idle : s.notifier k = .idle) (unlocked : s.writer = .idle)
      (active : s.channel.active = true) :
      Step A s (.append k data) { s with
        channel := s.channel.appendToSend A data
        notifier := Function.update s.notifier k .appended }
  | appendInactive {k data} (inactive : s.channel.active = false) : Step A s (.append k data) s
  | arm {k} (appended : s.notifier k = .appended) :
      Step A s (.arm k) { s.modifyEvent (s.events ||| EPOLLOUT) with
        notifier := Function.update s.notifier k .idle }
  | lock (unlocked : s.writer = .idle) (active : s.channel.active = true) :
      Step A s .lock { s with writer := .locked s.channel.sendingBuf.size }
  | lockInactive (inactive : s.channel.active = false) : Step A s .lock s
  | write {size : Nat} {sent : Int} (locked : s.writer = .locked size) (filled : 1 ≤ size)
      (least : -1 ≤ sent) (most : sent ≤ size) :
      Step A s (.write sent) { s with writer := .wrote sent }
  | finishEmpty {size : Nat} (locked : s.writer = .locked size) (empty : size < 1) :
      Step A s .finish { s.modifyEvent (s.events.without EPOLLOUT) with writer := .idle }
  | finish {sent : Int} (wrote : s.writer = .wrote sent) :
      Step A s .finish { s.conclude A sent with writer := .idle }

theorem step_cases [DecidableEq K] {A : Text.Allocator} {s s' : Sending K} {a : Action K}
    (hstep : step A s a = some s') : Step A s a s' := by
  cases a with
  | append k data =>
    simp only [step] at hstep
    split at hstep
    · rename_i hidle hwriter
      split at hstep <;> cases hstep
      · rename_i hinactive
        exact .appendInactive (by simpa using hinactive)
      · rename_i hactive
        exact .append hidle hwriter (by simpa using hactive)
    · cases hstep
  | arm k =>
    simp only [step] at hstep
    split at hstep <;> cases hstep
    rename_i happended
    exact .arm happended
  | lock =>
    simp only [step] at hstep
    split at hstep
    · rename_i hwriter
      split at hstep <;> cases hstep
      · rename_i hinactive
        exact .lockInactive (by simpa using hinactive)
      · rename_i hactive
        exact .lock hwriter (by simpa using hactive)
    · cases hstep
  | write sent =>
    simp only [step] at hstep
    split at hstep
    · rename_i size hwriter
      split at hstep <;> cases hstep
      rename_i hguard
      exact .write hwriter hguard.1 hguard.2.1 hguard.2.2
    · cases hstep
  | finish =>
    simp only [step] at hstep
    split at hstep
    · rename_i size hwriter
      split at hstep <;> cases hstep
      rename_i hempty
      exact .finishEmpty hwriter hempty
    · rename_i sent hwriter
      cases hstep
      exact .finish hwriter
    · cases hstep

def Armed (s : Sending K) : Prop :=
  s.mask.has EPOLLOUT = true ∨ ∃ k, s.notifier k = .appended

def Sendable (s : Sending K) : Prop :=
  s.writer = .idle → s.channel.unsent ≠ [] → s.writeShut = false ∧ s.Armed

/-- `::write` has not failed, and when it has taken nothing, the mask of the demultiplexer
contains `EPOLLOUT` or some notifier is still to set it. -/
def Resumes (s : Sending K) : Action K → Prop
  | .finish =>
    match s.writer with
    | .wrote sent => 0 ≤ sent ∧
        (sent = 0 → s.events.has EPOLLOUT = true ∨ ∃ k, s.notifier k = .appended)
    | _ => True
  | _ => True

/-- A `Write` in progress has found what is still in the buffer. -/
structure Coherent (s : Sending K) : Prop where
  wired : s.channel.demultiplexer ≠ none
  live : s.channel.unsent ≠ [] → s.channel.active = true
  locked : ∀ size, s.writer = .locked size → size = s.channel.unsent.length
  wrote : ∀ sent, s.writer = .wrote sent → s.channel.unsent ≠ [] ∧ sent ≤ s.channel.unsent.length

structure Consistent (s : Sending K) : Prop extends s.Coherent where
  opened : s.writeShut = false
  armed : s.channel.unsent ≠ [] → s.Armed

theorem Consistent.sendable {s : Sending K} (h : s.Consistent) : s.Sendable :=
  fun _ hunsent => ⟨h.opened, h.armed hunsent⟩

theorem start_coherent (A : Text.Allocator) (fd : Int) (d : Nat) (events : Events) :
    (start A fd d events : Sending K).Coherent where
  wired := Option.some_ne_none d
  live h := absurd (Channel.unsent_create fd (some d)) h
  locked := nofun
  wrote := nofun

theorem start_consistent (A : Text.Allocator) (fd : Int) (d : Nat) (events : Events) :
    (start A fd d events : Sending K).Consistent where
  toCoherent := start_coherent A fd d events
  opened := rfl
  armed h := absurd (Channel.unsent_create fd (some d)) h

variable {A : Text.Allocator} {s : Sending K}

theorem Coherent.modifyEvent_eq (h : s.Coherent) (events : Events) :
    s.modifyEvent events = { s with mask := events } := by
  obtain ⟨d, hd⟩ := Option.ne_none_iff_exists'.mp h.wired
  simp only [modifyEvent, hd]

theorem Coherent.empty_of_locked (h : s.Coherent) {size : Nat} (hwriter : s.writer = .locked size)
    (hsize : size < 1) : s.channel.unsent = [] := by
  have hlength := h.locked size hwriter
  exact List.eq_nil_of_length_eq_zero (by omega)

theorem conclude_sent {sent : Int} (h : 0 < sent) :
    s.conclude A sent = { s with channel := s.channel.eraseSent A sent.toNat } := if_pos h

theorem Coherent.conclude_zero (h : s.Coherent) :
    s.conclude A 0 = { s with mask := s.events } := by
  rw [conclude, if_neg (Int.lt_irrefl 0), if_pos rfl, h.modifyEvent_eq]

theorem conclude_error {sent : Int} (h : sent < 0) : s.conclude A sent = s.disableSend := by
  rw [conclude, if_neg (by omega), if_neg (by omega)]

theorem unsent_of_erase {sent : Nat} (h : (s.channel.eraseSent A sent).unsent ≠ []) :
    s.channel.unsent ≠ [] := by
  intro hempty
  rw [Channel.unsent_eraseSent, hempty, List.drop_nil] at h
  exact h rfl

theorem Coherent.conclude (h : s.Coherent) (sent : Int) :
    ({ s.conclude A sent with writer := .idle } : Sending K).Coherent := by
  rcases lt_trichotomy sent 0 with hneg | rfl | hpos
  · rw [conclude_error hneg, disableSend]
    split <;> exact ⟨h.wired, h.live, nofun, nofun⟩
  · rw [h.conclude_zero]
    exact ⟨h.wired, h.live, nofun, nofun⟩
  · rw [conclude_sent hpos]
    exact ⟨h.wired, fun hrest => h.live (unsent_of_erase hrest), nofun, nofun⟩

/-- What is left after `::write` is sendable under the condition on its result. -/
theorem Consistent.conclude (h : s.Consistent) {sent : Int} (hwriter : s.writer = .wrote sent)
    (hresumes : Resumes s .finish) :
    ({ s.conclude A sent with writer := .idle } : Sending K).Consistent := by
  simp only [Resumes, hwriter] at hresumes
  obtain ⟨hnonneg, hzero⟩ := hresumes
  refine ⟨h.toCoherent.conclude sent, ?_, ?_⟩
  all_goals rcases Int.lt_or_eq_of_le hnonneg with hpos | rfl
  · rw [conclude_sent hpos]
    exact h.opened
  · rw [h.conclude_zero]
    exact h.opened
  · rw [conclude_sent hpos]
    exact fun hrest => h.armed (unsent_of_erase hrest)
  · rw [h.conclude_zero]
    exact fun _ => hzero rfl

variable [DecidableEq K]

theorem coherent_step (s : Sending K) (a : Action K) (s' : Sending K) (h : s.Coherent)
    (hstep : step A s a = some s') : s'.Coherent := by
  cases step_cases hstep with
  | @append k data _ hwriter hactive =>
    obtain ⟨buf, hch⟩ := s.channel.appendToSend_cases A data
    constructor
    · rw [hch]
      exact h.wired
    · intro _
      rw [hch]
      exact hactive
    · rw [show s.writer = .idle from hwriter]
      nofun
    · rw [show s.writer = .idle from hwriter]
      nofun
  | appendInactive | lockInactive => exact h
  | arm =>
    rw [h.modifyEvent_eq]
    exact ⟨h.wired, h.live, h.locked, h.wrote⟩
  | lock =>
    refine ⟨h.wired, h.live, ?_, nofun⟩
    rintro size ⟨⟩
    exact (Text.CxxString.length_content s.channel.sendingBuf).symm
  | @write size sent hwriter hfilled _ hmost =>
    have hsize : size = s.channel.unsent.length := h.locked size hwriter
    refine ⟨h.wired, h.live, nofun, ?_⟩
    rintro _ ⟨⟩
    constructor
    · intro hempty
      rw [show s.channel.unsent = [] from hempty, List.length_nil] at hsize
      omega
    · rw [← hsize]
      exact hmost
  | finishEmpty =>
    rw [h.modifyEvent_eq]
    exact ⟨h.wired, h.live, nofun, nofun⟩
  | finish => exact h.conclude _

theorem consistent_step (s : Sending K) (a : Action K) (s' : Sending K) (h : s.Consistent)
    (hresumes : Resumes s a) (hstep : step A s a = some s') : s'.Consistent := by
  have hcoherent : s'.Coherent := coherent_step s a s' h.toCoherent hstep
  cases step_cases hstep with
  | @append k data => exact ⟨hcoherent, h.opened, fun _ => .inr ⟨k, Function.update_self ..⟩⟩
  | appendInactive | lockInactive => exact h
  | arm =>
    rw [h.modifyEvent_eq] at hcoherent ⊢
    exact ⟨hcoherent, h.opened, fun _ => .inl (has_or_out s.events)⟩
  | lock | write => exact ⟨hcoherent, h.opened, h.armed⟩
  | finishEmpty hwriter hempty =>
    rw [h.modifyEvent_eq] at hcoherent ⊢
    exact ⟨hcoherent, h.opened, fun hunsent =>
      absurd (h.toCoherent.empty_of_locked hwriter hempty) hunsent⟩
  | finish hwriter => exact h.conclude hwriter hresumes

/-- Only the end of a `Write` can leave bytes behind that are not sendable. -/
theorem sendable_step_iff (s : Sending K) (a : Action K) (s' : Sending K) (h : s.Consistent)
    (hstep : step A s a = some s') : s'.Sendable ↔ Resumes s a := by
  constructor
  · intro hs'
    cases step_cases hstep with
    | append | appendInactive | arm | lock | lockInactive | write => trivial
    | finishEmpty hwriter => simp only [Resumes, hwriter]
    | @finish sent hwriter =>
      have hunsent : s.channel.unsent ≠ [] := (h.wrote sent hwriter).1
      have hactive : (!s.channel.active) = false := by simp [h.live hunsent]
      simp only [Resumes, hwriter]
      rcases lt_trichotomy sent 0 with hneg | rfl | hpos
      · rw [conclude_error hneg, disableSend, hactive] at hs'
        exact absurd (hs' rfl hunsent).1 Bool.noConfusion
      · rw [h.conclude_zero] at hs'
        exact ⟨Int.le_refl 0, fun _ => (hs' rfl hunsent).2⟩
      · exact ⟨Int.le_of_lt hpos, fun hzero => absurd hzero (by omega)⟩
  · intro hresumes
    exact (consistent_step s a s' h hresumes hstep).sendable

/-- Pending output stays sendable throughout a run exactly if every `Write` of the run meets
the condition on the result of `::write`. -/
theorem sendable_iff_resumes (A : Text.Allocator) (fd : Int) (d : Nat) (events : Events)
    (as : List (Action K)) :
    (machine K A).AllStates Sendable (start A fd d events) as ↔
      (machine K A).AllSteps Resumes (start A fd d events) as :=
  Machine.allStates_iff_allSteps (fun s a s' h _ => consistent_step s a s' h)
    (fun s a s' h _ => sendable_step_iff s a s' h) (start_consistent A fd d events)
    (start_consistent A fd d events).sendable as

/-- A result of -1 shuts the write side down, and a result of 0 drops `EPOLLOUT`. -/
theorem pending_output_stuck :
    (∃ s, (machine Unit .doubling).run (start .doubling 5 0 DEFAULT_EVENTS)
      [.append () [104], .arm (), .lock, .write (-1), .finish] = some s ∧
      (s.channel.unsent, s.writer, s.writeShut) = ([104], .idle, true)) ∧
    ∃ s, (machine Unit .doubling).run (start .doubling 5 0 DEFAULT_EVENTS)
      [.append () [104], .arm (), .lock, .write 0, .finish] = some s ∧
      (s.channel.unsent, s.writer, s.mask.has EPOLLOUT, s.notifier ()) =
        ([104], .idle, false, .idle) :=
  ⟨Option.map_eq_some_iff.mp (by decide +kernel), Option.map_eq_some_iff.mp (by decide +kernel)⟩

end Sending

end ServerDevLib.Reactor
