import Mathlib.Logic.Function.Basic
import ServerDevLib.Foundation.Custody
import ServerDevLib.Logging.MessageObjects

/-!
# Moves of messages

A block is acquired by the constructor, given on by the moves, marked when its
message is handed over and released by `delete`. A move assignment gives it to
an object that may have another one, which is then lost.
-/

namespace ServerDevLib.Logging.Messages

open Transition

universe u

variable {O : Type u}

/-- Who has which block, and what has become of the blocks. -/
def custody (s : Messages O) : Custody O :=
  ⟨MessageObject.data ∘ s.object, s.handed, s.deleted, s.nextBlock⟩

/-- The marked blocks are those of the messages that the callback was given. -/
structure Flagged (s : Messages O) : Prop where
  sendto : s.sendto = true
  handed : ∀ b, b ∈ s.handed ↔ b < s.nextBlock ∧ (s.block b).hasBeenFlushed = true

section Objects

variable {s : Messages O} {o : O} {m : MessageFields} {b : Nat}

theorem data_of_alive (halive : s.object o = .alive m) (hdata : m.data = some b) :
    (s.object o).data = some b := by
  rw [halive, MessageObject.data_alive, hdata]

theorem unsent_of_data (hdata : (s.object o).data = some b) :
    s.unsent o = !(s.block b).hasBeenFlushed := by
  simp only [unsent, hdata]

/-- What an object owns is marked exactly if it has no message that was not handed over. -/
theorem Flagged.forall_mem_handed_iff (h : s.Flagged) (hsole : s.custody.Sole) :
    (∀ b, (s.object o).data = some b → b ∈ s.handed) ↔ s.unsent o = false := by
  cases hdata : (s.object o).data with
  | none =>
    refine iff_of_true nofun ?_
    simp only [unsent, hdata]
  | some b =>
    have hlt : b < s.nextBlock := hsole.heldOld o b hdata
    have hhanded : b ∈ s.handed ↔ (s.block b).hasBeenFlushed = true :=
      (h.handed b).trans (and_iff_right hlt)
    rw [unsent_of_data hdata, Bool.not_eq_false', ← hhanded]
    constructor
    · exact fun hall => hall b rfl
    · intro hmem n hn
      cases hn
      exact hmem

/-- A step that writes to one block and keeps the marks of the others. -/
theorem Flagged.write (h : s.Flagged) {s' : Messages O} {d : MessageData}
    (hsendto : s'.sendto = s.sendto) (hblock : s'.block = Function.update s.block b d)
    (hothers : ∀ n, n ≠ b → ((n ∈ s'.handed ↔ n ∈ s.handed) ∧ (n < s'.nextBlock ↔ n < s.nextBlock)))
    (hself : b ∈ s'.handed ↔ b < s'.nextBlock ∧ d.hasBeenFlushed = true) : s'.Flagged where
  sendto := hsendto.trans h.sendto
  handed n := by
    rw [hblock]
    obtain rfl | hne := eq_or_ne n b
    · rw [Function.update_self]
      exact hself
    · obtain ⟨hhanded, hnext⟩ := hothers n hne
      rw [Function.update_of_ne hne, hhanded, hnext]
      exact h.handed n

theorem Flagged.has_callback (h : s.Flagged) (hnone : s.sendto = false) : False := by
  rw [h.sendto] at hnone
  cases hnone

end Objects

variable [DecidableEq O]

/-- What a step does with the blocks. -/
def operation (s : Messages O) : Action O → Custody.Op O
  | .insert _ _ => .stay
  | .construct o _ _ => .acquire o
  | .moveConstruct o msg => .give o msg
  | .moveAssign o msg => if msg = o then .stay else .give o msg
  | .destroy o _ => if s.unsent o then .mark o else .release o
  | .callbackReturns o => .release o

variable {s s' : Messages O} {a : Action O} {o msg : O} {x : MessageObject} {m : MessageFields}
  {b : Nat}

theorem operation_destroy (hdata : (s.object o).data = some b)
    (hunsent : (s.block b).hasBeenFlushed = false) (symbols : List (List UInt8)) :
    s.operation (.destroy o symbols) = .mark o := by
  rw [operation, unsent_of_data hdata, hunsent]
  rfl

theorem held_setObject (s : Messages O) (o : O) (x : MessageObject) :
    MessageObject.data ∘ (s.setObject o x).object =
      Function.update (MessageObject.data ∘ s.object) o x.data :=
  Function.comp_update ..

theorem custody_deleteData (s : Messages O) (o : O) :
    (s.deleteData o).custody = s.custody.apply (.release o) := by
  simp only [custody, deleteData, held_setObject]
  rfl

theorem custody_move (hmsg : (s.object msg).data = x.data) :
    ((s.setObject o x).setObject msg (s.object msg).moved).custody =
      s.custody.apply (.give o msg) := by
  simp only [custody, held_setObject, MessageObject.data_moved, ← hmsg]
  rfl

theorem custody_handOver (hdata : (s.object o).data = some b) (hx : x.data = some b)
    (d : MessageData) :
    ({ s with handed := s.handed ++ [b] }.setBlock b d |>.setObject o x).custody =
      s.custody.apply (.mark o) := by
  have hheld : Function.update (MessageObject.data ∘ s.object) o x.data =
      MessageObject.data ∘ s.object :=
    Function.update_eq_self_iff.mpr (hx.trans hdata.symm)
  have hlist : s.handed ++ [b] = s.handed ++ (s.object o).data.toList := by
    rw [hdata, Option.toList_some]
  simp only [custody, held_setObject]
  change Custody.mk (Function.update (MessageObject.data ∘ s.object) o x.data) (s.handed ++ [b])
    s.deleted s.nextBlock = _
  rw [hheld, hlist]
  rfl

theorem Flagged.custody_step (h : s.Flagged) (hstep : Step s a s') :
    s'.custody = s.custody.apply (s.operation a) := by
  cases hstep with
  | construct o m chars hdead =>
    simp only [custody, held_setObject]
    rfl
  | insert => rfl
  | moveConstruct o msg m hdead hmsg => exact custody_move (MessageObject.data_of_fields hmsg)
  | moveAssignSelf o =>
    rw [operation, if_pos rfl]
    rfl
  | moveAssign o msg m m' hne ho hmsg =>
    rw [operation, if_neg hne]
    apply custody_move
    rw [MessageObject.data_of_fields hmsg, MessageObject.data_assign ho]
  | handOver o symbols m b halive hdata hunsent hsendto =>
    have hown := data_of_alive halive hdata
    rw [operation_destroy hown hunsent]
    exact custody_handOver hown (x := .flushing m) hdata _
  | destroy o symbols m halive hsent =>
    rw [operation, hsent]
    exact custody_deleteData s o
  | destroyUnsent _ _ _ _ _ _ _ hnone => exact (h.has_callback hnone).elim
  | callbackReturns o m hflushing => exact custody_deleteData s o

theorem Flagged.allowed (h : s.Flagged) (hstep : Step s a s') :
    s.custody.Allowed (s.operation a) := by
  cases hstep with
  | construct o m chars hdead =>
    change (s.object o).data = none
    rw [hdead, MessageObject.data_dead]
  | insert => trivial
  | moveConstruct o msg m hdead hmsg =>
    rintro rfl
    rw [hdead] at hmsg
    cases hmsg
  | moveAssignSelf o =>
    rw [operation, if_pos rfl]
    trivial
  | moveAssign o msg m m' hne ho hmsg =>
    rw [operation, if_neg hne]
    exact hne.symm
  | handOver o symbols m b halive hdata hunsent hsendto =>
    have hown := data_of_alive halive hdata
    rw [operation_destroy hown hunsent]
    intro n hn hmarked
    cases hown.symm.trans hn
    have hflag := ((h.handed b).mp hmarked).2
    rw [hunsent] at hflag
    cases hflag
  | destroy o symbols m halive hsent =>
    rw [operation, hsent]
    trivial
  | destroyUnsent _ _ _ _ _ _ _ hnone => exact (h.has_callback hnone).elim
  | callbackReturns o m hflushing => trivial

theorem Flagged.step (h : s.Flagged) (hsole : s.custody.Sole) (hstep : Step s a s') :
    s'.Flagged := by
  cases hstep with
  | construct o m chars hdead =>
    have hnew : s.nextBlock ∉ s.handed := fun hmem => Nat.lt_irrefl _ ((h.handed _).mp hmem).1
    refine h.write rfl rfl (fun n hne => ⟨Iff.rfl, ?_⟩) (iff_of_false hnew nofun)
    change n < s.nextBlock + 1 ↔ n < s.nextBlock
    omega
  | insert o text b hdata => exact h.write rfl rfl (fun _ _ => ⟨Iff.rfl, Iff.rfl⟩) (h.handed b)
  | moveConstruct => exact ⟨h.sendto, h.handed⟩
  | moveAssignSelf => exact h
  | moveAssign => exact ⟨h.sendto, h.handed⟩
  | handOver o symbols m b halive hdata hunsent hsendto =>
    have hlt : b < s.nextBlock := hsole.heldOld o b (data_of_alive halive hdata)
    have hmem : b ∈ s.handed ++ [b] := List.mem_append_right _ (List.mem_singleton_self b)
    refine h.write rfl rfl (fun n hne => ⟨?_, Iff.rfl⟩) (iff_of_true hmem ⟨hlt, rfl⟩)
    change n ∈ s.handed ++ [b] ↔ n ∈ s.handed
    rw [List.mem_append, List.mem_singleton, or_iff_left hne]
  | destroy => exact ⟨h.sendto, h.handed⟩
  | destroyUnsent _ _ _ _ _ _ _ hnone => exact (h.has_callback hnone).elim
  | callbackReturns => exact ⟨h.sendto, h.handed⟩

/-- The objects are holders of their blocks. -/
theorem refines_custody : Custody.Refines (machine O) custody operation Flagged where
  init s hs := by
    obtain ⟨block, rfl⟩ := hs
    exact ⟨Custody.sole_empty, rfl, fun b => by simp⟩
  allowed _ _ _ h hstep := h.allowed (step_cases hstep)
  apply _ _ _ h hstep := h.custody_step (step_cases hstep)
  keeps _ _ _ hsole h hstep := h.step hsole (step_cases hstep)

/-- The careful operations are the steps that keep what they find. -/
theorem Flagged.careful_iff (h : s.Flagged) (hsole : s.custody.Sole) (hstep : Step s a s') :
    s.custody.Careful (s.operation a) ↔ s.Keeps a := by
  cases hstep with
  | construct => exact Iff.rfl
  | insert => exact Iff.rfl
  | moveConstruct o msg m hdead hmsg =>
    refine iff_of_true ?_ trivial
    change (s.object o).data = none
    rw [hdead, MessageObject.data_dead]
  | moveAssignSelf o =>
    rw [operation, if_pos rfl]
    exact iff_of_true trivial (.inl rfl)
  | moveAssign o msg m m' hne ho hmsg =>
    rw [operation, if_neg hne]
    exact (or_iff_right hne).symm
  | handOver o symbols m b halive hdata hunsent hsendto =>
    rw [operation_destroy (data_of_alive halive hdata) hunsent]
    exact Iff.rfl
  | destroy o symbols m halive hsent =>
    rw [operation, hsent]
    exact iff_of_true ((h.forall_mem_handed_iff hsole).mpr hsent) trivial
  | destroyUnsent _ _ _ _ _ _ _ hnone => exact (h.has_callback hnone).elim
  | callbackReturns o m hflushing => exact h.forall_mem_handed_iff hsole

/-- No block has two owners, and none that has an owner is deleted. -/
theorem sole_of_reachable (h : (machine O).Reachable s) : s.custody.Sole :=
  (refines_custody.sole_of_reachable h).1

theorem allSteps_careful_iff (hs : s.custody.Sole ∧ s.Flagged) (as : List (Action O)) :
    (machine O).AllSteps (fun s a => s.custody.Careful (s.operation a)) s as ↔
      (machine O).AllSteps Keeps s as := by
  constructor
  · intro hall
    exact hall.imp_on (fun _ _ _ hs _ hstep => refines_custody.step hs hstep)
      (fun _ _ _ hs hc hstep => (hs.2.careful_iff hs.1 (step_cases hstep)).mp hc) hs
  · intro hall
    exact hall.imp_on (fun _ _ _ hs _ hstep => refines_custody.step hs hstep)
      (fun _ _ _ hs hc hstep => (hs.2.careful_iff hs.1 (step_cases hstep)).mpr hc) hs

/-- The callback of the logger leaves nothing behind. -/
theorem keeps_bufferingSteps (s : Messages O) (o entry : O) (symbols : List (List UInt8)) :
    (machine O).AllSteps Keeps s (bufferingSteps o entry symbols) := by
  intro s₁ _
  refine ⟨trivial, fun s₂ hmove => ⟨trivial, fun s₃ _ => ⟨?_, trivial⟩⟩⟩
  cases step_cases hmove with
  | moveConstruct _ _ m hdead hmsg =>
    simp [Keeps, unsent, setObject]

theorem run_bufferingSteps {entry : O} (halive : s.object o = .alive m) (hdata : m.data = some b)
    (hunsent : (s.block b).hasBeenFlushed = false) (hsendto : s.sendto = true)
    (hdead : s.object entry = .dead) (symbols : List (List UInt8)) :
    ∃ s', (machine O).run s (bufferingSteps o entry symbols) = some s' ∧ s'.object o = .dead ∧
      s'.object entry = .alive m ∧ s'.handed = s.handed ++ [b] ∧ s'.deleted = s.deleted := by
  have hne : entry ≠ o := by
    rintro rfl
    rw [halive] at hdead
    cases hdead
  simp [bufferingSteps, Machine.run, machine, step, halive, hdata, hunsent, hsendto, hdead, hne,
    setObject, setBlock, deleteData, MessageObject.fields, MessageObject.moved,
    MessageObject.assign]

/-- At the end of a run that has destroyed all objects, each message has been handed over once
and its block deleted once, exactly if every step has kept what it found. -/
theorem settled_iff_keeps {as : List (Action O)} (hinit : (machine O).init s)
    (hrun : (machine O).run s as = some s') (hdead : ∀ o, s'.object o = .dead) :
    s'.Settled ↔ (machine O).AllSteps Keeps s as := by
  have hs := refines_custody.init s hinit
  have hsole : s'.custody.Sole := sole_of_reachable (Machine.reachable_of_run hinit hrun)
  have hnone (o : O) : s'.custody.held o = none := by
    change (s'.object o).data = none
    rw [hdead, MessageObject.data_dead]
  have hstart : s.custody.Kept := by
    obtain ⟨block, rfl⟩ := hinit
    exact fun n hn => absurd hn (Nat.not_lt_zero n)
  calc s'.Settled ↔ s'.custody.Kept := hsole.settled_iff_kept hnone
    _ ↔ (machine O).AllSteps (fun s a => s.custody.Careful (s.operation a)) s as :=
      (refines_custody.kept_run_iff hs hrun).trans (and_iff_right hstart)
    _ ↔ (machine O).AllSteps Keeps s as := allSteps_careful_iff hs as

def start : Messages Bool :=
  ⟨true, fun _ => .dead, fun _ => ⟨false, LogStream.create [0, 0] (by decide), []⟩, 0, [], []⟩

def constructSample (o : Bool) : Action Bool :=
  .construct o MessageOrigin.sampleOrigin (Vector.replicate MAX_MESSAGE_LEN 0)

/-- A message that is logged, buffered and deleted with the buffer. -/
def buffered : List (Action Bool) :=
  constructSample false :: (bufferingSteps false true [] ++ [.destroy true []])

theorem settled_iff_keeps_buffered :
    ∃ s, (machine Bool).run start buffered = some s ∧ s.Settled := by
  obtain ⟨s, hrun, hdead⟩ : ∃ s, (machine Bool).run start buffered = some s ∧
      ∀ o, s.object o = .dead := ⟨_, rfl, fun o => by cases o <;> rfl⟩
  obtain ⟨t, hkeeps⟩ : ∃ t, (machine Bool).runUnder Keeps start buffered = some t := ⟨_, rfl⟩
  have hall := Machine.AllSteps.of_runUnder hkeeps
  exact ⟨s, hrun, (settled_iff_keeps ⟨_, rfl⟩ hrun hdead).mpr hall⟩

/-- One of two messages is assigned to the other. -/
def overwritten : List (Action Bool) :=
  [constructSample false, constructSample true, .moveAssign false true, .destroy false [],
    .callbackReturns false, .destroy true []]

/-- The message that was assigned to is neither handed over nor deleted. -/
theorem not_settled : ∃ s, (machine Bool).init start ∧ (machine Bool).run start overwritten =
    some s ∧ (∀ o, s.object o = .dead) ∧ s.nextBlock = 2 ∧ s.handed = [1] ∧ s.deleted = [1] ∧
      ¬ s.Settled := by
  refine ⟨_, ⟨_, rfl⟩, rfl, fun o => by cases o <;> rfl, rfl, rfl, rfl, fun hsettled => ?_⟩
  exact absurd (hsettled 0 (by decide)).1 (by decide)

end ServerDevLib.Logging.Messages
