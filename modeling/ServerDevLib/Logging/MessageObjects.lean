import Mathlib.Data.List.Basic
import Mathlib.Logic.Function.Basic
import ServerDevLib.Foundation.Transition
import ServerDevLib.Logging.LogRecord

/-!
# Message objects and their data

A `LogMessage` owns a block of `Data`, which a move takes over. The destructor
marks the block and hands the message to the callback, and deletes what the
object still has when the callback returns. The callback may do anything with
the objects, the one it was given included, and so may other threads.
-/

namespace ServerDevLib.Logging

open Transition

universe u

structure MessageData where
  hasBeenFlushed : Bool
  stream : LogStream
  id : List UInt8

/-- The fields of a `LogMessage`; `data` is the number of its block. -/
structure MessageFields where
  level : LogLevel
  filename : List UInt8
  func : List UInt8
  line : Int
  data : Option Nat

/-- `flushing` is an object whose destructor is in the callback. -/
inductive MessageObject
  | dead
  | alive (m : MessageFields)
  | flushing (m : MessageFields)

namespace MessageObject

def fields : MessageObject → Option MessageFields
  | .dead => none
  | .alive m | .flushing m => some m

def data (x : MessageObject) : Option Nat := x.fields.bind MessageFields.data

/-- The object with other fields. -/
def assign : MessageObject → MessageFields → MessageObject
  | .dead, _ => .dead
  | .alive _, m => .alive m
  | .flushing _, m => .flushing m

def moved (x : MessageObject) : MessageObject :=
  match x.fields with
  | some m => x.assign { m with data := none }
  | none => x

@[simp] theorem data_dead : data .dead = none := rfl

@[simp] theorem data_alive (m : MessageFields) : data (.alive m) = m.data := rfl

@[simp] theorem data_flushing (m : MessageFields) : data (.flushing m) = m.data := rfl

@[simp] theorem data_moved (x : MessageObject) : x.moved.data = none := by
  cases x <;> rfl

theorem data_of_fields {x : MessageObject} {m : MessageFields} (h : x.fields = some m) :
    x.data = m.data := by
  rw [data, h]
  rfl

theorem data_assign {x : MessageObject} {m : MessageFields} (h : x.fields = some m)
    (m' : MessageFields) : (x.assign m').data = m'.data := by
  cases x with
  | dead => cases h
  | alive => rfl
  | flushing => rfl

theorem eq_of_fields_assign {x : MessageObject} {m m' : MessageFields}
    (h : (x.assign m).fields = some m') : m' = m := by
  cases x <;> cases h <;> rfl

end MessageObject

namespace MessageData

def stackTrace (d : MessageData) (symbols : List (List UInt8)) : List UInt8 :=
  if symbols = [] then []
  else ascii "Stack trace of thread " ++ d.id ++ ascii ":\n" ++
    symbols.flatMap fun symbol => ascii "\t" ++ symbol ++ ascii "\n"

/-- What `Flush` inserts for a message of the level. -/
def finish (d : MessageData) (level : LogLevel) (symbols : List (List UInt8)) : MessageData :=
  let stream := d.stream.insert (ascii "\n")
  { d with stream := if level = .FATAL then stream.insert (d.stackTrace symbols) else stream }

/-- The block and the fields of a message that came from one origin are printed as that one is. -/
theorem stream_finish {d : MessageData} {m : MessageOrigin} (hid : d.id = m.id)
    (symbols : List (List UInt8)) : (d.finish m.level symbols).stream = m.flush d.stream symbols := by
  simp only [finish, stackTrace, MessageOrigin.flush, MessageOrigin.stackTrace, hid]

end MessageData

/-- `sendto` says whether there is a callback; `handed` and `deleted` record the blocks of the
messages it was given and those that were deleted. -/
structure Messages (O : Type u) where
  sendto : Bool
  object : O → MessageObject
  block : Nat → MessageData
  nextBlock : Nat
  handed : List Nat
  deleted : List Nat

namespace Messages

inductive Action (O : Type u)
  | construct (o : O) (m : MessageOrigin) (chars : Vector UInt8 MAX_MESSAGE_LEN)
  | insert (o : O) (text : List UInt8)
  | moveConstruct (o msg : O)
  | moveAssign (o msg : O)
  | destroy (o : O) (symbols : List (List UInt8))
  | callbackReturns (o : O)

variable {O : Type u}

/-- Each message that was constructed has been handed over once, and its block deleted once. -/
def Settled (s : Messages O) : Prop :=
  ∀ b < s.nextBlock, s.handed.count b = 1 ∧ s.deleted.count b = 1

/-- The object has a message that was not handed over. -/
def unsent (s : Messages O) (o : O) : Bool :=
  match (s.object o).data with
  | some b => !(s.block b).hasBeenFlushed
  | none => false

variable [DecidableEq O]

def setObject (s : Messages O) (o : O) (x : MessageObject) : Messages O :=
  { s with object := Function.update s.object o x }

def setBlock (s : Messages O) (b : Nat) (d : MessageData) : Messages O :=
  { s with block := Function.update s.block b d }

/-- `delete _data` and the end of the object. -/
def deleteData (s : Messages O) (o : O) : Messages O :=
  { s with deleted := s.deleted ++ (s.object o).data.toList }.setObject o .dead

def step (s : Messages O) : Action O → Option (Messages O)
  | .construct o m chars =>
    match s.object o with
    | .dead =>
      some ({ s with nextBlock := s.nextBlock + 1 }.setBlock s.nextBlock
        ⟨false, m.init chars [], m.id⟩ |>.setObject o
          (.alive ⟨m.level, m.filename, m.func, m.line, some s.nextBlock⟩))
    | _ => none
  | .insert o text =>
    match (s.object o).data with
    | some b => some (s.setBlock b { s.block b with stream := (s.block b).stream.insert text })
    | none => none
  | .moveConstruct o msg =>
    match s.object o, (s.object msg).fields with
    | .dead, some m => some ((s.setObject o (.alive m)).setObject msg (s.object msg).moved)
    | _, _ => none
  | .moveAssign o msg =>
    match (s.object o).fields, (s.object msg).fields with
    | some _, some m =>
      if msg = o then some s
      else some ((s.setObject o ((s.object o).assign m)).setObject msg (s.object msg).moved)
    | _, _ => none
  | .destroy o symbols =>
    match s.object o with
    | .alive m =>
      match m.data with
      | none => some (s.deleteData o)
      | some b =>
        if (s.block b).hasBeenFlushed then some (s.deleteData o)
        else
          let flushed := (s.block b).finish m.level symbols
          if s.sendto then
            some ({ s with handed := s.handed ++ [b] }.setBlock b
              { flushed with hasBeenFlushed := true } |>.setObject o (.flushing m))
          else some ((s.setBlock b flushed).deleteData o)
    | _ => none
  | .callbackReturns o =>
    match s.object o with
    | .flushing _ => some (s.deleteData o)
    | _ => none

/-- A destructor with `Buffering` for its callback, where `entry` is the new element of `_buf`. -/
def bufferingSteps (o entry : O) (symbols : List (List UInt8)) : List (Action O) :=
  [.destroy o symbols, .moveConstruct entry o, .callbackReturns o]

/-- Objects that are all still to be constructed, with a callback installed. -/
def machine (O : Type u) [DecidableEq O] : Machine (Messages O) (Action O) where
  init s := ∃ block, s = ⟨true, fun _ => .dead, block, 0, [], []⟩
  step := step

/-- No object is assigned to that owns a block and is not the message itself, and no callback
leaves a message behind that was not handed over. -/
def Keeps (s : Messages O) : Action O → Prop
  | .moveAssign o msg => msg = o ∨ (s.object o).data = none
  | .callbackReturns o => s.unsent o = false
  | _ => True

instance (s : Messages O) : (a : Action O) → Decidable (s.Keeps a)
  | .moveAssign _ _ => inferInstanceAs (Decidable (_ ∨ _))
  | .callbackReturns _ => inferInstanceAs (Decidable (_ = _))
  | .construct .. | .insert .. | .moveConstruct .. | .destroy .. =>
    inferInstanceAs (Decidable True)

/-- `step` as a relation, one constructor for each branch. -/
inductive Step (s : Messages O) : Action O → Messages O → Prop
  | construct (o : O) (m : MessageOrigin) (chars : Vector UInt8 MAX_MESSAGE_LEN)
      (hdead : s.object o = .dead) :
      Step s (.construct o m chars) ({ s with nextBlock := s.nextBlock + 1 }.setBlock s.nextBlock
        ⟨false, m.init chars [], m.id⟩ |>.setObject o
          (.alive ⟨m.level, m.filename, m.func, m.line, some s.nextBlock⟩))
  | insert (o : O) (text : List UInt8) (b : Nat) (hdata : (s.object o).data = some b) :
      Step s (.insert o text)
        (s.setBlock b { s.block b with stream := (s.block b).stream.insert text })
  | moveConstruct (o msg : O) (m : MessageFields) (hdead : s.object o = .dead)
      (hmsg : (s.object msg).fields = some m) :
      Step s (.moveConstruct o msg) ((s.setObject o (.alive m)).setObject msg (s.object msg).moved)
  | moveAssignSelf (o : O) : Step s (.moveAssign o o) s
  | moveAssign (o msg : O) (m m' : MessageFields) (hne : msg ≠ o)
      (ho : (s.object o).fields = some m') (hmsg : (s.object msg).fields = some m) :
      Step s (.moveAssign o msg)
        ((s.setObject o ((s.object o).assign m)).setObject msg (s.object msg).moved)
  | handOver (o : O) (symbols : List (List UInt8)) (m : MessageFields) (b : Nat)
      (halive : s.object o = .alive m) (hdata : m.data = some b)
      (hunsent : (s.block b).hasBeenFlushed = false) (hsendto : s.sendto = true) :
      Step s (.destroy o symbols) ({ s with handed := s.handed ++ [b] }.setBlock b
        { (s.block b).finish m.level symbols with hasBeenFlushed := true } |>.setObject o
          (.flushing m))
  | destroy (o : O) (symbols : List (List UInt8)) (m : MessageFields)
      (halive : s.object o = .alive m) (hsent : s.unsent o = false) :
      Step s (.destroy o symbols) (s.deleteData o)
  | destroyUnsent (o : O) (symbols : List (List UInt8)) (m : MessageFields) (b : Nat)
      (halive : s.object o = .alive m) (hdata : m.data = some b)
      (hunsent : (s.block b).hasBeenFlushed = false) (hsendto : s.sendto = false) :
      Step s (.destroy o symbols)
        ((s.setBlock b ((s.block b).finish m.level symbols)).deleteData o)
  | callbackReturns (o : O) (m : MessageFields) (hflushing : s.object o = .flushing m) :
      Step s (.callbackReturns o) (s.deleteData o)

variable {s s' : Messages O} {a : Action O} {o msg : O} {x : MessageObject}

theorem step_cases (h : (machine O).step s a = some s') : Step s a s' := by
  cases a with
  | construct o m chars =>
    simp only [machine, step] at h
    split at h <;> cases h
    exact .construct o m chars ‹_›
  | insert o text =>
    simp only [machine, step] at h
    split at h <;> cases h
    exact .insert o text _ ‹_›
  | moveConstruct o msg =>
    simp only [machine, step] at h
    split at h <;> cases h
    exact .moveConstruct o msg _ ‹_› ‹_›
  | moveAssign o msg =>
    simp only [machine, step] at h
    split at h
    · rename_i ho hmsg
      split at h <;> cases h
      · rename_i heq
        rw [heq]
        exact .moveAssignSelf o
      · exact .moveAssign o msg _ _ ‹_› ho hmsg
    · cases h
  | destroy o symbols =>
    simp only [machine, step] at h
    split at h
    · rename_i m halive
      split at h
      · rename_i hdata
        cases h
        exact .destroy o symbols m halive (by simp [unsent, halive, hdata])
      · rename_i b hdata
        split at h
        · rename_i hsent
          cases h
          exact .destroy o symbols m halive (by simp [unsent, halive, hdata, hsent])
        · rename_i hunsent
          rw [Bool.not_eq_true] at hunsent
          split at h <;> cases h
          · exact .handOver o symbols m b halive hdata hunsent ‹_›
          · rename_i hnone
            rw [Bool.not_eq_true] at hnone
            exact .destroyUnsent o symbols m b halive hdata hunsent hnone
    · cases h
  | callbackReturns o =>
    simp only [machine, step] at h
    split at h <;> cases h
    exact .callbackReturns o _ ‹_›

end Messages

end ServerDevLib.Logging
