import Mathlib.Data.List.Basic
import ServerDevLib.Foundation.History
import ServerDevLib.Logging.MessageMoves

/-!
# What the callback is given

The fields of a message travel with its objects and its text lies in its block,
which the moves give on. Beside a run it is written down, for each message that
was constructed, with what it was constructed and what was streamed into it.
Whatever moves there were in between, what is handed over is that.
-/

namespace ServerDevLib.Logging

open Transition

universe u

/-- What has happened to a message; `trace` has the symbols of the call of `Flush`, and `later`
what was streamed into the message behind it. -/
structure Chronicle where
  origin : MessageOrigin
  chars : Vector UInt8 MAX_MESSAGE_LEN
  body : List UInt8
  trace : Option (List (List UInt8))
  later : List UInt8

namespace Chronicle

def opened (m : MessageOrigin) (chars : Vector UInt8 MAX_MESSAGE_LEN) : Chronicle :=
  ⟨m, chars, [], none, []⟩

def insert (c : Chronicle) (text : List UInt8) : Chronicle :=
  match c.trace with
  | none => { c with body := c.body ++ text }
  | some _ => { c with later := c.later ++ text }

def flush (c : Chronicle) (symbols : List (List UInt8)) : Chronicle :=
  { c with trace := some symbols, later := [] }

/-- The stream of the message. -/
def stream (c : Chronicle) : LogStream :=
  match c.trace with
  | none => c.origin.init c.chars c.body
  | some symbols => (c.origin.flush (c.origin.init c.chars c.body) symbols).insert c.later

/-- The block is that of the message. -/
structure Describes (c : Chronicle) (d : MessageData) : Prop where
  stream : d.stream = c.stream
  flushed : d.hasBeenFlushed = c.trace.isSome
  id : d.id = c.origin.id

/-- The object has the fields of the message. -/
structure Matches (c : Chronicle) (m : MessageFields) : Prop where
  level : m.level = c.origin.level
  filename : m.filename = c.origin.filename
  func : m.func = c.origin.func
  line : m.line = c.origin.line

variable {c : Chronicle} {d : MessageData}

theorem stream_opened (m : MessageOrigin) (chars : Vector UInt8 MAX_MESSAGE_LEN) :
    (opened m chars).stream = m.init chars [] := rfl

theorem stream_insert (c : Chronicle) (text : List UInt8) :
    (c.insert text).stream = c.stream.insert text := by
  cases htrace : c.trace with
  | none =>
    simp only [stream, insert, htrace, MessageOrigin.init]
    exact LogStream.insert_append ..
  | some symbols =>
    simp only [stream, insert, htrace]
    exact LogStream.insert_append ..

theorem describes_opened (m : MessageOrigin) (chars : Vector UInt8 MAX_MESSAGE_LEN) :
    (opened m chars).Describes ⟨false, m.init chars [], m.id⟩ where
  stream := by rw [stream_opened]
  flushed := rfl
  id := rfl

theorem Describes.insert (h : c.Describes d) (text : List UInt8) :
    (c.insert text).Describes { d with stream := d.stream.insert text } where
  stream := by
    rw [stream_insert, h.stream]
  flushed := by
    rw [h.flushed, Chronicle.insert]
    split <;> simp [*]
  id := by
    rw [h.id, Chronicle.insert]
    split <;> rfl

theorem origin_insert (c : Chronicle) (text : List UInt8) : (c.insert text).origin = c.origin := by
  rw [insert]
  split <;> rfl

/-- `Flush` of the destructor, for a message with the level it was constructed with. -/
theorem Describes.flush (h : c.Describes d) (hunsent : d.hasBeenFlushed = false)
    {level : LogLevel} (hlevel : level = c.origin.level) (symbols : List (List UInt8)) :
    (c.flush symbols).Describes { d.finish level symbols with hasBeenFlushed := true } where
  stream := by
    have htrace : c.trace = none := by
      rw [h.flushed] at hunsent
      exact Option.isSome_eq_false_iff.mp hunsent |> Option.isNone_iff_eq_none.mp
    have hstream : d.stream = c.origin.init c.chars c.body := by
      rw [h.stream, Chronicle.stream, htrace]
    change (d.finish level symbols).stream = _
    rw [hlevel, MessageData.stream_finish h.id, hstream]
    rfl
  flushed := rfl
  id := h.id

/-- What a flushed message has kept of all that was printed. -/
theorem record_stream {symbols : List (List UInt8)} (htrace : c.trace = some symbols) :
    c.stream.record =
      (c.origin.printed c.body symbols ++ c.later).take (MAX_MESSAGE_LEN - 2) := by
  have hcapacity : (c.origin.flush (c.origin.init c.chars c.body) symbols).capacity =
      MAX_MESSAGE_LEN - 2 := by
    simp only [MessageOrigin.flush_eq_insert, MessageOrigin.init, LogStream.capacity_insert]
    rw [LogStream.capacity, LogStream.create, Vector.length_toList]
  simp only [stream, htrace]
  rw [LogStream.record_insert, MessageOrigin.record_flush, hcapacity, LogStream.take_take_append]

end Chronicle

namespace Messages

variable {O : Type u}

/-- The messages that were constructed, in order. -/
def constructed (as : List (Action O)) : List MessageOrigin :=
  as.filterMap fun
    | .construct _ m _ => some m
    | _ => none

/-- Writes to the chronicle of the message that the object has. -/
def onMessage (s : Messages O) (o : O) (f : Chronicle → Chronicle) (cs : List Chronicle) :
    List Chronicle :=
  match (s.object o).data with
  | some b => cs.modify b f
  | none => cs

def note (s : Messages O) (cs : List Chronicle) : Action O → List Chronicle
  | .construct _ m chars => cs ++ [.opened m chars]
  | .insert o text => s.onMessage o (·.insert text) cs
  | .destroy o symbols => if s.unsent o then s.onMessage o (·.flush symbols) cs else cs
  | .moveConstruct _ _ | .moveAssign _ _ | .callbackReturns _ => cs

/-- The blocks and the objects are those of the messages. -/
structure Recorded (s : Messages O) (cs : List Chronicle) : Prop where
  length : cs.length = s.nextBlock
  block : ∀ b (c : Chronicle), cs[b]? = some c → c.Describes (s.block b)
  fields : ∀ o m b (c : Chronicle), (s.object o).fields = some m → m.data = some b →
    cs[b]? = some c → c.Matches m

variable {s s' : Messages O} {cs : List Chronicle} {o msg : O} {b : Nat}

theorem onMessage_of_data {f : Chronicle → Chronicle} (hdata : (s.object o).data = some b) :
    s.onMessage o f cs = cs.modify b f := by
  rw [onMessage, hdata]

theorem getElem?_modify {f : Chronicle → Chronicle} {n : Nat} {c : Chronicle}
    (hc : (cs.modify b f)[n]? = some c) :
    ∃ c₀, cs[n]? = some c₀ ∧ c = if b = n then f c₀ else c₀ := by
  rw [List.getElem?_modify] at hc
  obtain ⟨c₀, hold, heq⟩ := Option.map_eq_some_iff.mp hc
  exact ⟨c₀, hold, heq.symm⟩

/-- A block is written with the chronicle of its message. -/
theorem Recorded.setBlock (h : s.Recorded cs) {d : MessageData} {f : Chronicle → Chronicle}
    (horigin : ∀ c, (f c).origin = c.origin)
    (hd : ∀ c, cs[b]? = some c → (f c).Describes d) : (s.setBlock b d).Recorded (cs.modify b f) where
  length := by
    rw [List.length_modify]
    exact h.length
  block n c hc := by
    obtain ⟨c₀, hold, rfl⟩ := getElem?_modify hc
    change (if b = n then f c₀ else c₀).Describes (Function.update s.block b d n)
    split
    · rename_i heq
      subst heq
      rw [Function.update_self]
      exact hd c₀ hold
    · rename_i hne
      rw [Function.update_of_ne (Ne.symm hne)]
      exact h.block n c₀ hold
  fields o m n c hm hdata hc := by
    obtain ⟨c₀, hold, rfl⟩ := getElem?_modify hc
    have hmatches := h.fields o m n c₀ hm hdata hold
    split
    · exact ⟨(horigin c₀).symm ▸ hmatches.level, (horigin c₀).symm ▸ hmatches.filename,
        (horigin c₀).symm ▸ hmatches.func, (horigin c₀).symm ▸ hmatches.line⟩
    · exact hmatches

variable [DecidableEq O]

/-- An object gets the fields of a message, or of none. -/
theorem Recorded.setObject (h : s.Recorded cs) {x : MessageObject}
    (hx : ∀ m b (c : Chronicle), x.fields = some m → m.data = some b → cs[b]? = some c → c.Matches m) :
    (s.setObject o x).Recorded cs where
  length := h.length
  block := h.block
  fields o' m b c hm := by
    change (Function.update s.object o x o').fields = some m at hm
    obtain rfl | hne := eq_or_ne o' o
    · rw [Function.update_self] at hm
      exact hx m b c hm
    · rw [Function.update_of_ne hne] at hm
      exact h.fields o' m b c hm

theorem Recorded.move (h : s.Recorded cs) {x : MessageObject} {m : MessageFields}
    (hmsg : (s.object msg).fields = some m) (hx : ∀ m', x.fields = some m' → m' = m) :
    ((s.setObject o x).setObject msg (s.object msg).moved).Recorded cs := by
  refine (h.setObject fun m' b c hm' hdata hc => ?_).setObject fun m' b c hm' hdata _ => ?_
  · rw [hx m' hm'] at hdata ⊢
    exact h.fields msg m b c hmsg hdata hc
  · have hnone := MessageObject.data_of_fields hm'
    rw [MessageObject.data_moved, hdata] at hnone
    cases hnone

theorem Recorded.deleteData (h : s.Recorded cs) (o : O) : (s.deleteData o).Recorded cs :=
  have hdeleted : ({ s with deleted := s.deleted ++ (s.object o).data.toList } : Messages O).Recorded
      cs := ⟨h.length, h.block, h.fields⟩
  hdeleted.setObject fun _ _ _ hm => nomatch hm

theorem Recorded.construct (h : s.Recorded cs) (hsole : s.custody.Sole) (o : O)
    (m : MessageOrigin) (chars : Vector UInt8 MAX_MESSAGE_LEN) :
    ({ s with nextBlock := s.nextBlock + 1 }.setBlock s.nextBlock ⟨false, m.init chars [], m.id⟩
      |>.setObject o (.alive ⟨m.level, m.filename, m.func, m.line, some s.nextBlock⟩)).Recorded
        (cs ++ [Chronicle.opened m chars]) := by
  have hnew {c : Chronicle} (hc : (cs ++ [Chronicle.opened m chars])[s.nextBlock]? = some c) :
      c = .opened m chars := by
    rw [← h.length, List.getElem?_concat_length] at hc
    exact (Option.some.inj hc).symm
  have hold {n : Nat} {c : Chronicle} (hne : n ≠ s.nextBlock)
      (hc : (cs ++ [Chronicle.opened m chars])[n]? = some c) : cs[n]? = some c := by
    have hlt := (List.getElem?_eq_some_iff.mp hc).1
    rw [List.length_append, List.length_singleton, h.length] at hlt
    rwa [List.getElem?_append_left (by have := h.length; omega)] at hc
  have hblock : ({ s with nextBlock := s.nextBlock + 1 }.setBlock s.nextBlock
      ⟨false, m.init chars [], m.id⟩).Recorded (cs ++ [Chronicle.opened m chars]) := by
    refine ⟨?_, fun n c hc => ?_, fun o' m' n c hm' hdata hc => ?_⟩
    · rw [List.length_append, h.length]
      rfl
    · change c.Describes (Function.update s.block s.nextBlock _ n)
      obtain rfl | hne := eq_or_ne n s.nextBlock
      · rw [Function.update_self, hnew hc]
        exact Chronicle.describes_opened m chars
      · rw [Function.update_of_ne hne]
        exact h.block n c (hold hne hc)
    · have howned : s.custody.held o' = some n := (MessageObject.data_of_fields hm').trans hdata
      exact h.fields o' m' n c hm' hdata (hold (Nat.ne_of_lt (hsole.heldOld o' n howned)) hc)
  refine hblock.setObject fun m' n c hm' hdata hc => ?_
  cases hm'
  cases hdata
  rw [hnew hc]
  exact ⟨rfl, rfl, rfl, rfl⟩

theorem recorded_step (hsole : s.custody.Sole) (hflagged : s.Flagged) (h : s.Recorded cs)
    {a : Action O} (hstep : (machine O).step s a = some s') : s'.Recorded (s.note cs a) := by
  cases step_cases hstep with
  | construct o m chars => exact h.construct hsole o m chars
  | insert o text b hdata =>
    rw [note, onMessage_of_data hdata]
    have hdescribes (c : Chronicle) (hc : cs[b]? = some c) :
        (c.insert text).Describes
          { s.block b with stream := (s.block b).stream.insert text } :=
      (h.block b c hc).insert text
    exact h.setBlock (fun c => c.origin_insert text) hdescribes
  | moveConstruct o msg m hdead hmsg =>
    refine h.move hmsg fun m' hm' => ?_
    cases hm'
    rfl
  | moveAssignSelf => exact h
  | moveAssign o msg m m' hne ho hmsg =>
    exact h.move hmsg fun m' => MessageObject.eq_of_fields_assign
  | handOver o symbols m b halive hdata hunsent hsendto =>
    have hown := data_of_alive halive hdata
    have hfields : (s.object o).fields = some m := by rw [halive]; rfl
    have hdescribes (c : Chronicle) (hc : cs[b]? = some c) : (c.flush symbols).Describes
        { (s.block b).finish m.level symbols with hasBeenFlushed := true } :=
      (h.block b c hc).flush hunsent (h.fields o m b c hfields hdata hc).level symbols
    have horigin (c : Chronicle) : (c.flush symbols).origin = c.origin := rfl
    have hblock := h.setBlock horigin hdescribes
    have hhanded : ({ s with handed := s.handed ++ [b] }.setBlock b
        { (s.block b).finish m.level symbols with hasBeenFlushed := true } : Messages O).Recorded
          (cs.modify b (·.flush symbols)) := ⟨hblock.length, hblock.block, hblock.fields⟩
    rw [note, unsent_of_data hown, hunsent, Bool.not_false, if_pos rfl,
      onMessage_of_data hown]
    refine hhanded.setObject fun m' b' c hm' => ?_
    cases hm'
    exact hhanded.fields o m b' c hfields
  | destroy o symbols m halive hsent =>
    rw [note, hsent, if_neg Bool.false_ne_true]
    exact h.deleteData o
  | destroyUnsent _ _ _ _ _ _ _ hnone => exact (hflagged.has_callback hnone).elim
  | callbackReturns o m hflushing =>
    exact h.deleteData o

omit [DecidableEq O] in
theorem origins_onMessage {f : Chronicle → Chronicle} (hf : ∀ c, (f c).origin = c.origin) :
    (s.onMessage o f cs).map Chronicle.origin = cs.map Chronicle.origin := by
  rw [onMessage]
  split
  · apply List.ext_getElem?
    intro n
    rw [List.getElem?_map, List.getElem?_map, List.getElem?_modify]
    cases cs[n]? with
    | none => rfl
    | some c =>
      simp only [Option.map_eq_map, Option.map_some]
      split
      · rw [hf]
      · rfl
  · rfl

omit [DecidableEq O] in
theorem origins_note (s : Messages O) (cs : List Chronicle) (a : Action O) :
    (s.note cs a).map Chronicle.origin = cs.map Chronicle.origin ++ constructed [a] := by
  cases a with
  | construct o m chars => exact List.map_append
  | insert o text =>
    exact (origins_onMessage fun c => c.origin_insert text).trans (List.append_nil _).symm
  | destroy o symbols =>
    rw [note]
    split
    · have horigin (c : Chronicle) : (c.flush symbols).origin = c.origin := rfl
      exact (origins_onMessage horigin).trans (List.append_nil _).symm
    · exact (List.append_nil _).symm
  | moveConstruct | moveAssign | callbackReturns => exact (List.append_nil _).symm

/-- The chronicles of the messages of a run from the start. -/
def chronicles (s : Messages O) (as : List (Action O)) : List Chronicle :=
  (machine O).history note s [] as

theorem recorded_of_run {as : List (Action O)} (hinit : (machine O).init s)
    (hrun : (machine O).run s as = some s') : s'.Flagged ∧ s'.Recorded (s.chronicles as) := by
  have hstart : s.Recorded [] := by
    obtain ⟨block, rfl⟩ := hinit
    exact ⟨rfl, (fun _ _ hc => nomatch hc), fun _ _ _ _ hm => nomatch hm⟩
  have hstep (s : Messages O) (cs : List Chronicle) (a : Action O) (s' : Messages O)
      (hs : s.custody.Sole ∧ s.Flagged) (h : s.Recorded cs) (hstep : (machine O).step s a = some s') :
      s'.Recorded (s.note cs a) := recorded_step hs.1 hs.2 h hstep
  obtain ⟨hbase, hrecorded⟩ := Machine.history_invariant
    (fun _ _ _ hs hstep => refines_custody.step hs hstep) hstep (refines_custody.init s hinit)
    hstart hrun
  exact ⟨hbase.2, hrecorded⟩

theorem origins_history (as : List (Action O)) (s : Messages O) (cs : List Chronicle)
    (hrun : (machine O).run s as = some s') :
    ((machine O).history note s cs as).map Chronicle.origin =
      cs.map Chronicle.origin ++ constructed as := by
  induction as generalizing s cs with
  | nil => exact (List.append_nil _).symm
  | cons a as ih =>
    obtain ⟨t, ht, hrest⟩ := Option.bind_eq_some_iff.mp hrun
    rw [Machine.history_cons ht, ih t _ hrest, origins_note, List.append_assoc]
    congr 1
    exact (List.filterMap_append (l := [a])).symm

/-- Each message that the callback was given is that of a constructor in the run: its block holds
what was printed for it, as far as it fits, and the object that has it has its fields. -/
theorem handed_as_constructed {as : List (Action O)} (hinit : (machine O).init s)
    (hrun : (machine O).run s as = some s') (hb : b ∈ s'.handed) :
    ∃ c symbols, (s.chronicles as)[b]? = some c ∧ (constructed as)[b]? = some c.origin ∧
      c.trace = some symbols ∧
      (s'.block b).stream.record =
        (c.origin.printed c.body symbols ++ c.later).take (MAX_MESSAGE_LEN - 2) ∧
      ∀ o m, (s'.object o).fields = some m → m.data = some b → c.Matches m := by
  obtain ⟨hflagged, hrecorded⟩ := recorded_of_run hinit hrun
  obtain ⟨hlt, hflag⟩ := (hflagged.handed b).mp hb
  rw [← hrecorded.length] at hlt
  have hc := List.getElem?_eq_getElem hlt
  have hblock := hrecorded.block b _ hc
  rw [hblock.flushed] at hflag
  obtain ⟨symbols, htrace⟩ := Option.isSome_iff_exists.mp hflag
  have horigin := congrArg (·[b]?) (origins_history as s [] hrun)
  simp only [List.getElem?_map, List.map_nil, List.nil_append] at horigin
  refine ⟨_, symbols, hc, ?_, htrace, ?_, fun o m hm hdata => hrecorded.fields o m b _ hm hdata hc⟩
  · rw [← horigin]
    change Option.map _ (s.chronicles as)[b]? = _
    rw [hc]
    rfl
  · rw [hblock.stream, Chronicle.record_stream htrace]

/-- A message with a body of two characters that lies in the buffer. -/
def logged : List (Action Bool) :=
  [constructSample false, .insert false [104, 105]] ++ bufferingSteps false true []

theorem handed_as_constructed_logged : ∃ s, (machine Bool).run start logged = some s ∧
    ∃ c symbols, (start.chronicles logged)[0]? = some c ∧
      (constructed logged)[0]? = some c.origin ∧ c.trace = some symbols ∧
      (s.block 0).stream.record =
        (c.origin.printed c.body symbols ++ c.later).take (MAX_MESSAGE_LEN - 2) ∧
      ∀ o m, (s.object o).fields = some m → m.data = some 0 → c.Matches m := by
  obtain ⟨s, hrun, hmem⟩ : ∃ s, (machine Bool).run start logged = some s ∧ 0 ∈ s.handed :=
    ⟨_, rfl, List.mem_singleton_self 0⟩
  exact ⟨s, hrun, handed_as_constructed ⟨_, rfl⟩ hrun hmem⟩

end Messages

end ServerDevLib.Logging
