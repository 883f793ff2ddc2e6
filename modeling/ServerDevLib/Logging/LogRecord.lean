import Mathlib.Data.List.Basic
import ServerDevLib.Logging.LogFile
import ServerDevLib.Logging.Logger
import ServerDevLib.Logging.LogStream

/-!
# The record of a log message

The header, the body, the newline and the stack trace of a message go through
one stream, and what the sinks are given is what the stream has kept of them.
The body is the characters that were printed; it leaves no field width and no
error state behind in the stream.
-/

namespace ServerDevLib.Logging

def MAX_MESSAGE_LEN : Nat := 3000

/-- What `Init` prints; the thread is given as the text of its number. -/
structure MessageOrigin where
  level : LogLevel
  id : List UInt8
  tm : Tm
  milliseconds : Int
  filename : List UInt8
  func : List UInt8
  line : Int

def leftSeparator : List UInt8 := ascii "[ "

def middleSeparator : List UInt8 := ascii " "

def rightSeparator : List UInt8 := ascii " ]"

def boundSeparator : List UInt8 := ascii " --- "

def levelToString : LogLevel → List UInt8
  | .INFO => ascii "INFO "
  | .WARN => ascii "WARN"
  | .ERROR => ascii "ERROR"
  | .FATAL => ascii "FATAL"

def padded (width : Nat) (fill : UInt8) (text : List UInt8) : List UInt8 :=
  List.replicate (width - text.length) fill ++ text

namespace MessageOrigin

/-- The fill character is a zero from the month on and a blank from the file name on. -/
def header (m : MessageOrigin) : List UInt8 :=
  leftSeparator ++ levelToString m.level ++ middleSeparator ++ m.id ++ middleSeparator ++
    decimal (1900 + m.tm.year) ++ ascii "-" ++ padded 2 48 (decimal (m.tm.mon + 1)) ++ ascii "-" ++
    padded 2 48 (decimal m.tm.mday) ++ middleSeparator ++ padded 2 48 (decimal m.tm.hour) ++
    ascii ":" ++ padded 2 48 (decimal m.tm.min) ++ ascii ":" ++ padded 2 48 (decimal m.tm.sec) ++
    ascii "." ++ padded 3 48 (decimal m.milliseconds) ++ middleSeparator ++
    padded 20 32 m.filename ++ ascii ":" ++ padded 15 32 m.func ++ ascii ":" ++
    padded 5 32 (decimal m.line) ++ rightSeparator ++ boundSeparator

def stackTrace (m : MessageOrigin) (symbols : List (List UInt8)) : List UInt8 :=
  if symbols = [] then []
  else ascii "Stack trace of thread " ++ m.id ++ ascii ":\n" ++
    symbols.flatMap fun symbol => ascii "\t" ++ symbol ++ ascii "\n"

/-- The newline, and for `FATAL` what `StackTrace` prints behind it. -/
def ending (m : MessageOrigin) (symbols : List (List UInt8)) : List UInt8 :=
  ascii "\n" ++ if m.level = .FATAL then m.stackTrace symbols else []

/-- The stream over an uninitialised array, after `Init` and the body. -/
def init (m : MessageOrigin) (chars : Vector UInt8 MAX_MESSAGE_LEN) (body : List UInt8) :
    LogStream :=
  ((LogStream.create chars.toList (by rw [Vector.length_toList]; decide)).insert m.header).insert body

def flush (m : MessageOrigin) (s : LogStream) (symbols : List (List UInt8)) : LogStream :=
  let s' := s.insert (ascii "\n")
  if m.level = .FATAL then s'.insert (m.stackTrace symbols) else s'

def printed (m : MessageOrigin) (body : List UInt8) (symbols : List (List UInt8)) : List UInt8 :=
  m.header ++ body ++ m.ending symbols

end MessageOrigin

/-- A record for the sinks, with the longest part of the message that the stream can hold. -/
structure WellFormed (record message : List UInt8) : Prop where
  length_le : record.length ≤ MAX_MESSAGE_LEN
  starts : message.take (MAX_MESSAGE_LEN - 2) <+: record
  ends : record.getLast? = some 10

namespace MessageOrigin

variable (m : MessageOrigin)

theorem flush_eq_insert (s : LogStream) (symbols : List (List UInt8)) :
    m.flush s symbols = s.insert (m.ending symbols) := by
  rw [flush, ending, LogStream.insert_append]
  split <;> rfl

theorem record_flush (chars : Vector UInt8 MAX_MESSAGE_LEN) (body : List UInt8)
    (symbols : List (List UInt8)) : (m.flush (m.init chars body) symbols).record =
      (m.printed body symbols).take (MAX_MESSAGE_LEN - 2) := by
  rw [flush_eq_insert, init, ← LogStream.insert_append, ← LogStream.insert_append,
    LogStream.record_insert, ← List.append_assoc]
  simp [LogStream.create, LogStream.record, LogStream.capacity, printed]

theorem getLast?_stackTrace {symbols : List (List UInt8)} (h : symbols ≠ []) :
    (m.stackTrace symbols).getLast? = some 10 := by
  have hsymbols : (symbols.flatMap fun symbol => ascii "\t" ++ symbol ++ ascii "\n").getLast? =
      some 10 := by
    induction symbols with
    | nil => exact absurd rfl h
    | cons symbol symbols ih =>
      rw [List.flatMap_cons, List.getLast?_append, List.getLast?_append]
      cases symbols with
      | nil => rfl
      | cons next symbols => rw [ih (by simp), Option.some_or]
  rw [stackTrace, if_neg h, List.getLast?_append, hsymbols, Option.some_or]

theorem getLast?_printed (body : List UInt8) (symbols : List (List UInt8)) :
    (m.printed body symbols).getLast? = some 10 := by
  have hending : (m.ending symbols).getLast? = some 10 := by
    rw [ending, List.getLast?_append]
    split
    · cases hsymbols : symbols with
      | nil => rfl
      | cons symbol rest => rw [m.getLast?_stackTrace (by simp), Option.some_or]
    · rfl
  rw [printed, List.getLast?_append, hending, Option.some_or]

/-- A record is well formed exactly if all that is printed fits, or is cut behind a newline. -/
theorem wellFormed_iff (chars : Vector UInt8 MAX_MESSAGE_LEN) (body : List UInt8)
    (symbols : List (List UInt8)) :
    WellFormed (m.flush (m.init chars body) symbols).record (m.header ++ body) ↔
      (m.printed body symbols).length ≤ MAX_MESSAGE_LEN - 2 ∨
        (m.printed body symbols)[MAX_MESSAGE_LEN - 3]? = some 10 := by
  have hlast := m.getLast?_printed body symbols
  have hstarts : (m.header ++ body).take (MAX_MESSAGE_LEN - 2) <+:
      (m.printed body symbols).take (MAX_MESSAGE_LEN - 2) :=
    List.prefix_take_iff.mpr ⟨(List.take_prefix _ _).trans (List.prefix_append _ _),
      List.length_take_le _ _⟩
  have hlength : ((m.printed body symbols).take (MAX_MESSAGE_LEN - 2)).length ≤ MAX_MESSAGE_LEN :=
    Nat.le_trans (List.length_take_le _ _) (by decide)
  have hends : ((m.printed body symbols).take (MAX_MESSAGE_LEN - 2)).getLast? =
      (m.printed body symbols)[MAX_MESSAGE_LEN - 3]?.or (some 10) := by
    rw [List.getLast?_take, if_neg (by decide), hlast]
    rfl
  rw [record_flush]
  constructor
  · intro hwell
    have hten := hends.symm.trans hwell.ends
    cases hbyte : (m.printed body symbols)[MAX_MESSAGE_LEN - 3]? with
    | none =>
      left
      have hshort := List.getElem?_eq_none_iff.mp hbyte
      simp only [MAX_MESSAGE_LEN] at hshort ⊢
      omega
    | some byte =>
      rw [hbyte, Option.some_or] at hten
      exact .inr hten
  · intro hcond
    refine ⟨hlength, hstarts, ?_⟩
    cases hcond with
    | inl hfits => rw [List.take_of_length_le hfits, hlast]
    | inr hcut => rw [hends, hcut, Option.some_or]

def sampleOrigin : MessageOrigin :=
  { level := .INFO, id := ascii "1", tm := ⟨126, 0, 1, 0, 0, 0⟩, milliseconds := 0,
    filename := ascii "main.cpp", func := ascii "main", line := 1 }

theorem length_sampleOrigin : sampleOrigin.header.length ≤ 100 := by decide

/-- A body as long as the stream leaves no room for the newline. -/
theorem not_wellFormed : ¬ WellFormed (sampleOrigin.flush (sampleOrigin.init
    (Vector.replicate MAX_MESSAGE_LEN 0) (List.replicate 2998 120)) []).record
      (sampleOrigin.header ++ List.replicate 2998 120) := by
  intro h
  have hshort := length_sampleOrigin
  have hends := h.ends
  have hlast : (sampleOrigin.printed (List.replicate 2998 120) [])[MAX_MESSAGE_LEN - 2 - 1]? =
      some 120 := by
    simp only [MAX_MESSAGE_LEN, printed]
    rw [List.getElem?_append_left, List.getElem?_append_right (by omega)]
    · exact List.getElem?_replicate_of_lt (by omega)
    · rw [List.length_append, List.length_replicate]
      omega
  rw [record_flush, List.getLast?_take, if_neg (by decide), hlast] at hends
  cases hends

end MessageOrigin

end ServerDevLib.Logging
