import Mathlib.Algebra.Group.Nat.Defs
import Mathlib.Algebra.Ring.Int.Defs
import Mathlib.Data.List.Basic
import ServerDevLib.Foundation.Memory

/-!
# A stream over a file

Reading and writing share one position. A read that runs into the end of the
file takes what there is and sets the failure flag, and so does a write that is
not taken in full. What a write is taken of is what the stream takes: a stream
with a buffer takes more than the device has room for, and fails when it hands
it on. Nothing here clears the flag, and while it is set nothing is transferred
and the position stays. Positions are signed numbers of 64 bits.
-/

namespace ServerDevLib.FileStream

open Memory

/-- The content after the bytes were written at a position; a gap is filled with zeros. -/
def put (content : List UInt8) (pos : Nat) (bytes : List UInt8) : List UInt8 :=
  if bytes = [] then content
  else overwrite (content ++ List.replicate (pos - content.length) 0) pos bytes

theorem put_zero (content bytes : List UInt8) : put content 0 bytes = overwrite content 0 bytes := by
  simp only [put]
  split
  · rename_i hempty
    rw [hempty, overwrite_nil]
  · rw [Nat.zero_sub, List.replicate_zero, List.append_nil]

/-- A write reaches the cells of its range and the gap in front of it. -/
theorem getElem?_put {content bytes : List UInt8} {pos : Nat} (hne : bytes ≠ []) (i : Nat) :
    (put content pos bytes)[i]? =
      if i < pos then if i < content.length then content[i]? else some 0
      else if i < pos + bytes.length then bytes[i - pos]? else content[i]? := by
  have hgap : pos ≤ (content ++ List.replicate (pos - content.length) (0 : UInt8)).length := by
    rw [List.length_append, List.length_replicate]
    omega
  have hfront : ((content ++ List.replicate (pos - content.length) (0 : UInt8)).take pos ++
      bytes).length = pos + bytes.length := by
    rw [List.length_append, List.length_take_of_le hgap]
  have htake := List.length_take_of_le hgap
  rw [put, if_neg hne, overwrite]
  split
  · rw [List.getElem?_append_left (by omega), List.getElem?_append_left (by omega),
      List.getElem?_take_of_lt (by omega)]
    split
    · rw [List.getElem?_append_left (by omega)]
    · rw [List.getElem?_append_right (by omega), List.getElem?_replicate_of_lt (by omega)]
  · split
    · rw [List.getElem?_append_left (by omega), List.getElem?_append_right (by omega), htake]
    · rw [List.getElem?_append_right (by omega), hfront, List.getElem?_drop, List.getElem?_append]
      split
      · congr 1
        omega
      · rw [List.getElem?_replicate, if_neg (by omega), List.getElem?_eq_none (by omega)]

/-- The bytes are in the content from the position on. -/
def Stores (content : List UInt8) (pos : Nat) (bytes : List UInt8) : Prop :=
  ∀ i < bytes.length, content[pos + i]? = bytes[i]?

theorem stores_put (content : List UInt8) (pos : Nat) (bytes : List UInt8) :
    Stores (put content pos bytes) pos bytes := by
  intro i hi
  have hne : bytes ≠ [] := List.ne_nil_of_length_pos (by omega)
  rw [getElem?_put hne, if_neg (by omega), if_pos (by omega), Nat.add_sub_cancel_left]

/-- A write somewhere else leaves them there. -/
theorem Stores.put {content bytes : List UInt8} {pos : Nat} (h : Stores content pos bytes)
    {pos' : Nat} {bytes' : List UInt8}
    (happart : pos' + bytes'.length ≤ pos ∨ pos + bytes.length ≤ pos') :
    Stores (put content pos' bytes') pos bytes := by
  intro i hi
  by_cases hne : bytes' = []
  · rw [hne, FileStream.put, if_pos rfl]
    exact h i hi
  · have hcell : content[pos + i]? = some bytes[i] := (h i hi).trans (List.getElem?_eq_getElem hi)
    have hlt : pos + i < content.length := (List.getElem?_eq_some_iff.mp hcell).1
    rw [getElem?_put hne]
    split
    · exact h i hi
    · rw [if_neg (by omega)]
      exact h i hi

theorem Stores.slice {content bytes : List UInt8} {pos : Nat} (h : Stores content pos bytes)
    {i n : Nat} (hn : i + n ≤ bytes.length) :
    (content.drop (pos + i)).take n = (bytes.drop i).take n := by
  apply List.ext_getElem?
  intro j
  simp only [List.getElem?_take, List.getElem?_drop]
  split
  · rw [Nat.add_assoc]
    exact h (i + j) (by omega)
  · rfl

theorem Stores.length_le {content bytes : List UInt8} {pos : Nat} (h : Stores content pos bytes)
    (hne : bytes ≠ []) : pos + bytes.length ≤ content.length := by
  have hpos := List.length_pos_iff.mpr hne
  have hcell := (h (bytes.length - 1) (by omega)).trans (List.getElem?_eq_getElem (by omega))
  have hlast := (List.getElem?_eq_some_iff.mp hcell).1
  omega

/-- An unsigned offset as a position. -/
def streamoff (n : Nat) : Int := if n < 2 ^ 63 then n else n - 2 ^ 64

theorem streamoff_of_lt {n : Nat} (h : n < 2 ^ 63) : streamoff n = n := if_pos h

theorem streamoff_neg {n : Nat} (h : 2 ^ 63 ≤ n) (hsize : n < 2 ^ 64) : streamoff n < 0 := by
  rw [streamoff, if_neg (Nat.not_lt.mpr h)]
  omega

structure Stream where
  content : List UInt8
  pos : Nat
  isOpen : Bool
  fail : Bool

namespace Stream

def opened (content : List UInt8) : Stream := ⟨content, 0, true, false⟩

def usable (s : Stream) : Bool := !s.fail && s.isOpen

def moveTo (s : Stream) (pos : Nat) : Stream := { s with pos := pos }

def hold (s : Stream) (bytes : List UInt8) : Stream :=
  { s with content := put s.content s.pos bytes, pos := s.pos + bytes.length }

def seek (s : Stream) (pos : Int) : Stream :=
  if s.fail then s
  else if s.isOpen && 0 ≤ pos then s.moveTo pos.toNat
  else { s with fail := true }

def seekEnd (s : Stream) : Stream := s.seek s.content.length

def tell (s : Stream) : Int := if s.usable then s.pos else -1

def read (s : Stream) (n : Nat) : List UInt8 × Stream :=
  let got := if s.usable then (s.content.drop s.pos).take n else []
  (got, { s.moveTo (s.pos + got.length) with fail := s.fail || decide (got.length < n) })

/-- A write of which `room` bytes at most are taken. -/
def write (s : Stream) (bytes : List UInt8) (room : Nat) : Stream :=
  let taken := if s.usable then bytes.take room else []
  { s.hold taken with fail := s.fail || decide (taken.length < bytes.length) }

/-- Closes the file; closing one that is not open is a failure. -/
def close (s : Stream) : Stream := { s with isOpen := false, fail := s.fail || !s.isOpen }

/-- The stream after something that may have gone wrong. -/
def disturb (s : Stream) (broken : Bool) : Stream := { s with fail := s.fail || broken }

variable {s : Stream}

@[simp] theorem disturb_false (s : Stream) : s.disturb false = s := by
  rw [disturb, Bool.or_false]

theorem usable_disturb (s : Stream) (broken : Bool) :
    (s.disturb broken).usable = (s.usable && !broken) := by
  simp only [usable, disturb]
  cases s.fail <;> cases s.isOpen <;> cases broken <;> rfl

@[simp] theorem usable_moveTo (s : Stream) (pos : Nat) : (s.moveTo pos).usable = s.usable := rfl

@[simp] theorem pos_hold (s : Stream) (bytes : List UInt8) :
    (s.hold bytes).pos = s.pos + bytes.length := rfl

@[simp] theorem usable_hold (s : Stream) (bytes : List UInt8) :
    (s.hold bytes).usable = s.usable := rfl

theorem fail_of_usable (h : s.usable = true) : s.fail = false := by
  rw [usable, Bool.and_eq_true, Bool.not_eq_true'] at h
  exact h.1

theorem tell_of_usable (h : s.usable = true) : s.tell = s.pos := if_pos h

theorem seek_of_usable (h : s.usable = true) (pos : Nat) : s.seek pos = s.moveTo pos := by
  rw [usable, Bool.and_eq_true, Bool.not_eq_true'] at h
  simp [seek, h.1, h.2]

/-- Only a seek to a place in front of the file makes a stream unusable. -/
theorem usable_seek_neg (s : Stream) {pos : Int} (h : pos < 0) : (s.seek pos).usable = false := by
  simp only [seek, decide_eq_false (Int.not_le.mpr h), Bool.and_false, Bool.false_eq_true, if_false]
  split
  · rename_i hfail
    rw [usable, hfail]
    rfl
  · rfl

theorem usable_seek (s : Stream) (pos : Nat) : (s.seek pos).usable = s.usable := by
  simp only [seek, Int.natCast_nonneg, decide_true, Bool.and_true]
  split
  · rfl
  · rename_i hgood
    split
    · rfl
    · rename_i hclosed
      simp [usable, hclosed]

theorem read_of_usable (h : s.usable = true) {n : Nat} (hn : s.pos + n ≤ s.content.length) :
    s.read n = ((s.content.drop s.pos).take n, s.moveTo (s.pos + n)) := by
  have hlength : ((s.content.drop s.pos).take n).length = n := by
    rw [List.length_take, List.length_drop]
    omega
  simp only [read, h, if_true, hlength, Nat.lt_irrefl, decide_false, Bool.or_false]
  rfl

theorem length_read_le (s : Stream) (n : Nat) : (s.read n).1.length ≤ n := by
  simp only [read]
  split
  · exact List.length_take_le _ _
  · exact Nat.zero_le n

theorem write_of_usable (h : s.usable = true) {bytes : List UInt8} {room : Nat}
    (hroom : bytes.length ≤ room) : s.write bytes room = s.hold bytes := by
  simp only [write, h, if_true, List.take_of_length_le hroom, Nat.lt_irrefl, decide_false,
    Bool.or_false]
  rfl

/-- A write that succeeded was made on a usable stream and was taken in full. -/
theorem fail_write_iff {bytes : List UInt8} {room : Nat} (hne : bytes ≠ []) :
    (s.write bytes room).fail = false ↔ s.usable = true ∧ bytes.length ≤ room := by
  have hpos := List.length_pos_iff.mpr hne
  simp only [write]
  cases husable : s.usable with
  | true =>
    rw [usable, Bool.and_eq_true, Bool.not_eq_true'] at husable
    simp only [if_true, husable.1, Bool.false_or, List.length_take, decide_eq_false_iff_not,
      true_and]
    omega
  | false =>
    simp [hpos]

end Stream

end ServerDevLib.FileStream
