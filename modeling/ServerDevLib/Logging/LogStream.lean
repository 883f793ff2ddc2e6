import Mathlib.Data.List.Basic
import ServerDevLib.Foundation.Memory

/-!
# The stream of a log message

The put area of `LogStreamBuf` ends two characters before the array that it is
given, and `overflow` reports a success without having stored anything. What
is inserted is therefore cut at the end of the put area, for ever.
-/

namespace ServerDevLib.Logging

open Memory

/-- `pcount` characters of the array have been written. -/
structure LogStream where
  array : List UInt8
  pcount : Nat
  fits : pcount + 2 ≤ array.length

namespace LogStream

def create (buf : List UInt8) (h : 2 ≤ buf.length) : LogStream := ⟨buf, 0, by omega⟩

def capacity (s : LogStream) : Nat := s.array.length - 2

def overflow (s : LogStream) (_ch : UInt8) : LogStream := s

def sputc (s : LogStream) (ch : UInt8) : LogStream :=
  if h : s.pcount < s.capacity then
    { array := s.array.set s.pcount ch
      pcount := s.pcount + 1
      fits := by
        rw [List.length_set]
        simp only [capacity] at h
        omega }
  else s.overflow ch

def insert (s : LogStream) (text : List UInt8) : LogStream := text.foldl sputc s

def record (s : LogStream) : List UInt8 := s.array.take s.pcount

variable {s : LogStream}

@[simp] theorem length_record (s : LogStream) : s.record.length = s.pcount := by
  have hfits := s.fits
  rw [record, List.length_take]
  omega

theorem length_record_le (s : LogStream) : s.record.length ≤ s.capacity := by
  have hfits := s.fits
  simp only [length_record, capacity]
  omega

@[simp] theorem capacity_sputc (s : LogStream) (ch : UInt8) :
    (s.sputc ch).capacity = s.capacity := by
  simp only [sputc]
  split
  · simp [capacity]
  · rfl

@[simp] theorem capacity_insert (s : LogStream) (text : List UInt8) :
    (s.insert text).capacity = s.capacity := by
  induction text generalizing s with
  | nil => rfl
  | cons ch text ih => exact (ih (s := s.sputc ch)).trans (capacity_sputc s ch)

theorem record_sputc (s : LogStream) (ch : UInt8) :
    (s.sputc ch).record = (s.record ++ [ch]).take s.capacity := by
  have hfits := s.fits
  simp only [sputc]
  split
  · rename_i hlt
    have hnew : (s.array.set s.pcount ch).take (s.pcount + 1) = s.record ++ [ch] := by
      rw [List.take_succ_eq_append_getElem (by rw [List.length_set]; omega),
        List.getElem_set_self, List.take_set_of_le (Nat.le_refl _)]
      rfl
    rw [List.take_of_length_le]
    · exact hnew
    · rw [List.length_append, length_record]
      exact hlt
  · rename_i hfull
    have hend : s.capacity = s.record.length :=
      Nat.le_antisymm (by rw [length_record]; omega) (length_record_le s)
    rw [hend, List.take_left]
    rfl

theorem take_take_append (a b : List UInt8) (n : Nat) :
    (a.take n ++ b).take n = (a ++ b).take n := by
  rw [List.take_append, List.take_append, List.take_take, Nat.min_self, List.length_take]
  congr 2
  omega

theorem record_insert (s : LogStream) (text : List UInt8) :
    (s.insert text).record = (s.record ++ text).take s.capacity := by
  induction text generalizing s with
  | nil =>
    rw [List.append_nil, List.take_of_length_le (length_record_le s)]
    rfl
  | cons ch text ih =>
    change ((s.sputc ch).insert text).record = _
    rw [ih, capacity_sputc, record_sputc, take_take_append, List.append_assoc]
    rfl

theorem insert_append (s : LogStream) (a b : List UInt8) :
    s.insert (a ++ b) = (s.insert a).insert b := List.foldl_append

/-- Behind the record the array is as it was. -/
theorem array_sputc {buf : List UInt8} (h : s.array = overwrite buf 0 s.record) (ch : UInt8) :
    (s.sputc ch).array = overwrite buf 0 (s.sputc ch).record := by
  have hfits := s.fits
  have hrecord := record_sputc s ch
  simp only [sputc] at hrecord ⊢
  split at hrecord
  · rename_i hlt
    have hle : (s.record ++ [ch]).length ≤ s.capacity := by
      rw [List.length_append, length_record]
      exact hlt
    rw [List.take_of_length_le hle] at hrecord
    rw [dif_pos hlt, hrecord, ← overwrite_append, ← h, length_record]
    change s.array.set s.pcount ch = overwrite s.array s.pcount [ch]
    rw [overwrite, List.set_eq_take_append_cons_drop, if_pos (by omega), List.append_assoc]
    rfl
  · rename_i hfull
    rw [dif_neg hfull]
    exact h

theorem array_insert {buf : List UInt8} (h : s.array = overwrite buf 0 s.record)
    (text : List UInt8) : (s.insert text).array = overwrite buf 0 (s.insert text).record := by
  induction text generalizing s with
  | nil => exact h
  | cons ch text ih => exact ih (array_sputc h ch)

end LogStream

end ServerDevLib.Logging
