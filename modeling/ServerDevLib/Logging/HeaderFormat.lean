import Mathlib.Algebra.Ring.Int.Defs
import ServerDevLib.Foundation.Fields
import ServerDevLib.Logging.LogRecord
import ServerDevLib.Logging.TimeStamps

/-!
# Reading the header of a record

The parts of the header have fixed widths, or end with a blank or a colon that
they do not contain, so that the header of a record tells with what the message
was constructed, and where the body begins. A record that is cut behind its
header still does.
-/

namespace ServerDevLib.Logging

open Digits Fields

theorem padded_eq_fixed {w : Nat} {i : Int} (h : 0 ≤ i ∧ i < 10 ^ (w + 1)) :
    padded (w + 1) 48 (decimal i) = fixed (w + 1) i.toNat := by
  obtain ⟨n, rfl⟩ := Int.eq_ofNat_of_zero_le h.1
  rw [padded, decimal_natCast]
  exact replicate_append_text (by exact_mod_cast h.2)

theorem toNat_lt {w : Nat} {i : Int} (h : 0 ≤ i ∧ i < 10 ^ (w + 1)) : i.toNat < 10 ^ (w + 1) := by
  obtain ⟨n, rfl⟩ := Int.eq_ofNat_of_zero_le h.1
  exact_mod_cast h.2

/-- A number with its full width. -/
theorem separable_number (w : Nat) : Separable (fun i : Int => 0 ≤ i ∧ i < 10 ^ (w + 1))
    fun i => padded (w + 1) 48 (decimal i) := by
  refine separable_of_length (n := w + 1) (fun i hi => ?_) fun i j hi hj h => ?_
  · rw [padded_eq_fixed hi, length_fixed]
  · rw [padded_eq_fixed hi, padded_eq_fixed hj, fixed_inj (toNat_lt hi) (toNat_lt hj)] at h
    omega

theorem separable_year : Separable (fun i : Int => 1000 ≤ i ∧ i ≤ 9999) decimal := by
  have hfixed (i : Int) (hi : 1000 ≤ i ∧ i ≤ 9999) : decimal i = fixed 4 i.toNat := by
    obtain ⟨n, rfl⟩ := Int.eq_ofNat_of_zero_le (a := i) (by omega)
    rw [decimal_natCast]
    exact text_eq_fixed (by omega) (by omega)
  refine separable_of_length (n := 4) (fun i hi => ?_) fun i j hi hj h => ?_
  · rw [hfixed i hi, length_fixed]
  · rw [hfixed i hi, hfixed j hj, fixed_inj (by omega) (by omega)] at h
    omega

theorem separable_id : Separable (fun id : List UInt8 => 32 ∉ id) fun id => id ++ [32] :=
  separable_of_mark (fun _ hid => hid) fun _ _ _ _ h => h

/-- A name that is padded with blanks, and its colon. -/
theorem separable_name (width : Nat) :
    Separable (fun name : List UInt8 => 58 ∉ name ∧ name.head? ≠ some 32)
      fun name => padded width 32 name ++ [58] := by
  refine separable_of_mark (fun name hname hmem => ?_) fun name name' hname hname' h => ?_
  · cases List.mem_append.mp hmem with
    | inl hblank => cases (List.mem_replicate.mp hblank).2
    | inr hin => exact hname.1 hin
  · exact padded_inj hname.2 hname'.2 h

theorem digit_of_mem_decimal {i : Int} (hi : 0 ≤ i) {c : UInt8} (h : c ∈ decimal i) :
    48 ≤ c.toNat ∧ c.toNat < 58 := by
  obtain ⟨n, rfl⟩ := Int.eq_ofNat_of_zero_le hi
  rw [decimal_natCast] at h
  exact digit_of_mem_text h

/-- A number that is padded with blanks, and the closing bracket. -/
theorem separable_line : Separable (fun i : Int => 0 ≤ i)
    fun i => (padded 5 32 (decimal i) ++ [32]) ++ [93] := by
  have hhead (i : Int) (hi : 0 ≤ i) : (decimal i).head? ≠ some 32 := fun h =>
    absurd (digit_of_mem_decimal hi (List.mem_of_head? h)).1 (by decide)
  refine separable_of_mark (fun i hi hmem => ?_) fun i j hi hj h => ?_
  · rw [padded, List.mem_append, List.mem_append] at hmem
    rcases hmem with (hblank | hdigit) | hblank
    · cases (List.mem_replicate.mp hblank).2
    · exact absurd (digit_of_mem_decimal hi hdigit).2 (by decide)
    · cases List.mem_singleton.mp hblank
  · have htext := padded_inj (hhead i hi) (hhead j hj) (List.append_cancel_right h)
    obtain ⟨m, rfl⟩ := Int.eq_ofNat_of_zero_le hi
    obtain ⟨n, rfl⟩ := Int.eq_ofNat_of_zero_le hj
    rw [decimal_natCast, decimal_natCast, text_inj] at htext
    rw [htext]

theorem separable_level : Separable (fun _ => True) levelToString := by
  have hfirst (l : LogLevel) (a : List UInt8) :
      (levelToString l ++ a).head? = (levelToString l).head? := by
    cases l <;> rfl
  have hinj : ∀ l l', (levelToString l).head? = (levelToString l').head? → l = l' := by
    intro l l'
    cases l <;> cases l' <;> decide
  intro l l' _ _ a b h
  have hlevel : l = l' := hinj l l' (by rw [← hfirst l a, h, hfirst l' b])
  subst hlevel
  exact ⟨rfl, List.append_cancel_left h⟩

namespace MessageOrigin

/-- What the header relies on: the number of the thread has no blanks, the names do not begin with
one and have no colons, and the numbers have at most their widths. -/
structure Readable (m : MessageOrigin) : Prop where
  id : 32 ∉ m.id
  tm : m.tm.Valid
  milliseconds : 0 ≤ m.milliseconds ∧ m.milliseconds < 1000
  filename : 58 ∉ m.filename ∧ m.filename.head? ≠ some 32
  func : 58 ∉ m.func ∧ m.func.head? ≠ some 32
  line : 0 ≤ m.line

variable {m m' : MessageOrigin} {body body' : List UInt8}

/-- The header, field after field. -/
theorem header_append (m : MessageOrigin) (body : List UInt8) : m.header ++ body =
    leftSeparator ++ (levelToString m.level ++ (middleSeparator ++ ((m.id ++ [32]) ++
      (decimal (1900 + m.tm.year) ++ (ascii "-" ++ (padded 2 48 (decimal (m.tm.mon + 1)) ++
        (ascii "-" ++ (padded 2 48 (decimal m.tm.mday) ++ (middleSeparator ++
          (padded 2 48 (decimal m.tm.hour) ++ (ascii ":" ++ (padded 2 48 (decimal m.tm.min) ++
            (ascii ":" ++ (padded 2 48 (decimal m.tm.sec) ++ (ascii "." ++
              (padded 3 48 (decimal m.milliseconds) ++ (middleSeparator ++
                ((padded 20 32 m.filename ++ [58]) ++ ((padded 15 32 m.func ++ [58]) ++
                  (((padded 5 32 (decimal m.line) ++ [32]) ++ [93]) ++
                    (boundSeparator ++ body))))))))))))))))))))) := by
  have hcolon : ascii ":" = [58] := rfl
  have hmiddle : middleSeparator = [32] := rfl
  have hright : rightSeparator = [32] ++ [93] := rfl
  unfold header
  simp only [hcolon, hmiddle, hright, List.append_assoc]

theorem header_append_inj (h : m.Readable) (h' : m'.Readable)
    (heq : m.header ++ body = m'.header ++ body') : m = m' ∧ body = body' := by
  have hmon := h.tm.mon
  have hmon' := h'.tm.mon
  have hmday := h.tm.mday
  have hmday' := h'.tm.mday
  have hhour := h.tm.hour
  have hhour' := h'.tm.hour
  have hmin := h.tm.min
  have hmin' := h'.tm.min
  have hsec := h.tm.sec
  have hsec' := h'.tm.sec
  rw [header_append, header_append] at heq
  obtain ⟨hl, heq⟩ := separable_level trivial trivial (List.append_cancel_left heq)
  obtain ⟨hi, heq⟩ := separable_id h.id h'.id (List.append_cancel_left heq)
  obtain ⟨hy, heq⟩ := separable_year (by have := h.tm.year; omega) (by have := h'.tm.year; omega) heq
  obtain ⟨hmo, heq⟩ := separable_number 1 (by omega) (by omega) (List.append_cancel_left heq)
  obtain ⟨hd, heq⟩ := separable_number 1 (by omega) (by omega) (List.append_cancel_left heq)
  obtain ⟨hh, heq⟩ := separable_number 1 (by omega) (by omega) (List.append_cancel_left heq)
  obtain ⟨hmi, heq⟩ := separable_number 1 (by omega) (by omega) (List.append_cancel_left heq)
  obtain ⟨hs, heq⟩ := separable_number 1 (by omega) (by omega) (List.append_cancel_left heq)
  obtain ⟨hms, heq⟩ := separable_number 2 h.milliseconds h'.milliseconds
    (List.append_cancel_left heq)
  obtain ⟨hfile, heq⟩ := separable_name 20 h.filename h'.filename (List.append_cancel_left heq)
  obtain ⟨hfunc, heq⟩ := separable_name 15 h.func h'.func heq
  obtain ⟨hline, heq⟩ := separable_line h.line h'.line heq
  refine ⟨?_, List.append_cancel_left heq⟩
  cases m with | mk level id tm milliseconds filename func line =>
  cases m' with | mk level' id' tm' milliseconds' filename' func' line' =>
  cases tm with | mk year mon mday hour min sec =>
  cases tm' with | mk year' mon' mday' hour' min' sec' =>
  simp only at hl hi hy hmo hd hh hmi hs hms hfile hfunc hline
  obtain rfl : year = year' := by omega
  obtain rfl : mon = mon' := by omega
  rw [hl, hi, hd, hh, hmi, hs, hms, hfile, hfunc, hline]

/-- What is left of a text of which the stream keeps the header. -/
theorem take_printed (hfits : m.header.length ≤ MAX_MESSAGE_LEN - 2) (body : List UInt8)
    (symbols : List (List UInt8)) : (m.printed body symbols).take (MAX_MESSAGE_LEN - 2) =
      m.header ++ (body ++ m.ending symbols).take (MAX_MESSAGE_LEN - 2 - m.header.length) := by
  rw [printed, List.append_assoc, List.take_append, List.take_of_length_le hfits]

variable {chars chars' : Vector UInt8 MAX_MESSAGE_LEN} {symbols symbols' : List (List UInt8)}

/-- Equal records come from equal origins, also where they are cut behind the header; where nothing
is cut and there is no stack trace, they have equal bodies. -/
theorem origin_of_record (h : m.Readable) (h' : m'.Readable)
    (hfits : m.header.length ≤ MAX_MESSAGE_LEN - 2) (hfits' : m'.header.length ≤ MAX_MESSAGE_LEN - 2)
    (hrecord : (m.flush (m.init chars body) symbols).record =
      (m'.flush (m'.init chars' body') symbols').record) :
    m = m' ∧ ((m.printed body symbols).length ≤ MAX_MESSAGE_LEN - 2 →
      (m'.printed body' symbols').length ≤ MAX_MESSAGE_LEN - 2 → m.level ≠ .FATAL →
        body = body') := by
  rw [record_flush, record_flush, take_printed hfits, take_printed hfits'] at hrecord
  obtain ⟨rfl, hrest⟩ := header_append_inj h h' hrecord
  refine ⟨rfl, fun hwhole hwhole' hlevel => ?_⟩
  rw [printed, List.append_assoc, List.length_append] at hwhole hwhole'
  rw [List.take_of_length_le (by omega), List.take_of_length_le (by omega), ending, ending,
    if_neg hlevel, if_neg hlevel] at hrest
  exact List.append_cancel_right hrest

theorem sampleOrigin_readable : sampleOrigin.Readable where
  id := by decide +kernel
  tm := ⟨by decide, by decide, by decide, by decide, by decide, by decide⟩
  milliseconds := by decide
  filename := by decide +kernel
  func := by decide +kernel
  line := by decide

/-- The arrays had different characters before. -/
theorem origin_of_record_sampleOrigin : sampleOrigin = sampleOrigin ∧
    ((sampleOrigin.printed [72] []).length ≤ MAX_MESSAGE_LEN - 2 →
      (sampleOrigin.printed [72] []).length ≤ MAX_MESSAGE_LEN - 2 → sampleOrigin.level ≠ .FATAL →
        ([72] : List UInt8) = [72]) := by
  have hfits : sampleOrigin.header.length ≤ MAX_MESSAGE_LEN - 2 :=
    Nat.le_trans length_sampleOrigin (by decide)
  have hrecord :
      (sampleOrigin.flush (sampleOrigin.init (Vector.replicate MAX_MESSAGE_LEN 0) [72]) []).record =
        (sampleOrigin.flush (sampleOrigin.init (Vector.replicate MAX_MESSAGE_LEN 65) [72])
          []).record := by
    rw [record_flush, record_flush]
  exact origin_of_record sampleOrigin_readable sampleOrigin_readable hfits hfits hrecord

end MessageOrigin

end ServerDevLib.Logging
