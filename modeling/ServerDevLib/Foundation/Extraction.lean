import Mathlib.Algebra.Ring.Int.Defs
import ServerDevLib.Foundation.Digits

/-!
# Formatted input

`operator>>` of a stream over a text, for words and for `long`. It passes over
blanks first; on a stream that is not good it does nothing to its argument. A
number has an optional sign and takes all digits that come. What was printed in
decimal is extracted again, whatever blanks stand before it and whatever comes
behind it that is no digit.
-/

namespace ServerDevLib.Extraction

open Digits

def isSpace (c : UInt8) : Bool := c == 32 || (9 ≤ c && c ≤ 13)

def isDigit (c : UInt8) : Bool := 48 ≤ c && c < 58

/-- What is left of the text, and the two bits of the state. -/
structure Stream where
  rest : List UInt8
  eof : Bool
  fail : Bool

namespace Stream

def ofText (text : List UInt8) : Stream := ⟨text, false, false⟩

def good (s : Stream) : Bool := !s.eof && !s.fail

/-- Passes over blanks; `none` where the extraction does not begin. -/
def sentry (s : Stream) : Option (List UInt8) :=
  if s.good then
    match s.rest.dropWhile isSpace with
    | [] => none
    | c :: rest => some (c :: rest)
  else none

/-- The state where the extraction did not begin. -/
def refused (s : Stream) : Stream :=
  if s.good then ⟨[], true, true⟩ else { s with fail := true }

/-- A word, or nothing if the argument stays as it is. -/
def extractWord (s : Stream) : Option (List UInt8) × Stream :=
  match s.sentry with
  | none => (none, s.refused)
  | some text =>
    let rest := text.dropWhile fun c => !isSpace c
    (some (text.takeWhile fun c => !isSpace c), ⟨rest, rest.isEmpty, false⟩)

def value (digits : List UInt8) : Nat := digits.foldl (fun n c => 10 * n + (c.toNat - 48)) 0

/-- The digits behind the sign. A text without digits gives 0 and one that is too large the limit,
both with a failure. -/
def number (negative : Bool) (text : List UInt8) : Int × Stream :=
  let digits := text.takeWhile isDigit
  let rest := text.dropWhile isDigit
  let n : Int := if negative then -(value digits) else value digits
  if digits.isEmpty then (0, ⟨rest, rest.isEmpty, true⟩)
  else if n < -2 ^ 63 then (-2 ^ 63, ⟨rest, rest.isEmpty, true⟩)
  else if 2 ^ 63 ≤ n then (2 ^ 63 - 1, ⟨rest, rest.isEmpty, true⟩)
  else (n, ⟨rest, rest.isEmpty, false⟩)

def signed : List UInt8 → Int × Stream
  | 45 :: text => number true text
  | 43 :: text => number false text
  | text => number false text

def extractLong (s : Stream) : Option Int × Stream :=
  match s.sentry with
  | none => (none, s.refused)
  | some text => (some (signed text).1, (signed text).2)

/-- One extraction after the other into variables that have values already. -/
def extractLongs (s : Stream) : List Int → List Int × Stream
  | [] => ([], s)
  | v :: vs =>
    let first := s.extractLong
    let others := first.2.extractLongs vs
    (first.1.getD v :: others.1, others.2)

end Stream

theorem value_text (n : Nat) : Stream.value (text n) = n := by
  induction n using Nat.strongRecOn with
  | ind n ih =>
    cases Nat.lt_or_ge n 10 with
    | inl hdigit =>
      rw [text_of_lt hdigit, Stream.value, List.foldl_cons, List.foldl_nil, UInt8.toNat_ofNat']
      omega
    | inr hlarge =>
      have hfront := ih (n / 10) (by omega)
      rw [Stream.value] at hfront
      rw [text_of_le hlarge, Stream.value, List.foldl_append, hfront, List.foldl_cons,
        List.foldl_nil, UInt8.toNat_ofNat']
      omega

theorem isDigit_of_mem_text {n : Nat} {c : UInt8} (h : c ∈ text n) : isDigit c = true := by
  obtain ⟨hlow, hhigh⟩ := digit_of_mem_text h
  rw [isDigit, Bool.and_eq_true, decide_eq_true_eq, decide_eq_true_eq, UInt8.le_iff_toNat_le,
    UInt8.lt_iff_toNat_lt]
  exact ⟨hlow, hhigh⟩

theorem text_ne_nil (n : Nat) : text n ≠ [] := by
  simp [text, Nat.toDigits_ne_nil]

/-- A text that does not go on with a digit. -/
def Stops (tail : List UInt8) : Prop := ∀ c, tail.head? = some c → isDigit c = false

theorem takeWhile_append_of_stops {p : UInt8 → Bool} {xs tail : List UInt8}
    (hall : ∀ c ∈ xs, p c = true) (hstop : ∀ c, tail.head? = some c → p c = false) :
    (xs ++ tail).takeWhile p = xs ∧ (xs ++ tail).dropWhile p = tail := by
  have htail : tail.takeWhile p = [] ∧ tail.dropWhile p = tail := by
    cases tail with
    | nil => exact ⟨rfl, rfl⟩
    | cons c rest =>
      have hc := hstop c rfl
      simp [hc]
  rw [List.takeWhile_append_of_pos hall, List.dropWhile_append_of_pos hall, htail.1, htail.2,
    List.append_nil]
  exact ⟨rfl, rfl⟩

theorem isSpace_of_isDigit {c : UInt8} (h : isDigit c = true) : isSpace c = false := by
  rw [isDigit, Bool.and_eq_true, decide_eq_true_eq, decide_eq_true_eq, UInt8.le_iff_toNat_le,
    UInt8.lt_iff_toNat_lt] at h
  have hlow : 48 ≤ c.toNat := h.1
  have hne : c ≠ 32 := by
    rintro rfl
    exact absurd hlow (by decide)
  have hnot : ¬ c ≤ 13 := fun hle => by
    have hle := UInt8.le_iff_toNat_le.mp hle
    change c.toNat ≤ 13 at hle
    omega
  simp [isSpace, hne, hnot]

namespace Stream

variable {gap tail : List UInt8} {n : Nat}

theorem number_text (htail : Stops tail) (hn : n < 2 ^ 63) :
    number false (text n ++ tail) = ((n : Int), ⟨tail, tail.isEmpty, false⟩) := by
  have hall : ∀ c ∈ text n, isDigit c = true := fun _ => isDigit_of_mem_text
  obtain ⟨hdigits, hrest⟩ := takeWhile_append_of_stops hall htail
  have hnonempty : (text n).isEmpty = false := by
    rw [List.isEmpty_eq_false_iff]
    exact text_ne_nil n
  simp only [number, hdigits, hrest, hnonempty, value_text, Bool.false_eq_true, if_false]
  rw [if_neg (by omega), if_neg (by omega)]

theorem extractLong_text (hgap : ∀ c ∈ gap, isSpace c = true) (htail : Stops tail)
    (hn : n < 2 ^ 63) : (ofText (gap ++ (text n ++ tail))).extractLong =
      (some (n : Int), ⟨tail, tail.isEmpty, false⟩) := by
  obtain ⟨c, digits, htext⟩ := List.exists_cons_of_ne_nil (text_ne_nil n)
  have hc : isDigit c = true := isDigit_of_mem_text (n := n) (by rw [htext]; exact List.mem_cons_self ..)
  have hskip : (gap ++ (text n ++ tail)).dropWhile isSpace = text n ++ tail := by
    refine (takeWhile_append_of_stops hgap fun d hd => ?_).2
    rw [htext] at hd
    cases hd
    exact isSpace_of_isDigit hc
  have hsentry : (ofText (gap ++ (text n ++ tail))).sentry = some (text n ++ tail) := by
    simp only [sentry, ofText, good, hskip]
    rw [htext]
    rfl
  have hsigned : signed (text n ++ tail) = number false (text n ++ tail) := by
    have hplus : c ≠ 43 := by
      rintro rfl
      cases hc
    have hminus : c ≠ 45 := by
      rintro rfl
      cases hc
    rw [htext, List.cons_append]
    simp [signed, hplus, hminus]
  simp only [extractLong, hsentry, hsigned, number_text htail hn]

/-- Fields of a line: blanks, and a number. -/
def fieldsText (fields : List (List UInt8 × Nat)) : List UInt8 :=
  fields.flatMap fun f => f.1 ++ text f.2

theorem stops_fields {fields : List (List UInt8 × Nat)}
    (hgap : ∀ f ∈ fields, f.1 ≠ [] ∧ ∀ c ∈ f.1, isSpace c = true) (htail : Stops tail) :
    Stops (fieldsText fields ++ tail) := by
  cases fields with
  | nil => exact htail
  | cons f fields =>
    obtain ⟨hne, hspace⟩ := hgap f (List.mem_cons_self ..)
    obtain ⟨c, gap, hgap⟩ := List.exists_cons_of_ne_nil hne
    intro d hd
    rw [fieldsText, List.flatMap_cons, hgap] at hd
    cases hd
    have hc := hspace c (by rw [hgap]; exact List.mem_cons_self ..)
    by_contra hdigit
    rw [isSpace_of_isDigit (eq_true_of_ne_false hdigit)] at hc
    cases hc

/-- The fields of a line are extracted in turn. -/
theorem extractLongs_fields {fields : List (List UInt8 × Nat)} {vs : List Int}
    (hlength : vs.length = fields.length)
    (hgap : ∀ f ∈ fields, f.1 ≠ [] ∧ ∀ c ∈ f.1, isSpace c = true)
    (hvalue : ∀ f ∈ fields, f.2 < 2 ^ 63) (htail : Stops tail) :
    (extractLongs ⟨fieldsText fields ++ tail, (fieldsText fields ++ tail).isEmpty, false⟩ vs).1 =
      fields.map fun f => (f.2 : Int) := by
  induction fields generalizing vs with
  | nil =>
    rw [List.length_eq_zero_iff.mp hlength]
    rfl
  | cons f fields ih =>
    cases vs with
    | nil => cases hlength
    | cons v vs =>
      have hf := hgap f (List.mem_cons_self ..)
      have hrest : ∀ g ∈ fields, g.1 ≠ [] ∧ ∀ c ∈ g.1, isSpace c = true :=
        fun g hg => hgap g (List.mem_cons_of_mem _ hg)
      have hline : fieldsText (f :: fields) ++ tail =
          f.1 ++ (text f.2 ++ (fieldsText fields ++ tail)) := by
        rw [fieldsText, List.flatMap_cons, List.append_assoc, List.append_assoc]
        rfl
      have hnonempty : (f.1 ++ (text f.2 ++ (fieldsText fields ++ tail))).isEmpty = false := by
        rw [List.isEmpty_eq_false_iff]
        exact fun h => hf.1 (List.append_eq_nil_iff.mp h).1
      have hfirst := extractLong_text hf.2 (stops_fields hrest htail)
        (hvalue f (List.mem_cons_self ..))
      rw [ofText] at hfirst
      rw [hline, hnonempty, extractLongs, hfirst]
      have htl := ih (Nat.succ.inj hlength) hrest fun g hg => hvalue g (List.mem_cons_of_mem _ hg)
      simp only [Option.getD_some, List.map_cons, htl]

/-- Once an extraction has failed, the variables keep what they had. -/
theorem extractLongs_of_fail {s : Stream} (h : s.fail = true) (vs : List Int) :
    (s.extractLongs vs).1 = vs := by
  induction vs generalizing s with
  | nil => rfl
  | cons v vs ih =>
    have hgood : s.good = false := by simp [good, h]
    have hrefused : s.refused = { s with fail := true } := by
      rw [refused, hgood]
      rfl
    have hfirst : s.extractLong = (none, { s with fail := true }) := by
      rw [extractLong, sentry, hgood, hrefused]
      rfl
    rw [extractLongs, hfirst]
    exact congrArg (v :: ·) (ih rfl)

theorem extractWord_append {word : List UInt8} (hgap : ∀ c ∈ gap, isSpace c = true)
    (hne : word ≠ []) (hword : ∀ c ∈ word, isSpace c = false)
    (htail : ∀ c, tail.head? = some c → isSpace c = true) :
    (ofText (gap ++ (word ++ tail))).extractWord = (some word, ⟨tail, tail.isEmpty, false⟩) := by
  obtain ⟨c, rest, hcons⟩ := List.exists_cons_of_ne_nil hne
  have hskip : (gap ++ (word ++ tail)).dropWhile isSpace = word ++ tail := by
    refine (takeWhile_append_of_stops hgap fun d hd => ?_).2
    rw [hcons] at hd
    cases hd
    exact hword c (by rw [hcons]; exact List.mem_cons_self ..)
  have hsentry : (ofText (gap ++ (word ++ tail))).sentry = some (word ++ tail) := by
    simp only [sentry, ofText, good, hskip]
    rw [hcons]
    rfl
  have hnot : ∀ d ∈ word, (!isSpace d) = true := fun d hd => by rw [hword d hd]; rfl
  have hstop : ∀ d, tail.head? = some d → (!isSpace d) = false := fun d hd => by
    rw [htail d hd]
    rfl
  obtain ⟨htake, hdrop⟩ := takeWhile_append_of_stops hnot hstop
  simp only [extractWord, hsentry, htake, hdrop]

end Stream

end ServerDevLib.Extraction
