import Mathlib.Data.List.Basic
import ServerDevLib.Logging.LogFile
import ServerDevLib.Logging.LogStream

/-!
# The name of a log file

The name is printed into an array of 60 characters and read back as a string.
The stream keeps 58 characters and never stores a terminator, so that the
string ends where the array had a zero before.
-/

namespace ServerDevLib.Logging

open Memory

/-- The directory is not empty; `back()` of an empty one is undefined. -/
def setLogFileDir (c : LogFileConfig) (dir : List UInt8) : LogFileConfig :=
  { c with logsDir := if dir.getLast? = some 47 then dir else dir ++ [47] }

theorem getLast?_setLogFileDir (c : LogFileConfig) (dir : List UInt8) :
    (setLogFileDir c dir).logsDir.getLast? = some 47 := by
  simp only [setLogFileDir]
  split
  · assumption
  · exact List.getLast?_concat

namespace LogFile

def nameStream (e : Environment) (c : LogFileConfig) (chars : List UInt8) (h : 2 ≤ chars.length)
    (now : Int) : LogStream :=
  ((((((((LogStream.create chars h).insert c.logsDir).insert e.programName).insert
    (ascii "_")).insert e.hostName).insert (ascii "_")).insert (localTime (e.localtime now))).insert
    (ascii "_")).insert (decimal e.pid) |>.insert (ascii ".log")

/-- The array has a terminator, and the string in front of it is the whole name. -/
def NameRead (e : Environment) (c : LogFileConfig) (f : LogFile) (now : Int) : Prop :=
  0 ∈ printed e c f.filename now ∧ f.newPath e c now = fileText e c now

/-- The name has no zero, the array had one right behind it, and what the stream does not take
was there before. -/
def NameStored (e : Environment) (c : LogFileConfig) (f : LogFile) (now : Int) : Prop :=
  0 ∉ fileText e c now ∧ f.filename[(fileText e c now).length]? = some 0 ∧
    (fileText e c now).drop (MAX_FILENAME_SIZE - 2) <+: f.filename.drop (MAX_FILENAME_SIZE - 2)

instance (e : Environment) (c : LogFileConfig) (f : LogFile) (now : Int) :
    Decidable (f.NameStored e c now) :=
  inferInstanceAs (Decidable (_ ∧ _ ∧ _))

variable {e : Environment} {c : LogFileConfig} {f : LogFile} {now : Int}

theorem array_nameStream {chars : List UInt8} (hlen : chars.length = MAX_FILENAME_SIZE)
    (h : 2 ≤ chars.length) : (nameStream e c chars h now).array = printed e c chars now := by
  have hstream : nameStream e c chars h now = (LogStream.create chars h).insert (fileText e c now) := by
    simp only [nameStream, fileText, LogStream.insert_append]
  have hcreate : (LogStream.create chars h).array =
      overwrite chars 0 (LogStream.create chars h).record := by
    simp [LogStream.create, LogStream.record]
  have hrecord : (LogStream.create chars h).record = [] := rfl
  have hcapacity : (LogStream.create chars h).capacity = MAX_FILENAME_SIZE - 2 := by
    rw [← hlen]
    rfl
  rw [hstream, LogStream.array_insert hcreate, LogStream.record_insert, hrecord, hcapacity]
  rfl

theorem cString_eq_iff (chars text : List UInt8) :
    0 ∈ chars ∧ cString chars = text ↔ 0 ∉ text ∧ text ++ [0] <+: chars := by
  induction chars generalizing text with
  | nil => simp [cString]
  | cons c chars ih =>
    by_cases hzero : c = 0
    · subst hzero
      have hempty : cString (0 :: chars) = [] := rfl
      rw [hempty]
      cases text with
      | nil => simp
      | cons t text =>
        refine iff_of_false (fun h => nomatch h.2) fun h => ?_
        have hfirst := (List.cons_prefix_cons.mp h.2).1
        exact h.1 (hfirst ▸ List.mem_cons_self ..)
    · have hcons : cString (c :: chars) = c :: cString chars := by simp [cString, hzero]
      have hmem : 0 ∈ c :: chars ↔ 0 ∈ chars := by simp [Ne.symm hzero]
      rw [hcons, hmem]
      cases text with
      | nil =>
        refine iff_of_false (fun h => nomatch h.2) fun h => ?_
        exact hzero (List.cons_prefix_cons.mp h.2).1.symm
      | cons t text =>
        rw [List.cons_append, List.cons_prefix_cons, List.cons.injEq, List.mem_cons, not_or]
        constructor
        · rintro ⟨hin, rfl, htail⟩
          obtain ⟨hno, hprefix⟩ := (ih text).mp ⟨hin, htail⟩
          exact ⟨⟨Ne.symm hzero, hno⟩, rfl, hprefix⟩
        · rintro ⟨⟨_, hno⟩, rfl, hprefix⟩
          obtain ⟨hin, htail⟩ := (ih text).mpr ⟨hno, hprefix⟩
          exact ⟨hin, rfl, htail⟩

theorem concat_prefix_iff (l chars : List UInt8) (c : UInt8) :
    l ++ [c] <+: chars ↔ l <+: chars ∧ chars[l.length]? = some c := by
  constructor
  · rintro ⟨rest, rfl⟩
    refine ⟨⟨[c] ++ rest, (List.append_assoc ..).symm⟩, ?_⟩
    simp
  · rintro ⟨⟨rest, rfl⟩, hnext⟩
    rw [List.getElem?_append_right (Nat.le_refl _), Nat.sub_self] at hnext
    rw [List.prefix_append_right_inj]
    cases rest with
    | nil => cases hnext
    | cons c' rest =>
      cases hnext
      exact ⟨rest, rfl⟩

/-- A text that is cut at `n` and its terminator, as they are found in the array afterwards. -/
theorem append_zero_prefix_iff (chars text : List UInt8) (n : Nat) :
    text ++ [0] <+: overwrite chars 0 (text.take n) ↔
      chars[text.length]? = some 0 ∧ text.drop n <+: chars.drop n := by
  have hsplit : text.take n ++ (text.drop n ++ [0]) = text ++ [0] := by
    rw [← List.append_assoc, List.take_append_drop]
  have hindex : (text.take n).length + (text.drop n).length = text.length := by
    rw [← List.length_append, List.take_append_drop]
  rw [overwrite_zero, ← hsplit, List.prefix_append_right_inj, concat_prefix_iff,
    List.getElem?_drop, hindex, and_comm, and_congr_right_iff]
  intro _
  cases Nat.le_total text.length n with
  | inl hshort => simp [List.drop_eq_nil_of_le hshort]
  | inr hlong => rw [List.length_take, Nat.min_eq_left hlong]

/-- The path that is opened is the name exactly if the array was prepared for it. -/
theorem nameRead_iff (e : Environment) (c : LogFileConfig) (f : LogFile) (now : Int) :
    f.NameRead e c now ↔ f.NameStored e c now := by
  rw [NameRead, newPath, cString_eq_iff, NameStored, printed, append_zero_prefix_iff]

/-- In an array of blanks the name is followed by blanks, and in one of zeros the name of a file
in a long directory is cut. -/
theorem not_nameRead :
    ¬ NameRead LogFiles.sampleEnvironment LogFiles.sampleConfig
      ⟨List.replicate MAX_FILENAME_SIZE 32, [], 0⟩ 0 ∧
    ¬ NameRead LogFiles.sampleEnvironment
      (setLogFileDir LogFiles.sampleConfig (ascii "/var/log/servers/frontend"))
      ⟨List.replicate MAX_FILENAME_SIZE 0, [], 0⟩ 0 := by
  constructor
  · intro h
    exact absurd h.1 (by decide +kernel)
  · intro h
    exact absurd h.2 (by decide +kernel)

end LogFile

end ServerDevLib.Logging
