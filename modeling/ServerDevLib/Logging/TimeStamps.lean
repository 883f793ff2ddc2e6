import ServerDevLib.Foundation.Digits
import ServerDevLib.Foundation.History
import ServerDevLib.Logging.FileName

/-!
# The order of the log files

The time in the name of a log file is printed from the year down, each part
with its full width. As long as the names fit into the array they are ordered as
the times at which the files were opened, so that a directory that is sorted by
name has the records in the order in which they were flushed.
-/

namespace ServerDevLib.Logging

open Digits Memory Transition

namespace Tm

/-- The ranges of `std::tm`, for a year of four digits. -/
structure Valid (tm : Tm) : Prop where
  year : 1000 ≤ tm.year + 1900 ∧ tm.year + 1900 ≤ 9999
  mon : 0 ≤ tm.mon ∧ tm.mon ≤ 11
  mday : 1 ≤ tm.mday ∧ tm.mday ≤ 31
  hour : 0 ≤ tm.hour ∧ tm.hour ≤ 23
  min : 0 ≤ tm.min ∧ tm.min ≤ 59
  sec : 0 ≤ tm.sec ∧ tm.sec ≤ 60

def fields (tm : Tm) : List Int := [tm.year, tm.mon, tm.mday, tm.hour, tm.min, tm.sec]

def Before (tm tm' : Tm) : Prop := tm.fields < tm'.fields

instance (tm tm' : Tm) : Decidable (tm.Before tm') := inferInstanceAs (Decidable (_ < _))

end Tm

theorem decimal_natCast (n : Nat) : decimal n = text n := by
  rw [decimal, if_neg (by omega), Int.natAbs_natCast]
  rfl

theorem twoDigits_eq_fixed {i : Int} (h : 0 ≤ i ∧ i < 100) : twoDigits i = fixed 2 i.toNat := by
  obtain ⟨n, rfl⟩ := Int.eq_ofNat_of_zero_le h.1
  rw [twoDigits, decimal_natCast]
  exact replicate_append_text (by omega)

namespace LogFile

theorem localTime_eq_fixed {tm : Tm} (h : tm.Valid) : localTime tm =
    fixed 4 (tm.year + 1900).toNat ++ (fixed 2 (tm.mon + 1).toNat ++ (fixed 2 tm.mday.toNat ++
      (ascii "-" ++ (fixed 2 tm.hour.toNat ++ (fixed 2 tm.min.toNat ++ fixed 2 tm.sec.toNat))))) := by
  have hyear : decimal (tm.year + 1900) = fixed 4 (tm.year + 1900).toNat := by
    obtain ⟨n, hn⟩ := Int.eq_ofNat_of_zero_le (a := tm.year + 1900) (by have := h.year; omega)
    have hrange := h.year
    rw [hn, decimal_natCast]
    exact text_eq_fixed (by omega) (by omega)
  have hmon := h.mon
  have hmday := h.mday
  have hhour := h.hour
  have hmin := h.min
  have hsec := h.sec
  rw [localTime, hyear, twoDigits_eq_fixed (by omega), twoDigits_eq_fixed (by omega),
    twoDigits_eq_fixed (by omega), twoDigits_eq_fixed (by omega), twoDigits_eq_fixed (by omega)]
  simp only [List.append_assoc]

theorem length_localTime {tm : Tm} (h : tm.Valid) : (localTime tm).length = 15 := by
  rw [localTime_eq_fixed h]
  simp [ascii]

/-- The text of a time is less exactly if the time is earlier. -/
theorem localTime_lt_iff {tm tm' : Tm} (h : tm.Valid) (h' : tm'.Valid) :
    localTime tm < localTime tm' ↔ tm.Before tm' := by
  have hyear := h.year
  have hyear' := h'.year
  have hmon := h.mon
  have hmon' := h'.mon
  have hmday := h.mday
  have hmday' := h'.mday
  have hhour := h.hour
  have hhour' := h'.hour
  have hmin := h.min
  have hmin' := h'.min
  have hsec := h.sec
  have hsec' := h'.sec
  rw [localTime_eq_fixed h, localTime_eq_fixed h']
  repeat rw [append_lt_append_iff (by simp)]
  simp only [Tm.Before, Tm.fields, List.cons_lt_cons_iff, List.lt_irrefl, false_or, true_and,
    and_false, or_false]
  rw [fixed_lt_iff (by omega) (by omega), fixed_lt_iff (by omega) (by omega),
    fixed_lt_iff (by omega) (by omega), fixed_lt_iff (by omega) (by omega),
    fixed_lt_iff (by omega) (by omega), fixed_lt_iff (by omega) (by omega),
    fixed_inj (by omega) (by omega), fixed_inj (by omega) (by omega),
    fixed_inj (by omega) (by omega), fixed_inj (by omega) (by omega),
    fixed_inj (by omega) (by omega)]
  omega

theorem zero_not_mem_localTime {tm : Tm} (h : tm.Valid) : 0 ∉ localTime tm := by
  rw [localTime_eq_fixed h]
  simp only [List.mem_append, zero_not_mem_fixed, false_or, or_false]
  decide

variable {e : Environment} {c : LogFileConfig} {f : LogFile} {now now' : Int}

theorem fileText_eq (e : Environment) (c : LogFileConfig) (now : Int) : fileText e c now =
    (c.logsDir ++ e.programName ++ ascii "_" ++ e.hostName ++ ascii "_") ++
      (localTime (e.localtime now) ++ (ascii "_" ++ decimal e.pid ++ ascii ".log")) := by
  simp only [fileText, List.append_assoc]

theorem length_fileText (h : (e.localtime now).Valid) (h' : (e.localtime now').Valid) :
    (fileText e c now).length = (fileText e c now').length := by
  rw [fileText_eq, fileText_eq]
  simp only [List.length_append, length_localTime h, length_localTime h']

theorem fileText_lt_iff (h : (e.localtime now).Valid) (h' : (e.localtime now').Valid) :
    fileText e c now < fileText e c now' ↔ (e.localtime now).Before (e.localtime now') := by
  have hlength : (localTime (e.localtime now)).length = (localTime (e.localtime now')).length :=
    (length_localTime h).trans (length_localTime h').symm
  rw [fileText_eq, fileText_eq, append_lt_append_iff rfl, append_lt_append_iff hlength]
  simp only [List.lt_irrefl, false_or, true_and, and_false, or_false]
  exact localTime_lt_iff h h'

/-- The names have no zero if what they are made of has none. -/
theorem zero_not_mem_fileText (hname : 0 ∉ c.logsDir ++ e.programName ++ e.hostName)
    (h : (e.localtime now).Valid) : 0 ∉ fileText e c now := by
  simp only [List.mem_append, not_or] at hname
  rw [fileText_eq, decimal_natCast]
  simp only [List.mem_append, zero_not_mem_localTime h, zero_not_mem_text, hname.1.1, hname.1.2,
    hname.2, false_or, or_false]
  decide

/-- A name that fits is the path, and the terminator behind it stays. -/
theorem newPath_of_fits (hzero : 0 ∉ fileText e c now)
    (hfits : (fileText e c now).length ≤ MAX_FILENAME_SIZE - 2)
    (hend : f.filename[(fileText e c now).length]? = some 0) :
    f.newPath e c now = fileText e c now ∧
      (printed e c f.filename now)[(fileText e c now).length]? = some 0 := by
  have hrest : (fileText e c now).drop (MAX_FILENAME_SIZE - 2) <+:
      f.filename.drop (MAX_FILENAME_SIZE - 2) := by
    rw [List.drop_eq_nil_of_le hfits]
    exact List.nil_prefix
  have hprefix : fileText e c now ++ [0] <+: printed e c f.filename now :=
    (append_zero_prefix_iff _ _ _).mpr ⟨hend, hrest⟩
  exact ⟨((cString_eq_iff _ _).mpr ⟨hzero, hprefix⟩).2, ((concat_prefix_iff _ _ _).mp hprefix).2⟩

end LogFile

namespace LogFiles

/-- The times at which the files were opened. -/
def noteOpening (c : LogFileConfig) (s : LogFiles) (times : List Int) : Action → List Int
  | .flush _ now _ _ => if s.rotates c then times ++ [now] else times

variable {e : Environment} {c : LogFileConfig} {s s' : LogFiles} {times : List Int}

/-- Each path is the name for the time at which it was opened, and the array is ready for
the next one. -/
structure Named (e : Environment) (c : LogFileConfig) (width : Nat) (s : LogFiles)
    (times : List Int) : Prop where
  paths : s.openings.map Opening.path = times.map (LogFile.fileText e c)
  terminator : s.file.filename[width]? = some 0

theorem filename_step {a : Action} (hstep : (machine e c).step s a = some s') :
    s'.file.filename = match a with
      | .flush _ now _ _ =>
        if s.rotates c then LogFile.printed e c s.file.filename now else s.file.filename := by
  cases a with
  | flush str now isOpen fail =>
    obtain ⟨file, hfile, rfl⟩ := Option.map_eq_some_iff.mp hstep
    have hrecord : (s.record c file str).file = file := by
      rw [record]
      split <;> rfl
    rw [hrecord]
    simp only [LogFile.flush, rotates, decide_eq_true_eq] at hfile ⊢
    split
    · rename_i hfull
      rw [if_pos hfull, LogFile.rotate, LogFile.initFileName] at hfile
      cases isOpen <;> cases fail <;> cases hfile
      rfl
    · rename_i hroom
      rw [if_neg hroom] at hfile
      cases fail <;> cases hfile
      rfl

theorem named_step {a : Action} {now₀ : Int}
    (hname : 0 ∉ c.logsDir ++ e.programName ++ e.hostName)
    (hfits : (LogFile.fileText e c now₀).length ≤ LogFile.MAX_FILENAME_SIZE - 2)
    (hvalid₀ : (e.localtime now₀).Valid)
    (hvalid : ∀ t ∈ noteOpening c s times a, (e.localtime t).Valid)
    (h : s.Named e c (LogFile.fileText e c now₀).length times)
    (hstep : (machine e c).step s a = some s') :
    s'.Named e c (LogFile.fileText e c now₀).length (noteOpening c s times a) := by
  have hfilename := filename_step hstep
  cases step_cases hstep with
  | @rotated str now isOpen fail file hfull hpath =>
    rw [noteOpening, if_pos hfull] at hvalid ⊢
    have hnow : (e.localtime now).Valid :=
      hvalid now (List.mem_append_right _ (List.mem_singleton_self now))
    have hwidth : (LogFile.fileText e c now₀).length = (LogFile.fileText e c now).length :=
      LogFile.length_fileText hvalid₀ hnow
    have hterminator := h.terminator
    rw [hwidth] at hfits hterminator ⊢
    obtain ⟨hnew, hkept⟩ :=
      LogFile.newPath_of_fits (LogFile.zero_not_mem_fileText hname hnow) hfits hterminator
    simp only [hfull, if_true] at hfilename
    constructor
    · have hpaths : (s.openings ++ [(⟨file.path, [str]⟩ : Opening)]).map Opening.path =
          (times ++ [now]).map (LogFile.fileText e c) := by
        rw [List.map_append, List.map_append, h.paths, List.map_singleton, List.map_singleton, hpath,
          hnew]
      exact hpaths
    · rw [hfilename]
      exact hkept
  | @appended str now isOpen fail file hroom =>
    rw [noteOpening, hroom, if_neg Bool.false_ne_true]
    simp only [hroom, Bool.false_eq_true, if_false] at hfilename
    constructor
    · have hpaths := h.paths
      rw [openings, List.map_append] at hpaths ⊢
      exact hpaths
    · rw [hfilename]
      exact h.terminator

theorem mem_noteOpening {t : Int} (ht : t ∈ times) (a : Action) : t ∈ noteOpening c s times a := by
  cases a with
  | flush str now isOpen fail =>
    rw [noteOpening]
    split
    · exact List.mem_append_left _ ht
    · exact ht

/-- The files of a new `LogFile`, which has been opened once. -/
def opened (file : LogFile) : LogFiles := ⟨file, [], ⟨file.path, []⟩, []⟩

/-- The times at which the files of a run were opened, the first one in the constructor. -/
def openingTimes (e : Environment) (c : LogFileConfig) (file : LogFile) (now : Int)
    (as : List Action) : List Int :=
  (machine e c).history (noteOpening c) (opened file) [now] as

/-- If the first name fits into an array that has a terminator behind it, every path has the time
of its opening: the paths are in ascending order exactly if the times are, and then each file
has the records of its own opening. -/
theorem paths_sorted_iff {chars : List UInt8} {now : Int} {file : LogFile} {as : List Action}
    (hname : 0 ∉ c.logsDir ++ e.programName ++ e.hostName)
    (hfits : (LogFile.fileText e c now).length ≤ LogFile.MAX_FILENAME_SIZE - 2)
    (hend : chars[(LogFile.fileText e c now).length]? = some 0)
    (hfile : LogFile.create e c chars now true = .ok file)
    (hrun : (machine e c).run (opened file) as = some s)
    (hvalid : ∀ t ∈ openingTimes e c file now as, (e.localtime t).Valid) :
    s.openings.map Opening.path = (openingTimes e c file now as).map (LogFile.fileText e c) ∧
      ((s.openings.map Opening.path).Pairwise (· < ·) ↔
        (openingTimes e c file now as).Pairwise fun t t' => (e.localtime t).Before (e.localtime t')) ∧
      ((s.openings.map Opening.path).Pairwise (· < ·) →
        ∀ o ∈ s.openings, writtenTo s.openings o.path = o.records) := by
  -- the times that a step adds are those of the run, so that they are valid in the end
  have hstep (s : LogFiles) (times : List Int) (a : Action) (s' : LogFiles) (_ : True)
      (h : now ∈ times ∧ ((∀ t ∈ times, (e.localtime t).Valid) →
        s.Named e c (LogFile.fileText e c now).length times))
      (hstep : (machine e c).step s a = some s') :
      now ∈ noteOpening c s times a ∧ ((∀ t ∈ noteOpening c s times a, (e.localtime t).Valid) →
        s'.Named e c (LogFile.fileText e c now).length (noteOpening c s times a)) := by
    refine ⟨mem_noteOpening h.1 a, fun hvalid => ?_⟩
    have hold := h.2 fun t ht => hvalid t (mem_noteOpening ht a)
    exact named_step hname hfits (hvalid now (mem_noteOpening h.1 a)) hvalid hold hstep
  have hstart : now ∈ [now] ∧ ((∀ t ∈ [now], (e.localtime t).Valid) →
      (opened file).Named e c (LogFile.fileText e c now).length [now]) := by
    refine ⟨List.mem_singleton_self now, fun hvalid => ?_⟩
    have hzero := LogFile.zero_not_mem_fileText hname (hvalid now (List.mem_singleton_self now))
    cases hfile
    obtain ⟨hnew, hkept⟩ := LogFile.newPath_of_fits (f := ⟨chars, [], 0⟩) hzero hfits hend
    exact ⟨congrArg (fun path => [path]) hnew, hkept⟩
  have hnamed := (Machine.history_invariant (fun _ _ _ _ _ => trivial) hstep trivial hstart hrun).2.2
    hvalid
  refine ⟨hnamed.paths, ?_, fun hsorted o ho => ?_⟩
  · rw [hnamed.paths, List.pairwise_map]
    refine List.Pairwise.iff_of_mem fun ht ht' => ?_
    exact LogFile.fileText_lt_iff (hvalid _ ht) (hvalid _ ht')
  · refine writtenTo_of_mem ?_ ho
    exact hsorted.imp (S := fun path path' => path ≠ path') fun hlt heq => by
      rw [heq] at hlt
      exact List.lt_irrefl _ hlt

theorem openingTimes_threeRecords :
    openingTimes sampleEnvironment sampleConfig sampleFile 0 (threeRecords 1) = [0, 1] := rfl

theorem valid_threeRecords : ∀ t ∈ openingTimes sampleEnvironment sampleConfig sampleFile 0
    (threeRecords 1), (sampleEnvironment.localtime t).Valid := by
  rw [openingTimes_threeRecords]
  intro t ht
  rcases List.mem_pair.mp ht with rfl | rfl <;> constructor <;> decide

theorem paths_sorted_iff_nextSecond :
    ∃ s, (machine sampleEnvironment sampleConfig).run (opened sampleFile) (threeRecords 1) = some s ∧
      s.openings.map Opening.path =
        (openingTimes sampleEnvironment sampleConfig sampleFile 0 (threeRecords 1)).map
          (LogFile.fileText sampleEnvironment sampleConfig) ∧
      ((s.openings.map Opening.path).Pairwise (· < ·) ↔
        (openingTimes sampleEnvironment sampleConfig sampleFile 0 (threeRecords 1)).Pairwise
          fun t t' => (sampleEnvironment.localtime t).Before (sampleEnvironment.localtime t')) ∧
      ((s.openings.map Opening.path).Pairwise (· < ·) →
        ∀ o ∈ s.openings, writtenTo s.openings o.path = o.records) :=
  ⟨_, rfl, paths_sorted_iff (by decide +kernel) (by decide +kernel)
    (by decide +kernel) rfl rfl valid_threeRecords⟩

end LogFiles

end ServerDevLib.Logging
