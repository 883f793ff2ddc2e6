import Mathlib.Algebra.Ring.Nat
import Mathlib.Data.List.Nodup
import ServerDevLib.Foundation.Memory
import ServerDevLib.Foundation.Transition

/-!
# Log files and their rotation

`Flush` counts the bytes it writes and rotates before the first record that
comes after the limit was passed. The path of a file has the second it was
opened in and goes through an array of 60 characters; a file is opened for
appending, and the counter starts at 0 with every opening, whatever the file
has already. An exception ends the calls.
-/

namespace ServerDevLib.Logging

open Transition

def ascii (text : String) : List UInt8 := text.toList.map fun c => c.toNat.toUInt8

/-- The decimal text of an integer. -/
def decimal (i : Int) : List UInt8 :=
  let digits := (Nat.toDigits 10 i.natAbs).map fun c => c.toNat.toUInt8
  if i < 0 then ascii "-" ++ digits else digits

/-- The same with `std::setw(2)` and `std::setfill('0')`. -/
def twoDigits (i : Int) : List UInt8 :=
  List.replicate (2 - (decimal i).length) 48 ++ decimal i

structure Tm where
  year : Int
  mon : Int
  mday : Int
  hour : Int
  min : Int
  sec : Int

/-- What the process finds around it. -/
structure Environment where
  programName : List UInt8
  hostName : List UInt8
  pid : Nat
  localtime : Int → Tm

structure LogFileConfig where
  logsDir : List UInt8
  perFileSize : UInt64

structure LogFile where
  filename : List UInt8
  path : List UInt8
  totalSize : UInt64

namespace LogFile

def MAX_FILENAME_SIZE : Nat := 60

def localTime (tm : Tm) : List UInt8 :=
  decimal (tm.year + 1900) ++ twoDigits (tm.mon + 1) ++ twoDigits tm.mday ++ ascii "-" ++
    twoDigits tm.hour ++ twoDigits tm.min ++ twoDigits tm.sec

def fileText (e : Environment) (c : LogFileConfig) (now : Int) : List UInt8 :=
  c.logsDir ++ e.programName ++ ascii "_" ++ e.hostName ++ ascii "_" ++
    localTime (e.localtime now) ++ ascii "_" ++ decimal e.pid ++ ascii ".log"

/-- The stream leaves out the last two characters of the array and drops what does not fit. -/
def printed (e : Environment) (c : LogFileConfig) (filename : List UInt8) (now : Int) :
    List UInt8 :=
  Memory.overwrite filename 0 ((fileText e c now).take (MAX_FILENAME_SIZE - 2))

/-- The string that a pointer to the array stands for. -/
def cString (chars : List UInt8) : List UInt8 := chars.takeWhile fun c => c ≠ 0

def newPath (e : Environment) (c : LogFileConfig) (f : LogFile) (now : Int) : List UInt8 :=
  cString (printed e c f.filename now)

def initFileName (e : Environment) (c : LogFileConfig) (f : LogFile) (now : Int) (isOpen : Bool) :
    Except String LogFile :=
  let f' := { f with filename := printed e c f.filename now, path := newPath e c f now }
  if isOpen then .ok f' else .error "can't open log file"

def rotate (e : Environment) (c : LogFileConfig) (f : LogFile) (now : Int) (isOpen : Bool) :
    Except String LogFile :=
  (f.initFileName e c now isOpen).map fun f' => { f' with totalSize := 0 }

def flush (e : Environment) (c : LogFileConfig) (f : LogFile) (str : List UInt8) (now : Int)
    (isOpen fail : Bool) : Except String LogFile :=
  (if f.totalSize > c.perFileSize then f.rotate e c now isOpen else .ok f).bind fun f' =>
    if fail then .error "can't append log to file."
    else .ok { f' with totalSize := f'.totalSize + .ofNat str.length }

/-- The constructor, which finds some characters in the array. -/
def create (e : Environment) (c : LogFileConfig) (chars : List UInt8) (now : Int) (isOpen : Bool) :
    Except String LogFile :=
  initFileName e c ⟨chars, [], 0⟩ now isOpen

end LogFile

/-- One opening of a file and what was written until the next one. -/
structure Opening where
  path : List UInt8
  records : List (List UInt8)

def totalLength (records : List (List UInt8)) : Nat := (records.map List.length).sum

/-- Together the records have no more than the limit and the last of them. -/
def Within (limit : Nat) (records : List (List UInt8)) : Prop :=
  ∀ str, records.getLast? = some str → totalLength records ≤ limit + str.length

/-- What was written to a path in the course of several openings. -/
def writtenTo (openings : List Opening) (path : List UInt8) : List (List UInt8) :=
  (openings.filter fun o => o.path = path).flatMap Opening.records

/-- `closed` and `current` record the openings, `flushed` the arguments of the calls. -/
structure LogFiles where
  file : LogFile
  closed : List Opening
  current : Opening
  flushed : List (List UInt8)

namespace LogFiles

inductive Action
  | flush (str : List UInt8) (now : Int) (isOpen fail : Bool)

def openings (s : LogFiles) : List Opening := s.closed ++ [s.current]

def rotates (c : LogFileConfig) (s : LogFiles) : Bool := s.file.totalSize > c.perFileSize

def record (c : LogFileConfig) (s : LogFiles) (file : LogFile) (str : List UInt8) : LogFiles :=
  if s.rotates c then
    { file := file, closed := s.closed ++ [s.current], current := ⟨file.path, [str]⟩,
      flushed := s.flushed ++ [str] }
  else
    { file := file, closed := s.closed,
      current := { s.current with records := s.current.records ++ [str] },
      flushed := s.flushed ++ [str] }

def step (e : Environment) (c : LogFileConfig) (s : LogFiles) : Action → Option LogFiles
  | .flush str now isOpen fail =>
    (s.file.flush e c str now isOpen fail).toOption.map fun file => s.record c file str

def machine (e : Environment) (c : LogFileConfig) : Machine LogFiles Action where
  init s := ∃ chars now file, chars.length = LogFile.MAX_FILENAME_SIZE ∧
    LogFile.create e c chars now true = .ok file ∧ s = ⟨file, [], ⟨file.path, []⟩, []⟩
  step := step e c

/-- No path has more than the limit and the record written to it last. -/
def Bounded (c : LogFileConfig) (s : LogFiles) : Prop :=
  ∀ path, Within c.perFileSize.toNat (writtenTo s.openings path)

def Exact (s : LogFiles) : Prop := s.openings.flatMap Opening.records = s.flushed

/-- A rotation opens a file that was not opened before, and where there is none
the counter has not wrapped around since the file was opened. -/
def Fresh (e : Environment) (c : LogFileConfig) (s : LogFiles) : Action → Prop
  | .flush _ now _ _ =>
    if s.rotates c then s.file.newPath e c now ∉ s.openings.map Opening.path
    else totalLength s.current.records < 2 ^ 64

/-- What a call that returns does. -/
inductive Step (e : Environment) (c : LogFileConfig) (s : LogFiles) : Action → LogFiles → Prop
  | rotated {str now isOpen fail file} (full : s.rotates c = true)
      (path : file.path = s.file.newPath e c now) (size : file.totalSize = .ofNat str.length) :
      Step e c s (.flush str now isOpen fail)
        { file := file, closed := s.closed ++ [s.current], current := ⟨file.path, [str]⟩,
          flushed := s.flushed ++ [str] }
  | appended {str now isOpen fail file} (room : s.rotates c = false)
      (size : file.totalSize = s.file.totalSize + .ofNat str.length) :
      Step e c s (.flush str now isOpen fail)
        { file := file, closed := s.closed,
          current := { s.current with records := s.current.records ++ [str] },
          flushed := s.flushed ++ [str] }

variable {e : Environment} {c : LogFileConfig} {s s' : LogFiles} {a : Action}

theorem step_cases (hstep : (machine e c).step s a = some s') : Step e c s a s' := by
  cases a with
  | flush str now isOpen fail =>
    obtain ⟨file, hfile, rfl⟩ := Option.map_eq_some_iff.mp hstep
    cases hrotates : s.rotates c with
    | true =>
      have hfull : s.file.totalSize > c.perFileSize := of_decide_eq_true hrotates
      simp only [LogFile.flush, if_pos hfull, LogFile.rotate, LogFile.initFileName] at hfile
      cases isOpen with
      | false => cases hfile
      | true =>
        cases fail with
        | true => cases hfile
        | false =>
          cases hfile
          rw [record, hrotates, if_pos rfl]
          exact .rotated hrotates rfl (UInt64.zero_add _)
    | false =>
      have hroom : ¬ s.file.totalSize > c.perFileSize := of_decide_eq_false hrotates
      simp only [LogFile.flush, if_neg hroom] at hfile
      cases fail with
      | true => cases hfile
      | false =>
        cases hfile
        rw [record, hrotates, if_neg Bool.false_ne_true]
        exact .appended hrotates rfl

end LogFiles

section Openings

variable {openings : List Opening} {o : Opening} {path : List UInt8}

theorem totalLength_concat (records : List (List UInt8)) (str : List UInt8) :
    totalLength (records ++ [str]) = totalLength records + str.length := by
  simp [totalLength]

theorem within_concat {limit : Nat} {records : List (List UInt8)} {str : List UInt8} :
    Within limit (records ++ [str]) ↔ totalLength records ≤ limit := by
  constructor
  · intro h
    have hlast := h str List.getLast?_concat
    rw [totalLength_concat] at hlast
    exact Nat.le_of_add_le_add_right hlast
  · intro h last hlast
    rw [List.getLast?_concat] at hlast
    cases hlast
    rw [totalLength_concat]
    exact Nat.add_le_add_right h _

theorem writtenTo_concat (openings : List Opening) (o : Opening) (path : List UInt8) :
    writtenTo (openings ++ [o]) path =
      writtenTo openings path ++ if o.path = path then o.records else [] := by
  rw [writtenTo, List.filter_append, List.flatMap_append]
  congr 1
  split <;> simp [*]

theorem writtenTo_of_not_mem (h : path ∉ openings.map Opening.path) :
    writtenTo openings path = [] := by
  rw [writtenTo, List.flatMap_eq_nil_iff]
  intro o ho
  obtain ⟨hmem, hpath⟩ := List.mem_filter.mp ho
  exact absurd (List.mem_map.mpr ⟨o, hmem, of_decide_eq_true hpath⟩) h

theorem writtenTo_of_mem (hdistinct : (openings.map Opening.path).Nodup) (h : o ∈ openings) :
    writtenTo openings o.path = o.records := by
  induction openings with
  | nil => cases h
  | cons head openings ih =>
    rw [List.map_cons, List.nodup_cons] at hdistinct
    have hcons : writtenTo (head :: openings) o.path =
        (if head.path = o.path then head.records else []) ++ writtenTo openings o.path := by
      rw [writtenTo, List.filter_cons]
      split <;> simp_all [writtenTo]
    rw [hcons]
    cases h with
    | head => rw [if_pos rfl, writtenTo_of_not_mem hdistinct.1, List.append_nil]
    | tail _ hmem =>
      have hne : head.path ≠ o.path := fun heq => hdistinct.1 (heq ▸ List.mem_map_of_mem hmem)
      rw [if_neg hne, List.nil_append, ih hdistinct.2 hmem]

end Openings

namespace LogFiles

variable {e : Environment} {c : LogFileConfig} {s s' : LogFiles} {a : Action}

/-- No path was opened twice, every file that was rotated away is over the limit, and the
counter has the bytes of the present file. -/
structure Counted (c : LogFileConfig) (s : LogFiles) : Prop where
  distinct : (s.openings.map Opening.path).Nodup
  full : ∀ o ∈ s.closed, c.perFileSize.toNat < totalLength o.records
  size : s.file.totalSize = .ofNat (totalLength s.current.records)

theorem Counted.current_full (h : s.Counted c) (hrotates : s.rotates c = true) :
    c.perFileSize.toNat < totalLength s.current.records := by
  have hfull : c.perFileSize.toNat < s.file.totalSize.toNat :=
    UInt64.lt_iff_toNat_lt.mp (of_decide_eq_true hrotates)
  rw [h.size, UInt64.toNat_ofNat'] at hfull
  exact Nat.lt_of_lt_of_le hfull (Nat.mod_le _ _)

/-- At a record that is appended without rotation, the counter is the number of bytes
exactly if the file has not passed the limit. -/
theorem Counted.current_room (h : s.Counted c) (hroom : s.rotates c = false) :
    totalLength s.current.records ≤ c.perFileSize.toNat ↔
      totalLength s.current.records < 2 ^ 64 := by
  have hcount : s.file.totalSize.toNat ≤ c.perFileSize.toNat :=
    Nat.le_of_not_lt fun hlt => of_decide_eq_false hroom (UInt64.lt_iff_toNat_lt.mpr hlt)
  rw [h.size, UInt64.toNat_ofNat'] at hcount
  constructor
  · intro hle
    exact Nat.lt_of_le_of_lt hle c.perFileSize.toNat_lt
  · intro hlt
    rwa [Nat.mod_eq_of_lt hlt] at hcount

theorem counted_step (h : s.Counted c) (hfresh : s.Fresh e c a)
    (hstep : (machine e c).step s a = some s') : s'.Counted c := by
  cases step_cases hstep with
  | @rotated str now isOpen fail file hfull hpath hsize =>
    constructor
    · change ((s.openings ++ [(⟨file.path, [str]⟩ : Opening)]).map Opening.path).Nodup
      rw [Fresh, if_pos hfull, ← hpath] at hfresh
      rw [List.map_append, List.nodup_append]
      refine ⟨h.distinct, List.nodup_singleton _, fun path hmem other hother => ?_⟩
      rw [List.mem_singleton.mp hother]
      rintro rfl
      exact hfresh hmem
    · intro o ho
      cases List.mem_append.mp ho with
      | inl hclosed => exact h.full o hclosed
      | inr hcurrent => exact List.mem_singleton.mp hcurrent ▸ h.current_full hfull
    · change file.totalSize = .ofNat (totalLength ([] ++ [str]))
      rw [totalLength_concat, hsize]
      exact congrArg UInt64.ofNat (Nat.zero_add _).symm
  | @appended str now isOpen fail file hroom hsize =>
    constructor
    · have hdistinct := h.distinct
      rw [openings, List.map_append] at hdistinct ⊢
      exact hdistinct
    · exact h.full
    · change file.totalSize = .ofNat (totalLength (s.current.records ++ [str]))
      rw [totalLength_concat, hsize, h.size, UInt64.ofNat_add]

/-- A path that is opened again is over the limit already. -/
theorem Counted.reopened (h : s.Counted c) (hrotates : s.rotates c = true) {path : List UInt8}
    (hmem : path ∈ s.openings.map Opening.path) :
    c.perFileSize.toNat < totalLength (writtenTo s.openings path) := by
  obtain ⟨o, ho, rfl⟩ := List.mem_map.mp hmem
  rw [writtenTo_of_mem h.distinct ho]
  cases List.mem_append.mp ho with
  | inl hclosed => exact h.full o hclosed
  | inr hcurrent => exact List.mem_singleton.mp hcurrent ▸ h.current_full hrotates

theorem exact_step (h : s.Exact) (hstep : (machine e c).step s a = some s') : s'.Exact := by
  cases step_cases hstep with
  | @rotated str now isOpen fail file =>
    change (s.openings ++ [(⟨file.path, [str]⟩ : Opening)]).flatMap Opening.records = _
    rw [List.flatMap_append, h]
    rfl
  | @appended str now isOpen fail file =>
    rw [Exact, openings, List.flatMap_append] at h ⊢
    rw [← h, List.append_assoc]
    simp

/-- One more opening, where the other paths are within the limit. -/
theorem within_iff {limit : Nat} {openings : List Opening} {o : Opening}
    (hother : ∀ path, path ≠ o.path → Within limit (writtenTo openings path)) :
    (∀ path, Within limit (writtenTo (openings ++ [o]) path)) ↔
      Within limit (writtenTo openings o.path ++ o.records) := by
  constructor
  · intro h
    have hpath := h o.path
    rwa [writtenTo_concat, if_pos rfl] at hpath
  · intro h path
    rw [writtenTo_concat]
    split
    · rename_i hpath
      exact hpath ▸ h
    · rename_i hne
      rw [List.append_nil]
      exact hother path (Ne.symm hne)

theorem bounded_step_iff (h : s.Counted c) (hb : s.Bounded c)
    (hstep : (machine e c).step s a = some s') : s'.Bounded c ↔ s.Fresh e c a := by
  cases step_cases hstep with
  | @rotated str now isOpen fail file hfull hpath hsize =>
    have hbounded : Bounded c ⟨file, s.closed ++ [s.current], ⟨file.path, [str]⟩,
        s.flushed ++ [str]⟩ ↔ Within c.perFileSize.toNat (writtenTo s.openings file.path ++ [str]) :=
      within_iff fun path _ => hb path
    rw [hbounded, within_concat, Fresh, if_pos hfull, ← hpath]
    constructor
    · exact fun hle hmem => Nat.not_lt_of_le hle (h.reopened hfull hmem)
    · intro hnew
      rw [writtenTo_of_not_mem hnew]
      exact Nat.zero_le _
  | @appended str now isOpen fail file hroom hsize =>
    have hdistinct := h.distinct
    rw [openings, List.map_append, List.nodup_append] at hdistinct
    have hnew : s.current.path ∉ s.closed.map Opening.path := fun hmem =>
      hdistinct.2.2 _ hmem _ (List.mem_singleton_self _) rfl
    have hother (path : List UInt8) (hne : path ≠ s.current.path) :
        Within c.perFileSize.toNat (writtenTo s.closed path) := by
      have hpath := hb path
      rwa [openings, writtenTo_concat, if_neg (Ne.symm hne), List.append_nil] at hpath
    have hbounded : Bounded c ⟨file, s.closed, ⟨s.current.path, s.current.records ++ [str]⟩,
        s.flushed ++ [str]⟩ ↔ Within c.perFileSize.toNat
          (writtenTo s.closed s.current.path ++ (s.current.records ++ [str])) :=
      within_iff hother
    rw [hbounded, writtenTo_of_not_mem hnew, List.nil_append, within_concat, Fresh, hroom,
      if_neg Bool.false_ne_true]
    exact h.current_room hroom

theorem counted_init (hinit : (machine e c).init s) : s.Counted c ∧ s.Bounded c ∧ s.Exact := by
  obtain ⟨chars, now, file, _, hfile, rfl⟩ := hinit
  cases hfile
  refine ⟨⟨List.nodup_singleton _, nofun, rfl⟩, fun path => ?_, rfl⟩
  rw [openings, writtenTo_concat]
  split <;> exact nofun

/-- In a run of calls no path ever has more than the limit and its last record, and the files
have exactly the flushed records, if and only if every call meets the condition. -/
theorem bounded_iff_fresh (hinit : (machine e c).init s) (as : List Action) :
    (machine e c).AllStates (fun s => s.Bounded c ∧ s.Exact) s as ↔
      (machine e c).AllSteps (Fresh e c) s as := by
  obtain ⟨hcounted, hgood⟩ := counted_init hinit
  refine Machine.allStates_iff_allSteps (fun s a s' h _ hfresh hstep => counted_step h hfresh hstep)
    (fun s a s' h hs hstep => ?_) hcounted hgood as
  rw [← bounded_step_iff h hs.1 hstep]
  exact and_iff_left (exact_step hs.2 hstep)

def firstDay (now : Int) : Tm := ⟨70, 0, 1, now / 3600, now / 60 % 60, now % 60⟩

def sampleEnvironment : Environment := ⟨ascii "server", ascii "host", 1, firstDay⟩

def sampleConfig : LogFileConfig := ⟨ascii "/tmp/", 10⟩

def sampleFile : LogFile :=
  { filename := LogFile.printed sampleEnvironment sampleConfig (List.replicate 60 0) 0
    path := LogFile.newPath sampleEnvironment sampleConfig ⟨List.replicate 60 0, [], 0⟩ 0
    totalSize := 0 }

def sampleFiles : LogFiles := ⟨sampleFile, [], ⟨sampleFile.path, []⟩, []⟩

theorem sampleFiles_init : (machine sampleEnvironment sampleConfig).init sampleFiles :=
  ⟨List.replicate 60 0, 0, sampleFile, rfl, rfl, rfl⟩

example : sampleFile.path = ascii "/tmp/server_host_19700101-000000_1.log" := by decide +kernel

/-- Three records of 8 bytes; the third comes after the limit of 10 was passed. -/
def threeRecords (now : Int) : List Action :=
  [.flush (List.replicate 8 65) 0 true false, .flush (List.replicate 8 66) 0 true false,
    .flush (List.replicate 8 67) now true false]

theorem bounded_iff_fresh_nextSecond :
    (∃ s, (machine sampleEnvironment sampleConfig).run sampleFiles (threeRecords 1) = some s ∧
      s.openings.map (fun o => totalLength o.records) = [16, 8]) ∧
    ((machine sampleEnvironment sampleConfig).AllStates (fun s => s.Bounded sampleConfig ∧ s.Exact)
        sampleFiles (threeRecords 1) ↔
      (machine sampleEnvironment sampleConfig).AllSteps (Fresh sampleEnvironment sampleConfig)
        sampleFiles (threeRecords 1)) :=
  ⟨⟨_, rfl, rfl⟩, bounded_iff_fresh sampleFiles_init _⟩

/-- Within one second the rotation opens the same file again. -/
theorem not_bounded : (machine sampleEnvironment sampleConfig).init sampleFiles ∧
    ∃ s, (machine sampleEnvironment sampleConfig).run sampleFiles (threeRecords 0) = some s ∧
      ∃ path, ∀ str ∈ s.flushed,
        sampleConfig.perFileSize.toNat + str.length < totalLength (writtenTo s.openings path) := by
  refine ⟨sampleFiles_init, _, rfl, sampleFile.path, ?_⟩
  decide +kernel

end LogFiles

end ServerDevLib.Logging
