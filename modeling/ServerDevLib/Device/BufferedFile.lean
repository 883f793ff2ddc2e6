import ServerDevLib.Device.FailedReads
import ServerDevLib.Device.File
import ServerDevLib.Foundation.Service

/-!
# Reading a file through the ring

As an `IODevice` a file is read ahead into the ring. `File` inherits from
`IODevice` privately, so that `Read` and `Peek` of a file are reached through a
pointer that was cast to the base. The first fill asks for the whole ring and
gets the file if it is shorter; every later one runs into the end of the file
and counts as nothing. The reader says what this amounts to.
-/

namespace ServerDevLib.Device

open CircularBuffer Memory FileStream Transition

structure BufferedFile where
  dev : IODevice
  file : File

/-- `openWith` is `Open` with a mode. -/
inductive BufferedCall
  | read (data : List UInt8)
  | peek (data : List UInt8)
  | disableWrite
  | disableRead
  | disableAll
  | openWith (mode : Mode)
  | close

/-- What is in the destination afterwards with the returned count, or the result of `Open`. -/
inductive BufferedAnswer
  | copied (data : List UInt8) (count : Nat)
  | opened (result : Bool)
  | done
  deriving DecidableEq

def Mode.isReadable : Mode → Bool
  | .R | .RW => true
  | .W | .NONE => false

/-- The bytes that have been read ahead and those that are left in the file. -/
structure Reader where
  ahead : List UInt8
  rest : List UInt8
  readable : Bool

namespace Reader

def setMode (t : Reader) (mode : Mode) : Reader :=
  { t with readable := mode.isReadable }

def next (t : Reader) : BufferedCall → Reader
  | .read data =>
    if t.readable = true ∧ data ≠ [] then
      { t with ahead := (t.ahead ++ t.rest).drop data.length, rest := [] }
    else t
  | .peek _ => t
  | .disableWrite => t.setMode .R
  | .disableRead => t.setMode .W
  | .disableAll => t.setMode .NONE
  | .openWith mode => t.setMode mode
  | .close => { t with rest := [] }

def copied (source data : List UInt8) : BufferedAnswer :=
  .copied (overwrite data 0 (source.take data.length)) (min data.length source.length)

def answer (t : Reader) : BufferedCall → BufferedAnswer
  | .read data =>
    if t.readable = true ∧ data ≠ [] then copied (t.ahead ++ t.rest) data else .copied data 0
  | .peek data => if t.readable = true then copied t.ahead data else .copied data 0
  | .openWith _ => .opened true
  | .disableWrite | .disableRead | .disableAll | .close => .done

def service : Service Reader BufferedCall BufferedAnswer := ⟨next, answer, fun _ _ => True⟩

def opened (content : List UInt8) : Reader := ⟨[], content, true⟩

end Reader

namespace File

/-- A call that would wait does not come back; nothing is read in its place. -/
def readData (f : File) (size : Nat) : ReadResult × File :=
  match f.readInto [] 0 size with
  | some (f', bytes, count) => (⟨count, bytes⟩, f')
  | none => (⟨0, []⟩, f)

def device : Virtual File where
  readData := readData
  isSequential := false

/-- What is behind the position of a stream that can still be read. -/
def rest (f : File) : List UInt8 :=
  if f.stream.usable then f.stream.content.drop f.stream.pos else []

end File

namespace BufferedFile

/-- The constructor of a file that is there. -/
def create (content : List UInt8) : BufferedFile where
  dev := IODevice.create.setOpenMode .RW
  file := .create (some content)

def setMode (s : BufferedFile) (mode : Mode) : BufferedFile :=
  if s.file.access then { s with dev := s.dev.setOpenMode mode } else s

def disableWrite (s : BufferedFile) : BufferedFile := s.setMode .R

def disableRead (s : BufferedFile) : BufferedFile := s.setMode .W

def disableAll (s : BufferedFile) : BufferedFile := s.setMode .NONE

def call (s : BufferedFile) : BufferedCall → BufferedFile × BufferedAnswer
  | .read data =>
    let out := s.dev.read File.device s.file (some data) data.length
    (⟨out.1.1, out.1.2⟩, .copied (out.2.1.getD []) out.2.2)
  | .peek data =>
    let out := s.dev.peek false (some data) data.length
    (s, .copied (out.1.getD []) out.2)
  | .disableWrite => (s.disableWrite, .done)
  | .disableRead => (s.disableRead, .done)
  | .disableAll => (s.disableAll, .done)
  | .openWith mode => (s.setMode mode, .opened s.file.access)
  | .close => ({ s with file := s.file.close }, .done)

def machine : Machine BufferedFile BufferedCall where
  init s := ∃ content, s = create content
  step s c := some (s.call c).1

def answer (s : BufferedFile) (c : BufferedCall) : Option BufferedAnswer := some (s.call c).2

end BufferedFile

namespace File

variable {f : File}

/-- `ReadData` inside of the file. -/
theorem Ready.readData (h : f.Ready) {size : Nat} (hsize : 0 < size) (hshort : size < 2 ^ 64)
    (hinside : f.stream.pos + min size f.stream.content.length ≤ f.stream.content.length) :
    f.readData size = (⟨(min size f.stream.content.length : Nat),
      f.rest.take (min size f.stream.content.length)⟩,
      f.moveTo (f.stream.pos + min size f.stream.content.length)) := by
  have hbegun : f.seekTo 0 = f.stream := rfl
  have hread := Stream.read_of_usable h.usable hinside
  have hmoved : (f.stream.moveTo (f.stream.pos + min size f.stream.content.length)).usable = true :=
    h.usable
  have hgood := Stream.fail_of_usable hmoved
  have hcount : (f.stream.moveTo (f.stream.pos + min size f.stream.content.length)).tell -
      f.stream.tell = (min size f.stream.content.length : Nat) := by
    rw [Stream.tell_of_usable h.usable, Stream.tell_of_usable hmoved]
    change ((f.stream.pos + min size f.stream.content.length : Nat) : Int) - _ = _
    omega
  have hsizeT : toSizeT (min size f.stream.content.length : Nat) =
      min size f.stream.content.length := by
    rw [toSizeT]
    omega
  simp only [File.readData, h.readInto [] 0 hsize (Nat.zero_le _), hbegun, hread, hgood, hcount,
    hsizeT, overwrite_zero, List.drop_nil, List.append_nil, rest, h.usable, Bool.false_eq_true,
    if_false, if_true]
  rfl

/-- `ReadData` with nothing left to read. -/
theorem readData_of_rest_nil (haccess : f.access = true) (hwriting : f.writing = false)
    (hrest : f.rest = []) {size : Nat} (hsize : 0 < size) :
    ∃ f', f.readData size = (⟨0, []⟩, f') ∧ f'.access = true ∧ f'.writing = false ∧
      f'.rest = [] ∧ f'.stream.content = f.stream.content := by
  obtain ⟨n, hn⟩ : ∃ n, n = if size < f.size then size else f.size := ⟨_, rfl⟩
  have hgot : (f.stream.read n).1 = [] := by
    rw [rest] at hrest
    simp only [Stream.read]
    split at hrest
    · rename_i husable
      rw [if_pos husable, hrest, List.take_nil]
    · rename_i husable
      rw [if_neg husable]
  have hafter : (f.stream.read n).2 = f.stream.disturb (decide (0 < n)) := by
    simp only [Stream.read] at hgot ⊢
    rw [hgot]
    rfl
  have hcount : (if (f.stream.read n).2.fail then 0
      else toSizeT ((f.stream.read n).2.tell - f.stream.tell)) = 0 := by
    split
    · rfl
    · rename_i hgood
      have hzero : decide (0 < n) = false := by
        rw [hafter, Stream.disturb, Bool.or_eq_true, not_or, Bool.not_eq_true] at hgood
        exact Bool.eq_false_iff.mpr hgood.2
      rw [hafter, hzero, Stream.disturb_false, Int.sub_self]
      rfl
  refine ⟨{ f with stream := (f.stream.read n).2 }, ?_, haccess, hwriting, ?_, ?_⟩
  · have hbegun : f.seekTo 0 = f.stream := rfl
    simp only [File.readData, readInto, guard_eq_false haccess hsize, Nat.not_lt_zero, gt_iff_lt,
      hwriting, ← hn, hbegun, hcount, hgot, overwrite_nil, Bool.false_eq_true, if_false]
    rfl
  · rw [rest] at hrest ⊢
    rw [hafter, Stream.usable_disturb]
    split at hrest
    · rename_i husable
      rw [husable]
      split
      · exact hrest
      · rfl
    · rename_i husable
      rw [Bool.not_eq_true] at husable
      rw [husable]
      rfl
  · rw [hafter]
    rfl

end File

namespace IODevice

universe u

variable {σ : Type u} {dev : Virtual σ} {d : IODevice} {w w' : σ} {bytes data : List UInt8}

@[simp] theorem hasReadMode_setOpenMode (d : IODevice) (mode : Mode) :
    (d.setOpenMode mode).hasReadMode = mode.isReadable := by
  change (mode.bits &&& Mode.RW.bits != 0 || mode.bits &&& Mode.R.bits != 0) = mode.isReadable
  cases mode <;> decide

/-- A fill that does not go on at the start of the ring. -/
theorem fill_once (hread : dev.readData w d.tailSegment = (⟨bytes.length, bytes⟩, w'))
    (hlength : bytes.length ≤ BUFSIZE)
    (honce : ¬ (d.tail.val > d.head.val ∧ bytes.length ≥ d.tailSegment)) :
    d.fill dev w = (d.receive bytes, w') := by
  simp only [fill, hread, toSizeT_natCast hlength, honce, if_false]
  rfl

theorem read_of_fill (hfill : d.fill dev w = (d.receive bytes, w')) (h : d.Valid)
    (hmode : d.hasReadMode = true) (hseq : dev.isSequential = false)
    (hslot : d.size + bytes.length < BUFSIZE) (hfit : d.tail + bytes.length ≤ BUFSIZE)
    (hdata : data ≠ []) : ∃ d', d.read dev w (some data) data.length =
        ((d', w'), some (overwrite data 0 ((d.pending ++ bytes).take data.length)),
          min data.length (d.pending ++ bytes).length) ∧
      d'.Valid ∧ d'.hasReadMode = true ∧ d'.size < BUFSIZE ∧
      d'.pending = (d.pending ++ bytes).drop data.length := by
  obtain ⟨hvalid, hpending, hsize⟩ := receive_spec h bytes (by omega) hfit
  have hfilled : d.filled dev w = (d.receive bytes, w') :=
    (filled_of_free (by omega) w).trans hfill
  have hread := @read_eq_filled _ dev d hmode _ (List.length_pos_iff.mpr hdata) w data
  have htake (k : Nat) : (d.pending ++ bytes).take (min k (d.pending ++ bytes).length) =
      (d.pending ++ bytes).take k := by
    rw [← List.take_take, List.take_length]
  have hlength : (d.pending ++ bytes).length = d.size + bytes.length := by
    rw [List.length_append, length_pending]
  rw [hfilled, hseq, peek_spec hvalid hmode (by omega), hpending, hsize, ← hlength, htake] at hread
  obtain ⟨hadvanced, hdrop⟩ := advance_spec hvalid (k := min data.length (d.size + bytes.length))
    (by omega)
  refine ⟨_, hread, ?_, hmode, ?_, ?_⟩
  · rw [hlength]
    exact hadvanced
  · change (d.receive bytes).size - _ < BUFSIZE
    omega
  · rw [hlength, hdrop, hpending]
    cases Nat.le_total data.length (d.size + bytes.length) with
    | inl hle => rw [Nat.min_eq_left hle]
    | inr hle =>
      rw [Nat.min_eq_right hle, List.drop_of_length_le (Nat.le_of_eq hlength),
        List.drop_of_length_le (by rwa [hlength])]

/-- The fill that closes the ring: nothing is copied. -/
theorem read_of_closing_fill (hfill : d.fill dev w = (d.receive bytes, w')) (h : d.Valid)
    (hmode : d.hasReadMode = true) (hseq : dev.isSequential = false)
    (hfree : d.size < BUFSIZE) (hclosed : d.size + bytes.length = BUFSIZE)
    (hfit : d.tail + bytes.length ≤ BUFSIZE) (hdata : data ≠ []) :
    (d.read dev w (some data) data.length).2.1 = some data := by
  obtain ⟨hvalid, _, hsize⟩ := receive_spec h bytes (by omega) hfit
  have hfilled : d.filled dev w = (d.receive bytes, w') := (filled_of_free hfree w).trans hfill
  rw [@read_eq_filled _ dev d hmode _ (List.length_pos_iff.mpr hdata) w data, hfilled, hseq,
    peek_full hvalid hmode (by omega)]

end IODevice

namespace BufferedFile

variable {s : BufferedFile} {t : Reader} {content data : List UInt8}

/-- The device and the reader between two calls. -/
structure Serves (s : BufferedFile) (t : Reader) : Prop where
  valid : s.dev.Valid
  free : s.dev.size < BUFSIZE
  readable : s.dev.hasReadMode = t.readable
  ahead : s.dev.pending = t.ahead
  access : s.file.access = true
  writing : s.file.writing = false
  rest : s.file.rest = t.rest
  fresh : t.rest ≠ [] → s.dev.head.val = 0 ∧ s.dev.size = 0 ∧ s.file.stream.pos = 0
  short : s.file.stream.content.length < BUFSIZE

theorem create_serves (hshort : content.length < BUFSIZE) :
    (create content).Serves (Reader.opened content) where
  valid := ⟨rfl, Nat.zero_le _⟩
  free := (by decide : 0 < BUFSIZE)
  readable := IODevice.hasReadMode_setOpenMode _ .RW
  ahead := rfl
  access := rfl
  writing := rfl
  rest := rfl
  fresh _ := ⟨rfl, rfl, rfl⟩
  short := hshort

theorem Serves.tail_of_fresh (h : s.Serves t) (hrest : t.rest ≠ []) : s.dev.tail.val = 0 := by
  obtain ⟨hhead, hsize, _⟩ := h.fresh hrest
  rw [h.valid.tail_eq, hhead, hsize]
  rfl

theorem Serves.length_rest_le (h : s.Serves t) :
    t.rest.length ≤ s.file.stream.content.length := by
  rw [← h.rest, File.rest]
  split
  · rw [List.length_drop]
    omega
  · exact Nat.zero_le _

theorem Serves.readData (h : s.Serves t) :
    ∃ f', s.file.readData s.dev.tailSegment = (⟨t.rest.length, t.rest⟩, f') ∧ f'.access = true ∧
      f'.writing = false ∧ f'.rest = [] ∧ f'.stream.content = s.file.stream.content := by
  by_cases hrest : t.rest = []
  · rw [hrest]
    exact File.readData_of_rest_nil h.access h.writing (h.rest.trans hrest) (IODevice.tailSegment_pos _)
  · obtain ⟨hhead, hsize, hpos⟩ := h.fresh hrest
    have husable : s.file.stream.usable = true := by
      cases husable : s.file.stream.usable with
      | true => rfl
      | false =>
        have hnone := h.rest
        rw [File.rest, husable] at hnone
        exact absurd hnone.symm hrest
    have hcontent : s.file.stream.content = t.rest := by
      have hwhole := h.rest
      rw [File.rest, if_pos husable, hpos] at hwhole
      exact hwhole
    have hsegment : s.dev.tailSegment = BUFSIZE := by
      rw [IODevice.tailSegment, h.tail_of_fresh hrest, hhead]
      rfl
    have hmin : min BUFSIZE s.file.stream.content.length = t.rest.length := by
      rw [Nat.min_eq_right (Nat.le_of_lt h.short), hcontent]
    have hready : s.file.Ready := ⟨h.access, h.writing, husable⟩
    have hread := hready.readData (by decide : 0 < BUFSIZE) (by decide)
      (by rw [hmin, hpos, hcontent, Nat.zero_add])
    rw [hmin, hpos, Nat.zero_add, h.rest, List.take_length] at hread
    refine ⟨s.file.moveTo t.rest.length, ?_, h.access, h.writing, ?_, rfl⟩
    · rw [hsegment, hread]
    · rw [File.rest]
      split
      · change s.file.stream.content.drop t.rest.length = []
        rw [hcontent, List.drop_length]
      · rfl

/-- Every fill takes what is left of the file. -/
theorem Serves.fill (h : s.Serves t) :
    ∃ f', s.dev.fill File.device s.file = (s.dev.receive t.rest, f') ∧ f'.access = true ∧
      f'.writing = false ∧ f'.rest = [] ∧ f'.stream.content = s.file.stream.content := by
  obtain ⟨f', hread, hafter⟩ := h.readData
  have hlength := h.length_rest_le
  have hshort := h.short
  refine ⟨f', IODevice.fill_once hread (by omega) ?_, hafter⟩
  rintro ⟨hwrapped, hfilled⟩
  have hsegment := IODevice.tailSegment_pos s.dev
  have hrest : t.rest ≠ [] := List.ne_nil_of_length_pos (by omega)
  rw [h.tail_of_fresh hrest] at hwrapped
  exact Nat.not_lt_zero _ hwrapped

theorem Serves.read (h : s.Serves t) (hmode : t.readable = true) (hdata : data ≠ []) :
    ∃ d' f', s.dev.read File.device s.file (some data) data.length = ((d', f'),
        some (overwrite data 0 ((t.ahead ++ t.rest).take data.length)),
        min data.length (t.ahead ++ t.rest).length) ∧
      BufferedFile.Serves ⟨d', f'⟩ (t.next (.read data)) := by
  obtain ⟨f', hfill, haccess, hwriting, hrest, hcontent⟩ := h.fill
  have hlength := h.length_rest_le
  have hshort := h.short
  have hfree := h.free
  have hroom : s.dev.size + t.rest.length < BUFSIZE ∧ s.dev.tail + t.rest.length ≤ BUFSIZE := by
    by_cases hempty : t.rest = []
    · have htail := s.dev.tail.isLt
      rw [hempty, List.length_nil]
      omega
    · have hfresh := h.fresh hempty
      rw [h.tail_of_fresh hempty, hfresh.2.1]
      omega
  have hreadable : s.dev.hasReadMode = true := h.readable.trans hmode
  obtain ⟨d', hread, hvalid, hmode', hsize, hpending⟩ :=
    IODevice.read_of_fill hfill h.valid hreadable rfl hroom.1 hroom.2 hdata
  rw [h.ahead] at hread hpending
  refine ⟨d', f', hread, ?_⟩
  rw [Reader.next, if_pos ⟨hmode, hdata⟩]
  exact {
    valid := hvalid
    free := hsize
    readable := hmode'.trans hmode.symm
    ahead := hpending
    access := haccess
    writing := hwriting
    rest := hrest
    fresh := fun hne => absurd rfl hne
    short := by
      change f'.stream.content.length < BUFSIZE
      rwa [hcontent] }

theorem Serves.setMode (h : s.Serves t) (mode : Mode) : (s.setMode mode).Serves (t.setMode mode) := by
  rw [BufferedFile.setMode, if_pos h.access]
  exact { h with
    valid := ⟨h.valid.tail_eq, h.valid.size_le⟩
    readable := IODevice.hasReadMode_setOpenMode _ _ }

theorem Serves.close (h : s.Serves t) :
    BufferedFile.Serves { s with file := s.file.close } (t.next .close) := by
  have hclosed : s.file.close = { s.file with stream := s.file.stream.close } := if_pos h.access
  rw [hclosed]
  exact { h with
    rest := by
      rw [File.rest, Stream.usable]
      split
      · rename_i husable
        rw [Bool.and_eq_true] at husable
        cases husable.2
      · rfl
    fresh := fun hne => absurd rfl hne }

theorem provides_reader : Reader.service.Provides machine answer Serves := by
  intro s t c h _
  cases c with
  | read data =>
    by_cases hread : t.readable = true ∧ data ≠ []
    · obtain ⟨d', f', hout, hserves⟩ := h.read hread.1 hread.2
      refine ⟨?_, _, rfl, ?_⟩
      · simp only [answer, call, hout]
        change _ = some (t.answer (.read data))
        rw [Reader.answer, if_pos hread]
        rfl
      · simp only [call, hout]
        exact hserves
    · have hguard : (!s.dev.hasReadMode || data.length == 0) = true := by
        rw [h.readable]
        cases hmode : t.readable with
        | true =>
          have hdata : data = [] := by
            by_contra hne
            exact hread ⟨hmode, hne⟩
          rw [hdata]
          rfl
        | false => rfl
      have hout : s.dev.read File.device s.file (some data) data.length =
          ((s.dev, s.file), some data, 0) := by
        simp only [IODevice.read, Option.isNone_some, Bool.false_or, hguard, if_true]
      refine ⟨?_, _, rfl, ?_⟩
      · simp only [answer, call, hout]
        change _ = some (t.answer (.read data))
        rw [Reader.answer, if_neg hread]
        rfl
      · simp only [call, hout]
        change s.Serves (t.next (.read data))
        rw [Reader.next, if_neg hread]
        exact h
  | peek data =>
    refine ⟨?_, s, rfl, h⟩
    change some (s.call (.peek data)).2 = some (t.answer (.peek data))
    rw [Reader.answer]
    split
    · rename_i hmode
      have hpeek := IODevice.peek_spec h.valid (h.readable.trans hmode) h.free data data.length
      rw [call, hpeek, h.ahead, ← IODevice.length_pending, h.ahead]
      rfl
    · rename_i hmode
      have hpeek : s.dev.peek false (some data) data.length = (some data, 0) := by
        rw [Bool.not_eq_true, ← h.readable] at hmode
        simp [IODevice.peek, hmode]
      rw [call, hpeek]
      rfl
  | disableWrite => exact ⟨rfl, _, rfl, h.setMode .R⟩
  | disableRead => exact ⟨rfl, _, rfl, h.setMode .W⟩
  | disableAll => exact ⟨rfl, _, rfl, h.setMode .NONE⟩
  | openWith mode =>
    refine ⟨?_, _, rfl, h.setMode mode⟩
    change some (BufferedAnswer.opened s.file.access) = some (.opened true)
    rw [h.access]
  | close => exact ⟨rfl, _, rfl, h.close⟩

/-- The first read of a file that fills the ring leaves its destination as it was. -/
theorem read_of_long (hlong : BUFSIZE ≤ content.length) (hdata : data ≠ []) :
    ∃ count, answer (create content) (.read data) = some (.copied data count) := by
  have hmin : min BUFSIZE content.length = BUFSIZE := Nat.min_eq_left hlong
  have hlength : (content.take BUFSIZE).length = BUFSIZE := List.length_take_of_le hlong
  have hread : (File.create (some content)).readData BUFSIZE =
      (⟨(min BUFSIZE content.length : Nat), content.take (min BUFSIZE content.length)⟩,
        (File.create (some content)).moveTo (0 + min BUFSIZE content.length)) :=
    (File.create_ready content).readData (by decide) (by decide)
      (Nat.le_trans (Nat.le_of_eq (Nat.zero_add _)) (Nat.min_le_right _ _))
  rw [hmin] at hread
  have hdevice : File.device.readData (.create (some content)) (create content).dev.tailSegment =
      (⟨(content.take BUFSIZE).length, content.take BUFSIZE⟩,
        (File.create (some content)).moveTo (0 + BUFSIZE)) := by
    rw [hlength]
    exact hread
  have hvalid : (create content).dev.Valid := ⟨rfl, Nat.zero_le _⟩
  have hcopied := IODevice.read_of_closing_fill
    (IODevice.fill_once hdevice (Nat.le_of_eq hlength) fun h => Nat.lt_irrefl 0 h.1) hvalid
    (IODevice.hasReadMode_setOpenMode _ .RW) rfl (by decide : 0 < BUFSIZE)
    ((Nat.zero_add _).trans hlength) (Nat.le_of_eq ((Nat.zero_add _).trans hlength)) hdata
  refine ⟨((create content).dev.read File.device (create content).file (some data)
    data.length).2.2, ?_⟩
  rw [answer, call]
  exact congrArg (fun out => some (BufferedAnswer.copied (Option.getD out []) _)) hcopied

/-- Reads and peeks of a file through the ring, whatever is done to its mode and whenever it is
closed, are those of the reader exactly if the file is shorter than the ring. The first read of a
longer one copies nothing at all. -/
theorem reads_as_reader_iff (content : List UInt8) :
    ((∀ calls, machine.outputs answer (create content) calls =
      Reader.service.answers (Reader.opened content) calls) ↔ content.length < BUFSIZE) ∧
    (BUFSIZE ≤ content.length → ∀ data ≠ [],
      ∃ count, answer (create content) (.read data) = some (.copied data count)) := by
  refine ⟨⟨fun hreads => ?_, fun hshort calls => ?_⟩, fun hlong data => read_of_long hlong⟩
  · by_contra hlong
    rw [Nat.not_lt] at hlong
    obtain ⟨b, others, rfl⟩ : ∃ b others, content = b :: others := by
      cases content with
      | nil => cases hlong
      | cons b others => exact ⟨b, others, rfl⟩
    obtain ⟨count, hcopied⟩ := read_of_long hlong (List.cons_ne_nil (b + 1) [])
    have hread := hreads [.read [b + 1]]
    rw [Machine.outputs, hcopied] at hread
    have hanswer : BufferedAnswer.copied [b + 1] count = .copied [b] 1 := List.cons.inj hread |>.1
    injection hanswer with hdata
    simp at hdata
  · have hall : Reader.service.Allows (Reader.opened content) calls :=
      Service.along_of_forall (fun _ _ => trivial) _ _
    obtain ⟨_, _, _, houtputs⟩ := provides_reader.run (create_serves hshort) hall
    exact houtputs

end BufferedFile

end ServerDevLib.Device
