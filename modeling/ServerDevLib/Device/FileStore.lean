import ServerDevLib.Device.File
import ServerDevLib.Foundation.Service

/-!
# The file as a store with a cursor

Reads and writes of a file that go well are those of a byte array with one
cursor. An offset of zero stands for the cursor, which a write without offset
leaves where it is, a write with an offset moves to the end, and a read moves
behind what it has returned.
-/

namespace ServerDevLib.Device

open FileStream Memory Transition

/-- A call of a member of `File`, where an offset of zero is that of the overload without one. -/
inductive FileCall
  | write (buf : List UInt8) (offset size : Nat)
  | read (offset size : Nat)
  | readFirst (size : Nat)
  | readAll
  | size

inductive FileAnswer
  | count (n : Nat)
  | bytes (buf : List UInt8)
  deriving DecidableEq

structure FileStore where
  content : List UInt8
  cursor : Nat

namespace FileStore

def place (t : FileStore) (offset : Nat) : Nat := if offset > 0 then offset else t.cursor

def write (t : FileStore) (buf : List UInt8) (offset size : Nat) : FileStore :=
  let content := put t.content (t.place offset) (buf.take size)
  if size = 0 then t else ⟨content, if offset > 0 then content.length else t.cursor⟩

def read (t : FileStore) (offset size : Nat) : FileStore :=
  if size = 0 then t else { t with cursor := t.place offset + size }

def slice (t : FileStore) (offset size : Nat) : List UInt8 :=
  (t.content.drop (t.place offset)).take size

/-- The place of a read with a size lies inside the content. -/
def Covers (t : FileStore) (offset size : Nat) : Prop :=
  size = 0 ∨ offset ≤ t.content.length ∧ t.place offset + size ≤ t.content.length

def next (t : FileStore) : FileCall → FileStore
  | .write buf offset size => t.write buf offset size
  | .read offset size => t.read offset size
  | .readFirst size => t.read 0 size
  | .readAll => t.read 0 t.content.length
  | .size => t

def answer (t : FileStore) : FileCall → FileAnswer
  | .write _ _ size => .count size
  | .read offset size => .bytes (t.slice offset size)
  | .readFirst size => .bytes (t.slice 0 size)
  | .readAll => .bytes (t.slice 0 t.content.length)
  | .size => .count t.content.length

/-- A write has its bytes and ends where a position of a stream can be, and a read stays inside
the file. -/
def allowed (t : FileStore) : FileCall → Prop
  | .write buf offset size => size ≤ buf.length ∧ t.place offset + size < 2 ^ 63
  | .read offset size => t.Covers offset size
  | .readFirst size => t.Covers 0 size
  | .readAll => t.Covers 0 t.content.length
  | .size => True

def service : Service FileStore FileCall FileAnswer := ⟨next, answer, allowed⟩

end FileStore

namespace File

/-- A call on a file whose device takes what is written. -/
def call (f : File) : FileCall → Option (File × FileAnswer)
  | .write buf offset size =>
    let out := f.writeAt buf offset size size
    some (out.1, .count out.2)
  | .read offset size => (f.readAt offset size).map fun out => (out.1, .bytes out.2)
  | .readFirst size => (f.readFirst size).map fun out => (out.1, .bytes out.2)
  | .readAll => f.readAll.map fun out => (out.1, .bytes out.2)
  | .size => some (f, .count f.size)

def calls : Machine File FileCall where
  init f := ∃ content, f = create (some content)
  step f c := (f.call c).map Prod.fst

def answer (f : File) (c : FileCall) : Option FileAnswer := (f.call c).map Prod.snd

/-- The file is between two calls, with the content and the position of the store. -/
structure Keeps (f : File) (t : FileStore) : Prop where
  ready : f.Ready
  content : f.stream.content = t.content
  pos : f.stream.pos = t.cursor

variable {f : File} {t : FileStore}

theorem Keeps.seekTo (h : f.Keeps t) (offset : Nat) :
    f.seekTo offset = f.stream.moveTo (t.place offset) := by
  simp only [File.seekTo, FileStore.place]
  split
  · exact Stream.seek_of_usable h.ready.usable offset
  · rw [← h.pos]
    rfl

theorem Keeps.read (h : f.Keeps t) {offset size : Nat} (hcovers : t.Covers offset size) :
    ∃ f', f.readAt offset size = some (f', t.slice offset size) ∧ f'.Keeps (t.read offset size) := by
  by_cases hsize : size = 0
  · refine ⟨f, ?_, ?_⟩
    · rw [hsize, h.ready.readAt_zero, FileStore.slice, List.take_zero]
    · rw [FileStore.read, if_pos hsize]
      exact h
  · obtain ⟨hoffset, hinside⟩ := hcovers.resolve_left hsize
    rw [← h.content] at hoffset hinside
    have hmin : min size f.stream.content.length = size := by omega
    have husable : (f.stream.moveTo (t.place offset)).usable = true := h.ready.usable
    have hlength : (t.slice offset size).length = size := by
      rw [FileStore.slice, ← h.content, List.length_take, List.length_drop]
      omega
    have hbuf : overwrite (List.replicate size 32) 0 (t.slice offset size) = t.slice offset size := by
      have hrest : (List.replicate size (32 : UInt8)).drop size = [] := by simp
      rw [overwrite_zero, hlength, hrest, List.append_nil]
    have hread := h.ready.readAt (Nat.pos_of_ne_zero hsize) hoffset
    rw [hmin, h.seekTo, Stream.read_of_usable husable hinside] at hread
    refine ⟨_, hread.trans (congrArg (fun bytes => some (_, bytes)) ?_), ?_⟩
    · change overwrite _ 0 ((f.stream.content.drop _).take size) = _
      rw [h.content]
      exact hbuf
    · rw [FileStore.read, if_neg hsize]
      exact ⟨⟨h.ready.access, h.ready.writing, h.ready.usable⟩, h.content, rfl⟩

/-- What a write that was taken in full leaves of the stream. -/
theorem restore_hold {s : Stream} (h : s.usable = true) (bytes : List UInt8) (offset : Nat) :
    restore (s.hold bytes) s.tell offset =
      (s.hold bytes).moveTo (if offset > 0 then (s.hold bytes).content.length else s.pos) := by
  have hheld : (s.hold bytes).usable = true := h
  rw [restore, Stream.tell_of_usable h, Stream.seek_of_usable hheld]
  split
  · exact Stream.seek_of_usable (s := (s.hold bytes).moveTo s.pos) hheld _
  · rfl

theorem Ready.writeAt_taken (h : f.Ready) {buf : List UInt8} {offset size : Nat}
    (hsize : 0 < size) (hfits : size ≤ buf.length) (hoffset : offset < 2 ^ 63)
    (hsmall : size < 2 ^ 64) : f.writeAt buf offset size size =
      ({ f with
          writing := false
          stream := restore ((f.seekTo offset).hold (buf.take size)) (f.seekTo offset).tell
            offset },
        size) := by
  have hlength : (buf.take size).length = size := List.length_take_of_le hfits
  have husable : (f.seekTo offset).usable = true := by
    rw [← f.seekpTo_of_lt hoffset, f.usable_seekpTo (by omega), h.usable, decide_eq_true hoffset]
    rfl
  have hheld : ((f.seekTo offset).hold (buf.take size)).usable = true := husable
  have hcount : toSizeT (((f.seekTo offset).hold (buf.take size)).tell - (f.seekTo offset).tell) =
      size := by
    rw [Stream.tell_of_usable hheld, Stream.tell_of_usable husable, Stream.pos_hold, hlength, toSizeT]
    omega
  have hwrite := Stream.write_of_usable husable (Nat.le_of_eq hlength)
  simp only [writeAt, guard_eq_false h.access hsize, f.seekpTo_of_lt hoffset, hwrite,
    Stream.fail_of_usable hheld, hcount, Bool.false_eq_true, if_false]

theorem Keeps.write (h : f.Keeps t) {buf : List UInt8} {offset size : Nat}
    (hfits : size ≤ buf.length) (hend : t.place offset + size < 2 ^ 63) :
    ∃ f', f.writeAt buf offset size size = (f', size) ∧ f'.Keeps (t.write buf offset size) := by
  by_cases hsize : size = 0
  · refine ⟨f, ?_, ?_⟩
    · simp [writeAt, hsize]
    · rw [FileStore.write, if_pos hsize]
      exact h
  · have husable : (f.stream.moveTo (t.place offset)).usable = true := h.ready.usable
    have hoffset : offset < 2 ^ 63 := by
      rw [FileStore.place] at hend
      split at hend <;> omega
    have hcontent : ((f.stream.moveTo (t.place offset)).hold (buf.take size)).content =
        put t.content (t.place offset) (buf.take size) := by
      rw [← h.content]
      rfl
    have hwrite := h.ready.writeAt_taken (Nat.pos_of_ne_zero hsize) hfits hoffset (by omega)
    rw [h.seekTo, restore_hold husable, hcontent] at hwrite
    refine ⟨_, hwrite, ⟨h.ready.access, rfl, husable⟩, ?_, ?_⟩
    · rw [FileStore.write, if_neg hsize]
      exact hcontent
    · rw [FileStore.write, if_neg hsize]
      simp only [FileStore.place]
      split
      · rfl
      · rfl

theorem Keeps.step_of_call {f' : File} {c : FileCall} (hcall : f.call c = some (f', t.answer c))
    (hkeeps : f'.Keeps (t.next c)) :
    f.answer c = some (t.answer c) ∧ ∃ f', calls.step f c = some f' ∧ f'.Keeps (t.next c) :=
  ⟨congrArg (Option.map Prod.snd) hcall, f', congrArg (Option.map Prod.fst) hcall, hkeeps⟩

/-- A call that is allowed is answered as the store answers it. -/
theorem provides_store : FileStore.service.Provides calls answer Keeps := by
  intro f t c h hallowed
  have hsize : f.size = t.content.length := by rw [h.ready.size, h.content]
  cases c with
  | write buf offset size =>
    obtain ⟨f', hwrite, hkeeps⟩ := h.write hallowed.1 hallowed.2
    refine Keeps.step_of_call ?_ hkeeps
    rw [call, hwrite]
    rfl
  | read offset size =>
    obtain ⟨f', hread, hkeeps⟩ := h.read hallowed
    refine Keeps.step_of_call ?_ hkeeps
    rw [call, hread]
    rfl
  | readFirst size =>
    obtain ⟨f', hread, hkeeps⟩ := h.read hallowed
    refine Keeps.step_of_call ?_ hkeeps
    rw [call, h.ready.readFirst, hread]
    rfl
  | readAll =>
    obtain ⟨f', hread, hkeeps⟩ := h.read hallowed
    refine Keeps.step_of_call ?_ hkeeps
    rw [call, readAll, hsize, h.ready.readFirst, hread]
    rfl
  | size =>
    refine Keeps.step_of_call ?_ h
    rw [call, hsize]
    rfl

/-- A run of calls of which each write ends at a position and each read stays inside the file is
one of the store, call by call. -/
theorem serves_as_store (content : List UInt8) (cs : List FileCall)
    (hall : FileStore.service.Allows ⟨content, 0⟩ cs) :
    ∃ f, calls.run (create (some content)) cs = some f ∧
      f.Keeps (cs.foldl FileStore.next ⟨content, 0⟩) ∧
        calls.outputs answer (create (some content)) cs =
          FileStore.service.answers ⟨content, 0⟩ cs :=
  provides_store.run ⟨create_ready content, rfl, rfl⟩ hall

/-- A write behind the end, which leaves a gap, and a read across its start. -/
def gapCalls : List FileCall := [.write [1, 2] 3 2, .read 2 2, .size]

theorem allows_gapCalls : FileStore.service.Allows ⟨[7], 0⟩ gapCalls :=
  ⟨⟨by decide, by decide⟩, .inr ⟨by decide, by decide⟩, trivial, trivial⟩

theorem serves_as_store_gap :
    ∃ f, calls.run (create (some [7])) gapCalls = some f ∧ f.Keeps ⟨[7, 0, 0, 1, 2], 4⟩ ∧
      calls.outputs answer (create (some [7])) gapCalls = [.count 2, .bytes [0, 1], .count 5] :=
  serves_as_store [7] gapCalls allows_gapCalls

end File

namespace FileStore

variable {t : FileStore}

/-- The call writes nothing to the `size` places from `pos` on. -/
def Spares (pos size : Nat) (t : FileStore) : FileCall → Prop
  | .write _ offset n => t.place offset + n ≤ pos ∨ pos + size ≤ t.place offset
  | _ => True

theorem stores_write (t : FileStore) (buf : List UInt8) (offset size : Nat) :
    Stores (t.write buf offset size).content (t.place offset) (buf.take size) := by
  rw [write]
  split
  · rename_i hsize
    rw [hsize, List.take_zero]
    exact nofun
  · exact stores_put _ _ _

theorem stores_next {pos : Nat} {bytes : List UInt8} (h : Stores t.content pos bytes) {c : FileCall}
    (hspares : t.Spares pos bytes.length c) (hallowed : t.allowed c) :
    Stores (t.next c).content pos bytes := by
  cases c with
  | write buf offset size =>
    simp only [next, write]
    split
    · exact h
    · apply h.put
      rw [List.length_take_of_le hallowed.1]
      exact hspares
  | read offset size | readFirst size | readAll =>
    simp only [next, read]
    split <;> exact h
  | size => exact h

end FileStore

namespace File

/-- What a write at an offset has stored is read back in any part, whatever calls that spare it
come in between. -/
theorem read_back {content buf : List UInt8} {offset size i n : Nat} {before between : List FileCall}
    (hoffset : 0 < offset) (hn : i + n ≤ size)
    (hall : FileStore.service.Allows ⟨content, 0⟩ (before ++ .write buf offset size :: between))
    (hspares : FileStore.service.Along (FileStore.Spares offset size)
      ((before.foldl FileStore.next ⟨content, 0⟩).write buf offset size) between) :
    ∃ f f', calls.run (create (some content)) (before ++ .write buf offset size :: between) = some f ∧
      f.readAt (offset + i) n = some (f', (buf.drop i).take n) := by
  obtain ⟨f, hrun, hkeeps, _⟩ := serves_as_store content _ hall
  obtain ⟨_, hwrite, hbetween⟩ := Service.along_append.mp hall
  have hlength : (buf.take size).length = size := List.length_take_of_le hwrite.1
  -- the bytes stay where the write has put them
  have hstored : Stores ((before ++ .write buf offset size :: between).foldl FileStore.next
      ⟨content, 0⟩).content offset (buf.take size) := by
    rw [List.foldl_append, List.foldl_cons]
    have hfirst := FileStore.stores_write (before.foldl FileStore.next ⟨content, 0⟩) buf offset size
    rw [FileStore.place, if_pos hoffset] at hfirst
    have hnext (t : FileStore) (c : FileCall) (h : Stores t.content offset (buf.take size))
        (hc : FileStore.Spares offset size t c ∧ t.allowed c) :
        Stores (t.next c).content offset (buf.take size) :=
      FileStore.stores_next h (hlength.symm ▸ hc.1) hc.2
    exact (hspares.and hbetween).foldl hnext hfirst
  have hcovers : FileStore.Covers ((before ++ .write buf offset size :: between).foldl FileStore.next
      ⟨content, 0⟩) (offset + i) n := by
    by_cases hzero : n = 0
    · exact .inl hzero
    · have hne : buf.take size ≠ [] := List.ne_nil_of_length_pos (by omega)
      have hend := hstored.length_le hne
      rw [hlength] at hend
      rw [FileStore.Covers, FileStore.place, if_pos (by omega)]
      omega
  obtain ⟨f', hread, _⟩ := hkeeps.read hcovers
  refine ⟨f, f', hrun, ?_⟩
  rw [hread, FileStore.slice, FileStore.place, if_pos (by omega), hstored.slice (by omega),
    List.drop_take, List.take_take, Nat.min_eq_left (by omega)]

/-- The file is written in front of the bytes before one of them is read back. -/
theorem read_back_second : ∃ f f', calls.run (create (some [7]))
    ([] ++ .write [1, 2] 3 2 :: [.write [5] 1 1, .read 1 1]) = some f ∧
      f.readAt (3 + 1) 1 = some (f', [2]) :=
  read_back (by decide) (by decide)
    ⟨⟨by decide, by decide⟩, ⟨by decide, by decide⟩, .inr ⟨by decide, by decide⟩, trivial⟩
    ⟨.inl (by decide), trivial, trivial⟩

end File

end ServerDevLib.Device
