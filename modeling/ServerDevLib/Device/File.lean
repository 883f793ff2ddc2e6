import ServerDevLib.Device.IODevice
import ServerDevLib.Foundation.FileStream

/-!
# The file device

A `File` has its stream and its own synchronisation. `_writing` is raised
before the stream is used and lowered on the last way out of `write`; `read`
waits while it is raised, so that a call that would wait has no result here.
The offset of a `write` is converted to a position of the stream, which from
2^63 on is negative; that of a `read` is at most the size of the file, which is
a position. The difference of two positions is converted to `size_t`.
-/

namespace ServerDevLib.Device

open FileStream Memory

structure File where
  access : Bool
  writing : Bool
  stream : Stream

namespace File

/-- The constructor, which finds the file with some content or cannot open it. -/
def create : Option (List UInt8) → File
  | some content => ⟨true, false, .opened content⟩
  | none => ⟨false, false, ⟨[], 0, false, true⟩⟩

/-- `fs::file_size`; the content of the stream has reached the file. -/
def size (f : File) : Nat := if f.access then f.stream.content.length else 0

def close (f : File) : File := if f.access then { f with stream := f.stream.close } else f

/-- The `seekp` in front of the data, which an offset of zero does not make. -/
def seekpTo (f : File) (offset : Nat) : Stream :=
  if offset > 0 then f.stream.seek (streamoff offset) else f.stream

/-- The `seekg` of a read; its offset has passed the test against the size. -/
def seekTo (f : File) (offset : Nat) : Stream :=
  if offset > 0 then f.stream.seek offset else f.stream

def restore (written : Stream) (getPos : Int) (offset : Nat) : Stream :=
  let back := written.seek getPos
  if offset > 0 then back.seekEnd else back

/-- The protected overload; of the data `room` bytes at most are taken. -/
def writeAt (f : File) (buf : List UInt8) (offset size room : Nat) : File × Nat :=
  if !f.access || size == 0 then (f, 0)
  else
    -- the predicate of the wait is the flag that has just been raised
    let begun := f.seekpTo offset
    let written := begun.write (buf.take size) room
    if written.fail then ({ f with writing := true, stream := written }, 0)
    else
      ({ f with writing := false, stream := restore written begun.tell offset },
        toSizeT (written.tell - begun.tell))

def write (f : File) (buf : List UInt8) (size room : Nat) : File × Nat := f.writeAt buf 0 size room

/-- The protected overload: the file, the buffer and the returned count. -/
def readInto (f : File) (buf : List UInt8) (offset size : Nat) :
    Option (File × List UInt8 × Nat) :=
  if !f.access || size == 0 then some (f, buf, 0)
  else if offset > f.size then some (f, buf, 0)
  else if f.writing then none
  else
    let validSize := if size < f.size then size else f.size
    let begun := f.seekTo offset
    let got := begun.read validSize
    some ({ f with stream := got.2 }, overwrite buf 0 got.1,
      if got.2.fail then 0 else toSizeT (got.2.tell - begun.tell))

/-- `reserve` with the length that the buffer has does nothing. -/
def readAt (f : File) (offset size : Nat) : Option (File × List UInt8) :=
  if !f.access then some (f, [])
  else (f.readInto (List.replicate size 32) offset size).map fun out => (out.1, out.2.1)

def readFirst (f : File) (size : Nat) : Option (File × List UInt8) :=
  if !f.access then some (f, []) else f.readAt 0 size

def readAll (f : File) : Option (File × List UInt8) := f.readFirst f.size

variable {f : File}

theorem guard_eq_false (haccess : f.access = true) {size : Nat} (hsize : 0 < size) :
    (!f.access || size == 0) = false := by
  simp [haccess, Nat.ne_of_gt hsize]

theorem seekpTo_of_lt (f : File) {offset : Nat} (h : offset < 2 ^ 63) :
    f.seekpTo offset = f.seekTo offset := by
  rw [seekpTo, streamoff_of_lt h, seekTo]

theorem usable_seekpTo (f : File) {offset : Nat} (hsize : offset < 2 ^ 64) :
    (f.seekpTo offset).usable = (f.stream.usable && decide (offset < 2 ^ 63)) := by
  by_cases hlt : offset < 2 ^ 63
  · rw [f.seekpTo_of_lt hlt, decide_eq_true hlt, Bool.and_true, seekTo]
    split
    · exact Stream.usable_seek f.stream offset
    · rfl
  · rw [decide_eq_false hlt, Bool.and_false, seekpTo, if_pos (by omega)]
    exact Stream.usable_seek_neg f.stream (streamoff_neg (Nat.not_lt.mp hlt) hsize)

/-- What the file is in between two calls that went well. -/
structure Ready (f : File) : Prop where
  access : f.access = true
  writing : f.writing = false
  usable : f.stream.usable = true

def moveTo (f : File) (pos : Nat) : File := { f with stream := f.stream.moveTo pos }

theorem Ready.moveTo (h : f.Ready) (pos : Nat) : (f.moveTo pos).Ready :=
  ⟨h.access, h.writing, h.usable⟩

theorem create_ready (content : List UInt8) : (create (some content)).Ready := ⟨rfl, rfl, rfl⟩

theorem Ready.readFirst (h : f.Ready) (size : Nat) : f.readFirst size = f.readAt 0 size := by
  simp [File.readFirst, h.access]

theorem Ready.size (h : f.Ready) : f.size = f.stream.content.length := if_pos h.access

theorem Ready.readInto (h : f.Ready) (buf : List UInt8) (offset : Nat) {size : Nat}
    (hsize : 0 < size) (hoffset : offset ≤ f.stream.content.length) :
    f.readInto buf offset size =
      let begun := f.seekTo offset
      let got := begun.read (min size f.stream.content.length)
      some ({ f with stream := got.2 }, overwrite buf 0 got.1,
        if got.2.fail then 0 else toSizeT (got.2.tell - begun.tell)) := by
  have hmin (n : Nat) : (if size < n then size else n) = min size n := by
    split <;> omega
  simp only [File.readInto, guard_eq_false h.access hsize, h.size, Nat.not_lt.mpr hoffset, h.writing, hmin,
    Bool.false_eq_true, if_false]

theorem Ready.readAt_zero (h : f.Ready) (offset : Nat) : f.readAt offset 0 = some (f, []) := by
  simp [File.readAt, File.readInto, h.access]

theorem Ready.readAt_beyond (h : f.Ready) {offset : Nat} (hoffset : f.stream.content.length < offset)
    (size : Nat) : f.readAt offset size = some (f, List.replicate size 32) := by
  simp [File.readAt, File.readInto, h.access, h.size, hoffset]

theorem Ready.readAt (h : f.Ready) {offset size : Nat} (hsize : 0 < size)
    (hoffset : offset ≤ f.stream.content.length) : f.readAt offset size =
      let got := (f.seekTo offset).read (min size f.stream.content.length)
      some ({ f with stream := got.2 }, overwrite (List.replicate size 32) 0 got.1) := by
  rw [File.readAt, h.readInto _ offset hsize hoffset]
  simp [h.access]

theorem Ready.length_readAt (h : f.Ready) (offset size : Nat) :
    ∃ f' bytes, f.readAt offset size = some (f', bytes) ∧ bytes.length = size := by
  by_cases hsize : size = 0
  · exact ⟨f, [], by rw [hsize, h.readAt_zero], hsize.symm⟩
  · by_cases hoffset : offset ≤ f.stream.content.length
    · have hread := h.readAt (Nat.pos_of_ne_zero hsize) hoffset
      refine ⟨_, _, hread, ?_⟩
      have hlength := Stream.length_read_le (f.seekTo offset) (min size f.stream.content.length)
      rw [length_overwrite, List.length_replicate]
      rw [List.length_replicate]
      omega
    · exact ⟨f, _, h.readAt_beyond (Nat.lt_of_not_le hoffset) size, List.length_replicate⟩

theorem Ready.seekTo (h : f.Ready) {offset : Nat} (hplace : offset = 0 → f.stream.pos = 0) :
    f.seekTo offset = f.stream.moveTo offset := by
  simp only [File.seekTo]
  split
  · exact Stream.seek_of_usable h.usable offset
  · rename_i hzero
    have hzero : offset = 0 := by omega
    rw [hzero, ← hplace hzero]
    rfl

theorem Ready.readAt_inside (h : f.Ready) {offset size : Nat} (hsize : 0 < size)
    (hinside : offset + size ≤ f.stream.content.length) (hplace : offset = 0 → f.stream.pos = 0) :
    f.readAt offset size = some (f.moveTo (offset + size),
      (f.stream.content.drop offset).take size) := by
  have hmin : min size f.stream.content.length = size := by omega
  have husable : (f.stream.moveTo offset).usable = true := by rw [Stream.usable_moveTo, h.usable]
  have hlength : ((f.stream.content.drop offset).take size).length = size := by
    rw [List.length_take, List.length_drop]
    omega
  have hbuf : overwrite (List.replicate size 32) 0 ((f.stream.content.drop offset).take size) =
      (f.stream.content.drop offset).take size := by
    have hrest : (List.replicate size (32 : UInt8)).drop size = [] := by simp
    rw [overwrite_zero, hlength, hrest, List.append_nil]
  rw [h.readAt hsize (by omega), hmin, h.seekTo hplace, Stream.read_of_usable husable hinside]
  exact congrArg (fun bytes => some (_, bytes)) hbuf

theorem Ready.write_taken (h : f.Ready) {buf : List UInt8} {size room : Nat} (hsize : 0 < size)
    (hfits : size ≤ buf.length) (hroom : size ≤ room) : f.write buf size room =
      ({ f with stream := (f.stream.hold (buf.take size)).moveTo f.stream.pos }, toSizeT size) := by
  have hlength : (buf.take size).length = size := by
    rw [List.length_take]
    omega
  have husable : (f.stream.hold (buf.take size)).usable = true := by rw [Stream.usable_hold, h.usable]
  have hcount : (f.stream.hold (buf.take size)).tell - f.stream.tell = size := by
    rw [Stream.tell_of_usable husable, Stream.tell_of_usable h.usable, Stream.pos_hold, hlength]
    omega
  have hback : restore (f.stream.hold (buf.take size)) f.stream.tell 0 =
      (f.stream.hold (buf.take size)).moveTo f.stream.pos := by
    rw [Stream.tell_of_usable h.usable]
    exact Stream.seek_of_usable husable _
  have hwrite := Stream.write_of_usable h.usable (Nat.le_trans (Nat.le_of_eq hlength) hroom)
  have hbegun : f.seekpTo 0 = f.stream := rfl
  simp only [write, writeAt, guard_eq_false h.access hsize, hbegun, hwrite,
    Stream.fail_of_usable husable, hback, hcount, h.writing, Bool.false_eq_true, if_false]

end File

end ServerDevLib.Device
