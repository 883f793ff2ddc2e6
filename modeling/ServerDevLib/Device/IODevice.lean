import ServerDevLib.Foundation.CircularBuffer
import ServerDevLib.Foundation.Memory
import Mathlib.Algebra.Ring.Int.Defs
import Mathlib.Tactic.SplitIfs

/-!
# The buffered device

`IODevice` reads ahead through the pure virtual `ReadData` into a ring of
`BUFSIZE` bytes. Head and tail are positions of the ring by type; the size is
a plain counter in `size_t` arithmetic. A null pointer is `none`, and the
destination of a read or a peek is the list of the bytes it holds before and
after the call. `Read` is split where the source has its two phases: `fill`
calls `ReadData` once, and a second time for the start of the ring when the
first call filled the stretch behind the tail; then `Peek` copies out and
`advance` moves the head.
-/

namespace ServerDevLib.Device

open CircularBuffer Memory

universe u

def BUFSIZE : Nat := 1024

instance : NeZero BUFSIZE := ⟨by decide⟩

def toSizeT (x : Int) : Nat := (x % 2 ^ 64).toNat

inductive Mode
  | R
  | W
  | RW
  | NONE
  deriving DecidableEq

def Mode.bits : Mode → UInt8
  | .R => 1
  | .W => 2
  | .RW => 4
  | .NONE => 8

/-- What one call of `ReadData` returns, and the bytes it stores at the start of its region. -/
structure ReadResult where
  ret : Int
  bytes : List UInt8

structure Virtual (σ : Type u) where
  readData : σ → Nat → ReadResult × σ
  isSequential : Bool

structure IODevice where
  mode : Mode
  isOpen : Bool
  head : Fin BUFSIZE
  tail : Fin BUFSIZE
  size : Nat
  buf : Vector UInt8 BUFSIZE

namespace IODevice

def create : IODevice :=
  { mode := .NONE, isOpen := true, head := 0, tail := 0, size := 0,
    buf := Vector.replicate BUFSIZE 32 }

def setOpenMode (d : IODevice) (mode : Mode) : IODevice :=
  { d with
    mode := mode
    isOpen := mode.bits &&& Mode.RW.bits != 0 || mode.bits &&& Mode.R.bits != 0 ||
      mode.bits &&& Mode.W.bits != 0 }

def hasReadMode (d : IODevice) : Bool :=
  d.mode.bits &&& Mode.RW.bits != 0 || d.mode.bits &&& Mode.R.bits != 0

def peek (isSequential : Bool) (d : IODevice) (data : Option (List UInt8)) (size : Nat) :
    Option (List UInt8) × Nat :=
  match data with
  | none => (none, 0)
  | some data =>
    if !d.hasReadMode || d.size == 0 || isSequential then (some data, 0)
    else
      let exactSize := if d.size > size then size else d.size
      let len := if d.tail.val ≥ d.head.val then d.tail.val - d.head.val else BUFSIZE - d.head
      let validSize := if exactSize < len then exactSize else len
      let first := overwrite data 0 (slice d.buf d.head validSize)
      if d.tail.val < d.head.val ∧ validSize < exactSize then
        (some (overwrite first len (slice d.buf 0 (exactSize - validSize))), exactSize)
      else (some first, exactSize)

def tailSegment (d : IODevice) : Nat :=
  if d.tail.val ≥ d.head.val then BUFSIZE - d.tail else d.head.val - d.tail.val

def commit (d : IODevice) (readed : Nat) : IODevice :=
  { d with
    tail := Fin.ofNat BUFSIZE (d.tail + readed)
    size := (d.size + readed) % 2 ^ 64 }

def fill {σ : Type u} (dev : Virtual σ) (d : IODevice) (w : σ) : IODevice × σ :=
  let len := d.tailSegment
  let r₁ := dev.readData w len
  let d₁ := { d with buf := store d.buf d.tail r₁.1.bytes }
  let readed := toSizeT r₁.1.ret
  if d.tail.val > d.head.val ∧ readed ≥ len then
    let r₂ := dev.readData r₁.2 d.head
    let d₂ := { d₁ with buf := store d₁.buf 0 r₂.1.bytes }
    (d₂.commit ((readed + toSizeT r₂.1.ret) % 2 ^ 64), r₂.2)
  else (d₁.commit readed, r₁.2)

def advance (d : IODevice) (k : Nat) : IODevice :=
  { d with
    head := Fin.ofNat BUFSIZE (d.head + k)
    size := d.size - k }

/-- The device and the environment afterwards, the destination and the returned count. -/
def read {σ : Type u} (dev : Virtual σ) (d : IODevice) (w : σ) (data : Option (List UInt8))
    (size : Nat) : (IODevice × σ) × Option (List UInt8) × Nat :=
  if data.isNone || !d.hasReadMode || size == 0 then ((d, w), data, 0)
  else
    let filled := if BUFSIZE > d.size then d.fill dev w else (d, w)
    let validSize := if size < filled.1.size then size else filled.1.size
    ((filled.1.advance validSize, filled.2),
      (filled.1.peek dev.isSequential data validSize).1, validSize)

end IODevice

end ServerDevLib.Device
