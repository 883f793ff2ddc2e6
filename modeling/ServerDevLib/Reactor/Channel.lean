import ServerDevLib.Foundation.CxxString

/-!
# Channels

A channel buffers both directions of one connection. `Read` stores what
`::read` yields through the data pointer of `_receivedBuf`, behind the
`_receivedCount` bytes that are already there; the string keeps the size it
was constructed with and grows in capacity alone. The chunks that `::read`
delivers are an argument; a chunk that is empty or longer than the requested
size is not a behaviour of `::read`, and the loop has no result on it.
Descriptors are signed as in the source, and a demultiplexer pointer is the
number of the object it designates. Logging and the user's callbacks have no
effect on the state and are left out.
-/

namespace ServerDevLib.Reactor

open Text

structure Channel where
  fd : Int
  active : Bool
  receivedCount : Nat
  sendingBuf : CxxString
  receivedBuf : CxxString
  demultiplexer : Option Nat

inductive ReadEnd
  | eof
  | error

inductive Notification
  | dataReady (fd : Int)
  | closed (fd : Int)

namespace Channel

variable (A : Allocator)

def BUFSIZE : Nat := 128

def create (fd : Int) (ptr : Option Nat) : Channel :=
  { fd := fd, active := decide (fd > 0), receivedCount := 0,
    sendingBuf := (CxxString.fill A BUFSIZE 45).clear,
    receivedBuf := CxxString.fill A BUFSIZE 45, demultiplexer := ptr }

/-- The do-while loop of `Read`: `validSize` and `got` are those of the previous round. -/
def readLoop (buf : CxxString) (count validSize got : Nat) :
    List (List UInt8) → Option (CxxString × Nat)
  | [] =>
    let buf := if validSize = got then buf.reserve A (3 * buf.capacity / 2) else buf
    some (buf, count + got)
  | chunk :: chunks =>
    let buf := if validSize = got then buf.reserve A (3 * buf.capacity / 2) else buf
    let count := count + got
    let validSize := buf.capacity - count
    if chunk ≠ [] ∧ chunk.length ≤ validSize then
      readLoop (buf.poke count chunk) count validSize chunk.length chunks
    else none

def inactive (ch : Channel) : Channel := { ch with active := false }

/-- The section of `Read` under `_receiveMutex`. -/
def receive (ch : Channel) (chunks : List (List UInt8)) : Option Channel :=
  (readLoop A ch.receivedBuf ch.receivedCount (ch.receivedBuf.capacity - ch.receivedCount) 0
    chunks).map fun (buf, count) => { ch with receivedBuf := buf, receivedCount := count }

def read (ch : Channel) (chunks : List (List UInt8)) (ended : ReadEnd) :
    Option (Channel × Option Notification) :=
  if !ch.active then some (ch, none)
  else
    (ch.receive A chunks).map fun ch =>
      match ended with
      | .eof => (ch.inactive, some (.closed ch.fd))
      | .error => (ch, some (.dataReady ch.fd))

def getReceivedData (ch : Channel) : Channel × List UInt8 :=
  if !ch.active then (ch, [])
  else if ch.receivedCount < 1 then (ch, [])
  else ({ ch with receivedCount := 0 }, ch.receivedBuf.substr 0 ch.receivedCount)

/-- The `_sendMutex` section of `NotifyWriteEvent`. -/
def appendToSend (ch : Channel) (data : List UInt8) : Channel :=
  let size := ch.sendingBuf.size
  let capacity := ch.sendingBuf.capacity
  let waitToSend := data.length
  if size + waitToSend ≥ capacity then
    { ch with sendingBuf := (ch.sendingBuf.reserve A (capacity + waitToSend)).insert A size data }
  else if size = 0 then { ch with sendingBuf := ch.sendingBuf.insert A 0 data }
  else { ch with sendingBuf := ch.sendingBuf.insert A size data }

/-- The erasure of the `sent` bytes that `::write` accepted. -/
def eraseSent (ch : Channel) (sent : Nat) : Channel :=
  { ch with sendingBuf := ch.sendingBuf.erase A sent }

variable {A}

theorem receive_cases {ch ch' : Channel} {chunks : List (List UInt8)}
    (h : ch.receive A chunks = some ch') : ∃ buf count,
      readLoop A ch.receivedBuf ch.receivedCount (ch.receivedBuf.capacity - ch.receivedCount) 0
        chunks = some (buf, count) ∧
      ch' = { ch with receivedBuf := buf, receivedCount := count } := by
  obtain ⟨⟨buf, count⟩, hloop, rfl⟩ := Option.map_eq_some_iff.mp h
  exact ⟨buf, count, hloop, rfl⟩

/-- The string keeps its size, and every byte that was read is counted. -/
theorem readLoop_count (chunks : List (List UInt8)) {buf out : CxxString}
    {count validSize got count' : Nat}
    (h : readLoop A buf count validSize got chunks = some (out, count')) :
    out.size = buf.size ∧ count' = count + got + chunks.flatten.length := by
  have hgrow (buf : CxxString) (p : Prop) [Decidable p] (m : Nat) :
      (if p then buf.reserve A m else buf).size = buf.size := by
    split
    · exact CxxString.size_reserve A m buf
    · rfl
  induction chunks generalizing buf count validSize got with
  | nil =>
    simp only [readLoop, Option.some.injEq, Prod.mk.injEq] at h
    obtain ⟨rfl, rfl⟩ := h
    exact ⟨hgrow buf _ _, rfl⟩
  | cons chunk chunks ih =>
    simp only [readLoop] at h
    generalize hgrown : (if validSize = got then
      buf.reserve A (3 * buf.capacity / 2) else buf) = grown at h
    split at h
    · obtain ⟨hsize, hcount⟩ := ih h
      constructor
      · calc out.size = grown.size := hsize
          _ = buf.size := by rw [← hgrown, hgrow]
      · rw [hcount, List.flatten_cons, List.length_append]
        omega
    · cases h

theorem receive_count {ch ch' : Channel} {chunks : List (List UInt8)}
    (h : ch.receive A chunks = some ch') : ch'.receivedBuf.size = ch.receivedBuf.size ∧
      ch'.receivedCount = ch.receivedCount + chunks.flatten.length := by
  obtain ⟨buf, count, hloop, rfl⟩ := receive_cases h
  exact readLoop_count chunks hloop

theorem read_of_inactive {ch : Channel} (hactive : ch.active = false) (chunks : List (List UInt8))
    (ended : ReadEnd) : ch.read A chunks ended = some (ch, none) := by
  rw [read, hactive]
  rfl

theorem read_error_of_active {ch : Channel} (hactive : ch.active = true)
    (chunks : List (List UInt8)) : ch.read A chunks .error =
      (ch.receive A chunks).map fun ch => (ch, some (.dataReady ch.fd)) := by
  rw [read, hactive]
  rfl

/-- The bytes that are buffered for the application. -/
def buffered (ch : Channel) : List UInt8 := ch.receivedBuf.mem.take ch.receivedCount

/-- Fetching what lies within the size of the string empties the buffer of a channel that is
active, or empty already. -/
theorem getReceivedData_eq {ch : Channel} (hactive : 0 < ch.receivedCount → ch.active = true)
    (hsize : ch.receivedCount ≤ ch.receivedBuf.size) :
    ch.getReceivedData = ({ ch with receivedCount := 0 }, ch.buffered) := by
  cases Nat.eq_zero_or_pos ch.receivedCount with
  | inl hzero =>
    have hbuffered : ch.buffered = [] := by rw [buffered, hzero, List.take_zero]
    have hsame : { ch with receivedCount := 0 } = ch := by rw [← hzero]
    rw [hbuffered, hsame, getReceivedData, hzero]
    split <;> rfl
  | inr hpos =>
    have hcond : (!ch.active) = false := by simp [hactive hpos]
    have hcount : ¬ ch.receivedCount < 1 := Nat.not_lt.mpr hpos
    simp only [getReceivedData, hcond, Bool.false_eq_true, if_false, if_neg hcount]
    simp only [CxxString.substr, CxxString.content, buffered, List.drop_zero, List.take_take,
      Nat.min_eq_left hsize]

/-- Something is returned exactly if something is buffered. -/
theorem getReceivedData_ne_nil_iff {ch : Channel} (hactive : ch.active = true)
    (hsize : 0 < ch.receivedBuf.size) : ch.getReceivedData.2 ≠ [] ↔ 0 < ch.receivedCount := by
  have hcond : (!ch.active) = false := by simp [hactive]
  simp only [getReceivedData, hcond, Bool.false_eq_true, if_false]
  split
  · rename_i hnone
    constructor
    · intro h
      exact absurd rfl h
    · intro hpos
      exact absurd hnone (Nat.not_lt.mpr hpos)
  · rename_i hsome
    have hpos : 0 < ch.receivedCount := Nat.not_lt.mp hsome
    refine ⟨fun _ => hpos, fun _ => List.ne_nil_of_length_pos ?_⟩
    simp only [CxxString.substr, List.drop_zero, List.length_take, CxxString.length_content]
    omega

theorem getReceivedData_cases (ch : Channel) : ∃ count,
    ch.getReceivedData.1 = { ch with receivedCount := count } ∧ count ≤ ch.receivedCount ∧
      (ch.active = true → count = 0) := by
  simp only [getReceivedData]
  split
  · rename_i hinactive
    refine ⟨ch.receivedCount, rfl, Nat.le_refl _, fun hactive => ?_⟩
    simp [hactive] at hinactive
  · split
    · rename_i hnone
      exact ⟨ch.receivedCount, rfl, Nat.le_refl _, fun _ => Nat.lt_one_iff.mp hnone⟩
    · exact ⟨0, rfl, Nat.zero_le _, fun _ => rfl⟩

theorem appendToSend_cases (A : Allocator) (ch : Channel) (data : List UInt8) :
    ∃ buf, ch.appendToSend A data = { ch with sendingBuf := buf } := by
  simp only [appendToSend]
  split
  · exact ⟨_, rfl⟩
  · split <;> exact ⟨_, rfl⟩

def unsent (ch : Channel) : List UInt8 := ch.sendingBuf.content

@[simp] theorem unsent_create (fd : Int) (ptr : Option Nat) : (create A fd ptr).unsent = [] := by
  simp [create, unsent, CxxString.content, CxxString.clear]

/-- All three insertion branches append. -/
@[simp] theorem unsent_appendToSend (ch : Channel) (data : List UInt8) :
    (ch.appendToSend A data).unsent = ch.unsent ++ data := by
  simp only [appendToSend, unsent]
  split
  · have hinsert := CxxString.content_insert_size A
      (ch.sendingBuf.reserve A (ch.sendingBuf.capacity + data.length)) data
    rwa [CxxString.size_reserve, CxxString.content_reserve] at hinsert
  · split
    · rename_i hzero
      have hinsert := CxxString.content_insert_size A ch.sendingBuf data
      rwa [hzero] at hinsert
    · exact CxxString.content_insert_size A ch.sendingBuf data

@[simp] theorem unsent_eraseSent (ch : Channel) (sent : Nat) :
    (ch.eraseSent A sent).unsent = ch.unsent.drop sent :=
  CxxString.content_erase A ch.sendingBuf sent

end Channel

end ServerDevLib.Reactor
