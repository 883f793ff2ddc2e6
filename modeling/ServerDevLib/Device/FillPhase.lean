import ServerDevLib.Device.ReadRuns

/-!
# The regions offered to `ReadData`

Where the tail is behind the head the free slots are two stretches, and the
second one is offered only if the first was filled up. The offered regions lie
inside the ring and avoid the unread bytes, and no other slot is written.
-/

namespace ServerDevLib.Device

open CircularBuffer

universe u

variable {σ : Type u} {dev : Virtual σ}

/-- The pointer and the size that a call of `ReadData` is given. -/
structure Region where
  off : Nat
  len : Nat
  deriving DecidableEq

def Region.Has (r : Region) (i : Nat) : Prop := r.off ≤ i ∧ i < r.off + r.len

/-- The same device, which also records the sizes it is asked for. -/
def Virtual.recorded (dev : Virtual σ) : Virtual (σ × List Nat) where
  readData w n := ((dev.readData w.1 n).1, ((dev.readData w.1 n).2, w.2 ++ [n]))
  isSequential := dev.isSequential

namespace IODevice

variable {d : IODevice}

def offered (dev : Virtual σ) (d : IODevice) (w : σ) : List Region :=
  let len := d.tailSegment
  let readed := toSizeT (dev.readData w len).1.ret
  if d.tail.val > d.head.val ∧ readed ≥ len then [⟨d.tail, len⟩, ⟨0, d.head⟩]
  else [⟨d.tail, len⟩]

/-- What one fill of the ring has to do. The offered regions are those of its calls of `ReadData`,
and it writes nowhere else. -/
structure Fills (dev : Virtual σ) (d : IODevice) (w : σ) : Prop where
  called : (d.fill dev.recorded (w, [])).2.2 = (d.offered dev w).map Region.len
  frame : ∀ i (hi : i < BUFSIZE), (∀ r ∈ d.offered dev w, ¬ r.Has i) →
    (d.fill dev w).1.buf[i] = d.buf[i]
  inside : ∀ r ∈ d.offered dev w, r.off + r.len ≤ BUFSIZE
  disjoint : ∀ r ∈ d.offered dev w, ∀ k < d.size, ¬ r.Has ((d.head + k) % BUFSIZE)
  pending : (d.fill dev w).1.pending = d.pending ++ dev.arriving d w
  size_le : (d.fill dev w).1.size ≤ BUFSIZE
  tail_eq : (d.fill dev w).1.tail.val =
    ((d.fill dev w).1.head + (d.fill dev w).1.size) % BUFSIZE

theorem recorded_fill (dev : Virtual σ) (d : IODevice) (w : σ) :
    (d.fill dev.recorded (w, [])).2.2 = (d.offered dev w).map Region.len := by
  change _ = (d.offered dev.recorded (w, [])).map Region.len
  simp only [fill, offered]
  split_ifs <;> rfl

theorem mem_offered {w : σ} {r : Region} (h : r ∈ d.offered dev w) :
    r = ⟨d.tail, d.tailSegment⟩ ∨ d.head.val < d.tail.val ∧ r = ⟨0, d.head⟩ := by
  simp only [offered] at h
  split at h
  · rename_i hwrap
    simp only [List.mem_cons, List.not_mem_nil, or_false] at h
    cases h with
    | inl htail => exact .inl htail
    | inr hstart => exact .inr ⟨hwrap.1, hstart⟩
  · exact .inl (List.mem_singleton.mp h)

theorem offered_inside {w : σ} {r : Region} (h : r ∈ d.offered dev w) :
    r.off + r.len ≤ BUFSIZE := by
  have htail := d.tailSegment_le
  have hhead := d.head.isLt
  cases mem_offered h with
  | inl hr =>
    subst hr
    exact htail
  | inr hr =>
    obtain ⟨_, rfl⟩ := hr
    change 0 + d.head.val ≤ BUFSIZE
    omega

theorem offered_disjoint (h : d.Valid) (hfree : d.size < BUFSIZE) {w : σ} {r : Region}
    (hr : r ∈ d.offered dev w) {k : Nat} (hk : k < d.size) :
    ¬ r.Has ((d.head + k) % BUFSIZE) := by
  have hhead := d.head.isLt
  have hpos : (d.head + k) % BUFSIZE = if d.head + k < BUFSIZE then d.head + k
      else d.head + k - BUFSIZE := add_mod_eq hhead (by omega)
  rw [hpos]
  cases mem_offered hr with
  | inl heq =>
    subst heq
    simp only [Region.Has, tailSegment]
    cases h.tail_cases with
    | inl hlinear => split_ifs <;> omega
    | inr hwrapped => split_ifs <;> omega
  | inr heq =>
    obtain ⟨hlt, rfl⟩ := heq
    simp only [Region.Has]
    cases h.tail_cases with
    | inl hlinear => split_ifs <;> omega
    | inr hwrapped => split_ifs <;> omega

theorem buf_fill (dev : Virtual σ) (d : IODevice) (w : σ) :
    (d.fill dev w).1.buf =
      let r := dev.readData w d.tailSegment
      if d.tail.val > d.head.val ∧ toSizeT r.1.ret ≥ d.tailSegment then
        store (store d.buf d.tail r.1.bytes) 0 (dev.readData r.2 d.head).1.bytes
      else store d.buf d.tail r.1.bytes := by
  simp only [fill]
  split_ifs <;> rfl

/-- A slot outside of the offered regions keeps its byte. -/
theorem fill_frame (hstore : ∀ w n, (dev.readData w n).1.bytes.length ≤ n) {w : σ} {i : Nat}
    (hi : i < BUFSIZE) (hout : ∀ r ∈ d.offered dev w, ¬ r.Has i) :
    (d.fill dev w).1.buf[i] = d.buf[i] := by
  have hnot {off n : Nat} {bytes : List UInt8} (hle : bytes.length ≤ n)
      (h : ¬ Region.Has ⟨off, n⟩ i) : ¬ (off ≤ i ∧ i < off + bytes.length) := by
    simp only [Region.Has] at h
    omega
  have hbuf := buf_fill dev d w
  simp only [offered] at hout
  have hfirst := hstore w d.tailSegment
  split at hout
  · rename_i hwrap
    have hsecond := hstore (dev.readData w d.tailSegment).2 d.head
    have hstart := hnot hsecond (hout ⟨0, d.head⟩ (by simp))
    have htail := hnot hfirst (hout ⟨d.tail, d.tailSegment⟩ (by simp))
    simp only [if_pos hwrap] at hbuf
    rw [hbuf, getElem_store_of_notMem _ hi hstart, getElem_store_of_notMem _ hi htail]
  · rename_i hwrap
    have htail := hnot hfirst (hout ⟨d.tail, d.tailSegment⟩ (by simp))
    simp only [if_neg hwrap] at hbuf
    rw [hbuf, getElem_store_of_notMem _ hi htail]

theorem window_fill (hstore : ∀ w n, (dev.readData w n).1.bytes.length ≤ n) (h : d.Valid)
    (hfree : d.size < BUFSIZE) (w : σ) : window (d.fill dev w).1.buf d.head d.size = d.pending := by
  apply List.ext_getElem (by simp)
  intro k hk _
  rw [length_window] at hk
  simp only [pending, getElem_window]
  exact fill_frame hstore (Nat.mod_lt _ (by decide)) fun r hr => offered_disjoint h hfree hr hk

/-- Every fill of a ring that is not full adds the delivered bytes behind the pending ones. -/
theorem fills_of_bounded (hdev : dev.Bounded) (h : d.Valid) (hfree : d.size < BUFSIZE) (w : σ) :
    d.Fills dev w := by
  obtain ⟨hvalid, _, hpending⟩ := fill_spec hdev h hfree w
  exact {
    called := recorded_fill dev d w
    frame := fun i hi hout => fill_frame (fun w n => (hdev w n).2) hi hout
    inside := fun r hr => offered_inside hr
    disjoint := fun r hr k hk => offered_disjoint h hfree hr hk
    pending := hpending
    size_le := hvalid.size_le
    tail_eq := hvalid.tail_eq }

/-- Twenty unread bytes; the free slots lie behind the tail and before the head. -/
def twoStretches : IODevice :=
  { mode := .R, isOpen := true, head := Fin.ofNat BUFSIZE 1000, tail := Fin.ofNat BUFSIZE 1020,
    size := 20, buf := Vector.replicate BUFSIZE 32 }

theorem fills_twoStretches : (twoStretches.offered Session.eager ()).length = 2 ∧
    twoStretches.Fills Session.eager () :=
  ⟨by decide, fills_of_bounded Session.eager_bounded ⟨by decide, by decide⟩ (by decide) ()⟩

end IODevice

end ServerDevLib.Device
