import ServerDevLib.Device.File
import ServerDevLib.Foundation.Transition

/-!
# Runs of reads of a file

An offset of zero does not move the position, so that a read from the start of
the file goes on where the last one ended, and a request that is cut short
leaves the failure flag behind. A run of reads is right for every content of a
length exactly if all of them lie inside the file and those from its start
come before the others.
-/

namespace ServerDevLib.Device

open FileStream Memory Transition

inductive ReadCall
  | readAt (offset size : Nat)
  | readFirst (size : Nat)
  | readAll

namespace ReadCall

def offset : ReadCall → Nat
  | readAt offset _ => offset
  | readFirst _ | readAll => 0

def size (length : Nat) : ReadCall → Nat
  | readAt _ size | readFirst size => size
  | readAll => length

def expected (content : List UInt8) : ReadCall → List UInt8
  | readAt offset size => (content.drop offset).take size
  | readFirst size => content.take size
  | readAll => content

/-- Each read with a size stays inside the file, and one from the start of the file finds the
position there. -/
def Inside (length : Nat) : Nat → List ReadCall → Prop
  | _, [] => True
  | pos, call :: calls =>
    if call.size length = 0 then Inside length pos calls
    else call.offset + call.size length ≤ length ∧ (call.offset = 0 → pos = 0) ∧
      Inside length (call.offset + call.size length) calls

theorem expected_eq (content : List UInt8) (call : ReadCall) : call.expected content =
    (content.drop call.offset).take (call.size content.length) := by
  cases call with
  | readAt offset size => rfl
  | readFirst size => rfl
  | readAll => exact (List.take_of_length_le (Nat.le_refl _)).symm

end ReadCall

namespace File

def perform (f : File) : ReadCall → Option (File × List UInt8)
  | .readAt offset size => f.readAt offset size
  | .readFirst size => f.readFirst size
  | .readAll => f.readAll

def reads : Machine File ReadCall where
  init f := ∃ content, f = create (some content)
  step f call := (f.perform call).map Prod.fst

def results (f : File) (calls : List ReadCall) : List (List UInt8) :=
  reads.outputs (fun f call => (f.perform call).map Prod.snd) f calls

/-- A content of which the first byte is no other and no blank. -/
def marked (length : Nat) : List UInt8 :=
  match length with
  | 0 => []
  | n + 1 => 1 :: List.replicate n 0

theorem length_marked (length : Nat) : (marked length).length = length := by
  cases length with
  | zero => rfl
  | succ n => simp [marked]

variable {f f' : File} {call : ReadCall} {calls : List ReadCall}

theorem Ready.perform (h : f.Ready) (call : ReadCall) :
    f.perform call = f.readAt call.offset (call.size f.stream.content.length) := by
  cases call with
  | readAt offset size => rfl
  | readFirst size => exact h.readFirst size
  | readAll =>
    change f.readFirst f.size = _
    rw [h.readFirst, h.size]
    rfl

theorem results_cons {bytes : List UInt8} (h : f.perform call = some (f', bytes)) :
    f.results (call :: calls) = bytes :: f'.results calls := by
  simp [results, Machine.outputs, reads, h]

theorem Ready.perform_nothing (h : f.Ready) (hzero : call.size f.stream.content.length = 0) :
    f.perform call = some (f, call.expected f.stream.content) := by
  rw [h.perform, ReadCall.expected_eq, hzero, h.readAt_zero, List.take_zero]

theorem Ready.perform_inside (h : f.Ready) (hsize : call.size f.stream.content.length ≠ 0)
    (hinside : call.offset + call.size f.stream.content.length ≤ f.stream.content.length)
    (hplace : call.offset = 0 → f.stream.pos = 0) : f.perform call =
      some (f.moveTo (call.offset + call.size f.stream.content.length),
        call.expected f.stream.content) := by
  rw [h.perform, ReadCall.expected_eq]
  exact h.readAt_inside (Nat.pos_of_ne_zero hsize) hinside hplace

theorem results_of_inside (calls : List ReadCall) (f : File) (h : f.Ready)
    (hinside : ReadCall.Inside f.stream.content.length f.stream.pos calls) :
    f.results calls = calls.map (ReadCall.expected f.stream.content) := by
  induction calls generalizing f with
  | nil => rfl
  | cons call calls ih =>
    rw [ReadCall.Inside] at hinside
    split at hinside
    · rename_i hzero
      rw [results_cons (h.perform_nothing hzero), ih f h hinside, List.map_cons]
    · rename_i hsize
      obtain ⟨hbound, hplace, hrest⟩ := hinside
      have hnext := ih (f.moveTo (call.offset + call.size f.stream.content.length)) (h.moveTo _) hrest
      rw [results_cons (h.perform_inside hsize hbound hplace), hnext]
      rfl

/-- Behind the start of a marked file no read finds the mark. -/
theorem Ready.readAt_elsewhere (h : f.Ready) {length size : Nat}
    (hcontent : f.stream.content = marked length) (hpos : 0 < f.stream.pos) (hsize : 0 < size) :
    ∃ f' bytes, f.readAt 0 size = some (f', bytes) ∧ 1 ∉ bytes := by
  refine ⟨_, _, h.readAt hsize (Nat.zero_le _), fun hmem => ?_⟩
  change 1 ∈ overwrite (List.replicate size 32) 0 (f.stream.read _).1 at hmem
  rw [overwrite_zero, List.mem_append] at hmem
  cases hmem with
  | inl hread =>
    simp only [Stream.read, h.usable, if_true, hcontent] at hread
    have hrest := List.mem_of_mem_take hread
    obtain ⟨p, hp⟩ := Nat.exists_eq_succ_of_ne_zero (Nat.ne_of_gt hpos)
    rw [hp] at hrest
    cases length with
    | zero => cases hrest
    | succ n => cases List.eq_of_mem_replicate (List.mem_of_mem_drop hrest)
  | inr hblank => cases List.eq_of_mem_replicate (List.mem_of_mem_drop hblank)

theorem mem_expected_start {length size : Nat} (hsize : 0 < size) (hle : size ≤ length) :
    1 ∈ (marked length).take size := by
  obtain ⟨n, rfl⟩ := Nat.exists_eq_succ_of_ne_zero (Nat.ne_of_gt hsize)
  obtain ⟨m, rfl⟩ := Nat.exists_eq_succ_of_ne_zero (Nat.ne_of_gt (Nat.lt_of_lt_of_le hsize hle))
  exact List.mem_cons_self ..

theorem Ready.inside_of_result (h : f.Ready) {length : Nat}
    (hcontent : f.stream.content = marked length) (hsize : call.size length ≠ 0)
    (hresult : ∃ f', f.perform call = some (f', call.expected f.stream.content)) :
    call.offset + call.size length ≤ length ∧ (call.offset = 0 → f.stream.pos = 0) := by
  obtain ⟨f', hresult⟩ := hresult
  have hlen : f.stream.content.length = length := by rw [hcontent, length_marked]
  rw [h.perform, ReadCall.expected_eq, hlen] at hresult
  have hbound : call.offset + call.size length ≤ length := by
    obtain ⟨_, bytes, hread, hlength⟩ := h.length_readAt call.offset (call.size length)
    cases hread.symm.trans hresult
    rw [List.length_take, List.length_drop, hlen] at hlength
    omega
  refine ⟨hbound, fun hzero => Nat.eq_zero_of_not_pos fun hpos => ?_⟩
  rw [hzero] at hresult hbound
  have hsize := Nat.pos_of_ne_zero hsize
  obtain ⟨_, bytes, hread, hno⟩ := h.readAt_elsewhere hcontent hpos hsize
  cases hread.symm.trans hresult
  apply hno
  rw [List.drop_zero, hcontent]
  exact mem_expected_start hsize (by omega)

theorem inside_of_results (calls : List ReadCall) (f : File) (h : f.Ready) {length : Nat}
    (hcontent : f.stream.content = marked length)
    (hresults : f.results calls = calls.map (ReadCall.expected f.stream.content)) :
    ReadCall.Inside length f.stream.pos calls := by
  induction calls generalizing f with
  | nil => trivial
  | cons call calls ih =>
    have hlen : f.stream.content.length = length := by rw [hcontent, length_marked]
    rw [ReadCall.Inside]
    split
    · rename_i hzero
      rw [results_cons (h.perform_nothing (by rw [hlen, hzero])), List.map_cons] at hresults
      exact ih f h hcontent (List.cons.inj hresults).2
    · rename_i hsize
      obtain ⟨f', bytes, hread, _⟩ := h.length_readAt call.offset (call.size f.stream.content.length)
      rw [← h.perform] at hread
      rw [results_cons hread, List.map_cons] at hresults
      obtain ⟨hbytes, hrest⟩ := List.cons.inj hresults
      obtain ⟨hbound, hplace⟩ := h.inside_of_result hcontent hsize ⟨f', hbytes ▸ hread⟩
      have hnext := h.perform_inside (by rwa [hlen]) (by rwa [hlen]) hplace
      rw [hlen] at hnext
      cases hread.symm.trans hnext
      exact ⟨hbound, hplace, ih _ (h.moveTo _) hcontent hrest⟩

/-- The reads return what they ask for, whatever the content, exactly if they are inside. -/
theorem results_iff (length : Nat) (calls : List ReadCall) :
    (∀ content : List UInt8, content.length = length →
      (create (some content)).results calls = calls.map (ReadCall.expected content)) ↔
      ReadCall.Inside length 0 calls := by
  constructor
  · intro hall
    exact inside_of_results calls (create (some (marked length))) (create_ready _) rfl
      (hall _ (length_marked length))
  · rintro hinside content rfl
    exact results_of_inside calls (create (some content)) (create_ready content) hinside

/-- The second of two reads from the start goes on where the first one ended; a request for more
than there is comes back with a blank and leaves the failure flag to the next call. -/
theorem not_results :
    (create (some [1, 2, 3])).results [.readFirst 1, .readFirst 1] = [[1], [2]] ∧
    (create (some [1, 2, 3])).results [.readAt 2 2, .readAt 1 1] = [[3, 32], [32]] ∧
    (create (some [1, 2, 3])).results [.readFirst 1, .readFirst 1] ≠
      [ReadCall.readFirst 1, .readFirst 1].map (ReadCall.expected [1, 2, 3]) :=
  ⟨by decide, by decide, by decide⟩

end File

end ServerDevLib.Device
