import ServerDevLib.Device.File
import ServerDevLib.Foundation.Transition
import Mathlib.Algebra.Ring.Nat

/-!
# Runs of writes to a file

A write without offset puts the one position of the stream back to where it
was, so that the next write starts at the same place.
-/

namespace ServerDevLib.Device

open FileStream Memory Transition

/-- The arguments of a write without offset that is not empty. -/
structure Payload where
  buf : List UInt8
  size : Nat
  pos : 0 < size
  fits : size ≤ buf.length
  small : size < 2 ^ 64

def Payload.bytes (p : Payload) : List UInt8 := p.buf.take p.size

theorem Payload.length_bytes (p : Payload) : p.bytes.length = p.size := by
  have hfits := p.fits
  rw [bytes, List.length_take]
  omega

namespace File

def writes : Machine File Payload where
  init f := ∃ content, f = create (some content)
  step f p := some (f.write p.buf p.size p.size).1

def counts (f : File) (ps : List Payload) : List Nat :=
  writes.outputs (fun f p => some (f.write p.buf p.size p.size).2) f ps

def contentAfter (f : File) (ps : List Payload) : Option (List UInt8) :=
  (writes.run f ps).map fun f => f.stream.content

variable {f : File}

theorem write_at_start (h : f.Ready) (hpos : f.stream.pos = 0) (p : Payload) :
    ∃ f', f.write p.buf p.size p.size = (f', p.size) ∧ f'.Ready ∧ f'.stream.pos = 0 ∧
      f'.stream.content = overwrite f.stream.content 0 p.bytes := by
  have hcount : toSizeT p.size = p.size := by
    have hsmall := p.small
    simp only [toSizeT]
    omega
  have hwrite := h.write_taken p.pos p.fits (Nat.le_refl _)
  rw [hcount] at hwrite
  refine ⟨_, hwrite, ⟨h.access, h.writing, h.usable⟩, hpos, ?_⟩
  change put f.stream.content f.stream.pos p.bytes = _
  rw [hpos, put_zero]

theorem writes_spec (ps : List Payload) (f : File) (h : f.Ready) (hpos : f.stream.pos = 0) :
    f.contentAfter ps = some (ps.foldl (fun content p => overwrite content 0 p.bytes)
      f.stream.content) ∧ f.counts ps = ps.map Payload.size := by
  induction ps generalizing f with
  | nil => exact ⟨rfl, rfl⟩
  | cons p ps ih =>
    obtain ⟨f', hwrite, hready, hpos', hcontent⟩ := write_at_start h hpos p
    obtain ⟨hrest, hcounts⟩ := ih f' hready hpos'
    have hstep : writes.step f p = some f' := congrArg some (congrArg Prod.fst hwrite)
    constructor
    · rw [contentAfter, Machine.run_cons, hstep, List.foldl_cons, ← hcontent]
      exact hrest
    · rw [counts, Machine.outputs, hstep, hwrite, List.map_cons]
      exact congrArg (p.size :: ·) hcounts

/-- Writes over each other never hold more than all their bytes together. -/
theorem length_foldl_le (ps : List Payload) (content : List UInt8) :
    (ps.foldl (fun content p => overwrite content 0 p.bytes) content).length ≤
      content.length + (ps.map Payload.bytes).flatten.length := by
  induction ps generalizing content with
  | nil => exact Nat.le_refl _
  | cons p ps ih =>
    have hrest := ih (overwrite content 0 p.bytes)
    rw [length_overwrite_start] at hrest
    rw [List.foldl_cons, List.map_cons, List.flatten_cons, List.length_append]
    omega

/-- The content is the concatenation, with each write returning its size, exactly if there are
no two writes. -/
theorem appended_iff (ps : List Payload) :
    ((create (some [])).contentAfter ps = some (ps.map Payload.bytes).flatten ∧
      (create (some [])).counts ps = ps.map Payload.size) ↔ ps.length ≤ 1 := by
  obtain ⟨hcontent, hcounts⟩ := writes_spec ps (create (some [])) (create_ready []) rfl
  rw [hcontent, hcounts, and_iff_left rfl, Option.some.injEq]
  cases ps with
  | nil => exact iff_of_true rfl (Nat.zero_le _)
  | cons p ps =>
    have hfirst : overwrite [] 0 p.bytes = p.bytes := by simp [overwrite]
    cases ps with
    | nil =>
      refine iff_of_true ?_ (Nat.le_refl _)
      rw [List.map_singleton, List.flatten_singleton]
      exact hfirst
    | cons q ps =>
      refine iff_of_false (fun heq => ?_) (by simp)
      have hle := length_foldl_le ps (overwrite p.bytes 0 q.bytes)
      have hlength := congrArg List.length heq
      rw [List.foldl_cons, List.foldl_cons] at hlength
      have hp := p.pos
      have hq := q.pos
      rw [← p.length_bytes] at hp
      rw [← q.length_bytes] at hq
      rw [length_overwrite_start] at hle
      change (ps.foldl _ (overwrite (overwrite [] 0 p.bytes) 0 q.bytes)).length = _ at hlength
      rw [hfirst, List.map_cons, List.map_cons, List.flatten_cons, List.flatten_cons,
        List.length_append, List.length_append] at hlength
      omega

def one : Payload := ⟨[1], 1, by decide, by decide, by decide⟩

def two : Payload := ⟨[2], 1, by decide, by decide, by decide⟩

/-- The second write replaces the byte of the first one. -/
theorem not_appended : (create (some [])).contentAfter [one, two] = some [2] ∧
    (create (some [])).contentAfter [one, two] ≠ some ([one, two].map Payload.bytes).flatten :=
  ⟨by decide, by decide⟩

end File

end ServerDevLib.Device
