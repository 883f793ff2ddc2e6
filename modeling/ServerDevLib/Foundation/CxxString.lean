import ServerDevLib.Foundation.Memory
import Mathlib.Data.List.Basic

/-!
# Strings with a size and a capacity

A string owns an allocation, whose length is its capacity; its characters are
the first `size` cells. The cells behind the size can be written through the
data pointer, but no operation of the string looks at them: a reallocation
copies the characters alone, and `substr` never reaches behind them. How much
a reallocation reserves, and what fresh cells contain, is up to the allocator.
-/

namespace ServerDevLib.Text

open Memory

structure Allocator where
  capacityFor : Nat → Nat → Nat
  le_capacityFor : ∀ old requested, requested ≤ capacityFor old requested
  fresh : Nat → UInt8

/-- Growth by doubling, as the usual implementation has it, over zeroed cells. -/
def Allocator.doubling : Allocator where
  capacityFor old requested := max requested (2 * old)
  le_capacityFor _ _ := Nat.le_max_left _ _
  fresh _ := 0

structure CxxString where
  mem : List UInt8
  size : Nat
  size_le : size ≤ mem.length

namespace CxxString

def capacity (s : CxxString) : Nat := s.mem.length

def content (s : CxxString) : List UInt8 := s.mem.take s.size

@[simp] theorem length_content (s : CxxString) : s.content.length = s.size := by
  simp [content, s.size_le]

/-- The string with the given characters in an allocation of the given length at least. -/
def ofContent (A : Allocator) (chars : List UInt8) (cap : Nat) : CxxString where
  mem := chars ++ (List.range (cap - chars.length)).map A.fresh
  size := chars.length
  size_le := by simp

@[simp] theorem content_ofContent (A : Allocator) (chars : List UInt8) (cap : Nat) :
    (ofContent A chars cap).content = chars := by
  simp [ofContent, content]

theorem capacity_ofContent (A : Allocator) {chars : List UInt8} {cap : Nat}
    (h : chars.length ≤ cap) : (ofContent A chars cap).capacity = cap := by
  simp only [capacity, ofContent, List.length_append, List.length_map, List.length_range]
  omega

def fill (A : Allocator) (n : Nat) (c : UInt8) : CxxString :=
  ofContent A (List.replicate n c) (A.capacityFor 0 n)

def clear (s : CxxString) : CxxString := { s with size := 0, size_le := Nat.zero_le _ }

def reserve (A : Allocator) (m : Nat) (s : CxxString) : CxxString :=
  if m ≤ s.capacity then s else ofContent A s.content (A.capacityFor s.capacity m)

@[simp] theorem content_reserve (A : Allocator) (m : Nat) (s : CxxString) :
    (s.reserve A m).content = s.content := by
  simp only [reserve]
  split
  · rfl
  · exact content_ofContent A _ _

@[simp] theorem size_reserve (A : Allocator) (m : Nat) (s : CxxString) :
    (s.reserve A m).size = s.size := by
  rw [← length_content, content_reserve, length_content]

theorem capacity_reserve (A : Allocator) {m : Nat} {s : CxxString} (h : s.capacity < m) :
    (s.reserve A m).capacity = A.capacityFor s.capacity m := by
  have hle := A.le_capacityFor s.capacity m
  have hsize := s.size_le
  simp only [capacity] at h hle
  rw [reserve, if_neg (by simp only [capacity]; omega)]
  apply capacity_ofContent A
  simp only [length_content, capacity]
  omega

theorem le_capacity_reserve (A : Allocator) (m : Nat) (s : CxxString) :
    s.capacity ≤ (s.reserve A m).capacity := by
  by_cases h : s.capacity < m
  · rw [capacity_reserve A h]
    exact Nat.le_trans (Nat.le_of_lt h) (A.le_capacityFor s.capacity m)
  · have hkept : s.reserve A m = s := if_pos (Nat.not_lt.mp h)
    exact Nat.le_of_eq (congrArg capacity hkept.symm)

/-- A write through the data pointer; neither the size nor the allocation changes. -/
def poke (s : CxxString) (off : Nat) (bytes : List UInt8) : CxxString where
  mem := overwrite s.mem off bytes
  size := s.size
  size_le := Nat.le_trans s.size_le (le_length_overwrite _ _ _)

theorem capacity_poke {s : CxxString} {off : Nat} {bytes : List UInt8}
    (h : off + bytes.length ≤ s.capacity) : (s.poke off bytes).capacity = s.capacity :=
  length_overwrite h

def substr (s : CxxString) (pos n : Nat) : List UInt8 := (s.content.drop pos).take n

/-- The string after its characters were replaced, in a new allocation if they need one. -/
def replaceContent (A : Allocator) (s : CxxString) (chars : List UInt8) : CxxString :=
  if chars.length ≤ s.capacity then
    { mem := chars ++ s.mem.drop chars.length, size := chars.length, size_le := by simp }
  else ofContent A chars (A.capacityFor s.capacity chars.length)

@[simp] theorem content_replaceContent (A : Allocator) (s : CxxString) (chars : List UInt8) :
    (s.replaceContent A chars).content = chars := by
  simp only [replaceContent]
  split
  · simp [content]
  · exact content_ofContent A _ _

def insert (A : Allocator) (s : CxxString) (pos : Nat) (data : List UInt8) : CxxString :=
  s.replaceContent A (s.content.take pos ++ data ++ s.content.drop pos)

def erase (A : Allocator) (s : CxxString) (n : Nat) : CxxString :=
  s.replaceContent A (s.content.drop n)

@[simp] theorem content_insert_size (A : Allocator) (s : CxxString) (data : List UInt8) :
    (s.insert A s.size data).content = s.content ++ data := by
  rw [insert, content_replaceContent, List.take_of_length_le (by simp),
    List.drop_eq_nil_of_le (by simp), List.append_nil]

@[simp] theorem content_erase (A : Allocator) (s : CxxString) (n : Nat) :
    (s.erase A n).content = s.content.drop n :=
  content_replaceContent A s _

end CxxString

end ServerDevLib.Text
