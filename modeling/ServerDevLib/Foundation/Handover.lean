import Mathlib.Data.List.Nodup
import Mathlib.Logic.Function.Basic
import ServerDevLib.Foundation.Transition

/-!
# Items that are handed over once

Threads are issued numbered items and hand each of them over to one of several
logs. An item is held by one thread until it enters a log, and it enters one
log once. A machine each of whose steps issues an item, hands one over or does
neither has this in every reachable state.
-/

namespace ServerDevLib

open Transition

universe u v w x

/-- `next` is the number of the next item that is issued. -/
structure Handover (T : Type u) (I : Type v) where
  held : T → Option Nat
  entered : I → List Nat
  next : Nat

namespace Handover

variable {T : Type u} {I : Type v} [DecidableEq T] [DecidableEq I]

def issue (h : Handover T I) (t : T) : Handover T I :=
  { h with held := Function.update h.held t (some h.next), next := h.next + 1 }

def enter (h : Handover T I) (t : T) (i : I) (n : Nat) : Handover T I :=
  { h with
    held := Function.update h.held t none
    entered := Function.update h.entered i (h.entered i ++ [n]) }

inductive Move : Handover T I → Handover T I → Prop
  | stay (h : Handover T I) : Move h h
  | issue (h : Handover T I) (t : T) (idle : h.held t = none) : Move h (h.issue t)
  | enter (h : Handover T I) (t : T) (i : I) (n : Nat) (holds : h.held t = some n) :
      Move h (h.enter t i n)

omit [DecidableEq T] [DecidableEq I] in
/-- An item has entered one log once, or is still held by one thread. -/
structure Once (h : Handover T I) : Prop where
  once : ∀ i, (h.entered i).Nodup
  one : ∀ i j, ∀ n ∈ h.entered i, n ∈ h.entered j → i = j
  old : ∀ i, ∀ n ∈ h.entered i, n < h.next
  holding : ∀ t n, h.held t = some n → n < h.next ∧ ∀ i, n ∉ h.entered i
  holder : ∀ t u n, h.held t = some n → h.held u = some n → t = u
  issued : ∀ n < h.next, (∃ t, h.held t = some n) ∨ ∃ i, n ∈ h.entered i

variable {h h' : Handover T I} {t u : T} {i j : I} {n m : Nat}

omit [DecidableEq I] in
theorem held_update {o : Option Nat} (hu : Function.update h.held t o u = some n) :
    u = t ∧ o = some n ∨ u ≠ t ∧ h.held u = some n := by
  obtain rfl | hne := eq_or_ne u t
  · rw [Function.update_self] at hu
    exact .inl ⟨rfl, hu⟩
  · rw [Function.update_of_ne hne] at hu
    exact .inr ⟨hne, hu⟩

theorem mem_entered_enter :
    m ∈ (h.enter t i n).entered j ↔ m ∈ h.entered j ∨ j = i ∧ m = n := by
  change m ∈ Function.update h.entered i (h.entered i ++ [n]) j ↔ _
  obtain rfl | hne := eq_or_ne j i
  · simp
  · rw [Function.update_of_ne hne]
    exact (or_iff_left fun hself => hne hself.1).symm

omit [DecidableEq I] in
theorem Once.issue (ho : h.Once) (hidle : h.held t = none) : (h.issue t).Once := by
  have hfresh {w : T} (hw : h.held w = some h.next) : False :=
    Nat.lt_irrefl _ (ho.holding w _ hw).1
  constructor
  · exact ho.once
  · exact ho.one
  · exact fun i n hn => Nat.lt_succ_of_lt (ho.old i n hn)
  · intro u n hu
    cases held_update hu with
    | inl hself =>
      cases hself.2
      exact ⟨Nat.lt_succ_self _, fun i hentered => absurd (ho.old i _ hentered) (Nat.lt_irrefl _)⟩
    | inr hother =>
      obtain ⟨hlt, hentered⟩ := ho.holding u n hother.2
      exact ⟨Nat.lt_succ_of_lt hlt, hentered⟩
  · intro u v n hu hv
    cases held_update hu with
    | inl hself =>
      cases hself.2
      cases held_update hv with
      | inl hself' => exact hself.1.trans hself'.1.symm
      | inr hother => exact (hfresh hother.2).elim
    | inr hother =>
      cases held_update hv with
      | inl hself =>
        cases hself.2
        exact (hfresh hother.2).elim
      | inr hother' => exact ho.holder u v n hother.2 hother'.2
  · intro n hn
    cases Nat.lt_succ_iff_lt_or_eq.mp hn with
    | inl hlt =>
      cases ho.issued n hlt with
      | inl hheld =>
        obtain ⟨u, hu⟩ := hheld
        have hne : u ≠ t := by
          rintro rfl
          rw [hidle] at hu
          cases hu
        exact .inl ⟨u, (Function.update_of_ne hne _ _).trans hu⟩
      | inr hentered => exact .inr hentered
    | inr heq =>
      rw [heq]
      exact .inl ⟨t, Function.update_self ..⟩

theorem Once.enter (ho : h.Once) (hheld : h.held t = some n) : (h.enter t i n).Once := by
  obtain ⟨hlt, hnew⟩ := ho.holding t n hheld
  have hother {u : T} {m : Nat} (hu : (h.enter t i n).held u = some m) :
      u ≠ t ∧ h.held u = some m := by
    cases held_update hu with
    | inl hself => cases hself.2
    | inr hother => exact hother
  constructor
  · intro j
    change (Function.update h.entered i (h.entered i ++ [n]) j).Nodup
    obtain rfl | hne := eq_or_ne j i
    · rw [Function.update_self]
      exact List.Nodup.append (ho.once j) (List.nodup_singleton n)
        (List.disjoint_singleton.mpr (hnew j))
    · rw [Function.update_of_ne hne]
      exact ho.once j
  · intro j k m hj hk
    cases mem_entered_enter.mp hj with
    | inl hj =>
      cases mem_entered_enter.mp hk with
      | inl hk => exact ho.one j k m hj hk
      | inr hk => exact absurd (hk.2 ▸ hj) (hnew j)
    | inr hj =>
      cases mem_entered_enter.mp hk with
      | inl hk => exact absurd (hj.2 ▸ hk) (hnew k)
      | inr hk => exact hj.1.trans hk.1.symm
  · intro j m hj
    cases mem_entered_enter.mp hj with
    | inl hj => exact ho.old j m hj
    | inr hj => exact hj.2 ▸ hlt
  · intro u m hu
    obtain ⟨hne, hu⟩ := hother hu
    obtain ⟨hlt', hentered⟩ := ho.holding u m hu
    refine ⟨hlt', fun j hj => ?_⟩
    cases mem_entered_enter.mp hj with
    | inl hj => exact hentered j hj
    | inr hj =>
      cases hj.2
      exact hne (ho.holder u t _ hu hheld)
  · intro u v m hu hv
    exact ho.holder u v m (hother hu).2 (hother hv).2
  · intro m hm
    cases ho.issued m hm with
    | inl hholding =>
      obtain ⟨u, hu⟩ := hholding
      obtain rfl | hne := eq_or_ne u t
      · cases hheld.symm.trans hu
        exact .inr ⟨i, mem_entered_enter.mpr (.inr ⟨rfl, rfl⟩)⟩
      · exact .inl ⟨u, (Function.update_of_ne hne _ _).trans hu⟩
    | inr hentered =>
      obtain ⟨j, hj⟩ := hentered
      exact .inr ⟨j, mem_entered_enter.mpr (.inl hj)⟩

theorem Move.once (hm : Move h h') (ho : h.Once) : h'.Once := by
  cases hm with
  | stay => exact ho
  | issue t hidle => exact ho.issue hidle
  | enter t i n hheld => exact ho.enter hheld

omit [DecidableEq T] [DecidableEq I] in
theorem once_empty : (⟨fun _ => none, fun _ => [], 0⟩ : Handover T I).Once where
  once _ := List.nodup_nil
  one _ _ _ h := nomatch h
  old _ _ h := nomatch h
  holding _ _ h := nomatch h
  holder _ _ _ h := nomatch h
  issued _ h := absurd h (Nat.not_lt_zero _)

variable {σ : Type w} {α : Type x}

/-- Along the runs of a machine whose steps are moves. -/
theorem once_of_refines {M : Machine σ α} {cond : σ → α → Prop} (abs : σ → Handover T I)
    (hinit : ∀ s, M.init s → (abs s).Once)
    (hstep : ∀ s a s', M.step s a = some s' → Move (abs s) (abs s'))
    {s : σ} (hr : M.ReachableUnder cond s) : (abs s).Once :=
  hr.invariant hinit fun s a s' ho _ hs => (hstep s a s' hs).once ho

end Handover

end ServerDevLib
