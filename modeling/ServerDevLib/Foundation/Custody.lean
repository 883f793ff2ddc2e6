import Mathlib.Data.List.Nodup
import Mathlib.Logic.Function.Basic
import ServerDevLib.Foundation.Transition

/-!
# Items with one holder

Numbered items are acquired by holders, which give them on, mark them and
release them. Whatever the holders do, an item has one of them at most and is
marked and released once at most. All items are marked and released in the end
exactly if nobody was given an item on top of another one, and nobody released
an item that had no mark.
-/

namespace ServerDevLib

open Transition

universe u v w

/-- `next` is the number of the next item that is acquired. -/
structure Custody (O : Type u) where
  held : O → Option Nat
  marked : List Nat
  released : List Nat
  next : Nat

namespace Custody

inductive Op (O : Type u)
  | stay
  | acquire (o : O)
  | give (dst src : O)
  | mark (o : O)
  | release (o : O)

variable {O : Type u}

def Allowed (c : Custody O) : Op O → Prop
  | .acquire o => c.held o = none
  | .give dst src => dst ≠ src
  | .mark o => ∀ n, c.held o = some n → n ∉ c.marked
  | .stay | .release _ => True

/-- No item is given to the holder of another one, and none is released without a mark. -/
def Careful (c : Custody O) : Op O → Prop
  | .give dst _ => c.held dst = none
  | .release o => ∀ n, c.held o = some n → n ∈ c.marked
  | .stay | .acquire _ | .mark _ => True

structure Sole (c : Custody O) : Prop where
  holder : ∀ o o' n, c.held o = some n → c.held o' = some n → o = o'
  heldOld : ∀ o n, c.held o = some n → n < c.next
  markedOld : ∀ n ∈ c.marked, n < c.next
  releasedOld : ∀ n ∈ c.released, n < c.next
  apart : ∀ o n, c.held o = some n → n ∉ c.released
  markedOnce : c.marked.Nodup
  releasedOnce : c.released.Nodup

/-- No item is lost. -/
def Kept (c : Custody O) : Prop :=
  ∀ n < c.next, (∃ o, c.held o = some n) ∨ n ∈ c.marked ∧ n ∈ c.released

def Settled (c : Custody O) : Prop :=
  ∀ n < c.next, c.marked.count n = 1 ∧ c.released.count n = 1

theorem sole_empty : (⟨fun _ => none, [], [], 0⟩ : Custody O).Sole where
  holder _ _ _ h := nomatch h
  heldOld _ _ h := nomatch h
  markedOld _ h := nomatch h
  releasedOld _ h := nomatch h
  apart _ _ h := nomatch h
  markedOnce := List.nodup_nil
  releasedOnce := List.nodup_nil

variable {c : Custody O} {o dst src : O} {op : Op O} {n : Nat}

/-- Where nothing is held any more, what is kept is settled. -/
theorem Sole.settled_iff_kept (h : c.Sole) (hnone : ∀ o, c.held o = none) : c.Settled ↔ c.Kept := by
  constructor
  · intro hsettled n hn
    obtain ⟨hmarked, hreleased⟩ := hsettled n hn
    right
    constructor
    · exact List.count_pos_iff.mp (by omega)
    · exact List.count_pos_iff.mp (by omega)
  · intro hkept n hn
    cases hkept n hn with
    | inl hheld =>
      obtain ⟨o, ho⟩ := hheld
      rw [hnone o] at ho
      cases ho
    | inr hdone =>
      exact ⟨List.count_eq_one_of_mem h.markedOnce hdone.1,
        List.count_eq_one_of_mem h.releasedOnce hdone.2⟩

variable [DecidableEq O]

def apply (c : Custody O) : Op O → Custody O
  | .stay => c
  | .acquire o => { c with held := Function.update c.held o (some c.next), next := c.next + 1 }
  | .give dst src =>
    { c with held := Function.update (Function.update c.held dst (c.held src)) src none }
  | .mark o => { c with marked := c.marked ++ (c.held o).toList }
  | .release o =>
    { c with
      held := Function.update c.held o none
      released := c.released ++ (c.held o).toList }

theorem held_acquire {o' : O} : (c.apply (.acquire o)).held o' = some n ↔
    o' = o ∧ n = c.next ∨ o' ≠ o ∧ c.held o' = some n := by
  change Function.update c.held o (some c.next) o' = some n ↔ _
  obtain rfl | hne := eq_or_ne o' o
  · simp [eq_comm]
  · simp [hne]

theorem held_give (hne : dst ≠ src) {o' : O} : (c.apply (.give dst src)).held o' = some n ↔
    o' = dst ∧ c.held src = some n ∨ (o' ≠ dst ∧ o' ≠ src) ∧ c.held o' = some n := by
  change Function.update (Function.update c.held dst (c.held src)) src none o' = some n ↔ _
  obtain rfl | hsrc := eq_or_ne o' src
  · simp [hne.symm]
  · rw [Function.update_of_ne hsrc]
    obtain rfl | hdst := eq_or_ne o' dst
    · simp
    · simp [hdst, hsrc]

theorem held_release {o' : O} : (c.apply (.release o)).held o' = some n ↔
    o' ≠ o ∧ c.held o' = some n := by
  change Function.update c.held o none o' = some n ↔ _
  obtain rfl | hne := eq_or_ne o' o
  · simp
  · simp [hne]

theorem mem_marked_mark : n ∈ (c.apply (.mark o)).marked ↔ n ∈ c.marked ∨ c.held o = some n := by
  change n ∈ c.marked ++ (c.held o).toList ↔ _
  rw [List.mem_append, Option.mem_toList]

theorem mem_released_release :
    n ∈ (c.apply (.release o)).released ↔ n ∈ c.released ∨ c.held o = some n := by
  change n ∈ c.released ++ (c.held o).toList ↔ _
  rw [List.mem_append, Option.mem_toList]

theorem nodup_append_held {l : List Nat} (hl : l.Nodup) {i : Option Nat}
    (hnew : ∀ n, i = some n → n ∉ l) : (l ++ i.toList).Nodup := by
  cases i with
  | none => rwa [Option.toList_none, List.append_nil]
  | some n =>
    exact List.Nodup.append hl (List.nodup_singleton n)
      (List.disjoint_singleton.mpr (hnew n rfl))

theorem Sole.acquire (h : c.Sole) (o : O) : (c.apply (.acquire o)).Sole := by
  constructor
  · intro p q n hp hq
    cases held_acquire.mp hp with
    | inl hp =>
      cases held_acquire.mp hq with
      | inl hq => exact hp.1.trans hq.1.symm
      | inr hq => exact absurd (h.heldOld q n hq.2) (by omega)
    | inr hp =>
      cases held_acquire.mp hq with
      | inl hq => exact absurd (h.heldOld p n hp.2) (by omega)
      | inr hq => exact h.holder p q n hp.2 hq.2
  · intro p n hp
    change n < c.next + 1
    cases held_acquire.mp hp with
    | inl hp => omega
    | inr hp => exact Nat.lt_succ_of_lt (h.heldOld p n hp.2)
  · exact fun n hn => Nat.lt_succ_of_lt (h.markedOld n hn)
  · exact fun n hn => Nat.lt_succ_of_lt (h.releasedOld n hn)
  · intro p n hp hreleased
    cases held_acquire.mp hp with
    | inl hp => exact absurd (h.releasedOld n hreleased) (by omega)
    | inr hp => exact h.apart p n hp.2 hreleased
  · exact h.markedOnce
  · exact h.releasedOnce

theorem Sole.give (h : c.Sole) (hne : dst ≠ src) : (c.apply (.give dst src)).Sole := by
  constructor
  · intro p q n hp hq
    cases (held_give hne).mp hp with
    | inl hp =>
      cases (held_give hne).mp hq with
      | inl hq => exact hp.1.trans hq.1.symm
      | inr hq => exact absurd (h.holder q src n hq.2 hp.2) hq.1.2
    | inr hp =>
      cases (held_give hne).mp hq with
      | inl hq => exact absurd (h.holder p src n hp.2 hq.2) hp.1.2
      | inr hq => exact h.holder p q n hp.2 hq.2
  · intro p n hp
    cases (held_give hne).mp hp with
    | inl hp => exact h.heldOld src n hp.2
    | inr hp => exact h.heldOld p n hp.2
  · exact h.markedOld
  · exact h.releasedOld
  · intro p n hp
    cases (held_give hne).mp hp with
    | inl hp => exact h.apart src n hp.2
    | inr hp => exact h.apart p n hp.2
  · exact h.markedOnce
  · exact h.releasedOnce

theorem Sole.mark (h : c.Sole) (hnew : ∀ n, c.held o = some n → n ∉ c.marked) :
    (c.apply (.mark o)).Sole where
  holder := h.holder
  heldOld := h.heldOld
  markedOld n hn := by
    cases mem_marked_mark.mp hn with
    | inl hn => exact h.markedOld n hn
    | inr hn => exact h.heldOld o n hn
  releasedOld := h.releasedOld
  apart := h.apart
  markedOnce := nodup_append_held h.markedOnce hnew
  releasedOnce := h.releasedOnce

theorem Sole.release (h : c.Sole) (o : O) : (c.apply (.release o)).Sole where
  holder p q n hp hq := h.holder p q n (held_release.mp hp).2 (held_release.mp hq).2
  heldOld p n hp := h.heldOld p n (held_release.mp hp).2
  markedOld := h.markedOld
  releasedOld n hn := by
    cases mem_released_release.mp hn with
    | inl hn => exact h.releasedOld n hn
    | inr hn => exact h.heldOld o n hn
  apart p n hp hn := by
    obtain ⟨hne, hp⟩ := held_release.mp hp
    cases mem_released_release.mp hn with
    | inl hn => exact h.apart p n hp hn
    | inr hn => exact hne (h.holder p o n hp hn)
  markedOnce := h.markedOnce
  releasedOnce := nodup_append_held h.releasedOnce fun n hn => h.apart o n hn

theorem Sole.apply (h : c.Sole) (ha : c.Allowed op) : (c.apply op).Sole := by
  cases op with
  | stay => exact h
  | acquire o => exact h.acquire o
  | give dst src => exact h.give ha
  | mark o => exact h.mark ha
  | release o => exact h.release o

/-- Careful operations lose nothing. -/
theorem Kept.apply (hk : c.Kept) (ha : c.Allowed op) (hc : c.Careful op) : (c.apply op).Kept := by
  cases op with
  | stay => exact hk
  | acquire o =>
    intro n hn
    cases Nat.lt_succ_iff_lt_or_eq.mp hn with
    | inl hlt =>
      cases hk n hlt with
      | inl hheld =>
        obtain ⟨p, hp⟩ := hheld
        have hne : p ≠ o := by
          rintro rfl
          cases ha.symm.trans hp
        exact .inl ⟨p, held_acquire.mpr (.inr ⟨hne, hp⟩)⟩
      | inr hdone => exact .inr hdone
    | inr heq => exact .inl ⟨o, held_acquire.mpr (.inl ⟨rfl, heq⟩)⟩
  | give dst src =>
    intro n hn
    cases hk n hn with
    | inl hheld =>
      obtain ⟨p, hp⟩ := hheld
      left
      obtain rfl | hsrc := eq_or_ne p src
      · exact ⟨dst, (held_give ha).mpr (.inl ⟨rfl, hp⟩)⟩
      · have hdst : p ≠ dst := by
          rintro rfl
          cases hc.symm.trans hp
        exact ⟨p, (held_give ha).mpr (.inr ⟨⟨hdst, hsrc⟩, hp⟩)⟩
    | inr hdone => exact .inr hdone
  | mark o =>
    intro n hn
    cases hk n hn with
    | inl hheld => exact .inl hheld
    | inr hdone => exact .inr ⟨mem_marked_mark.mpr (.inl hdone.1), hdone.2⟩
  | release o =>
    intro n hn
    cases hk n hn with
    | inl hheld =>
      obtain ⟨p, hp⟩ := hheld
      obtain rfl | hne := eq_or_ne p o
      · exact .inr ⟨hc n hp, mem_released_release.mpr (.inr hp)⟩
      · exact .inl ⟨p, held_release.mpr ⟨hne, hp⟩⟩
    | inr hdone => exact .inr ⟨hdone.1, mem_released_release.mpr (.inl hdone.2)⟩

/-- What is kept afterwards was kept before. -/
theorem Kept.of_apply (ha : c.Allowed op) (hk : (c.apply op).Kept) : c.Kept := by
  intro n hn
  cases op with
  | stay => exact hk n hn
  | acquire o =>
    cases hk n (Nat.lt_succ_of_lt hn) with
    | inl hheld =>
      obtain ⟨p, hp⟩ := hheld
      cases held_acquire.mp hp with
      | inl hp => exact absurd hn (by omega)
      | inr hp => exact .inl ⟨p, hp.2⟩
    | inr hdone => exact .inr hdone
  | give dst src =>
    cases hk n hn with
    | inl hheld =>
      obtain ⟨p, hp⟩ := hheld
      cases (held_give ha).mp hp with
      | inl hp => exact .inl ⟨src, hp.2⟩
      | inr hp => exact .inl ⟨p, hp.2⟩
    | inr hdone => exact .inr hdone
  | mark o =>
    cases hk n hn with
    | inl hheld => exact .inl hheld
    | inr hdone =>
      cases mem_marked_mark.mp hdone.1 with
      | inl hmarked => exact .inr ⟨hmarked, hdone.2⟩
      | inr hheld => exact .inl ⟨o, hheld⟩
  | release o =>
    cases hk n hn with
    | inl hheld =>
      obtain ⟨p, hp⟩ := hheld
      exact .inl ⟨p, (held_release.mp hp).2⟩
    | inr hdone =>
      cases mem_released_release.mp hdone.2 with
      | inl hreleased => exact .inr ⟨hdone.1, hreleased⟩
      | inr hheld => exact .inl ⟨o, hheld⟩

/-- An item that is overwritten, or released without a mark, is lost. -/
theorem Sole.careful_of_kept (h : c.Sole) (ha : c.Allowed op) (hk : (c.apply op).Kept) :
    c.Careful op := by
  cases op with
  | stay => trivial
  | acquire o => trivial
  | mark o => trivial
  | give dst src =>
    cases hheld : c.held dst with
    | none => exact hheld
    | some n =>
      exfalso
      cases hk n (h.heldOld dst n hheld) with
      | inl hholder =>
        obtain ⟨p, hp⟩ := hholder
        cases (held_give ha).mp hp with
        | inl hp => exact ha (h.holder dst src n hheld hp.2)
        | inr hp => exact hp.1.1 (h.holder p dst n hp.2 hheld)
      | inr hdone => exact h.apart dst n hheld hdone.2
  | release o =>
    intro n hheld
    cases hk n (h.heldOld o n hheld) with
    | inl hholder =>
      obtain ⟨p, hp⟩ := hholder
      obtain ⟨hne, hp⟩ := held_release.mp hp
      exact absurd (h.holder p o n hp hheld) hne
    | inr hdone => exact hdone.1

variable {σ : Type v} {α : Type w}

/-- The steps of a machine are operations, on top of an invariant of its own. -/
structure Refines (M : Machine σ α) (abs : σ → Custody O) (next : σ → α → Op O)
    (Inv : σ → Prop) : Prop where
  init : ∀ s, M.init s → (abs s).Sole ∧ Inv s
  allowed : ∀ s a s', Inv s → M.step s a = some s' → (abs s).Allowed (next s a)
  apply : ∀ s a s', Inv s → M.step s a = some s' → abs s' = (abs s).apply (next s a)
  keeps : ∀ s a s', (abs s).Sole → Inv s → M.step s a = some s' → Inv s'

variable {M : Machine σ α} {abs : σ → Custody O} {next : σ → α → Op O} {Inv : σ → Prop}

theorem Refines.step (hM : Refines M abs next Inv) {s s' : σ} {a : α} (hs : (abs s).Sole ∧ Inv s)
    (hstep : M.step s a = some s') : (abs s').Sole ∧ Inv s' := by
  obtain ⟨hsole, hinv⟩ := hs
  rw [hM.apply s a s' hinv hstep]
  exact ⟨hsole.apply (hM.allowed s a s' hinv hstep), hM.keeps s a s' hsole hinv hstep⟩

/-- In every run the items have one holder. -/
theorem Refines.sole_of_reachable (hM : Refines M abs next Inv) {s : σ} (hr : M.Reachable s) :
    (abs s).Sole ∧ Inv s :=
  hr.invariant hM.init fun _ _ _ hs _ hstep => hM.step hs hstep

/-- A run keeps every item exactly if each of its operations is careful. -/
theorem Refines.kept_run_iff (hM : Refines M abs next Inv) {as : List α} {s s' : σ}
    (hs : (abs s).Sole ∧ Inv s) (hrun : M.run s as = some s') :
    (abs s').Kept ↔ (abs s).Kept ∧ M.AllSteps (fun s a => (abs s).Careful (next s a)) s as := by
  induction as generalizing s with
  | nil =>
    cases hrun
    exact (and_iff_left trivial).symm
  | cons a as ih =>
    obtain ⟨t, ht, hrest⟩ := Option.bind_eq_some_iff.mp hrun
    have ha := hM.allowed s a t hs.2 ht
    rw [ih (hM.step hs ht) hrest, hM.apply s a t hs.2 ht]
    constructor
    · rintro ⟨hkept, hall⟩
      refine ⟨hkept.of_apply ha, fun t' ht' => ?_⟩
      cases ht.symm.trans ht'
      exact ⟨hs.1.careful_of_kept ha hkept, hall⟩
    · rintro ⟨hkept, hall⟩
      obtain ⟨hcareful, hall⟩ := hall t ht
      exact ⟨hkept.apply ha hcareful, hall⟩

end Custody

end ServerDevLib
