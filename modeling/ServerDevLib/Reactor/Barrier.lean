import ServerDevLib.Foundation.Transition
import Mathlib.Logic.Function.Basic

/-!
# The barrier around a readiness state

`NotifyDataReady` and `HandleReadyData` change a readiness state between a
loop on `exchange(true)` and a loop on `exchange(false)`. Both loops leave
when the exchange returns `true`. The first exchange on a lowered barrier
therefore only raises it, and a raised barrier lets every thread pass. The
section is a load followed by a store, so that two threads inside can
interleave there. The counter `tries` and the calls to `yield` have no effect
on the state and are left out.
-/

namespace ServerDevLib.Reactor

open Transition

universe u

inductive ReadyState
  | ONE
  | MORE
  | MOREPLUS
  deriving DecidableEq

/-- The callers of a section; what each does to the state it finds. -/
inductive Section
  | NotifyDataReady
  | HandleReadyData

def Section.apply : Section → ReadyState → ReadyState
  | .NotifyDataReady, .MORE => .MOREPLUS
  | .NotifyDataReady, .ONE => .MORE
  | .NotifyDataReady, .MOREPLUS => .MOREPLUS
  | .HandleReadyData, .MOREPLUS => .MORE
  | .HandleReadyData, .MORE => .ONE
  | .HandleReadyData, .ONE => .ONE

namespace Barrier

inductive Pc (F : Type u)
  | outside
  | acquiring (sec : Section) (fd : F)
  | entered (sec : Section) (fd : F)
  | loaded (sec : Section) (fd : F) (seen : ReadyState)
  | stored
  | releasing

/-- Between the acquire loop and the release loop. -/
def Pc.Inside {F : Type u} : Pc F → Prop
  | .entered _ _ | .loaded _ _ _ | .stored => True
  | .outside | .acquiring _ _ | .releasing => False

structure State (T F : Type u) where
  barrier : Bool
  ready : F → ReadyState
  pc : T → Pc F

inductive Action (T F : Type u)
  | arrive (t : T) (sec : Section) (fd : F)
  | acquire (t : T)
  | load (t : T)
  | store (t : T)
  | release (t : T)

variable {T F : Type u}

def initial (ready : F → ReadyState) : State T F :=
  { barrier := false, ready := ready, pc := fun _ => .outside }

structure State.Exclusive (s : State T F) : Prop where
  alone : ∀ t, (s.pc t).Inside → ∀ t', (s.pc t').Inside → t = t'
  current : ∀ t sec fd seen, s.pc t = .loaded sec fd seen → s.ready fd = seen

/-- No thread makes an exchange of its acquire loop while another one is inside. -/
def Uncontended (s : State T F) : Action T F → Prop
  | .acquire _ => ∀ t, ¬ (s.pc t).Inside
  | _ => True

/-- While the sections exclude each other, the barrier is raised around each of them, and no
release loop has to wait. -/
structure State.Raised (s : State T F) : Prop where
  held : ∀ t, (s.pc t).Inside → s.barrier = true
  leaves : ∀ t, s.pc t ≠ .releasing

theorem initial_exclusive (ready : F → ReadyState) : (initial ready : State T F).Exclusive :=
  ⟨fun _ h => h.elim, fun _ _ _ _ h => nomatch h⟩

theorem initial_raised (ready : F → ReadyState) : (initial ready : State T F).Raised :=
  ⟨fun _ h => h.elim, fun _ h => nomatch h⟩

theorem State.Exclusive.others_outside {s : State T F} (h : s.Exclusive) {t : T}
    (hin : (s.pc t).Inside) : ∀ t', t' ≠ t → ¬ (s.pc t').Inside :=
  fun t' hne hin' => hne (h.alone t' hin' t hin)

variable [DecidableEq T]

def State.goto (s : State T F) (t : T) (pc : Pc F) : State T F :=
  { s with pc := Function.update s.pc t pc }

def step [DecidableEq F] (s : State T F) : Action T F → Option (State T F)
  | .arrive t sec fd =>
    match s.pc t with
    | .outside => some (s.goto t (.acquiring sec fd))
    | _ => none
  | .acquire t =>
    match s.pc t with
    | .acquiring sec fd =>
      let pc := if s.barrier then .entered sec fd else .acquiring sec fd
      some ({ s with barrier := true }.goto t pc)
    | _ => none
  | .load t =>
    match s.pc t with
    | .entered sec fd => some (s.goto t (.loaded sec fd (s.ready fd)))
    | _ => none
  | .store t =>
    match s.pc t with
    | .loaded sec fd seen =>
      let ready :=
        if sec.apply seen = seen then s.ready else Function.update s.ready fd (sec.apply seen)
      some ({ s with ready := ready }.goto t .stored)
    | _ => none
  | .release t =>
    match s.pc t with
    | .stored | .releasing =>
      some ({ s with barrier := false }.goto t (if s.barrier then .outside else .releasing))
    | _ => none

def machine (T F : Type u) [DecidableEq T] [DecidableEq F] : Machine (State T F) (Action T F) where
  init s := ∃ ready, s = initial ready
  step := step

theorem State.goto_self (s : State T F) (t : T) (pc : Pc F) : (s.goto t pc).pc t = pc :=
  Function.update_self ..

theorem State.goto_of_ne (s : State T F) {t t' : T} (h : t' ≠ t) (pc : Pc F) :
    (s.goto t pc).pc t' = s.pc t' :=
  Function.update_of_ne h ..

variable {s : State T F} {t : T} {pc : Pc F}

theorem State.forall_goto (P : T → Pc F → Prop) :
    (∀ t', P t' ((s.goto t pc).pc t')) ↔ P t pc ∧ ∀ t', t' ≠ t → P t' (s.pc t') :=
  Function.forall_update_iff s.pc P

theorem Pc.inside_of_loaded {F : Type u} {pc : Pc F} {sec : Section} {fd : F} {seen : ReadyState}
    (h : pc = .loaded sec fd seen) : pc.Inside := by
  subst h
  trivial

theorem State.Exclusive.goto_outside (h : s.Exclusive) (hpc : ¬ pc.Inside) :
    (s.goto t pc).Exclusive := by
  have hold (t' : T) (hin : ((s.goto t pc).pc t').Inside) : (s.pc t').Inside := by
    rcases eq_or_ne t' t with rfl | hne
    · rw [s.goto_self] at hin
      exact absurd hin hpc
    · rwa [s.goto_of_ne hne] at hin
  refine ⟨fun t₁ h₁ t₂ h₂ => h.alone t₁ (hold t₁ h₁) t₂ (hold t₂ h₂), ?_⟩
  intro t' sec fd seen hpc'
  rcases eq_or_ne t' t with rfl | hne
  · rw [s.goto_self] at hpc'
    exact absurd (Pc.inside_of_loaded hpc') hpc
  · rw [s.goto_of_ne hne] at hpc'
    exact h.current t' sec fd seen hpc'

/-- A thread may go anywhere, with any change to the rest, while the others are all outside. -/
theorem State.exclusive_goto (hout : ∀ t', t' ≠ t → ¬ (s.pc t').Inside)
    (hloaded : ∀ sec fd seen, pc = .loaded sec fd seen → s.ready fd = seen) :
    (s.goto t pc).Exclusive := by
  have hself (t' : T) (hin : ((s.goto t pc).pc t').Inside) : t' = t := by
    by_contra hne
    rw [s.goto_of_ne hne] at hin
    exact hout t' hne hin
  refine ⟨fun t₁ h₁ t₂ h₂ => (hself t₁ h₁).trans (hself t₂ h₂).symm, ?_⟩
  intro t' sec fd seen hpc'
  obtain rfl := hself t' (Pc.inside_of_loaded hpc')
  rw [s.goto_self] at hpc'
  exact hloaded sec fd seen hpc'

theorem State.Raised.goto (h : s.Raised) (hheld : pc.Inside → s.barrier = true)
    (hleaves : pc ≠ .releasing) : (s.goto t pc).Raised where
  held := (State.forall_goto fun _ pc => pc.Inside → s.barrier = true).mpr
    ⟨hheld, fun t' _ => h.held t'⟩
  leaves := (State.forall_goto fun _ pc => pc ≠ .releasing).mpr ⟨hleaves, fun t' _ => h.leaves t'⟩

variable [DecidableEq F]

theorem raised_step (s : State T F) (a : Action T F) (s' : State T F) (hR : s.Raised)
    (hE : s.Exclusive) (hstep : step s a = some s') : s'.Raised := by
  cases a with
  | arrive t sec fd =>
    simp only [step] at hstep
    split at hstep <;> cases hstep
    exact hR.goto False.elim nofun
  | acquire t =>
    simp only [step] at hstep
    split at hstep <;> cases hstep
    have hR' : ({ s with barrier := true } : State T F).Raised := ⟨fun _ _ => rfl, hR.leaves⟩
    refine hR'.goto (fun _ => rfl) ?_
    split <;> nofun
  | load t =>
    simp only [step] at hstep
    split at hstep <;> cases hstep
    rename_i hpc
    exact hR.goto (fun _ => hR.held t (by rw [hpc]; trivial)) nofun
  | store t =>
    simp only [step] at hstep
    split at hstep <;> cases hstep
    rename_i hpc
    have hheld : s.barrier = true := hR.held t (by rw [hpc]; trivial)
    have hR' (ready : F → ReadyState) : ({ s with ready := ready } : State T F).Raised :=
      ⟨hR.held, hR.leaves⟩
    exact (hR' _).goto (fun _ => hheld) nofun
  | release t =>
    simp only [step] at hstep
    split at hstep
    · cases hstep
      rename_i hpc
      have hin : (s.pc t).Inside := by rw [hpc]; trivial
      rw [if_pos (hR.held t hin)]
      refine ⟨fun t' h' => ?_, ?_⟩
      · rcases eq_or_ne t' t with rfl | hne
        · rw [State.goto_self] at h'
          exact h'.elim
        · rw [State.goto_of_ne _ hne] at h'
          exact absurd (hE.alone t' h' t hin) hne
      · exact (State.forall_goto fun _ pc => pc ≠ .releasing).mpr ⟨nofun, fun t' _ => hR.leaves t'⟩
    · rename_i hpc
      exact absurd hpc (hR.leaves t)
    · cases hstep

/-- From a state with at most one thread inside, a step leads to such a state exactly if it
is not an exchange of an acquire loop under a thread that is inside. -/
theorem exclusive_step_iff (s : State T F) (a : Action T F) (s' : State T F) (hR : s.Raised)
    (hE : s.Exclusive) (hstep : step s a = some s') : s'.Exclusive ↔ Uncontended s a := by
  cases a with
  | arrive t sec fd =>
    simp only [step] at hstep
    split at hstep <;> cases hstep
    exact ⟨fun _ => trivial, fun _ => hE.goto_outside id⟩
  | acquire t =>
    simp only [step] at hstep
    split at hstep <;> cases hstep
    rename_i sec fd hpc
    constructor
    · intro hE' t' hin
      have hne : t' ≠ t := by
        rintro rfl
        rw [hpc] at hin
        exact hin
      -- the thread inside has raised the barrier, so the exchange lets this one in as well
      rw [if_pos (hR.held t' hin)] at hE'
      refine hne (hE'.alone t' ?_ t ?_)
      · rw [State.goto_of_ne _ hne]
        exact hin
      · rw [State.goto_self]
        trivial
    · intro hnone
      refine State.exclusive_goto (fun t' _ => hnone t') fun sec' fd' seen hpc' => ?_
      split at hpc' <;> cases hpc'
  | load t =>
    simp only [step] at hstep
    split at hstep <;> cases hstep
    rename_i hpc
    constructor
    · exact fun _ => trivial
    · intro _
      apply State.exclusive_goto
      · apply hE.others_outside
        rw [hpc]
        trivial
      · rintro sec' fd' seen ⟨⟩
        rfl
  | store t =>
    simp only [step] at hstep
    split at hstep <;> cases hstep
    rename_i hpc
    have hin : (s.pc t).Inside := Pc.inside_of_loaded hpc
    exact ⟨fun _ => trivial, fun _ => State.exclusive_goto (hE.others_outside hin) nofun⟩
  | release t =>
    simp only [step] at hstep
    split at hstep
    · cases hstep
      rename_i hpc
      have hin : (s.pc t).Inside := by rw [hpc]; trivial
      constructor
      · exact fun _ => trivial
      · intro _
        refine State.exclusive_goto (hE.others_outside hin) ?_
        intro sec fd seen hpc'
        split at hpc' <;> cases hpc'
    · rename_i hpc
      exact absurd hpc (hR.leaves t)
    · cases hstep

/-- In a run without contention the section of a thread acts on its entry as one step. -/
theorem store_applies_section (hE : s.Exclusive) {sec : Section} {fd : F} {seen : ReadyState}
    (hpc : s.pc t = .loaded sec fd seen) :
    step s (.store t) =
      some ({ s with ready := Function.update s.ready fd (sec.apply (s.ready fd)) }.goto t
        .stored) := by
  have hseen : s.ready fd = seen := hE.current t sec fd seen hpc
  have hready : (if sec.apply seen = seen then s.ready
      else Function.update s.ready fd (sec.apply seen)) =
      Function.update s.ready fd (sec.apply (s.ready fd)) := by
    split
    · rename_i hsame
      rw [hseen, hsame, ← hseen, Function.update_eq_self]
    · rw [hseen]
  simp only [step, hpc, hready]

/-- The barrier excludes exactly in the runs in which it never had to make a thread wait. -/
theorem exclusive_iff_uncontended (ready : F → ReadyState) (as : List (Action T F)) :
    (machine T F).AllStates State.Exclusive (initial ready) as ↔
      (machine T F).AllSteps Uncontended (initial ready) as :=
  Machine.allStates_iff_allSteps (fun s a s' hR hE _ => raised_step s a s' hR hE)
    exclusive_step_iff (initial_raised ready) (initial_exclusive ready) as

/-- One thread raises the barrier and enters, and the next one walks in behind it. -/
theorem two_threads_inside :
    ∃ s, (machine Bool Unit).run (initial fun _ => .ONE)
      [.arrive false .NotifyDataReady (), .acquire false, .acquire false,
        .arrive true .HandleReadyData (), .acquire true] = some s ∧
      (s.pc false).Inside ∧ (s.pc true).Inside :=
  ⟨_, rfl, trivial, trivial⟩

end Barrier

end ServerDevLib.Reactor
