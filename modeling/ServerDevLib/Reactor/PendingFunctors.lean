import ServerDevLib.Foundation.ConservedStream
import ServerDevLib.Foundation.Handover
import ServerDevLib.Reactor.Dispatcher

/-!
# Pending functors

`AddPendingFunctor` tests `_enableSlave`, chooses a slave and appends to its
`_pendingFn` in three steps. A dispatch loop moves its `_pendingFn` into a
vector of its own and runs the functors of that vector outside of the lock; a
functor may call `AddPendingFunctor` of the master while it runs, and it returns:
one that throws would end the process. A functor is the number of the call that
has given it.
-/

namespace ServerDevLib.Reactor

open Transition ConservedStream

universe u

inductive Thread (K : Type u)
  | caller (k : K)
  | loop (i : Nat)
  deriving DecidableEq

/-- Where a thread is in `AddPendingFunctor`, and of which dispatcher. -/
inductive AddPc
  | idle
  | test (i fn : Nat)
  | choose (fn : Nat)
  | push (i fn : Nat)

def AddPc.functor : AddPc → Option Nat
  | .idle => none
  | .test _ fn | .choose fn | .push _ fn => some fn

/-- Where a dispatch loop is among the functors of its vector `pendingFn`. -/
inductive FunctorLoop
  | waiting
  | before (pendingFn : List Nat) (next : Nat)
  | inside (pendingFn : List Nat) (next : Nat)

namespace FunctorLoop

def pendingFn : FunctorLoop → List Nat
  | .waiting => []
  | .before fns _ | .inside fns _ => fns

def rest : FunctorLoop → List Nat
  | .waiting => []
  | .before fns next => fns.drop next
  | .inside fns next => fns.drop (next + 1)

def called : FunctorLoop → List Nat
  | .waiting => []
  | .before fns next => fns.take next
  | .inside fns next => fns.take (next + 1)

def isInside : FunctorLoop → Bool
  | .inside _ _ => true
  | _ => false

theorem called_append_rest (l : FunctorLoop) : l.called ++ l.rest = l.pendingFn := by
  cases l with
  | waiting => rfl
  | before fns next | inside fns next => exact List.take_append_drop _ fns

end FunctorLoop

/-- `entered` and `executed` record what was appended to each `_pendingFn` and
which dispatcher has called which functor. -/
structure PendingFunctors (K : Type u) where
  enableSlave : Bool
  slaves : Nat
  pendingFn : Nat → List Nat
  loop : Nat → FunctorLoop
  add : Thread K → AddPc
  nextFn : Nat
  entered : Nat → List Nat
  executed : List (Nat × Nat)

namespace PendingFunctors

inductive Action (K : Type u)
  | enableSlave (b : Bool)
  | addSlave
  | call (t : Thread K)
  | test (t : Thread K)
  | choose (t : Thread K)
  | push (t : Thread K)
  | take (i : Nat)
  | start (i : Nat)
  | finish (i : Nat)
  | leave (i : Nat)

variable {K : Type u}

/-- `_enableSlave` of each dispatcher; the slaves have what their constructor sets. -/
def enabled (s : PendingFunctors K) : Nat → Bool
  | 0 => s.enableSlave
  | _ + 1 => false

/-- A dispatch loop calls `AddPendingFunctor` from inside of a functor only. -/
def mayCall (s : PendingFunctors K) : Thread K → Bool
  | .caller _ => true
  | .loop i => (s.loop i).isInside

def executedBy (s : PendingFunctors K) (i : Nat) : List Nat :=
  (s.executed.filter fun call => call.1 = i).map Prod.snd

def initial : PendingFunctors K :=
  { enableSlave := false, slaves := 0, pendingFn := fun _ => [], loop := fun _ => .waiting,
    add := fun _ => .idle, nextFn := 0, entered := fun _ => [], executed := [] }

def setLoop (s : PendingFunctors K) (i : Nat) (l : FunctorLoop) : PendingFunctors K :=
  { s with loop := Function.update s.loop i l }

section Steps

variable [DecidableEq K]

def setAdd (s : PendingFunctors K) (t : Thread K) (pc : AddPc) : PendingFunctors K :=
  { s with add := Function.update s.add t pc }

def step (s : PendingFunctors K) : Action K → Option (PendingFunctors K)
  | .enableSlave b => some { s with enableSlave := b }
  | .addSlave => some { s with slaves := s.slaves + 1 }
  | .call t =>
    match s.add t with
    | .idle =>
      if s.mayCall t then some ({ s with nextFn := s.nextFn + 1 }.setAdd t (.test 0 s.nextFn))
      else none
    | _ => none
  | .test t =>
    match s.add t with
    | .test i fn => some (s.setAdd t (if s.enabled i then .choose fn else .push i fn))
    | _ => none
  | .choose t =>
    match s.add t with
    | .choose fn =>
      if s.slaves = 0 then none
      else some (s.setAdd t (.test (Dispatchers.dispatchToSlave s.slaves + 1) fn))
    | _ => none
  | .push t =>
    match s.add t with
    | .push i fn => some ({ s with
        pendingFn := Function.update s.pendingFn i (s.pendingFn i ++ [fn])
        entered := Function.update s.entered i (s.entered i ++ [fn]) }.setAdd t .idle)
    | _ => none
  | .take i =>
    match s.loop i with
    | .waiting =>
      if i ≤ s.slaves then
        some ({ s with pendingFn := Function.update s.pendingFn i [] }.setLoop i
          (.before (s.pendingFn i) 0))
      else none
    | _ => none
  | .start i =>
    match s.loop i with
    | .before fns next => fns[next]?.map fun fn =>
      { s with executed := s.executed ++ [(i, fn)] }.setLoop i (.inside fns next)
    | _ => none
  | .finish i =>
    match s.loop i, s.add (.loop i) with
    | .inside fns next, .idle => some (s.setLoop i (.before fns (next + 1)))
    | _, _ => none
  | .leave i =>
    match s.loop i with
    | .before fns next => if fns.length ≤ next then some (s.setLoop i .waiting) else none
    | _ => none

def machine (K : Type u) [DecidableEq K] : Machine (PendingFunctors K) (Action K) where
  init s := s = initial
  step := step

/-- What each action does, with the guards it has passed. -/
inductive Step (s : PendingFunctors K) : Action K → PendingFunctors K → Prop
  | enableSlave {b} : Step s (.enableSlave b) { s with enableSlave := b }
  | addSlave : Step s .addSlave { s with slaves := s.slaves + 1 }
  | call {t} (idle : s.add t = .idle) (may : s.mayCall t = true) :
      Step s (.call t) ({ s with nextFn := s.nextFn + 1 }.setAdd t (.test 0 s.nextFn))
  | test {t i fn} (pc : s.add t = .test i fn) :
      Step s (.test t) (s.setAdd t (if s.enabled i then .choose fn else .push i fn))
  | choose {t fn} (pc : s.add t = .choose fn) (some_slave : s.slaves ≠ 0) :
      Step s (.choose t) (s.setAdd t (.test (Dispatchers.dispatchToSlave s.slaves + 1) fn))
  | push {t i fn} (pc : s.add t = .push i fn) :
      Step s (.push t) ({ s with
        pendingFn := Function.update s.pendingFn i (s.pendingFn i ++ [fn])
        entered := Function.update s.entered i (s.entered i ++ [fn]) }.setAdd t .idle)
  | take {i} (waiting : s.loop i = .waiting) :
      Step s (.take i) ({ s with pendingFn := Function.update s.pendingFn i [] }.setLoop i
        (.before (s.pendingFn i) 0))
  | start {i fns next fn} (before : s.loop i = .before fns next) (found : fns[next]? = some fn) :
      Step s (.start i)
        ({ s with executed := s.executed ++ [(i, fn)] }.setLoop i (.inside fns next))
  | finish {i fns next} (inside : s.loop i = .inside fns next) (idle : s.add (.loop i) = .idle) :
      Step s (.finish i) (s.setLoop i (.before fns (next + 1)))
  | leave {i fns next} (before : s.loop i = .before fns next) (done : fns.length ≤ next) :
      Step s (.leave i) (s.setLoop i .waiting)

variable {s s' : PendingFunctors K} {a : Action K}

theorem step_cases (hstep : (machine K).step s a = some s') : Step s a s' := by
  cases a with
  | enableSlave b =>
    cases hstep
    exact .enableSlave
  | addSlave =>
    cases hstep
    exact .addSlave
  | call t =>
    simp only [machine, step] at hstep
    split at hstep
    · rename_i hidle
      split at hstep <;> cases hstep
      rename_i hmay
      exact .call hidle hmay
    · cases hstep
  | test t =>
    simp only [machine, step] at hstep
    split at hstep <;> cases hstep
    rename_i hpc
    exact .test hpc
  | choose t =>
    simp only [machine, step] at hstep
    split at hstep
    · rename_i hpc
      split at hstep <;> cases hstep
      rename_i hslaves
      exact .choose hpc hslaves
    · cases hstep
  | push t =>
    simp only [machine, step] at hstep
    split at hstep <;> cases hstep
    rename_i hpc
    exact .push hpc
  | take i =>
    simp only [machine, step] at hstep
    split at hstep
    · rename_i hwaiting
      split at hstep <;> cases hstep
      exact .take hwaiting
    · cases hstep
  | start i =>
    simp only [machine, step] at hstep
    split at hstep
    · rename_i hbefore
      obtain ⟨fn, hfn, rfl⟩ := Option.map_eq_some_iff.mp hstep
      exact .start hbefore hfn
    · cases hstep
  | finish i =>
    simp only [machine, step] at hstep
    split at hstep <;> cases hstep
    rename_i hinside hidle
    exact .finish hinside hidle
  | leave i =>
    simp only [machine, step] at hstep
    split at hstep
    · rename_i hbefore
      split at hstep <;> cases hstep
      rename_i hdone
      exact .leave hbefore hdone
    · cases hstep

/-- What has entered `_pendingFn`, what was called of it and what is still to be called. -/
def conduit (s : PendingFunctors K) (i : Nat) : Conduit Nat :=
  ⟨s.entered i, s.executedBy i, (s.loop i).rest ++ s.pendingFn i⟩

omit [DecidableEq K] in
theorem conduit_setLoop_of_ne {i j : Nat} (hne : i ≠ j) (l : FunctorLoop) :
    (s.setLoop j l).conduit i = s.conduit i := by
  change (⟨_, _, (Function.update s.loop j l i).rest ++ _⟩ : Conduit Nat) = _
  rw [Function.update_of_ne hne]
  rfl

omit [DecidableEq K] in
theorem executedBy_call (s : PendingFunctors K) (i j fn : Nat) :
    ({ s with executed := s.executed ++ [(j, fn)] } : PendingFunctors K).executedBy i =
      s.executedBy i ++ if j = i then [fn] else [] := by
  simp only [executedBy, List.filter_append, List.map_append]
  congr 1
  split <;> simp [*]

/-- Each step moves functors into a `_pendingFn` or out of the front of a loop's vector. -/
theorem moves_of_step (hstep : Step s a s') (i : Nat) : Moves (s.conduit i) (s'.conduit i) := by
  cases hstep with
  | enableSlave | addSlave | call | test | choose => exact .refl
  | @push t j fn hpc =>
    obtain rfl | hne := eq_or_ne i j
    · simp only [conduit, setAdd, Function.update_self, ← List.append_assoc]
      exact .single (.enter _ _ _ [fn])
    · simp only [conduit, setAdd, Function.update_of_ne hne]
      exact .refl
  | @take j hwaiting =>
    obtain rfl | hne := eq_or_ne i j
    · simp only [conduit, setLoop, Function.update_self, hwaiting, FunctorLoop.rest,
        List.drop_zero, List.nil_append, List.append_nil]
      exact .refl
    · rw [conduit_setLoop_of_ne hne]
      simp only [conduit, Function.update_of_ne hne]
      exact .refl
  | @start j fns next fn hbefore hfn =>
    obtain rfl | hne := eq_or_ne i j
    · have hrest : (s.loop i).rest = fn :: fns.drop (next + 1) := by
        rw [hbefore]
        exact List.drop_eq_getElem?_toList_append.trans (by rw [hfn]; rfl)
      have hcall : s.conduit i = ⟨s.entered i, s.executedBy i,
          fn :: (fns.drop (next + 1) ++ s.pendingFn i)⟩ := by rw [conduit, hrest, List.cons_append]
      have hcalled : (({ s with executed := s.executed ++ [(i, fn)] } : PendingFunctors K).setLoop i
          (.inside fns next)).conduit i = ⟨s.entered i, s.executedBy i ++ [fn],
            fns.drop (next + 1) ++ s.pendingFn i⟩ := by
        change (⟨_, executedBy { s with executed := s.executed ++ [(i, fn)] } i,
          (Function.update s.loop i _ i).rest ++ _⟩ : Conduit Nat) = _
        rw [executedBy_call, if_pos rfl, Function.update_self]
        rfl
      rw [hcall, hcalled]
      exact .single (.leave _ _ _ 1)
    · rw [conduit_setLoop_of_ne hne]
      change Moves _ ⟨_, executedBy { s with executed := s.executed ++ [(j, fn)] } i, _⟩
      rw [executedBy_call, if_neg hne.symm, List.append_nil]
      exact .refl
  | @finish j fns next hinside =>
    obtain rfl | hne := eq_or_ne i j
    · simp only [conduit, setLoop, Function.update_self, hinside, FunctorLoop.rest]
      exact .refl
    · rw [conduit_setLoop_of_ne hne]
  | @leave j fns next hbefore hdone =>
    obtain rfl | hne := eq_or_ne i j
    · simp only [conduit, setLoop, Function.update_self, hbefore, FunctorLoop.rest,
        List.drop_eq_nil_of_le hdone]
      exact .refl
    · rw [conduit_setLoop_of_ne hne]

theorem entered_of_reachable (h : (machine K).Reachable s) (i : Nat) :
    s.executedBy i ++ ((s.loop i).rest ++ s.pendingFn i) = s.entered i := by
  have hconserved : Conserved (s.conduit i) := by
    refine conserved_of_refines (fun s => s.conduit i) (fun _ _ => trivial) ?_ ?_ h
    · rintro s rfl
      rfl
    · intro s a s' _ _ hstep
      exact moves_of_step (step_cases hstep) i
  exact hconserved

def handover (s : PendingFunctors K) : Handover (Thread K) Nat :=
  ⟨AddPc.functor ∘ s.add, s.entered, s.nextFn⟩

theorem functor_update {t : Thread K} {pc : AddPc} :
    AddPc.functor ∘ Function.update s.add t pc =
      Function.update (AddPc.functor ∘ s.add) t pc.functor :=
  Function.comp_update ..

theorem handover_setAdd {t : Thread K} {pc : AddPc} (hsame : pc.functor = (s.add t).functor) :
    (s.setAdd t pc).handover = s.handover := by
  have hupdate : AddPc.functor ∘ Function.update s.add t pc = AddPc.functor ∘ s.add := by
    rw [functor_update, hsame]
    exact Function.update_eq_self t _
  exact congrArg (fun held => (⟨held, s.entered, s.nextFn⟩ : Handover (Thread K) Nat)) hupdate

theorem handover_of_step (hstep : Step s a s') : Handover.Move s.handover s'.handover := by
  cases hstep with
  | enableSlave | addSlave | take | start | finish | leave => exact .stay _
  | @call t hidle =>
    have hissue : ({ s with nextFn := s.nextFn + 1 }.setAdd t (.test 0 s.nextFn)).handover =
        s.handover.issue t :=
      congrArg (fun held => (⟨held, s.entered, s.nextFn + 1⟩ : Handover (Thread K) Nat))
        functor_update
    rw [hissue]
    exact .issue _ t (congrArg AddPc.functor hidle)
  | test hpc =>
    rw [handover_setAdd]
    · exact .stay _
    · rw [hpc]
      split <;> rfl
  | choose hpc =>
    rw [handover_setAdd]
    · exact .stay _
    · rw [hpc]
      rfl
  | @push t i fn hpc =>
    have henter : ({ s with
        pendingFn := Function.update s.pendingFn i (s.pendingFn i ++ [fn])
        entered := Function.update s.entered i (s.entered i ++ [fn]) }.setAdd t .idle).handover =
          s.handover.enter t i fn :=
      congrArg (fun held => (⟨held, _, s.nextFn⟩ : Handover (Thread K) Nat)) functor_update
    rw [henter]
    exact .enter _ t i fn (congrArg AddPc.functor hpc)

theorem once_of_reachable (h : (machine K).Reachable s) : s.handover.Once := by
  refine Handover.once_of_refines handover ?_ (fun s a s' hstep => ?_) h
  · rintro s rfl
    exact Handover.once_empty
  · exact handover_of_step (step_cases hstep)

def Recorded (s : PendingFunctors K) : Prop :=
  ∀ i, ∀ fn ∈ (s.loop i).called, fn ∈ s.executedBy i

omit [DecidableEq K] in
theorem Recorded.setLoop (h : s.Recorded) {i : Nat} {l : FunctorLoop}
    (hcalled : ∀ fn ∈ l.called, fn ∈ s.executedBy i) : (s.setLoop i l).Recorded := by
  intro j fn hfn
  change fn ∈ (Function.update s.loop i l j).called at hfn
  obtain rfl | hne := eq_or_ne j i
  · rw [Function.update_self] at hfn
    exact hcalled fn hfn
  · rw [Function.update_of_ne hne] at hfn
    exact h j fn hfn

theorem recorded_step : (machine K).Preserves (fun _ _ => True) Recorded := by
  intro s a s' h _ hstep
  cases step_cases hstep with
  | enableSlave | addSlave | call | test | choose | push => exact h
  | take => exact Recorded.setLoop h nofun
  | @start i fns next fn hbefore hfn =>
    have hrecord : ({ s with executed := s.executed ++ [(i, fn)] } : PendingFunctors K).Recorded := by
      intro j fn' hfn'
      rw [executedBy_call]
      exact List.mem_append_left _ (h j fn' hfn')
    refine Recorded.setLoop hrecord fun fn' hfn' => ?_
    rw [executedBy_call, if_pos rfl]
    rw [FunctorLoop.called, List.take_add_one, hfn] at hfn'
    cases List.mem_append.mp hfn' with
    | inl hbefore' => exact List.mem_append_left _ (h i fn' (by rwa [hbefore]))
    | inr hself => exact List.mem_append_right _ hself
  | finish hinside => exact Recorded.setLoop h fun fn' hfn' => h _ fn' (by rwa [hinside])
  | leave => exact Recorded.setLoop h nofun

theorem recorded_of_reachable (h : (machine K).Reachable s) : s.Recorded := by
  refine h.invariant ?_ recorded_step
  rintro s rfl i fn hfn
  cases hfn

end Steps

inductive Place
  | pendingFn (i : Nat)
  | loop (i : Nat)

def contents (s : PendingFunctors K) : Place → List Nat
  | .pendingFn i => s.pendingFn i
  | .loop i => (s.loop i).pendingFn

/-- The functor was given to `AddPendingFunctor`, and that call has returned. -/
def Added (s : PendingFunctors K) (fn : Nat) : Prop :=
  fn < s.nextFn ∧ ∀ t, (s.add t).functor ≠ some fn

def Executed (s : PendingFunctors K) (fn : Nat) : Prop := fn ∈ s.executed.map Prod.snd

section Places

variable {s : PendingFunctors K}

theorem mem_executedBy {i fn : Nat} : fn ∈ s.executedBy i ↔ (i, fn) ∈ s.executed := by
  constructor
  · intro h
    obtain ⟨call, hcall, rfl⟩ := List.mem_map.mp h
    obtain ⟨hmem, hi⟩ := List.mem_filter.mp hcall
    rwa [← of_decide_eq_true hi]
  · intro h
    exact List.mem_map.mpr ⟨(i, fn), List.mem_filter.mpr ⟨h, decide_eq_true rfl⟩, rfl⟩

theorem executed_of_mem {i fn : Nat} (h : fn ∈ s.executedBy i) : s.Executed fn :=
  List.mem_map.mpr ⟨(i, fn), mem_executedBy.mp h, rfl⟩

theorem mem_of_executed {fn : Nat} (h : s.Executed fn) : ∃ i, fn ∈ s.executedBy i := by
  obtain ⟨⟨i, fn⟩, hcall, rfl⟩ := List.mem_map.mp h
  exact ⟨i, mem_executedBy.mpr hcall⟩

/-- Lists of pairs whose second components differ, if they do under each first component. -/
theorem nodup_of_parts {calls : List (Nat × Nat)}
    (hpart : ∀ i, ((calls.filter fun call => call.1 = i).map Prod.snd).Nodup)
    (hone : ∀ c ∈ calls, ∀ d ∈ calls, c.2 = d.2 → c.1 = d.1) :
    (calls.map Prod.snd).Nodup := by
  induction calls with
  | nil => exact List.nodup_nil
  | cons call calls ih =>
    rw [List.map_cons, List.nodup_cons]
    constructor
    · intro hmem
      obtain ⟨d, hd, hsame⟩ := List.mem_map.mp hmem
      have hfirst : call.1 = d.1 :=
        hone call List.mem_cons_self d (List.mem_cons_of_mem _ hd) hsame.symm
      have hnodup := hpart call.1
      simp only [List.filter_cons, decide_true, if_true, List.map_cons, List.nodup_cons] at hnodup
      refine hnodup.1 (List.mem_map.mpr ⟨d, List.mem_filter.mpr ⟨hd, ?_⟩, hsame⟩)
      exact decide_eq_true hfirst.symm
    · refine ih (fun i => ?_) fun c hc d hd =>
        hone c (List.mem_cons_of_mem _ hc) d (List.mem_cons_of_mem _ hd)
      exact (hpart i).sublist (((List.sublist_cons_self call calls).filter _).map _)

variable [DecidableEq K] (h : (machine K).Reachable s)

include h

theorem prefix_entered (i : Nat) : s.executedBy i <+: s.entered i :=
  ⟨_, entered_of_reachable h i⟩

theorem nodup_executed : (s.executed.map Prod.snd).Nodup := by
  have honce := once_of_reachable h
  refine nodup_of_parts (fun i => (honce.once i).sublist (prefix_entered h i).sublist) ?_
  intro c hc d hd hsame
  have hentered {call : Nat × Nat} (hcall : call ∈ s.executed) : call.2 ∈ s.entered call.1 :=
    (prefix_entered h call.1).subset (mem_executedBy.mpr hcall)
  exact honce.one c.1 d.1 c.2 (hentered hc) (hsame ▸ hentered hd)

/-- What a functor that has not been called is in is what still has to be called of it. -/
theorem count_contents {fn : Nat} (hnew : ¬ s.Executed fn) (i : Nat) :
    (s.contents (.loop i)).count fn = (s.loop i).rest.count fn := by
  have hcalled : fn ∉ (s.loop i).called :=
    fun hmem => hnew (executed_of_mem (recorded_of_reachable h i fn hmem))
  rw [contents, ← FunctorLoop.called_append_rest, List.count_append,
    List.count_eq_zero_of_not_mem hcalled, Nat.zero_add]

theorem count_places {fn : Nat} (hnew : ¬ s.Executed fn) (i : Nat) :
    (s.contents (.loop i)).count fn + (s.contents (.pendingFn i)).count fn =
      (s.entered i).count fn := by
  have hcalled : fn ∉ s.executedBy i := fun hmem => hnew (executed_of_mem hmem)
  rw [← entered_of_reachable h i, count_contents h hnew, List.count_append, List.count_append,
    List.count_eq_zero_of_not_mem hcalled, Nat.zero_add]
  rfl

theorem nowhere_of_passing {t : Thread K} {fn : Nat} (ht : (s.add t).functor = some fn) :
    ¬ s.Executed fn ∧ ∀ p, fn ∉ s.contents p := by
  have hentered := ((once_of_reachable h).holding t fn ht).2
  have hnew : ¬ s.Executed fn := by
    intro hexecuted
    obtain ⟨i, hi⟩ := mem_of_executed hexecuted
    exact hentered i ((prefix_entered h i).subset hi)
  refine ⟨hnew, fun p hp => ?_⟩
  have hzero (i : Nat) := (count_places h hnew i).trans (List.count_eq_zero_of_not_mem (hentered i))
  have hpos : 0 < (s.contents p).count fn := List.count_pos_iff.mpr hp
  cases p with
  | loop i | pendingFn i =>
    have := hzero i
    omega

theorem one_place {fn : Nat} (hadded : s.Added fn) (hnew : ¬ s.Executed fn) :
    ∃ p, (s.contents p).count fn = 1 ∧ ∀ q, q ≠ p → fn ∉ s.contents q := by
  have honce := once_of_reachable h
  obtain ⟨i, hi⟩ : ∃ i, fn ∈ s.entered i := by
    cases honce.issued fn hadded.1 with
    | inl hheld =>
      obtain ⟨t, ht⟩ := hheld
      exact absurd ht (hadded.2 t)
    | inr hentered => exact hentered
  have hone : (s.contents (.loop i)).count fn + (s.contents (.pendingFn i)).count fn = 1 := by
    rw [count_places h hnew]
    exact List.count_eq_one_of_mem (honce.once i) hi
  have helse {j : Nat} (hne : j ≠ i) :
      (s.contents (.loop j)).count fn + (s.contents (.pendingFn j)).count fn = 0 := by
    rw [count_places h hnew]
    exact List.count_eq_zero_of_not_mem fun hj => hne (honce.one j i fn hj hi)
  have hplaces (q : Place) (hq : fn ∈ s.contents q) : q = .loop i ∨ q = .pendingFn i := by
    have hpos : 0 < (s.contents q).count fn := List.count_pos_iff.mpr hq
    cases q with
    | loop j =>
      refine .inl (congrArg Place.loop (not_not.mp fun hne => ?_))
      have := helse hne
      omega
    | pendingFn j =>
      refine .inr (congrArg Place.pendingFn (not_not.mp fun hne => ?_))
      have := helse hne
      omega
  cases hcount : (s.contents (.loop i)).count fn with
  | zero =>
    refine ⟨.pendingFn i, by omega, fun q hne hq => ?_⟩
    cases hplaces q hq with
    | inl hloop =>
      rw [hloop, ← List.count_pos_iff, hcount] at hq
      exact Nat.lt_irrefl _ hq
    | inr hpending => exact hne hpending
  | succ n =>
    refine ⟨.loop i, by omega, fun q hne hq => ?_⟩
    cases hplaces q hq with
    | inl hloop => exact hne hloop
    | inr hpending =>
      rw [hpending, ← List.count_pos_iff] at hq
      omega

/-- Every functor is executed at most once, each dispatcher executes its functors in
the order in which they have entered its `_pendingFn`, and a functor that was
added and not executed yet is in exactly one place. -/
theorem functors_executed_once :
    (s.executed.map Prod.snd).Nodup ∧ (∀ i, s.executedBy i <+: s.entered i) ∧
      (∀ fn, s.Added fn → ¬ s.Executed fn →
        ∃ p, (s.contents p).count fn = 1 ∧ ∀ q, q ≠ p → fn ∉ s.contents q) ∧
      ∀ t fn, (s.add t).functor = some fn → ¬ s.Executed fn ∧ ∀ p, fn ∉ s.contents p :=
  ⟨nodup_executed h, prefix_entered h, fun _ => one_place h, fun _ _ => nowhere_of_passing h⟩

end Places

/-- Functor 0 goes to the slave and adds functor 1 while it runs. -/
def nestedRun : List (Action Unit) :=
  [.enableSlave true, .addSlave, .call (.caller ()), .test (.caller ()), .choose (.caller ()),
    .test (.caller ()), .push (.caller ()), .take 1, .start 1, .call (.loop 1), .test (.loop 1),
    .choose (.loop 1), .test (.loop 1), .push (.loop 1)]

theorem functors_executed_once_nested : ∃ s, (machine Unit).run initial nestedRun = some s ∧
    s.executed = [(1, 0)] ∧ s.contents (.loop 1) = [0] ∧ s.contents (.pendingFn 1) = [1] ∧
    (s.executed.map Prod.snd).Nodup ∧ (∀ i, s.executedBy i <+: s.entered i) ∧
      (∀ fn, s.Added fn → ¬ s.Executed fn →
        ∃ p, (s.contents p).count fn = 1 ∧ ∀ q, q ≠ p → fn ∉ s.contents q) ∧
      ∀ t fn, (s.add t).functor = some fn → ¬ s.Executed fn ∧ ∀ p, fn ∉ s.contents p := by
  obtain ⟨s, hrun, hplaces⟩ : ∃ s, (machine Unit).run initial nestedRun = some s ∧
      s.executed = [(1, 0)] ∧ s.contents (.loop 1) = [0] ∧ s.contents (.pendingFn 1) = [1] :=
    ⟨_, rfl, rfl, rfl, rfl⟩
  refine ⟨s, hrun, hplaces.1, hplaces.2.1, hplaces.2.2, ?_⟩
  exact functors_executed_once (Machine.reachable_of_run rfl hrun)

end PendingFunctors

end ServerDevLib.Reactor
