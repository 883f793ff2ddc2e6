import ServerDevLib.Reactor.Serving

/-!
# The choice of a slave

`DispatchToSlave` takes the remainder of a counter by the number of slaves. The
counter is a variable of the call and is 0 each time, so that every item goes
to the first slave; and the number of slaves is tested before one of the two
calls only. What the flags and the list of slaves are is determined by the
calls that were made.
-/

namespace ServerDevLib.Reactor

open Transition

/-- What `_stop`, `_enableSlave` and the size of `_slaves` are. -/
structure Standing where
  stop : Bool
  enableSlave : Bool
  slaves : Nat

namespace Standing

def next (st : Standing) : Serving.Call → Standing
  | .enableSlave b => if st.stop then st else { st with enableSlave := b }
  | .addSlaveDispatcher n =>
    if st.stop || !st.enableSlave then st else { st with slaves := st.slaves + n.toNat }
  | .shutdown =>
    if st.stop then st
    else { st with stop := true, slaves := if st.enableSlave then 0 else st.slaves }
  | _ => st

/-- What they are after some calls. -/
def after (calls : List Serving.Call) : Standing := calls.foldl next ⟨false, false, 0⟩

end Standing

namespace Dispatchers

def standing (s : Dispatchers) : Standing :=
  ⟨s.master.stop, s.master.enableSlave, s.slaves.length⟩

variable {A : Text.Allocator} {s : Dispatchers}

theorem standing_modify {f : Dispatcher → Dispatcher}
    (hf : ∀ d, (f d).stop = d.stop ∧ (f d).enableSlave = d.enableSlave) (i : Nat) :
    (s.modify i f).standing = s.standing := by
  cases i with
  | zero =>
    obtain ⟨hstop, henabled⟩ := hf s.master
    change (⟨(f s.master).stop, (f s.master).enableSlave, s.slaves.length⟩ : Standing) = _
    rw [hstop, henabled]
    rfl
  | succ i =>
    change (⟨s.master.stop, s.master.enableSlave, (s.slaves.modify i f).length⟩ : Standing) = _
    rw [List.length_modify]
    rfl

theorem flags_registerHandler (d : Dispatcher) (fd : Int) (handler : Handler) (ok : Bool) :
    (d.registerHandler fd handler ok).stop = d.stop ∧
      (d.registerHandler fd handler ok).enableSlave = d.enableSlave := by
  rw [Dispatcher.registerHandler]
  split <;> exact ⟨rfl, rfl⟩

theorem standing_handleNewConnection (s : Dispatchers) (fd : Int) (ok : Bool) :
    (s.handleNewConnection A fd ok).standing = s.standing := by
  rw [handleNewConnection_eq]
  exact standing_modify (fun d => flags_registerHandler d ..) _

theorem standing_eraseChannel (s : Dispatchers) (fd : Int) (stale : Option Nat) :
    (s.eraseChannel fd stale).standing = s.standing := by
  simp only [eraseChannel]
  split <;> rfl

theorem standing_close (s : Dispatchers) (fd : Int) : (s.close fd).standing = s.standing := by
  change (⟨_, _, (s.slaves.map _).length⟩ : Standing) = _
  rw [List.length_map]
  rfl

theorem standing_handleUnexpected (s : Dispatchers) (i : Nat) (fd : Int) :
    (s.handleUnexpected i fd).standing = s.standing := by
  have hdrop (t : Dispatchers) : (t.dropChannel fd).standing = t.standing := by
    simp only [dropChannel]
    split <;> rfl
  rw [handleUnexpected, hdrop, standing_close]
  exact standing_modify (f := fun d => (d.eraseHandler fd).removeFd fd) (fun _ => ⟨rfl, rfl⟩) i

theorem standing_shutdown (hstop : s.master.stop = false) :
    s.shutdown.standing = s.standing.next .shutdown := by
  have hnext : s.standing.next .shutdown =
      ⟨true, s.master.enableSlave, if s.master.enableSlave then 0 else s.slaves.length⟩ := by
    change (if s.master.stop then _ else _) = _
    rw [hstop]
    rfl
  rw [hnext, standing, master_shutdown hstop, slaves_shutdown hstop]
  cases henabled : s.master.enableSlave with
  | true => simp [Dispatcher.shutdown, henabled]
  | false => simp [Dispatcher.shutdown, henabled]

end Dispatchers

namespace Serving

/-- The divisor of the remainder that the call computes, if it computes one. -/
def divisor (s : Serving) : Call → Option Nat
  | .handleNewConnection _ _ =>
    if !s.dispatchers.master.enableSlave || s.dispatchers.slaves.length = 0 then none
    else some s.dispatchers.slaves.length
  | .addPendingFunctor _ =>
    if !s.dispatchers.master.enableSlave then none else some s.dispatchers.slaves.length
  | _ => none

/-- The slave that the call gives an item to. -/
def chosen (s : Serving) (call : Call) : Option Nat :=
  (s.divisor call).map Dispatchers.dispatchToSlave

/-- The remainder is defined and is the index of a slave. -/
def Divides (s : Serving) (call : Call) : Prop :=
  ∀ count, s.divisor call = some count → count ≠ 0 ∧
    Dispatchers.dispatchToSlave count < s.dispatchers.slaves.length

variable {A : Text.Allocator} {s s' : Serving} {call : Call}

/-- The calls determine the flags and the number of slaves. -/
theorem standing_step (hstep : (machine A).step s call = some s') :
    s'.dispatchers.standing = s.dispatchers.standing.next call := by
  cases step_cases hstep with
  | enableSlave hstop =>
    change _ = if s.dispatchers.master.stop then _ else _
    rw [hstop]
    rfl
  | enableSlaveStopped hstop =>
    change _ = if s.dispatchers.master.stop then _ else _
    rw [hstop]
    rfl
  | addSlaveDispatcher hstop henabled =>
    change (⟨_, _, (s.dispatchers.slaves ++ _).length⟩ : Standing) =
      if s.dispatchers.master.stop || !s.dispatchers.master.enableSlave then _ else _
    rw [hstop, henabled, List.length_append, List.length_replicate]
    rfl
  | addSlaveDispatcherRefused hrefused =>
    have hguard : (s.dispatchers.master.stop || !s.dispatchers.master.enableSlave) = true := by
      cases hrefused with
      | inl hstop => rw [hstop, Bool.true_or]
      | inr hdisabled => rw [hdisabled, Bool.not_false, Bool.or_true]
    exact (if_pos hguard).symm
  | @setMasterFD i fd ok =>
    exact Dispatchers.standing_modify
      (fun d => Dispatchers.flags_registerHandler { d with masterfd := fd } fd .accept ok) i
  | registerHandler =>
    exact Dispatchers.standing_modify (fun d => Dispatchers.flags_registerHandler d ..) _
  | @removeHandler i fd stale =>
    refine Eq.trans ?_ (s.dispatchers.standing_eraseChannel fd stale)
    exact Dispatchers.standing_modify (f := fun d => d.eraseHandler fd) (fun _ => ⟨rfl, rfl⟩) i
  | failedConnection => exact Dispatchers.standing_handleNewConnection ..
  | @handleNewConnection fd ok =>
    exact Dispatchers.standing_handleNewConnection { s.dispatchers with
      isOpen := Function.update s.dispatchers.isOpen fd true } fd ok
  | handleUnexpected => exact Dispatchers.standing_handleUnexpected ..
  | shutdown hstop => exact Dispatchers.standing_shutdown hstop
  | shutdownStopped hstop =>
    change _ = if s.dispatchers.master.stop then _ else _
    rw [hstop]
    rfl
  | closeFd => exact Dispatchers.standing_close ..
  | setMasterFDRefused | removeHandlerRefused | handleExpected | extractExistedChannel
  | restoreAllChannel | pend | pendSlave | openFd => rfl

theorem standing_run {calls : List Call} (hrun : (machine A).run (initial A) calls = some s) :
    s.dispatchers.standing = Standing.after calls :=
  Machine.run_foldl (fun _ _ _ hstep => standing_step hstep) hrun

/-- After any calls, the next one divides by the number of at least one slave, unless it is an
`AddPendingFunctor` while slaves are enabled and there are none. -/
theorem divides_iff (A : Text.Allocator) (calls : List Call) (s : Serving)
    (hrun : (machine A).run (initial A) calls = some s) (call : Call) :
    s.Divides call ↔ ∀ fn, call = .addPendingFunctor fn →
      (Standing.after calls).enableSlave = false ∨ 0 < (Standing.after calls).slaves := by
  rw [← standing_run hrun]
  change s.Divides call ↔ ∀ fn, call = .addPendingFunctor fn →
    s.dispatchers.master.enableSlave = false ∨ 0 < s.dispatchers.slaves.length
  have hindex {count : Nat} (hcount : count ≠ 0) : Dispatchers.dispatchToSlave count < count :=
    Nat.mod_lt _ (Nat.pos_of_ne_zero hcount)
  cases call with
  | handleNewConnection fd ok =>
    refine iff_of_true ?_ nofun
    intro count hcount
    simp only [divisor, Option.ite_none_left_eq_some, Bool.or_eq_true, not_or,
      decide_eq_true_eq, Option.some.injEq] at hcount
    obtain ⟨⟨_, hnonempty⟩, rfl⟩ := hcount
    exact ⟨hnonempty, hindex hnonempty⟩
  | addPendingFunctor fn =>
    constructor
    · intro hdivides _ _
      cases henabled : s.dispatchers.master.enableSlave with
      | false => exact .inl rfl
      | true =>
        have hcount : s.divisor (.addPendingFunctor fn) = some s.dispatchers.slaves.length := by
          rw [divisor, henabled]
          rfl
        exact .inr (Nat.pos_of_ne_zero (hdivides _ hcount).1)
    · intro hslaves count hcount
      simp only [divisor, Option.ite_none_left_eq_some, Option.some.injEq] at hcount
      obtain ⟨henabled, rfl⟩ := hcount
      cases hslaves fn rfl with
      | inl hdisabled =>
        rw [hdisabled] at henabled
        exact absurd rfl henabled
      | inr hpos => exact ⟨Nat.ne_of_gt hpos, hindex (Nat.ne_of_gt hpos)⟩
  | enableSlave | addSlaveDispatcher | setMasterFD | registerHandler | removeHandler
  | handleUnexpected | extractExistedChannel | restoreAllChannel | shutdown | openFd | closeFd =>
    exact iff_of_true nofun nofun

theorem divides_iff_pending : ∃ s, (machine .doubling).run (initial .doubling)
    [.enableSlave true, .addSlaveDispatcher 1] = some s ∧ s.Divides (.addPendingFunctor 0) := by
  obtain ⟨s, hrun⟩ : ∃ s, (machine .doubling).run (initial .doubling)
    [.enableSlave true, .addSlaveDispatcher 1] = some s := ⟨_, rfl⟩
  exact ⟨s, hrun, (divides_iff .doubling _ s hrun _).mpr fun _ _ => .inr (by decide)⟩

/-- Slaves are enabled before one is added, and are still enabled after the list was cleared. -/
theorem divisor_is_zero :
    (∃ s, (machine .doubling).run (initial .doubling) [.enableSlave true] = some s ∧
      ¬ s.Divides (.addPendingFunctor 0)) ∧
    ∃ s, (machine .doubling).run (initial .doubling)
      [.enableSlave true, .addSlaveDispatcher 2, .shutdown] = some s ∧
      ¬ s.Divides (.addPendingFunctor 0) :=
  ⟨⟨_, rfl, fun h => (h 0 rfl).1 rfl⟩, ⟨_, rfl, fun h => (h 0 rfl).1 rfl⟩⟩

/-- The calls that give an item to a slave if there is one. -/
def Call.dispatches : Call → Bool
  | .handleNewConnection _ _ | .addPendingFunctor _ => true
  | _ => false

/-- With slaves enabled every item goes to the first of them. -/
theorem chosen_of_dispatches {k : Nat} (hk : k ≠ 0)
    (hs : s.dispatchers.standing.enableSlave = true ∧ s.dispatchers.standing.slaves = k)
    (hcall : call.dispatches = true) : s.chosen call = some 0 := by
  obtain ⟨henabled, rfl⟩ := hs
  have hcount : s.divisor call = some s.dispatchers.slaves.length := by
    cases call with
    | handleNewConnection fd ok =>
      apply if_neg
      simp only [Bool.or_eq_true, Bool.not_eq_true', decide_eq_true_eq, not_or,
        Bool.not_eq_false]
      exact ⟨henabled, hk⟩
    | addPendingFunctor fn =>
      apply if_neg
      simp only [Bool.not_eq_true', Bool.not_eq_false]
      exact henabled
    | enableSlave | addSlaveDispatcher | setMasterFD | registerHandler | removeHandler
    | handleUnexpected | extractExistedChannel | restoreAllChannel | shutdown | openFd | closeFd =>
      cases hcall
  rw [chosen, hcount]
  exact congrArg some (Nat.zero_mod _)

theorem standing_dispatches (hcall : call.dispatches = true)
    (hstep : (machine A).step s call = some s') :
    s'.dispatchers.standing = s.dispatchers.standing := by
  have hsame (st : Standing) : st.next call = st := by
    cases call with
    | handleNewConnection | addPendingFunctor => rfl
    | enableSlave | addSlaveDispatcher | setMasterFD | registerHandler | removeHandler
    | handleUnexpected | extractExistedChannel | restoreAllChannel | shutdown | openFd | closeFd =>
      cases hcall
  rw [standing_step hstep, hsame]

/-- The items that the slave has been given. -/
def items (A : Text.Allocator) (s : Serving) (calls : List Call) (i : Nat) : Nat :=
  ((machine A).outputs chosen s calls).count i

theorem items_eq {k : Nat} (hk : k ≠ 0)
    (hs : s.dispatchers.standing.enableSlave = true ∧ s.dispatchers.standing.slaves = k)
    {calls : List Call} (hcalls : ∀ call ∈ calls, call.dispatches = true)
    (hrun : (machine A).run s calls = some s') (i : Nat) :
    items A s calls i = if i = 0 then calls.length else 0 := by
  have hstays (s : Serving) (call : Call) (s' : Serving)
      (h : s.dispatchers.standing.enableSlave = true ∧ s.dispatchers.standing.slaves = k)
      (hmem : call ∈ calls) (hstep : (machine A).step s call = some s') :
      s'.dispatchers.standing.enableSlave = true ∧ s'.dispatchers.standing.slaves = k := by
    rw [standing_dispatches (hcalls call hmem) hstep]
    exact h
  have hall : (machine A).outputs chosen s calls = List.replicate calls.length 0 := by
    refine Machine.outputs_eq_replicate ?_ hstays hs hrun
    exact fun s call h hmem => chosen_of_dispatches hk h (hcalls call hmem)
  rw [items, hall, List.count_replicate]
  by_cases hi : i = 0
  · simp [hi]
  · simp [hi, Ne.symm hi]

/-- Any two slaves have been given numbers of items that differ by at most one exactly if there is
one slave, or at most one call was made. -/
theorem balanced_iff (A : Text.Allocator) (k : Nat) (hk : 1 ≤ k) (s s' : Serving)
    (henabled : s.dispatchers.master.enableSlave = true) (hslaves : s.dispatchers.slaves.length = k)
    (calls : List Call) (hcalls : ∀ call ∈ calls, call.dispatches = true)
    (hrun : (machine A).run s calls = some s') :
    (∀ i j, i < k → j < k → items A s calls i ≤ items A s calls j + 1) ↔
      k = 1 ∨ calls.length ≤ 1 := by
  have hitems := items_eq (Nat.ne_of_gt hk) ⟨henabled, hslaves⟩ hcalls hrun
  constructor
  · intro hbalanced
    by_cases hone : k = 1
    · exact .inl hone
    · have hle := hbalanced 0 1 (by omega) (by omega)
      rw [hitems, hitems, if_pos rfl, if_neg Nat.one_ne_zero] at hle
      exact .inr hle
  · intro hcases i j hi hj
    rw [hitems, hitems]
    split
    · split <;> omega
    · omega

theorem balanced_iff_one : ∃ s, (machine .doubling).run (initial .doubling)
      [.enableSlave true, .addSlaveDispatcher 1] = some s ∧
    ∀ i j, i < 1 → j < 1 →
      items .doubling s [.handleNewConnection 5 true, .addPendingFunctor 0] i ≤
        items .doubling s [.handleNewConnection 5 true, .addPendingFunctor 0] j + 1 := by
  obtain ⟨s, hrun, henabled, hslaves, s', hrun'⟩ : ∃ s, (machine .doubling).run (initial .doubling)
      [.enableSlave true, .addSlaveDispatcher 1] = some s ∧
      s.dispatchers.master.enableSlave = true ∧ s.dispatchers.slaves.length = 1 ∧
      ∃ s', (machine .doubling).run s [.handleNewConnection 5 true, .addPendingFunctor 0] = some s' :=
    ⟨_, rfl, rfl, rfl, _, rfl⟩
  exact ⟨s, hrun, (balanced_iff .doubling 1 (Nat.le_refl 1) s s' henabled hslaves _ (by decide)
    hrun').mpr (.inl rfl)⟩

/-- With two slaves two connections go to the first. -/
theorem second_slave_idle : ∃ s, (machine .doubling).run (initial .doubling)
      [.enableSlave true, .addSlaveDispatcher 2] = some s ∧
    items .doubling s [.handleNewConnection 5 true, .handleNewConnection 6 true] 0 = 2 ∧
    items .doubling s [.handleNewConnection 5 true, .handleNewConnection 6 true] 1 = 0 :=
  ⟨_, rfl, rfl, rfl⟩

end Serving

end ServerDevLib.Reactor
