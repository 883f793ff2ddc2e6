import ServerDevLib.Foundation.Overlay
import ServerDevLib.Reactor.Serving

/-!
# Extracted channels

Between `ExtractExistedChannel` and `RestoreAllChannel` the channels that were
there lie outside of `_allChannel`. What is closed or removed meanwhile is to
be left out when they come back. For each number the map, the extracted map and
`_waitToRemovedChannel` of the dispatcher that restores are a store that is
split into an overlay and a base, where only a `HandleUnexpected` of this very
dispatcher marks its deletion.
-/

namespace ServerDevLib.Reactor

open Transition Overlay

theorem ChannelMap.emplace_apply (m : ChannelMap) (fd : Int) (c : Nat) (fd' : Int) :
    m.emplace fd c fd' = if fd' = fd then (m fd').or (some c) else m fd' := by
  by_cases hfd : fd' = fd
  · subst hfd
    rw [if_pos rfl]
    cases hm : m fd' with
    | none => exact (emplace_self hm c).trans Option.none_or.symm
    | some c' => exact (emplace_of_some hm).trans Option.some_or.symm
  · rw [if_neg hfd, emplace]
    split
    · exact Function.update_of_ne hfd ..
    · rfl

theorem ChannelMap.erase_apply (m : ChannelMap) (fd fd' : Int) :
    m.erase fd fd' = if fd' = fd then none else m fd' :=
  Function.update_apply ..

namespace Dispatchers

variable {A : Text.Allocator}

theorem modify_frame (s : Dispatchers) (i : Nat) (f : Dispatcher → Dispatcher) :
    (s.modify i f).allChannel = s.allChannel ∧ (s.modify i f).nextChan = s.nextChan := by
  cases i with
  | zero => exact ⟨rfl, rfl⟩
  | succ i => exact ⟨rfl, rfl⟩

theorem handleNewConnection_frame (s : Dispatchers) (fd : Int) (ok : Bool) :
    (s.handleNewConnection A fd ok).allChannel = s.allChannel.emplace fd s.nextChan ∧
      (s.handleNewConnection A fd ok).nextChan = s.nextChan + 1 := by
  rw [handleNewConnection_eq]
  exact modify_frame ..

theorem dropChannel_frame (s : Dispatchers) (fd : Int) :
    (s.dropChannel fd).allChannel = s.allChannel.erase fd ∧
      (s.dropChannel fd).nextChan = s.nextChan := by
  simp only [dropChannel]
  split
  · exact ⟨rfl, rfl⟩
  · rename_i hnone
    exact ⟨(Function.update_eq_self_iff.mpr hnone.symm).symm, rfl⟩

theorem handleUnexpected_frame (s : Dispatchers) (i : Nat) (fd : Int) :
    (s.handleUnexpected i fd).allChannel = s.allChannel.erase fd ∧
      (s.handleUnexpected i fd).nextChan = s.nextChan := by
  obtain ⟨hmap, hnext⟩ := s.modify_frame i fun d => (d.eraseHandler fd).removeFd fd
  obtain ⟨hdrop, hnext'⟩ := dropChannel_frame
    ((s.modify i fun d => (d.eraseHandler fd).removeFd fd).close fd) fd
  exact ⟨hdrop.trans (congrArg (ChannelMap.erase · fd) hmap), hnext'.trans hnext⟩

theorem eraseChannel_frame (s : Dispatchers) (fd : Int) (stale : Option Nat) :
    (s.eraseChannel fd stale).allChannel = s.allChannel.erase fd ∧
      (s.eraseChannel fd stale).nextChan = s.nextChan := by
  simp only [eraseChannel]
  split
  · rename_i hnone
    exact ⟨(Function.update_eq_self_iff.mpr hnone.symm).symm, rfl⟩
  · exact ⟨rfl, rfl⟩
  · exact ⟨rfl, rfl⟩

end Dispatchers

namespace Serving

variable {A : Text.Allocator} {s s' : Serving} {call : Call} {i : Nat} {fd : Int}

/-- The dispatcher exists and is not stopped. -/
def runs (s : Serving) (i : Nat) : Bool := (s.dispatcher i).any fun d => !d.stop

/-- The calls that come between an extraction and the restoration. -/
def Call.between : Call → Bool
  | .handleNewConnection _ _ | .handleUnexpected _ _ _ | .removeHandler _ _ _ | .openFd _
  | .closeFd _ => true
  | _ => false

/-- What the call changes under the number, if `c` is the next channel. -/
def change (runs : Nat → Bool) (i : Nat) (fd : Int) (c : Nat) : Call → Option (Change Nat)
  | .handleNewConnection fd' _ => if fd' = fd then some (.put c) else none
  | .handleUnexpected j fd' events =>
    if fd' = fd ∧ events.unexpected = true then some (.delete (decide (j = i))) else none
  | .removeHandler j fd' _ =>
    if fd' = fd ∧ 0 ≤ fd ∧ runs j = true then some (.delete false) else none
  | _ => none

def Call.created (c : Nat) : Call → Nat
  | .handleNewConnection _ _ => c + 1
  | _ => c

/-- What the calls change under the number. -/
def changes (runs : Nat → Bool) (i : Nat) (fd : Int) : Nat → List Call → List (Change Nat)
  | _, [] => []
  | c, call :: calls =>
    (change runs i fd c call).toList ++ changes runs i fd (call.created c) calls

/-- The overlay of the number, as the dispatcher that restores sees it. -/
def view (s : Serving) (i : Nat) (fd : Int) : Split Nat :=
  ⟨s.allChannel fd, decide (fd ∈ s.waitToRemovedChannel i)⟩

/-- What one of these calls does to the overlays, with all that the next one reads. -/
structure Follows (i : Nat) (call : Call) (s s' : Serving) : Prop where
  runs : s'.runs = s.runs
  created : s'.dispatchers.nextChan = call.created s.dispatchers.nextChan
  extracted : s'.extracted = s.extracted
  view : ∀ fd, s'.view i fd =
    (change s.runs i fd s.dispatchers.nextChan call).toList.foldl Split.step (s.view i fd)

theorem runs_congr {f : Nat → Dispatcher → Dispatcher} (hf : ∀ j d, (f j d).stop = d.stop)
    (hd : ∀ j, s'.dispatcher j = (s.dispatcher j).map (f j)) : s'.runs = s.runs := by
  funext j
  rw [runs, runs, hd]
  cases s.dispatcher j with
  | none => rfl
  | some d => exact congrArg not (hf j d)

theorem view_eq (e : Option Nat) {w : List Int} (hentry : s'.allChannel fd = e)
    (hwait : s'.waitToRemovedChannel i = w) : s'.view i fd = ⟨e, decide (fd ∈ w)⟩ := by
  rw [view, hentry, hwait]

theorem follows_handleNewConnection (fd : Int) (ok : Bool) (isOpen : Int → Bool) :
    s.Follows i (.handleNewConnection fd ok)
      (s.put (({ s.dispatchers with isOpen := isOpen } : Dispatchers).handleNewConnection A fd ok)) := by
  have hframe := Dispatchers.handleNewConnection_frame (A := A)
    { s.dispatchers with isOpen := isOpen } fd ok
  constructor
  · refine runs_congr (fun j d => ?_) (Dispatchers.dispatcher_handleNewConnection A
      { s.dispatchers with isOpen := isOpen } fd ok)
    split
    · exact (Dispatchers.masterfd_registerHandler d ..).2
    · rfl
  · exact hframe.2
  · rfl
  · intro fd'
    refine (view_eq (if fd' = fd then (s.allChannel fd').or (some s.dispatchers.nextChan)
      else s.allChannel fd') ?_ rfl).trans ?_
    · exact (congrFun hframe.1 fd').trans (ChannelMap.emplace_apply ..)
    rw [change]
    by_cases hfd : fd = fd'
    · rw [if_pos hfd, if_pos hfd.symm]
      rfl
    · rw [if_neg hfd, if_neg (Ne.symm hfd)]
      rfl

/-- A deletion from `_allChannel`, of which the dispatcher that restores may take a note. -/
theorem view_delete {fd : Int} {marked : Bool} {w : List Int}
    (hmap : s'.allChannel = s.allChannel.erase fd) (hwait : s'.waitToRemovedChannel i = w)
    (hmarked : ∀ fd', fd' ∈ w ↔ fd' ∈ s.waitToRemovedChannel i ∨
      fd' = fd ∧ marked = true ∧ s.allChannel fd = none) (fd' : Int) :
    s'.view i fd' = (if fd = fd' then some (Change.delete marked) else none).toList.foldl
      Split.step (s.view i fd') := by
  have hentry := congrFun hmap fd'
  rw [ChannelMap.erase_apply] at hentry
  rw [view_eq _ hentry hwait]
  by_cases hfd : fd = fd'
  · subst hfd
    rw [if_pos rfl, if_pos rfl]
    change _ = Split.mk none (_ || _)
    rw [Split.mk.injEq]
    refine ⟨rfl, ?_⟩
    rw [Bool.eq_iff_iff]
    simp [hmarked, view]
  · rw [if_neg hfd, if_neg (Ne.symm hfd)]
    change _ = Split.mk _ _
    rw [Split.mk.injEq]
    refine ⟨rfl, ?_⟩
    rw [decide_eq_decide, hmarked]
    simp [Ne.symm hfd]

theorem follows_handleUnexpected {j : Nat} {fd : Int} {events : Events}
    (hevents : events.unexpected = true) :
    s.Follows i (.handleUnexpected j fd events) { s with
        dispatchers := s.dispatchers.handleUnexpected j fd
        waitToRemovedChannel := if s.allChannel fd = none then
            Function.update s.waitToRemovedChannel j (s.waitToRemovedChannel j ++ [fd])
          else s.waitToRemovedChannel } := by
  obtain ⟨hmap, hnext⟩ := s.dispatchers.handleUnexpected_frame j fd
  constructor
  · refine runs_congr (fun j' d => ?_) (s.dispatchers.dispatcher_handleUnexpected j fd)
    split <;> rfl
  · exact hnext
  · rfl
  · intro fd'
    have hchange : change s.runs i fd' s.dispatchers.nextChan (.handleUnexpected j fd events) =
        if fd = fd' then some (.delete (decide (j = i))) else none := by
      simp only [change, hevents, and_true]
    rw [hchange]
    refine view_delete ?_ rfl (fun fd'' => ?_) fd'
    · exact hmap
    by_cases hnone : s.allChannel fd = none
    · rw [if_pos hnone]
      by_cases hj : i = j
      · subst hj
        simp [hnone]
      · simp [Function.update_of_ne hj, Ne.symm hj]
    · rw [if_neg hnone]
      simp [hnone]

theorem follows_removeHandler {j : Nat} {fd : Int} {stale : Option Nat} {d : Dispatcher}
    (hd : s.dispatcher j = some d) (hstop : d.stop = false) (hfd : 0 ≤ fd) :
    s.Follows i (.removeHandler j fd stale)
      (s.put ((s.dispatchers.eraseChannel fd stale).modify j fun d => d.eraseHandler fd)) := by
  obtain ⟨hmap, hnext⟩ := s.dispatchers.eraseChannel_frame fd stale
  obtain ⟨hmap', hnext'⟩ := (s.dispatchers.eraseChannel fd stale).modify_frame j
    fun d => d.eraseHandler fd
  have hruns : s.runs j = true := by
    rw [runs, hd]
    exact congrArg not hstop
  constructor
  · refine runs_congr (f := fun j' d => if j = j' then d.eraseHandler fd else d) (fun j' d => ?_) ?_
    · split <;> rfl
    · intro j'
      rw [← show (s.dispatchers.eraseChannel fd stale).dispatcher j' = s.dispatcher j' from
        Dispatchers.dispatcher_eraseChannel ..]
      exact Dispatchers.dispatcher_modify ..
  · exact hnext'.trans hnext
  · rfl
  · intro fd'
    have hchange : change s.runs i fd' s.dispatchers.nextChan (.removeHandler j fd stale) =
        if fd = fd' then some (.delete false) else none := by
      by_cases hfd' : fd = fd'
      · subst hfd'
        simp [change, hruns, hfd]
      · simp [change, hfd']
    rw [hchange]
    refine view_delete ?_ rfl (fun fd'' => ?_) fd'
    · exact hmap'.trans hmap
    · exact (or_iff_left (by simp)).symm

theorem follows_refl (hchange : ∀ fd, change s.runs i fd s.dispatchers.nextChan call = none)
    (hcreated : call.created s.dispatchers.nextChan = s.dispatchers.nextChan) :
    s.Follows i call s where
  runs := rfl
  created := hcreated.symm
  extracted := rfl
  view fd := by
    rw [hchange fd]
    rfl

theorem follows_step (hbetween : call.between = true)
    (hstep : (machine A).step s call = some s') : s.Follows i call s' := by
  cases step_cases hstep with
  | failedConnection => exact follows_handleNewConnection _ _ s.dispatchers.isOpen
  | handleNewConnection => exact follows_handleNewConnection _ _ _
  | handleUnexpected _ _ hevents => exact follows_handleUnexpected hevents
  | handleExpected hevents => exact follows_refl (fun _ => by simp [change, hevents]) rfl
  | removeHandler hd hstop hfd => exact follows_removeHandler hd hstop hfd
  | @removeHandlerRefused j fd stale d hd hrefused =>
    refine follows_refl (fun fd' => if_neg ?_) rfl
    rintro ⟨rfl, hfd, hruns⟩
    rw [runs, hd] at hruns
    cases hrefused with
    | inl hstop =>
      rw [show Option.any _ (some d) = !d.stop from rfl, hstop] at hruns
      cases hruns
    | inr hneg => exact absurd hneg (Int.not_lt.mpr hfd)
  | openFd => exact ⟨rfl, rfl, rfl, fun _ => rfl⟩
  | @closeFd fd =>
    refine ⟨runs_congr (f := fun _ d => d.removeFd fd) (fun _ _ => rfl) ?_, rfl, rfl, fun _ => rfl⟩
    exact s.dispatchers.dispatcher_close fd
  | enableSlave | enableSlaveStopped | addSlaveDispatcher | addSlaveDispatcherRefused
  | setMasterFD | setMasterFDRefused | registerHandler | extractExistedChannel
  | restoreAllChannel | pend | pendSlave | shutdown | shutdownStopped => cases hbetween

/-- Along such calls the overlay of each number follows the changes that the calls make. -/
theorem follows_run {calls : List Call} (hcalls : ∀ call ∈ calls, call.between = true)
    (hrun : (machine A).run s calls = some s') : s'.extracted = s.extracted ∧
      ∀ fd, s'.view i fd =
        (changes s.runs i fd s.dispatchers.nextChan calls).foldl Split.step (s.view i fd) := by
  induction calls generalizing s with
  | nil =>
    cases hrun
    exact ⟨rfl, fun _ => rfl⟩
  | cons call calls ih =>
    obtain ⟨t, ht, hrest⟩ := Option.bind_eq_some_iff.mp hrun
    have hstep : s.Follows i call t := follows_step (hcalls call (List.mem_cons_self ..)) ht
    obtain ⟨hextracted, hview⟩ := ih (fun c hc => hcalls c (List.mem_cons_of_mem _ hc)) hrest
    refine ⟨hextracted.trans hstep.extracted, fun fd => ?_⟩
    rw [hview fd, hstep.runs, hstep.created, hstep.view fd, changes, List.foldl_append]

/-- Every channel that is filed, or was when the map was extracted, has been created. -/
structure Numbered (s : Serving) : Prop where
  filed : ∀ fd c, s.allChannel fd = some c → c < s.dispatchers.nextChan
  extracted : ∀ m ∈ s.extracted, ∀ fd c, m fd = some c → c < s.dispatchers.nextChan

theorem Numbered.of_allChannel (h : s.Numbered)
    (hfiled : ∀ fd c, s'.allChannel fd = some c → s.allChannel fd = some c)
    (hnext : s'.dispatchers.nextChan = s.dispatchers.nextChan)
    (hextracted : s'.extracted = s.extracted) : s'.Numbered where
  filed fd c hc := by
    rw [hnext]
    exact h.filed fd c (hfiled fd c hc)
  extracted := by
    rw [hnext, hextracted]
    exact h.extracted

theorem Numbered.handleNewConnection (h : s.Numbered) (fd : Int) (ok : Bool)
    (isOpen : Int → Bool) : (s.put (({ s.dispatchers with isOpen := isOpen } :
      Dispatchers).handleNewConnection A fd ok)).Numbered := by
  obtain ⟨hmap, hnext⟩ := Dispatchers.handleNewConnection_frame (A := A)
    { s.dispatchers with isOpen := isOpen } fd ok
  constructor
  · intro fd' c hc
    refine Nat.lt_of_lt_of_eq ?_ hnext.symm
    rcases ChannelMap.emplace_cases ((congrFun hmap fd').symm.trans hc) with hold | ⟨_, _, rfl⟩
    · exact Nat.lt_succ_of_lt (h.filed fd' c hold)
    · exact Nat.lt_succ_self _
  · intro m hm fd' c hc
    exact Nat.lt_of_lt_of_eq (Nat.lt_succ_of_lt (h.extracted m hm fd' c hc)) hnext.symm

theorem numbered_step {cond : Serving → Call → Prop} : (machine A).Preserves cond Numbered := by
  intro s call s' h _ hstep
  cases step_cases hstep with
  | failedConnection => exact h.handleNewConnection _ _ s.dispatchers.isOpen
  | handleNewConnection => exact h.handleNewConnection _ _ _
  | @handleUnexpected j fd =>
    obtain ⟨hmap, hnext⟩ := s.dispatchers.handleUnexpected_frame j fd
    refine h.of_allChannel (fun fd' c hc => ?_) hnext rfl
    exact (ChannelMap.erase_cases ((congrFun hmap fd').symm.trans hc)).2
  | @removeHandler j fd stale =>
    obtain ⟨hmap, hnext⟩ := s.dispatchers.eraseChannel_frame fd stale
    obtain ⟨hmap', hnext'⟩ := (s.dispatchers.eraseChannel fd stale).modify_frame j
      fun d => d.eraseHandler fd
    refine h.of_allChannel (fun fd' c hc => ?_) (hnext'.trans hnext) rfl
    exact (ChannelMap.erase_cases ((congrFun (hmap'.trans hmap) fd').symm.trans hc)).2
  | setMasterFD | registerHandler =>
    obtain ⟨hmap, hnext⟩ := s.dispatchers.modify_frame _ _
    exact h.of_allChannel (fun fd' c hc => (congrFun hmap fd').symm.trans hc) hnext rfl
  | extractExistedChannel =>
    refine ⟨nofun, fun m hm => ?_⟩
    cases List.mem_append.mp hm with
    | inl hold => exact h.extracted m hold
    | inr hnew =>
      rw [List.mem_singleton.mp hnew]
      exact h.filed
  | @restoreAllChannel j k channels hk =>
    refine ⟨fun fd c hc => ?_, fun m hm => h.extracted m (List.mem_of_mem_eraseIdx hm)⟩
    rcases Option.or_eq_some_iff.mp hc with hfiled | ⟨_, hrestored⟩
    · exact h.filed fd c hfiled
    · exact h.extracted channels (List.mem_of_getElem? hk) fd c
        (Option.ite_none_left_eq_some.mp hrestored).2
  | shutdown hstop =>
    refine h.of_allChannel (fun fd c hc => ?_) ?_ rfl
    · have hmap : s.dispatchers.shutdown.allChannel =
          if s.dispatchers.clears then fun _ => none else s.allChannel := by
        rw [Dispatchers.shutdown, hstop]
        rfl
      rw [show s.shutdown.allChannel fd = _ from congrFun hmap fd] at hc
      split at hc
      · cases hc
      · exact hc
    · change s.dispatchers.shutdown.nextChan = _
      rw [Dispatchers.shutdown, hstop]
      rfl
  | enableSlave | enableSlaveStopped | addSlaveDispatcher | addSlaveDispatcherRefused
  | setMasterFDRefused | removeHandlerRefused | handleExpected | pend | pendSlave
  | shutdownStopped | openFd | closeFd => exact ⟨h.filed, h.extracted⟩

theorem numbered_of_reachable {cond : Serving → Call → Prop}
    (h : (machine A).ReachableUnder cond s) : s.Numbered := by
  refine h.invariant ?_ numbered_step
  rintro s rfl
  exact ⟨nofun, nofun⟩

theorem put_mem_changes {runs : Nat → Bool} {c v : Nat} {calls : List Call}
    (h : .put v ∈ changes runs i fd c calls) : c ≤ v := by
  induction calls generalizing c with
  | nil => cases h
  | cons call calls ih =>
    have hcreated : c ≤ call.created c := by
      cases call <;> simp [Call.created]
    cases List.mem_append.mp h with
    | inl hfirst =>
      have hput := Option.mem_toList.mp hfirst
      cases call with
      | handleNewConnection fd' ok =>
        simp only [change, Option.ite_none_right_eq_some, Option.some.injEq,
          Change.put.injEq] at hput
        exact Nat.le_of_eq hput.2
      | handleUnexpected | removeHandler => simp [change] at hput
      | enableSlave | addSlaveDispatcher | setMasterFD | registerHandler | extractExistedChannel
      | restoreAllChannel | addPendingFunctor | shutdown | openFd | closeFd => cases hput
    | inr hrest => exact Nat.le_trans hcreated (ih hrest)

/-- What is restored is merged with the overlay. -/
theorem allChannel_restore {k : Nat} {channels : ChannelMap} (hk : s.extracted[k]? = some channels)
    (hstep : (machine A).step s (.restoreAllChannel i k) = some s') (fd : Int) :
    s'.allChannel fd = (s.view i fd).merge (channels fd) := by
  cases step_cases hstep with
  | @restoreAllChannel _ _ m hm =>
    obtain rfl := Option.some.inj (hm.symm.trans hk)
    change (s.allChannel fd).or (if fd ∈ s.waitToRemovedChannel i then none else m fd) =
      (s.allChannel fd).or (if decide (fd ∈ s.waitToRemovedChannel i) then none else m fd)
    simp only [decide_eq_true_eq]

/-- Extraction and restoration make no difference exactly if the calls between are faithful for
every number that had a channel. -/
theorem transparent_iff (A : Text.Allocator) (i : Nat) (s t u : Serving)
    (hs : (machine A).Reachable s) (calls : List Call)
    (hcalls : ∀ call ∈ calls, call.between = true)
    (hsplit : (machine A).run s (.extractExistedChannel :: (calls ++
      [.restoreAllChannel i s.extracted.length])) = some t)
    (hwhole : (machine A).run s calls = some u) :
    t.allChannel = u.allChannel ↔ ∀ fd c, s.allChannel fd = some c →
      Faithful (decide (fd ∈ s.waitToRemovedChannel i))
        (changes s.runs i fd s.dispatchers.nextChan calls) := by
  obtain ⟨s', hs', hrestore⟩ := Machine.run_append (show (machine A).run s.extractExistedChannel
    (calls ++ [.restoreAllChannel i s.extracted.length]) = some t from hsplit)
  obtain ⟨hextracted, hview⟩ := follows_run (i := i) hcalls hs'
  have hmerge (fd : Int) : t.allChannel fd = ((changes s.runs i fd s.dispatchers.nextChan
      calls).foldl Split.step ⟨none, decide (fd ∈ s.waitToRemovedChannel i)⟩).merge
        (s.allChannel fd) := by
    obtain ⟨t', ht', hnil⟩ := Option.bind_eq_some_iff.mp hrestore
    obtain rfl := Option.some.inj hnil
    have hk : s'.extracted[s.extracted.length]? = some s.allChannel := by
      rw [hextracted]
      exact List.getElem?_concat_length
    rw [allChannel_restore hk ht' fd, hview fd]
    rfl
  have hdirect (fd : Int) : u.allChannel fd =
      (changes s.runs i fd s.dispatchers.nextChan calls).foldl apply (s.allChannel fd) := by
    have hentry := congrArg Split.entry ((follows_run (i := i) hcalls hwhole).2 fd)
    exact hentry.trans (foldl_step_entry _ _)
  constructor
  · intro hsame fd c hc
    have heq := congrFun hsame fd
    rw [hmerge, hdirect, hc] at heq
    refine (merge_eq_iff (fun hput => ?_) _).mp heq
    exact Nat.lt_irrefl c (Nat.lt_of_lt_of_le ((numbered_of_reachable hs).filed fd c hc)
      (put_mem_changes hput))
  · intro hfaithful
    funext fd
    rw [hmerge, hdirect]
    cases hc : s.allChannel fd with
    | none => exact merge_none _ _
    | some c =>
      refine (merge_eq_iff (fun hput => ?_) _).mpr (hfaithful fd c hc)
      exact Nat.lt_irrefl c (Nat.lt_of_lt_of_le ((numbered_of_reachable hs).filed fd c hc)
        (put_mem_changes hput))

theorem transparent_iff_hangUp : ∃ s t u, (machine .doubling).run (initial .doubling)
      [.handleNewConnection 5 true] = some s ∧
    (machine .doubling).run s
      [.extractExistedChannel, .handleUnexpected 0 5 EPOLLHUP, .restoreAllChannel 0 0] = some t ∧
    (machine .doubling).run s [.handleUnexpected 0 5 EPOLLHUP] = some u ∧
    t.allChannel = u.allChannel := by
  obtain ⟨s, hs, hmap, hwait, hk, t, u, ht, hu⟩ : ∃ s, (machine .doubling).run (initial .doubling)
      [.handleNewConnection 5 true] = some s ∧ (∀ fd c, s.allChannel fd = some c → fd = 5) ∧
    s.waitToRemovedChannel 0 = [] ∧ s.extracted.length = 0 ∧ ∃ t u, (machine .doubling).run s
      [.extractExistedChannel, .handleUnexpected 0 5 EPOLLHUP, .restoreAllChannel 0 0] = some t ∧
    (machine .doubling).run s [.handleUnexpected 0 5 EPOLLHUP] = some u := by
    refine ⟨_, rfl, fun fd c hc => ?_, rfl, rfl, _, _, rfl, rfl⟩
    change ChannelMap.emplace (fun _ => none) 5 0 fd = some c at hc
    rcases ChannelMap.emplace_cases hc with hnone | ⟨_, hfd, _⟩
    · cases hnone
    · exact hfd
  refine ⟨s, t, u, hs, ht, hu, ?_⟩
  refine (transparent_iff .doubling 0 s t u (Machine.reachable_of_run rfl hs)
    [.handleUnexpected 0 5 EPOLLHUP] (by decide) (by rw [hk]; exact ht) hu).mpr fun fd c hc => ?_
  obtain rfl := hmap fd c hc
  rw [hwait]
  exact .inr ⟨rfl, rfl⟩

/-- A slave closes a connection whose channel is extracted. -/
theorem closed_connection_reappears : ∃ s t u, (machine .doubling).run (initial .doubling)
      [.enableSlave true, .addSlaveDispatcher 1, .handleNewConnection 5 true] = some s ∧
    (machine .doubling).run s
      [.extractExistedChannel, .handleUnexpected 1 5 EPOLLHUP, .restoreAllChannel 0 0] = some t ∧
    (machine .doubling).run s [.handleUnexpected 1 5 EPOLLHUP] = some u ∧
    t.allChannel 5 = some 0 ∧ u.allChannel 5 = none :=
  ⟨_, _, _, rfl, rfl, rfl, rfl, rfl⟩

end Serving

end ServerDevLib.Reactor
