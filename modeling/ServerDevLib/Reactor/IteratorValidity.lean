import ServerDevLib.Reactor.NotificationCenter
import Mathlib.Data.Fintype.Basic

/-!
# Iterators into the map of waiting descriptors

`NotifyDataReady` keeps an iterator across the acquisition of the barrier, and
`HandleReadyData` looks up descriptors of an old copy of the map.
`NotifyClose` respects neither: it erases under a mutex that the two do not
hold at these points. As long as it erases no entry that one of them is about
to use, every iterator they dereference designates a present entry.
-/

namespace ServerDevLib.Reactor

open Transition

/-- The worker has found the entry of the descriptor and has not used it yet. -/
def WorkerPc.Uses (fd : Int) : WorkerPc → Prop
  | .found fd' _ => fd' = fd
  | _ => False

def Unvisited (rest : List (Int × ReadyState)) (fd : Int) : Prop :=
  ∃ visited ∈ rest, visited.1 = fd ∧ visited.2 ≠ .ONE

/-- The descriptor is in the copy of the map, and its entry is still to be looked up. -/
def ConsumerPc.Pending (fd : Int) : ConsumerPc → Prop
  | .idle => False
  | .scanning rest => Unvisited rest fd
  | .holding _ fd' rest | .drained fd' rest => fd' = fd ∨ Unvisited rest fd

namespace NotificationCenter

variable {W D : Type} {A : Text.Allocator} {s : NotificationCenter W D}

/-- `NotifyClose` leaves alone what a worker or `HandleReadyData` is about to use. -/
def Spares (s : NotificationCenter W D) : Action W D → Prop
  | .notifyClose w =>
    match s.worker w with
    | .closing fd => (∀ w', ¬ (s.worker w').Uses fd) ∧ ¬ s.consumer.Pending fd
    | _ => True
  | _ => True

structure Valid (s : NotificationCenter W D) : Prop where
  found : ∀ w fd node, s.worker w = .found fd node →
    ∃ e, s.waitToHandleFD.lookup fd = some e ∧ e.node = node
  pending : ∀ fd, s.consumer.Pending fd → s.waitToHandleFD.lookup fd ≠ none
  sound : s.dangled = false

theorem initial_valid : (initial A : NotificationCenter W D).Valid where
  found := nofun
  pending _ h := h.elim
  sound := rfl

variable [DecidableEq W]

theorem Valid.goto (h : s.Valid) {w : W} {pc : WorkerPc}
    (hpc : ∀ fd node, pc = .found fd node →
      ∃ e, s.waitToHandleFD.lookup fd = some e ∧ e.node = node) : (s.goto w pc).Valid where
  found v fd node hv := by
    rcases worker_goto hv with ⟨_, rfl⟩ | ⟨_, hv⟩
    · exact hpc fd node rfl
    · exact h.found v fd node hv
  pending := h.pending
  sound := h.sound

omit [DecidableEq W]

theorem Valid.consume (h : s.Valid) {pc : ConsumerPc}
    (hpc : ∀ fd, pc.Pending fd → s.waitToHandleFD.lookup fd ≠ none) :
    ({ s with consumer := pc } : NotificationCenter W D).Valid :=
  ⟨h.found, hpc, h.sound⟩

/-- Writing an entry keeps every iterator, provided an entry that was there keeps its node. -/
theorem Valid.insert (h : s.Valid) {fd : Int} {e : Entry} (next : Nat)
    (hnode : ∀ e', s.waitToHandleFD.lookup fd = some e' → e'.node = e.node) :
    ({ s with waitToHandleFD := s.waitToHandleFD.insert fd e, nextNode := next } :
      NotificationCenter W D).Valid where
  found w fd' node hw := by
    obtain ⟨e', he', rfl⟩ := h.found w fd' node hw
    rcases eq_or_ne fd' fd with rfl | hne
    · exact ⟨e, AList.lookup_insert _, (hnode e' he').symm⟩
    · exact ⟨e', (AList.lookup_insert_ne hne).trans he', rfl⟩
  pending fd' hp := by
    change (s.waitToHandleFD.insert fd e).lookup fd' ≠ none
    rcases eq_or_ne fd' fd with rfl | hne
    · rw [AList.lookup_insert]
      exact Option.some_ne_none e
    · rw [AList.lookup_insert_ne hne]
      exact h.pending fd' hp
  sound := h.sound

theorem Valid.erase (h : s.Valid) {fd : Int} (hworker : ∀ w, ¬ (s.worker w).Uses fd)
    (hconsumer : ¬ s.consumer.Pending fd) :
    ({ s with waitToHandleFD := s.waitToHandleFD.erase fd } : NotificationCenter W D).Valid where
  found w fd' node hw := by
    have hne : fd' ≠ fd := by
      rintro rfl
      exact hworker w (by rw [show s.worker w = .found fd' node from hw]; rfl)
    obtain ⟨e, he, hnode⟩ := h.found w fd' node hw
    exact ⟨e, (AList.lookup_erase_ne hne).trans he, hnode⟩
  pending fd' hp := by
    have hne : fd' ≠ fd := by
      rintro rfl
      exact hconsumer hp
    change (s.waitToHandleFD.erase fd).lookup fd' ≠ none
    rw [AList.lookup_erase_ne hne]
    exact h.pending fd' hp
  sound := h.sound

/-- The descriptors of the copy are those of the map. -/
theorem lookup_of_mem_snapshot {fd : Int} {state : ReadyState} (h : (fd, state) ∈ s.snapshot) :
    ∃ e, s.waitToHandleFD.lookup fd = some e ∧ e.state = state := by
  obtain ⟨⟨fd', e⟩, hmem, heq⟩ := List.mem_map.mp h
  cases heq
  exact ⟨e, AList.mem_lookup_iff.mpr hmem, rfl⟩

theorem mem_snapshot_of_lookup {fd : Int} {e : Entry} (h : s.waitToHandleFD.lookup fd = some e) :
    (fd, e.state) ∈ s.snapshot :=
  List.mem_map.mpr ⟨⟨fd, e⟩, AList.mem_lookup_iff.mp h, rfl⟩

theorem nodup_of_perm_snapshot {entries : List (Int × ReadyState)} (h : entries.Perm s.snapshot) :
    (entries.map Prod.fst).Nodup := by
  have hkeys : s.snapshot.map Prod.fst = s.waitToHandleFD.keys := by
    rw [snapshot, List.map_map]
    rfl
  have hmap := h.map Prod.fst
  rw [hkeys] at hmap
  exact hmap.nodup_iff.mpr s.waitToHandleFD.nodupKeys

/-- Visiting an entry brings nothing new to be looked up. -/
theorem pending_of_visit {fd fd' : Int} {state : ReadyState} {rest : List (Int × ReadyState)}
    (h : (s.visit fd state rest).Pending fd') : Unvisited ((fd, state) :: rest) fd' := by
  have hrest (hu : Unvisited rest fd') : Unvisited ((fd, state) :: rest) fd' := by
    obtain ⟨visited, hmem, hvisited⟩ := hu
    exact ⟨visited, List.mem_cons_of_mem _ hmem, hvisited⟩
  simp only [visit] at h
  split at h
  · exact hrest h
  · split at h
    · exact hrest h
    · rename_i hstate
      rcases h with rfl | h
      · exact ⟨(fd, state), List.mem_cons_self .., rfl, hstate⟩
      · exact hrest h

variable [DecidableEq W] [DecidableEq D]

theorem valid_step : (machine W D A).Preserves Spares Valid := by
  intro s a s' h hspares hstep
  cases step_cases hstep with
  | enter | emplaceSome | findNone => exact h.goto nofun
  | @storeError w c chunks ch | @storeEof w c chunks ch =>
    exact Valid.goto (s := s.setChan c ch) ⟨h.found, h.pending, h.sound⟩ nofun
  | @inactivate w c =>
    exact Valid.goto (s := s.setChan c (s.chan c).inactive) ⟨h.found, h.pending, h.sound⟩ nofun
  | @findSome w fd e _ he =>
    apply h.goto
    rintro fd node ⟨⟩
    exact ⟨e, he, rfl⟩
  | emplaceNone _ hnone =>
    refine (h.insert _ fun e' he' => ?_).goto nofun
    rw [hnone] at he'
    cases he'
  | promote _ he =>
    refine Valid.goto (h.insert s.nextNode fun e' he' => ?_) nofun
    rw [he] at he'
    cases he'
    rfl
  | promoteDangling hpc hgone =>
    obtain ⟨e, he, hnode⟩ := h.found _ _ _ hpc
    exact absurd hnode (hgone e he)
  | notifyClose hpc =>
    simp only [Spares, hpc] at hspares
    exact (h.erase hspares.1 hspares.2).goto nofun
  | copy _ hperm =>
    apply h.consume
    rintro fd ⟨⟨_, state⟩, hmem, rfl, _⟩
    obtain ⟨e, he, _⟩ := lookup_of_mem_snapshot (hperm.subset hmem)
    rw [he]
    exact Option.some_ne_none e
  | scanned => exact h.consume fun _ => False.elim
  | getChannel hpc =>
    refine h.consume fun fd' hp => h.pending fd' ?_
    rw [hpc]
    exact pending_of_visit hp
  | getReceivedData hpc =>
    refine ⟨h.found, fun fd' hp => h.pending fd' ?_, h.sound⟩
    rw [hpc]
    exact hp
  | @demote fd rest e hpc he =>
    have hsection : (s.applySection .HandleReadyData fd e).Valid := by
      apply h.insert s.nextNode
      intro e' he'
      rw [he] at he'
      cases he'
      rfl
    refine hsection.consume fun fd' hp => hsection.pending fd' ?_
    rw [show (s.applySection .HandleReadyData fd e).consumer = .drained fd rest from hpc]
    exact .inr hp
  | demoteDangling hpc hnone =>
    refine absurd hnone (h.pending _ ?_)
    rw [hpc]
    exact .inl rfl
  | accept | register | close | removeSome | removeNone | respondSome | respondNone | append
  | appendInactive | discard => exact ⟨h.found, h.pending, h.sound⟩

theorem valid_of_reachable (h : (machine W D A).ReachableUnder Spares s) : s.Valid := by
  refine h.invariant ?_ valid_step
  rintro s rfl
  exact initial_valid

theorem never_dangles (s : NotificationCenter W D) (h : (machine W D A).ReachableUnder Spares s) :
    s.dangled = false :=
  (valid_of_reachable h).sound

end NotificationCenter

instance (fd : Int) (pc : WorkerPc) : Decidable (pc.Uses fd) :=
  match pc with
  | .found fd' _ => inferInstanceAs (Decidable (fd' = fd))
  | .idle | .reading _ | .eof _ | .notifying _ | .emplacing _ | .closing _ => isFalse id

instance (rest : List (Int × ReadyState)) (fd : Int) : Decidable (Unvisited rest fd) :=
  inferInstanceAs (Decidable (∃ visited ∈ rest, visited.1 = fd ∧ visited.2 ≠ .ONE))

instance (fd : Int) (pc : ConsumerPc) : Decidable (pc.Pending fd) :=
  match pc with
  | .idle => isFalse id
  | .scanning rest => inferInstanceAs (Decidable (Unvisited rest fd))
  | .holding _ fd' rest | .drained fd' rest =>
    inferInstanceAs (Decidable (fd' = fd ∨ Unvisited rest fd))

namespace NotificationCenter

instance {W D : Type} [Fintype W] (s : NotificationCenter W D) (a : Action W D) :
    Decidable (Spares s a) :=
  match a with
  | .notifyClose w =>
    match h : s.worker w with
    | .closing fd => decidable_of_iff ((∀ w', ¬ (s.worker w').Uses fd) ∧ ¬ s.consumer.Pending fd)
        (by simp only [Spares, h])
    | .idle | .reading _ | .eof _ | .notifying _ | .emplacing _ | .found _ _ =>
      isTrue (by simp only [Spares, h])
  | .enter _ _ | .store _ _ _ | .inactivate _ | .find _ | .emplace _ | .promote _ | .copy _
  | .getChannel | .getReceivedData | .demote | .accept _ | .register | .close _ _ | .remove _
  | .respond _ _ | .append _ | .discard _ => isTrue trivial

/-- A connection is served, and closed when its entry is no longer in use. -/
theorem never_dangles_served : ∃ s, (machine Unit Unit .doubling).runUnder Spares (initial .doubling)
    [.accept 5, .register, .enter () 0, .store () [[104]] .error, .find (), .emplace (),
      .copy [(5, .MORE)], .getChannel, .getReceivedData, .demote, .getChannel, .enter () 0,
      .store () [] .eof, .inactivate (), .notifyClose ()] = some s ∧ s.dangled = false := by
  obtain ⟨s, hs⟩ : ∃ s, (machine Unit Unit .doubling).runUnder Spares (initial .doubling)
      [.accept 5, .register, .enter () 0, .store () [[104]] .error, .find (), .emplace (),
        .copy [(5, .MORE)], .getChannel, .getReceivedData, .demote, .getChannel, .enter () 0,
        .store () [] .eof, .inactivate (), .notifyClose ()] = some s :=
    Option.isSome_iff_exists.mp (by decide +kernel)
  exact ⟨s, hs, never_dangles s (Machine.reachableUnder_of_runUnder rfl hs)⟩

/-- The erasure between the copy and the lookup, and the one under a worker's iterator. -/
theorem dangles_after_close :
    (∃ s, (machine Unit Unit .doubling).run (initial .doubling)
      [.accept 5, .register, .enter () 0, .store () [[104]] .error, .find (), .emplace (),
        .copy [(5, .MORE)], .enter () 0, .store () [] .eof, .inactivate (), .notifyClose (),
        .getChannel, .getReceivedData, .demote] = some s ∧ s.dangled = true) ∧
    ∃ s, (machine Bool Unit .doubling).run (initial .doubling)
      [.accept 5, .register, .enter true 0, .store true [[104]] .error, .find true, .emplace true,
        .enter true 0, .enter false 0, .store true [] .error, .find true, .store false [] .eof,
        .inactivate false, .notifyClose false, .promote true] = some s ∧ s.dangled = true :=
  ⟨Option.map_eq_some_iff.mp (by decide +kernel), Option.map_eq_some_iff.mp (by decide +kernel)⟩

end NotificationCenter

end ServerDevLib.Reactor
