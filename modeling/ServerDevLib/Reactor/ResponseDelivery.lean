import ServerDevLib.Reactor.NotificationCenter

/-!
# Responses and the connections they belong to

A request keeps the descriptor it was received on, and `NotifyResponseReady`
looks the channel up again under that number. When the connection has been
closed in between and its number given to a new one, the lookup finds the
channel of the new connection. Runs that file a new channel only under a
descriptor nothing refers to any more answer every request on its own
connection.
-/

namespace ServerDevLib.Reactor

open Transition

/-- `HandleReadyData` has looked the channel up and has not fetched its data yet. -/
def ConsumerPc.Holds (fd : Int) : ConsumerPc → Prop
  | .holding _ fd' _ => fd' = fd
  | _ => False

instance (fd : Int) (pc : ConsumerPc) : Decidable (pc.Holds fd) :=
  match pc with
  | .holding _ fd' _ => inferInstanceAs (Decidable (fd' = fd))
  | .idle | .scanning _ | .drained _ _ => isFalse id

namespace NotificationCenter

variable {W D : Type} {A : Text.Allocator} {s : NotificationCenter W D}

/-- A channel is filed under a descriptor only when no request of an earlier connection with
that number is being taken or still to be answered. -/
def Unreferenced (s : NotificationCenter W D) : Action W D → Prop
  | .register => ∀ c, s.accepted = some c →
      ¬ s.consumer.Holds (s.chan c).fd ∧ ∀ r ∈ s.requests, r.fd ≠ (s.chan c).fd
  | _ => True

instance (s : NotificationCenter W D) (a : Action W D) : Decidable (Unreferenced s a) :=
  match a with
  | .register =>
    match h : s.accepted with
    | none => isTrue (by simp only [Unreferenced, h]; nofun)
    | some c => decidable_of_iff
        (¬ s.consumer.Holds (s.chan c).fd ∧ ∀ r ∈ s.requests, r.fd ≠ (s.chan c).fd)
        (by simp only [Unreferenced, h, Option.some.injEq, forall_eq'])
  | .enter _ _ | .store _ _ _ | .inactivate _ | .find _ | .emplace _ | .promote _ | .notifyClose _
  | .copy _ | .getChannel | .getReceivedData | .demote | .accept _ | .close _ _ | .remove _
  | .respond _ _ | .append _ | .discard _ => isTrue trivial

/-- Whoever holds a descriptor for a channel finds no other channel under it. -/
structure Matched (s : NotificationCenter W D) : Prop where
  held : ∀ c fd rest, s.consumer = .holding c fd rest → ∀ c', s.allChannel fd = some c' → c' = c
  requested : ∀ r ∈ s.requests, ∀ c, s.allChannel r.fd = some c → c = r.origin
  answered : ∀ a ∈ s.answers, a.target = a.origin
  delivered : ∀ a ∈ s.delivered, a.target = a.origin

theorem initial_matched : (initial A : NotificationCenter W D).Matched where
  held := nofun
  requested := nofun
  answered := nofun
  delivered := nofun

theorem Matched.consume (h : s.Matched) {pc : ConsumerPc}
    (hpc : ∀ c fd rest, pc = .holding c fd rest → s.allChannel fd = some c) :
    ({ s with consumer := pc } : NotificationCenter W D).Matched where
  held c fd rest heq c' hc' := by
    have hc := hpc c fd rest heq
    rw [show s.allChannel fd = some c' from hc'] at hc
    exact Option.some.inj hc
  requested := h.requested
  answered := h.answered
  delivered := h.delivered

variable [DecidableEq W] [DecidableEq D]

theorem matched_step (s : NotificationCenter W D) (a : Action W D) (s' : NotificationCenter W D)
    (hr : s.Registry) (h : s.Matched) (hquiet : Unreferenced s a)
    (hstep : (machine W D A).step s a = some s') : s'.Matched := by
  cases step_cases hstep with
  | enter | storeError | storeEof | inactivate | findNone | findSome | emplaceNone | emplaceSome
  | promote | promoteDangling | notifyClose | accept | close | removeNone =>
    exact ⟨h.held, h.requested, h.answered, h.delivered⟩
  | respondNone => exact h
  | copy | scanned => exact h.consume nofun
  | getChannel =>
    apply h.consume
    intro c fd rest hpc
    obtain ⟨hc, rfl⟩ := visit_eq_holding hpc
    exact hc
  | @getReceivedData c fd rest hpc =>
    refine ⟨nofun, fun r hmem c' hc' => ?_, h.answered, h.delivered⟩
    cases List.mem_append.mp hmem with
    | inl hmem => exact h.requested r hmem c' hc'
    | inr hmem =>
      obtain rfl := List.mem_singleton.mp hmem
      have hfd : (s.chan c).fd = fd := (hr.held c fd rest hpc).2
      apply h.held c fd rest hpc c'
      rw [← hfd]
      exact hc'
  | demote | demoteDangling => exact ⟨nofun, h.requested, h.answered, h.delivered⟩
  | @register c hc =>
    obtain ⟨hholds, hrequests⟩ := hquiet c hc
    refine ⟨fun c₀ fd rest hpc c' hc' => ?_, fun r hmem c' hc' => ?_, h.answered, h.delivered⟩
    · rcases ChannelMap.emplace_cases hc' with hc' | ⟨_, rfl, rfl⟩
      · exact h.held c₀ fd rest hpc c' hc'
      · refine absurd ?_ hholds
        rw [show s.consumer = _ from hpc]
        rfl
    · rcases ChannelMap.emplace_cases hc' with hc' | ⟨_, hfd, rfl⟩
      · exact h.requested r hmem c' hc'
      · exact absurd hfd (hrequests r hmem)
  | removeSome =>
    refine ⟨fun c fd rest hpc c' hc' => ?_, fun r hmem c hc => ?_, h.answered, h.delivered⟩
    · exact h.held c fd rest hpc c' (ChannelMap.erase_cases hc').2
    · exact h.requested r hmem c (ChannelMap.erase_cases hc).2
  | respondSome hrequest hfiled =>
    refine ⟨h.held, h.requested, fun a hmem => ?_, h.delivered⟩
    cases List.mem_append.mp hmem with
    | inl hmem => exact h.answered a hmem
    | inr hmem =>
      obtain rfl := List.mem_singleton.mp hmem
      exact h.requested _ (List.mem_of_getElem? hrequest) _ hfiled
  | append ha =>
    refine ⟨h.held, h.requested, fun b hb => h.answered b (List.mem_of_mem_eraseIdx hb),
      fun b hb => ?_⟩
    cases List.mem_append.mp hb with
    | inl hb => exact h.delivered b hb
    | inr hb =>
      obtain rfl := List.mem_singleton.mp hb
      exact h.answered b (List.mem_of_getElem? ha)
  | appendInactive =>
    exact ⟨h.held, h.requested, fun b hb => h.answered b (List.mem_of_mem_eraseIdx hb), h.delivered⟩
  | discard =>
    exact ⟨h.held, fun r hmem => h.requested r (List.mem_of_mem_eraseIdx hmem), h.answered,
      h.delivered⟩

theorem matched_of_reachable (h : (machine W D A).ReachableUnder Unreferenced s) : s.Matched := by
  refine h.invariant_on (fun _ => registry_of_reachable) ?_ matched_step
  rintro s rfl
  exact initial_matched

section Buffers

/-- The bytes of the answers that were appended to a channel, in order. -/
def deliveredTo (s : NotificationCenter W D) (c : Nat) : List UInt8 :=
  ((s.delivered.filter fun a => a.target = c).map Answer.data).flatten

/-- The sending buffers hold what was delivered, and that only to channels that exist. -/
structure Buffers (s : NotificationCenter W D) : Prop where
  unsent : ∀ c, (s.chan c).unsent = s.deliveredTo c
  answered : ∀ a ∈ s.answers, a.target < s.nextChan
  delivered : ∀ a ∈ s.delivered, a.target < s.nextChan

omit [DecidableEq W] [DecidableEq D]

theorem initial_buffers : (initial A : NotificationCenter W D).Buffers where
  unsent _ := Channel.unsent_create _ _
  answered := nofun
  delivered := nofun

theorem Buffers.setChan (h : s.Buffers) (c : Nat) (ch : Channel)
    (hunsent : ch.unsent = (s.chan c).unsent) : (s.setChan c ch).Buffers where
  unsent c' := by
    rcases eq_or_ne c' c with rfl | hne
    · rw [setChan_self, hunsent]
      exact h.unsent c'
    · rw [setChan_of_ne hne]
      exact h.unsent c'
  answered := h.answered
  delivered := h.delivered

theorem Buffers.append (h : s.Buffers) {i : Nat} {a : Answer} (ha : s.answers[i]? = some a) :
    ({ s.setChan a.target ((s.chan a.target).appendToSend A a.data) with
        answers := s.answers.eraseIdx i
        delivered := s.delivered ++ [a] } : NotificationCenter W D).Buffers where
  unsent c := by
    have hdelivered : (((s.delivered ++ [a]).filter fun b => b.target = c).map Answer.data).flatten =
        s.deliveredTo c ++ if a.target = c then a.data else [] := by
      rw [List.filter_append, List.map_append, List.flatten_append]
      congr 1
      split <;> rename_i hc <;> simp [hc]
    refine Eq.trans ?_ hdelivered.symm
    change ((s.setChan a.target _).chan c).unsent = _
    rcases eq_or_ne c a.target with rfl | hne
    · rw [setChan_self, Channel.unsent_appendToSend, h.unsent, if_pos rfl]
    · rw [setChan_of_ne hne, h.unsent, if_neg hne.symm, List.append_nil]
  answered b hb := h.answered b (List.mem_of_mem_eraseIdx hb)
  delivered b hb := by
    cases List.mem_append.mp hb with
    | inl hb => exact h.delivered b hb
    | inr hb =>
      obtain rfl := List.mem_singleton.mp hb
      exact h.answered b (List.mem_of_getElem? ha)

theorem Buffers.accept (h : s.Buffers) (fd : Int) (isOpen : Int → Bool) :
    ({ s.setChan s.nextChan (.create A fd (some 0)) with
        nextChan := s.nextChan + 1
        isOpen := isOpen
        accepted := some s.nextChan } : NotificationCenter W D).Buffers where
  unsent c := by
    change ((s.setChan s.nextChan _).chan c).unsent = s.deliveredTo c
    rcases eq_or_ne c s.nextChan with rfl | hne
    · rw [setChan_self, Channel.unsent_create, deliveredTo, List.filter_eq_nil_iff.mpr]
      · rfl
      · intro a ha heq
        exact Nat.ne_of_lt (h.delivered a ha) (of_decide_eq_true heq)
    · rw [setChan_of_ne hne]
      exact h.unsent c
  answered a ha := Nat.lt_succ_of_lt (h.answered a ha)
  delivered a ha := Nat.lt_succ_of_lt (h.delivered a ha)

end Buffers

theorem buffers_step (s : NotificationCenter W D) (a : Action W D) (s' : NotificationCenter W D)
    (hr : s.Registry) (h : s.Buffers) (hstep : (machine W D A).step s a = some s') : s'.Buffers := by
  cases step_cases hstep with
  | enter | findNone | findSome | emplaceNone | emplaceSome | promote | promoteDangling
  | notifyClose | copy | scanned | getChannel | demote | demoteDangling | register | close
  | removeNone | discard => exact ⟨h.unsent, h.answered, h.delivered⟩
  | respondNone => exact h
  | @storeError w c chunks ch _ hreceive | @storeEof w c chunks ch _ hreceive =>
    obtain ⟨buf, count, _, hch⟩ := Channel.receive_cases hreceive
    have hset := h.setChan c ch (by rw [hch]; rfl)
    exact ⟨hset.unsent, hset.answered, hset.delivered⟩
  | @inactivate w c | @removeSome d fd c =>
    have hset := h.setChan c (s.chan c).inactive rfl
    exact ⟨hset.unsent, hset.answered, hset.delivered⟩
  | @getReceivedData c =>
    obtain ⟨count, hch, _⟩ := (s.chan c).getReceivedData_cases
    have hset := h.setChan c (s.chan c).getReceivedData.1 (by rw [hch]; rfl)
    exact ⟨hset.unsent, hset.answered, hset.delivered⟩
  | accept => exact h.accept _ _
  | respondSome _ hfiled =>
    refine ⟨h.unsent, fun a hmem => ?_, h.delivered⟩
    cases List.mem_append.mp hmem with
    | inl hmem => exact h.answered a hmem
    | inr hmem =>
      obtain rfl := List.mem_singleton.mp hmem
      exact (hr.filed _ _ hfiled).1
  | append ha => exact h.append ha
  | appendInactive =>
    exact ⟨h.unsent, fun b hb => h.answered b (List.mem_of_mem_eraseIdx hb), h.delivered⟩

theorem buffers_of_reachable {cond : NotificationCenter W D → Action W D → Prop}
    (h : (machine W D A).ReachableUnder cond s) : s.Buffers := by
  refine h.invariant_on (fun _ => registry_of_reachable) ?_
    fun s a s' hr hs _ hstep => buffers_step s a s' hr hs hstep
  rintro s rfl
  exact initial_buffers

/-- What waits to be sent on a channel are answers to requests of that channel alone. -/
theorem answers_own_connection (s : NotificationCenter W D)
    (h : (machine W D A).ReachableUnder Unreferenced s) (c : Nat) :
    (s.chan c).unsent = s.deliveredTo c ∧ ∀ a ∈ s.delivered, a.target = c → a.origin = c := by
  refine ⟨(buffers_of_reachable h).unsent c, fun a ha htarget => ?_⟩
  rw [← htarget]
  exact ((matched_of_reachable h).delivered a ha).symm

/-- A request is answered before its connection is closed and the descriptor given away. -/
theorem answers_own_connection_reuse : ∃ s, (machine Unit Unit .doubling).runUnder Unreferenced
    (initial .doubling)
    [.accept 5, .register, .enter () 0, .store () [[104]] .error, .find (), .emplace (),
      .copy [(5, .MORE)], .getChannel, .getReceivedData, .demote, .respond 0 [111], .append 0,
      .discard 0, .close () 5, .remove (), .accept 5, .register] = some s ∧
    ∀ c, (s.chan c).unsent = s.deliveredTo c ∧ ∀ a ∈ s.delivered, a.target = c → a.origin = c := by
  obtain ⟨s, hs⟩ : ∃ s, (machine Unit Unit .doubling).runUnder Unreferenced (initial .doubling)
      [.accept 5, .register, .enter () 0, .store () [[104]] .error, .find (), .emplace (),
        .copy [(5, .MORE)], .getChannel, .getReceivedData, .demote, .respond 0 [111], .append 0,
        .discard 0, .close () 5, .remove (), .accept 5, .register] = some s :=
    Option.isSome_iff_exists.mp (by decide +kernel)
  exact ⟨s, hs, answers_own_connection s (Machine.reachableUnder_of_runUnder rfl hs)⟩

/-- The late answer to the closed connection is sent to the one that got its number. -/
theorem answer_reaches_other_connection : ∃ s, (machine Unit Unit .doubling).run
    (initial .doubling)
    [.accept 5, .register, .enter () 0, .store () [[104]] .error, .find (), .emplace (),
      .copy [(5, .MORE)], .getChannel, .getReceivedData, .demote, .close () 5, .remove (),
      .accept 5, .register, .respond 0 [111], .append 0] = some s ∧
    ((s.chan 1).unsent, s.delivered.map fun a => (a.target, a.origin)) = ([111], [(1, 0)]) :=
  Option.map_eq_some_iff.mp (by decide +kernel)

end NotificationCenter

end ServerDevLib.Reactor
