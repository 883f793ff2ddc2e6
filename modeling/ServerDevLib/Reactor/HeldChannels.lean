import ServerDevLib.Reactor.Extraction

/-!
# Channels that are held

A channel that has been filed stays under its descriptor in `_allChannel`, or
in one of the maps that `ExtractExistedChannel` has returned, until it is
dropped. No channel is in two of them, so that the call that drops it is the
last one to reach it through a map.
-/

namespace ServerDevLib.Reactor

open Transition

namespace Dispatchers

variable {A : Text.Allocator}

theorem chan_modify (s : Dispatchers) (i : Nat) (f : Dispatcher → Dispatcher) :
    (s.modify i f).chan = s.chan ∧ (s.modify i f).isOpen = s.isOpen := by
  cases i with
  | zero => exact ⟨rfl, rfl⟩
  | succ i => exact ⟨rfl, rfl⟩

theorem chan_handleNewConnection (s : Dispatchers) (fd : Int) (ok : Bool) :
    (s.handleNewConnection A fd ok).chan =
        Function.update s.chan s.nextChan (.create A fd (some 0)) ∧
      (s.handleNewConnection A fd ok).isOpen = s.isOpen := by
  rw [handleNewConnection_eq]
  exact chan_modify ..

/-- Exactly the channel that is filed under the number is made inactive. -/
theorem active_dropChannel (s : Dispatchers) (fd : Int) (c : Nat) :
    ((s.dropChannel fd).chan c).active = ((s.chan c).active && s.allChannel fd != some c) := by
  simp only [dropChannel]
  split
  · rename_i c' hc'
    rw [hc']
    by_cases hc : c = c'
    · subst hc
      simp [setChan, Channel.inactive]
    · simp [setChan, Function.update_of_ne hc, Ne.symm hc]
  · rename_i hnone
    simp [hnone]

theorem active_handleUnexpected (s : Dispatchers) (i : Nat) (fd : Int) (c : Nat) :
    ((s.handleUnexpected i fd).chan c).active =
      ((s.chan c).active && s.allChannel fd != some c) := by
  rw [handleUnexpected, active_dropChannel]
  change (((s.modify i _).chan c).active && (s.modify i _).allChannel fd != some c) = _
  rw [(modify_frame ..).1, (chan_modify ..).1]

theorem isOpen_handleUnexpected (s : Dispatchers) (i : Nat) (fd : Int) :
    (s.handleUnexpected i fd).isOpen = Function.update s.isOpen fd false := by
  have hdrop (t : Dispatchers) : (t.dropChannel fd).isOpen = t.isOpen := by
    simp only [dropChannel]
    split <;> rfl
  rw [handleUnexpected, hdrop]
  exact congrArg (Function.update · fd false) (chan_modify s i _).2

/-- The read of the erased node takes place only if a channel was filed. -/
theorem active_eraseChannel (s : Dispatchers) (fd : Int) (stale : Option Nat) (c : Nat) :
    ((s.eraseChannel fd stale).chan c).active =
      ((s.chan c).active && !((s.allChannel fd).isSome && stale == some c)) := by
  simp only [eraseChannel]
  split
  · rename_i hnone
    simp [hnone]
  · simp
  · rename_i c' c'' hc'
    rw [hc']
    by_cases hc : c = c''
    · subst hc
      simp [setChan, Channel.inactive]
    · simp [setChan, Function.update_of_ne hc, Ne.symm hc]

theorem isOpen_eraseChannel (s : Dispatchers) (fd : Int) (stale : Option Nat) :
    (s.eraseChannel fd stale).isOpen = s.isOpen := by
  simp only [eraseChannel]
  split <;> rfl

theorem active_shutdown {s : Dispatchers} (hstop : s.master.stop = false) (c : Nat) :
    (s.shutdown.chan c).active = ((s.chan c).active &&
      !(s.clears && s.allChannel (s.chan c).fd == some c)) := by
  rw [shutdown, hstop, if_neg Bool.false_ne_true]
  cases hclears : s.clears with
  | false => simp
  | true =>
    by_cases hc : s.allChannel (s.chan c).fd = some c
    · simp [hc, Channel.inactive]
    · simp [hc]

/-- What `Shutdown` closes are the descriptors of the handlers it clears. -/
theorem isOpen_shutdown_iff {s : Dispatchers} (hstop : s.master.stop = false) (fd : Int) :
    s.shutdown.isOpen fd = false ↔ s.isOpen fd = false ∨ ∃ i d, s.dispatcher i = some d ∧
      (i = 0 ∨ s.master.enableSlave = true) ∧ (d.handlers fd).isSome = true := by
  rw [shutdown, hstop, if_neg Bool.false_ne_true]
  change (s.isOpen fd && !(_ || _)) = false ↔ _
  rw [Bool.and_eq_false_iff, Bool.not_eq_false', Bool.or_eq_true, Bool.and_eq_true,
    List.any_eq_true]
  apply or_congr_right
  constructor
  · rintro (hmaster | ⟨henabled, d, hd, hslave⟩)
    · exact ⟨0, s.master, rfl, .inl rfl, hmaster⟩
    · obtain ⟨j, hj⟩ := List.mem_iff_getElem?.mp hd
      exact ⟨j + 1, d, hj, .inr henabled, hslave⟩
  · rintro ⟨i, d, hd, hcases, hhandler⟩
    cases i with
    | zero =>
      cases hd
      exact .inl hhandler
    | succ j =>
      exact .inr ⟨hcases.resolve_left (Nat.succ_ne_zero j), d, List.mem_of_getElem? hd, hhandler⟩

/-- Deactivation leaves the descriptor of every channel. -/
theorem fd_setChan_inactive (s : Dispatchers) (c c' : Nat) :
    ((s.setChan c (s.chan c).inactive).chan c').fd = (s.chan c').fd := by
  change (Function.update s.chan c (s.chan c).inactive c').fd = _
  by_cases hc : c' = c
  · subst hc
    rw [Function.update_self]
    rfl
  · rw [Function.update_of_ne hc]

theorem fd_handleUnexpected (s : Dispatchers) (i : Nat) (fd : Int) (c : Nat) :
    ((s.handleUnexpected i fd).chan c).fd = (s.chan c).fd := by
  have hdrop (t : Dispatchers) : ((t.dropChannel fd).chan c).fd = (t.chan c).fd := by
    simp only [dropChannel]
    split
    · exact fd_setChan_inactive ..
    · rfl
  rw [handleUnexpected, hdrop]
  exact congrArg (fun chan => (chan c).fd) (chan_modify s i _).1

theorem fd_eraseChannel (s : Dispatchers) (fd : Int) (stale : Option Nat) (c : Nat) :
    ((s.eraseChannel fd stale).chan c).fd = (s.chan c).fd := by
  simp only [eraseChannel]
  split
  · rfl
  · rfl
  · exact fd_setChan_inactive ..

theorem shutdown_frame {s : Dispatchers} (hstop : s.master.stop = false) :
    s.shutdown.allChannel =
        (if s.clears then fun _ => none else s.allChannel) ∧
      s.shutdown.nextChan = s.nextChan ∧ ∀ c, (s.shutdown.chan c).fd = (s.chan c).fd := by
  rw [shutdown, hstop, if_neg Bool.false_ne_true]
  refine ⟨rfl, rfl, fun c => ?_⟩
  cases hclears : s.clears with
  | false => rfl
  | true =>
    by_cases hc : s.allChannel (s.chan c).fd = some c
    · simp [hc, Channel.inactive]
    · simp [hc]

end Dispatchers

namespace Serving

variable {A : Text.Allocator} {s s' : Serving} {call : Call} {c : Nat} {fd : Int}

/-- No channel is in both maps. -/
def Apart (m m' : ChannelMap) : Prop :=
  ∀ fd fd' c, m fd = some c → m' fd' ≠ some c

theorem Apart.symm {m m' : ChannelMap} (h : Apart m m') : Apart m' m :=
  fun fd fd' c hc hc' => h fd' fd c hc' hc

/-- A channel is in at most one of `_allChannel` and the extracted maps, under its descriptor. -/
structure Filed (s : Serving) : Prop where
  fd : ∀ m ∈ s.allChannel :: s.extracted, ∀ fd c, m fd = some c →
    c < s.dispatchers.nextChan ∧ (s.dispatchers.chan c).fd = fd
  apart : (s.allChannel :: s.extracted).Pairwise Apart

theorem Filed.of_allChannel (h : s.Filed)
    (hfiled : ∀ fd c, s'.allChannel fd = some c → s.allChannel fd = some c)
    (hnext : s'.dispatchers.nextChan = s.dispatchers.nextChan)
    (hfd : ∀ c, (s'.dispatchers.chan c).fd = (s.dispatchers.chan c).fd)
    (hextracted : s'.extracted = s.extracted) : s'.Filed := by
  obtain ⟨hmap, hmaps⟩ := List.forall_mem_cons.mp h.fd
  obtain ⟨hapart, hpairs⟩ := List.pairwise_cons.mp h.apart
  constructor
  · rw [hextracted]
    refine List.forall_mem_cons.mpr ⟨fun fd c hc => ?_, fun m hm fd c hc => ?_⟩
    · rw [hnext, hfd]
      exact hmap fd c (hfiled fd c hc)
    · rw [hnext, hfd]
      exact hmaps m hm fd c hc
  · rw [hextracted]
    refine List.pairwise_cons.mpr ⟨fun m hm fd fd' c hc => ?_, hpairs⟩
    exact hapart m hm fd fd' c (hfiled fd c hc)

theorem Filed.handleNewConnection (h : s.Filed) (fd : Int) (ok : Bool) (isOpen : Int → Bool) :
    (s.put (({ s.dispatchers with isOpen := isOpen } :
      Dispatchers).handleNewConnection A fd ok)).Filed := by
  obtain ⟨hmap, hnext⟩ := Dispatchers.handleNewConnection_frame (A := A)
    { s.dispatchers with isOpen := isOpen } fd ok
  obtain ⟨hchan, _⟩ := Dispatchers.chan_handleNewConnection (A := A)
    { s.dispatchers with isOpen := isOpen } fd ok
  have hold {m fd' c} (hm : m ∈ s.allChannel :: s.extracted) (hc : m fd' = some c) :
      c < (({ s.dispatchers with isOpen := isOpen } :
          Dispatchers).handleNewConnection A fd ok).nextChan ∧
        ((({ s.dispatchers with isOpen := isOpen } :
          Dispatchers).handleNewConnection A fd ok).chan c).fd = fd' := by
    obtain ⟨hlt, hfd⟩ := h.fd m hm fd' c hc
    rw [hnext, hchan, Function.update_of_ne (Nat.ne_of_lt hlt)]
    exact ⟨Nat.lt_succ_of_lt hlt, hfd⟩
  constructor
  · refine List.forall_mem_cons.mpr ⟨fun fd' c hc => ?_, fun m hm fd' c hc => ?_⟩
    · have hc' := (congrFun hmap fd').symm.trans hc
      rcases ChannelMap.emplace_cases hc' with hfiled | ⟨_, rfl, rfl⟩
      · exact hold (List.mem_cons_self ..) hfiled
      · change _ < Dispatchers.nextChan (Dispatchers.handleNewConnection ..) ∧
          (Dispatchers.chan (Dispatchers.handleNewConnection ..) _).fd = _
        rw [hnext, hchan, Function.update_self]
        exact ⟨Nat.lt_succ_self _, rfl⟩
    · exact hold (List.mem_cons_of_mem _ hm) hc
  · obtain ⟨hapart, hpairs⟩ := List.pairwise_cons.mp h.apart
    refine List.pairwise_cons.mpr ⟨fun m hm fd₁ fd₂ c hc hc' => ?_, hpairs⟩
    rcases ChannelMap.emplace_cases ((congrFun hmap fd₁).symm.trans hc) with hfiled | ⟨_, _, rfl⟩
    · exact hapart m hm fd₁ fd₂ c hfiled hc'
    · exact Nat.lt_irrefl _ (h.fd m (List.mem_cons_of_mem _ hm) fd₂ _ hc').1

theorem mem_extracted_iff {k : Nat} {channels m : ChannelMap}
    (hk : s.extracted[k]? = some channels) :
    m ∈ s.extracted ↔ m = channels ∨ m ∈ s.extracted.eraseIdx k := by
  obtain ⟨hlt, rfl⟩ := List.getElem?_eq_some_iff.mp hk
  rw [← (List.getElem_cons_eraseIdx_perm hlt).mem_iff, List.mem_cons]

theorem Filed.apart_eraseIdx (h : s.Filed) {k : Nat} {channels m : ChannelMap}
    (hk : s.extracted[k]? = some channels) (hm : m ∈ s.extracted.eraseIdx k) :
    Apart channels m := by
  obtain ⟨hlt, rfl⟩ := List.getElem?_eq_some_iff.mp hk
  have hpairs := (List.getElem_cons_eraseIdx_perm hlt).symm.pairwise
    (List.pairwise_cons.mp h.apart).2 Apart.symm
  exact (List.pairwise_cons.mp hpairs).1 m hm

theorem filed_step {cond : Serving → Call → Prop} : (machine A).Preserves cond Filed := by
  intro s call s' h _ hstep
  cases step_cases hstep with
  | failedConnection => exact h.handleNewConnection _ _ s.dispatchers.isOpen
  | handleNewConnection => exact h.handleNewConnection _ _ _
  | @handleUnexpected j fd =>
    obtain ⟨hmap, hnext⟩ := s.dispatchers.handleUnexpected_frame j fd
    refine h.of_allChannel (fun fd' c hc => ?_) hnext
      (s.dispatchers.fd_handleUnexpected j fd) rfl
    exact (ChannelMap.erase_cases ((congrFun hmap fd').symm.trans hc)).2
  | @removeHandler j fd stale =>
    obtain ⟨hmap, hnext⟩ := s.dispatchers.eraseChannel_frame fd stale
    obtain ⟨hmap', hnext'⟩ := (s.dispatchers.eraseChannel fd stale).modify_frame j
      fun d => d.eraseHandler fd
    refine h.of_allChannel (fun fd' c hc => ?_) (hnext'.trans hnext) (fun c => ?_) rfl
    · exact (ChannelMap.erase_cases ((congrFun (hmap'.trans hmap) fd').symm.trans hc)).2
    · refine Eq.trans ?_ (s.dispatchers.fd_eraseChannel fd stale c)
      exact congrArg (fun chan => (chan c).fd) (Dispatchers.chan_modify ..).1
  | setMasterFD | registerHandler =>
    obtain ⟨hmap, hnext⟩ := s.dispatchers.modify_frame _ _
    refine h.of_allChannel (fun fd' c hc => (congrFun hmap fd').symm.trans hc) hnext
      (fun c => ?_) rfl
    exact congrArg (fun chan => (chan c).fd) (Dispatchers.chan_modify ..).1
  | extractExistedChannel =>
    obtain ⟨hapart, hpairs⟩ := List.pairwise_cons.mp h.apart
    constructor
    · refine List.forall_mem_cons.mpr ⟨nofun, fun m hm => ?_⟩
      cases List.mem_append.mp hm with
      | inl hold => exact h.fd m (List.mem_cons_of_mem _ hold)
      | inr hnew =>
        rw [List.mem_singleton.mp hnew]
        exact h.fd _ (List.mem_cons_self ..)
    · refine List.pairwise_cons.mpr ⟨nofun, List.pairwise_append.mpr ⟨hpairs, ?_, ?_⟩⟩
      · exact List.pairwise_singleton ..
      · intro m hm m' hm'
        rw [List.mem_singleton.mp hm']
        exact (hapart m hm).symm
  | @restoreAllChannel j k channels hk =>
    have hrestored {fd c} (hc : ({ s with
        extracted := s.extracted.eraseIdx k }.restoreAllChannel j channels).allChannel fd = some c) :
        ∃ m ∈ s.allChannel :: s.extracted, m fd = some c ∧
          ∀ m' ∈ s.extracted.eraseIdx k, Apart m m' := by
      rcases Option.or_eq_some_iff.mp hc with hfiled | ⟨_, hback⟩
      · refine ⟨s.allChannel, List.mem_cons_self .., hfiled, fun m' hm' => ?_⟩
        exact (List.pairwise_cons.mp h.apart).1 m' (List.mem_of_mem_eraseIdx hm')
      · exact ⟨channels, List.mem_cons_of_mem _ (List.mem_of_getElem? hk),
          (Option.ite_none_left_eq_some.mp hback).2, fun m' hm' => h.apart_eraseIdx hk hm'⟩
    constructor
    · refine List.forall_mem_cons.mpr ⟨fun fd c hc => ?_, fun m hm => ?_⟩
      · obtain ⟨m, hm, hold, _⟩ := hrestored hc
        exact h.fd m hm fd c hold
      · exact h.fd m (List.mem_cons_of_mem _ (List.mem_of_mem_eraseIdx hm))
    · refine List.pairwise_cons.mpr ⟨fun m' hm' fd fd' c hc => ?_, ?_⟩
      · obtain ⟨m, _, hold, hapart⟩ := hrestored hc
        exact hapart m' hm' fd fd' c hold
      · exact (List.pairwise_cons.mp h.apart).2.sublist (List.eraseIdx_sublist ..)
  | shutdown hstop =>
    obtain ⟨hmap, hnext, hfd⟩ := Dispatchers.shutdown_frame hstop
    refine h.of_allChannel (fun fd c hc => ?_) hnext hfd rfl
    rw [show s.shutdown.allChannel fd = _ from congrFun hmap fd] at hc
    split at hc
    · cases hc
    · exact hc
  | enableSlave | enableSlaveStopped | addSlaveDispatcher | addSlaveDispatcherRefused
  | setMasterFDRefused | removeHandlerRefused | handleExpected | pend | pendSlave
  | shutdownStopped | openFd | closeFd => exact ⟨h.fd, h.apart⟩

/-- The channel is in `_allChannel` or in a map that is extracted. -/
def Held (s : Serving) (c : Nat) : Prop :=
  ∃ m ∈ s.allChannel :: s.extracted, ∃ fd, m fd = some c

/-- The channel is held no longer. -/
def Drops (s s' : Serving) (c : Nat) : Prop := s.Held c ∧ ¬ s'.Held c

theorem not_drops (hfiled : ∀ fd c, s.allChannel fd = some c → s'.allChannel fd = some c)
    (hextracted : s'.extracted = s.extracted) : ¬ s.Drops s' c := by
  rintro ⟨⟨m, hm, fd, hc⟩, hnot⟩
  rcases List.mem_cons.mp hm with rfl | hm
  · exact hnot ⟨s'.allChannel, List.mem_cons_self .., fd, hfiled fd c hc⟩
  · exact hnot ⟨m, List.mem_cons_of_mem _ (hextracted ▸ hm), fd, hc⟩

theorem drops_erase_iff (h : s.Filed) (hmap : s'.allChannel = s.allChannel.erase fd)
    (hextracted : s'.extracted = s.extracted) : s.Drops s' c ↔ s.allChannel fd = some c := by
  constructor
  · rintro ⟨⟨m, hm, fd', hc⟩, hnot⟩
    rcases List.mem_cons.mp hm with rfl | hm
    · by_cases hfd : fd' = fd
      · subst hfd
        exact hc
      · refine absurd ⟨s'.allChannel, List.mem_cons_self .., fd', ?_⟩ hnot
        rw [hmap, ChannelMap.erase_of_ne hfd, hc]
    · exact absurd ⟨m, List.mem_cons_of_mem _ (hextracted ▸ hm), fd', hc⟩ hnot
  · intro hc
    refine ⟨⟨s.allChannel, List.mem_cons_self .., fd, hc⟩, ?_⟩
    rintro ⟨m, hm, fd', hc'⟩
    have hfiled := h.fd _ (List.mem_cons_self ..) fd c hc
    rcases List.mem_cons.mp hm with rfl | hm
    · rw [hmap] at hc'
      obtain ⟨hne, hold⟩ := ChannelMap.erase_cases hc'
      exact hne ((h.fd _ (List.mem_cons_self ..) fd' c hold).2.symm.trans hfiled.2)
    · rw [hextracted] at hm
      exact (List.pairwise_cons.mp h.apart).1 m hm fd fd' c hc hc'

theorem drops_extract : ¬ s.Drops s.extractExistedChannel c := by
  rintro ⟨⟨m, hm, fd, hc⟩, hnot⟩
  refine hnot ⟨m, List.mem_cons_of_mem _ (List.mem_append.mpr ?_), fd, hc⟩
  rcases List.mem_cons.mp hm with rfl | hm
  · exact .inr (List.mem_singleton_self _)
  · exact .inl hm

/-- `RestoreAllChannel` drops what the dispatcher has closed meanwhile, and what it finds another
channel for. -/
theorem drops_restore_iff (h : s.Filed) {i k : Nat} {channels : ChannelMap}
    (hk : s.extracted[k]? = some channels) :
    s.Drops ({ s with extracted := s.extracted.eraseIdx k }.restoreAllChannel i channels) c ↔
      ∃ fd, channels fd = some c ∧ (fd ∈ s.waitToRemovedChannel i ∨ s.allChannel fd ≠ none) := by
  have hmem : channels ∈ s.allChannel :: s.extracted :=
    List.mem_cons_of_mem _ (List.mem_of_getElem? hk)
  have hback (fd : Int) : ({ s with
      extracted := s.extracted.eraseIdx k }.restoreAllChannel i channels).allChannel fd =
        (s.allChannel fd).or (if fd ∈ s.waitToRemovedChannel i then none else channels fd) := rfl
  constructor
  · rintro ⟨⟨m, hm, fd, hc⟩, hnot⟩
    rcases List.mem_cons.mp hm with rfl | hm
    · refine absurd ⟨_, List.mem_cons_self .., fd, ?_⟩ hnot
      rw [hback, hc, Option.some_or]
    · rcases (mem_extracted_iff hk).mp hm with rfl | hother
      · refine ⟨fd, hc, ?_⟩
        by_contra hkept
        obtain ⟨hwait, hnone⟩ := not_or.mp hkept
        refine hnot ⟨_, List.mem_cons_self .., fd, ?_⟩
        rw [hback, if_neg hwait, not_not.mp hnone, Option.none_or, hc]
      · exact absurd ⟨m, List.mem_cons_of_mem _ hother, fd, hc⟩ hnot
  · rintro ⟨fd, hc, hlost⟩
    refine ⟨⟨channels, hmem, fd, hc⟩, ?_⟩
    rintro ⟨m, hm, fd', hc'⟩
    rcases List.mem_cons.mp hm with rfl | hm
    · rw [hback] at hc'
      rcases Option.or_eq_some_iff.mp hc' with hfiled | ⟨hnone, hrestored⟩
      · exact (List.pairwise_cons.mp h.apart).1 channels (List.mem_of_getElem? hk) fd' fd c
          hfiled hc
      · obtain ⟨hwait, hc''⟩ := Option.ite_none_left_eq_some.mp hrestored
        obtain rfl := (h.fd channels hmem fd' c hc'').2.symm.trans (h.fd channels hmem fd c hc).2
        cases hlost with
        | inl hwaiting => exact hwait hwaiting
        | inr hsome => exact hsome hnone
    · exact h.apart_eraseIdx hk hm fd fd' c hc hc'

theorem drops_shutdown (h : s.Filed) (hstop : s.dispatchers.master.stop = false)
    (hdrops : s.Drops s.shutdown c) : s.dispatchers.clears = true ∧
      s.allChannel (s.dispatchers.chan c).fd = some c := by
  obtain ⟨hmap, _⟩ := Dispatchers.shutdown_frame hstop
  by_cases hclears : s.dispatchers.clears = true
  · obtain ⟨⟨m, hm, fd, hc⟩, hnot⟩ := hdrops
    rcases List.mem_cons.mp hm with rfl | hm
    · rw [(h.fd _ (List.mem_cons_self ..) fd c hc).2]
      exact ⟨hclears, hc⟩
    · exact absurd ⟨m, List.mem_cons_of_mem _ hm, fd, hc⟩ hnot
  · rw [if_neg hclears] at hmap
    refine absurd hdrops (not_drops (fun fd c hc => ?_) rfl)
    exact (congrFun hmap fd).trans hc

theorem nextChan_le_step (hstep : (machine A).step s call = some s') :
    s.dispatchers.nextChan ≤ s'.dispatchers.nextChan := by
  cases step_cases hstep with
  | @failedConnection fd ok =>
    exact Nat.le_of_lt (Nat.lt_of_lt_of_eq (Nat.lt_succ_self _)
      (s.dispatchers.handleNewConnection_frame fd ok).2.symm)
  | @handleNewConnection fd ok =>
    have hnext := (Dispatchers.handleNewConnection_frame (A := A) { s.dispatchers with
      isOpen := Function.update s.dispatchers.isOpen fd true } fd ok).2
    exact Nat.le_of_lt (Nat.lt_of_lt_of_eq (Nat.lt_succ_self _) hnext.symm)
  | handleUnexpected => exact Nat.le_of_eq (Dispatchers.handleUnexpected_frame ..).2.symm
  | removeHandler =>
    exact Nat.le_of_eq ((Dispatchers.modify_frame ..).2.trans
      (Dispatchers.eraseChannel_frame ..).2).symm
  | setMasterFD | registerHandler => exact Nat.le_of_eq (Dispatchers.modify_frame ..).2.symm
  | shutdown hstop => exact Nat.le_of_eq (Dispatchers.shutdown_frame hstop).2.1.symm
  | enableSlave | enableSlaveStopped | addSlaveDispatcher | addSlaveDispatcherRefused
  | setMasterFDRefused | removeHandlerRefused | handleExpected | extractExistedChannel
  | restoreAllChannel | pend | pendSlave | shutdownStopped | openFd | closeFd => exact Nat.le_refl _

end Serving

end ServerDevLib.Reactor
