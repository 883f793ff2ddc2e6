import ServerDevLib.Reactor.Dispatcher

/-!
# The demultiplexer a channel is wired to

A channel gets the demultiplexer of the master before it is decided which
dispatcher registers its descriptor. The two agree exactly as long as the
master registers every connection itself and the registration succeeds.
-/

namespace ServerDevLib.Reactor

open Transition

namespace Dispatchers

/-- The channel is wired to a demultiplexer whose interest list has its descriptor. -/
def Serves (s : Dispatchers) (fd : Int) (c : Nat) : Prop :=
  (s.chan c).fd = fd ∧ ∃ i d, (s.chan c).demultiplexer = some i ∧ s.dispatcher i = some d ∧
    (d.demultiplexer.interest fd).isSome = true

def Wired (s : Dispatchers) : Prop :=
  ∀ i d, s.dispatcher i = some d → ∀ fd c, d.handlers fd = some (.events c) → s.Serves fd c

/-- The master itself registers an accepted connection, with success. -/
def OwnedByMaster (s : Dispatchers) : Action → Prop
  | .handleNewConnection fd ok => s.master.stop = true ∨ fd < 0 ∨
      (s.master.enableSlave = false ∨ s.slaves = []) ∧ ok = true
  | _ => True

structure Owned (s : Dispatchers) : Prop where
  registered : ∀ fd c, s.master.handlers fd = some (.events c) → c < s.nextChan ∧
    (s.chan c).fd = fd ∧ (s.chan c).demultiplexer = some 0 ∧
      (s.master.demultiplexer.interest fd).isSome = true
  listed : ∀ fd, (s.master.demultiplexer.interest fd).isSome = true → s.isOpen fd = true
  handled : ∀ fd, (s.master.handlers fd).isSome = true → s.isOpen fd = true
  slaves : ∀ d ∈ s.slaves, d.stop = false ∧ ∀ fd, d.handlers fd = none
  halted : s.master.stop = true → s.master.enableSlave = false ∨ s.slaves = []

theorem Owned.wired {s : Dispatchers} (h : s.Owned) : s.Wired := by
  intro i d hd fd c hc
  cases i with
  | zero =>
    cases hd
    obtain ⟨_, hfd, hdemultiplexer, hinterest⟩ := h.registered fd c hc
    exact ⟨hfd, 0, s.master, hdemultiplexer, rfl, hinterest⟩
  | succ i =>
    have hslave := (h.slaves d (List.mem_of_getElem? hd)).2 fd
    rw [hslave] at hc
    cases hc

/-- What `NotifyWriteEvent` and `Write` set is set for a registered descriptor. -/
theorem Serves.modifyEvent {s : Dispatchers} {fd : Int} {c : Nat} (h : s.Serves fd c)
    (hfd : 0 ≤ fd) (events : Events) : ∃ i d, (s.chan c).demultiplexer = some i ∧
      s.dispatcher i = some d ∧
      (d.demultiplexer.modifyEvent (s.chan c).fd events).isSome = true := by
  obtain ⟨rfl, i, d, hi, hd, hinterest⟩ := h
  refine ⟨i, d, hi, hd, ?_⟩
  have hnone : (d.demultiplexer.interest (s.chan c).fd).isNone = false := by
    rw [← Option.not_isSome, hinterest, Bool.not_true]
  rw [Demultiplexer.modifyEvent, hnone, decide_eq_false (Int.not_lt.mpr hfd)]
  rfl

variable {A : Text.Allocator} {s : Dispatchers}

theorem initial_owned : (initial A).Owned where
  registered := nofun
  listed := nofun
  handled := nofun
  slaves := nofun
  halted := nofun

/-- Deactivating channels moves none of them. -/
theorem Owned.inactivate (h : s.Owned) {chan : Nat → Channel} (m : ChannelMap)
    (hchan : ∀ c, chan c = s.chan c ∨ chan c = (s.chan c).inactive) :
    ({ s with chan := chan, allChannel := m } : Dispatchers).Owned where
  registered fd c hc := by
    obtain ⟨hlt, hfd, hdemultiplexer, hinterest⟩ := h.registered fd c hc
    rcases hchan c with heq | heq
    all_goals
      refine ⟨hlt, ?_, ?_, hinterest⟩
      · rw [show (_ : Dispatchers).chan c = chan c from rfl, heq]
        exact hfd
      · rw [show (_ : Dispatchers).chan c = chan c from rfl, heq]
        exact hdemultiplexer
  listed := h.listed
  handled := h.handled
  slaves := h.slaves
  halted := h.halted

theorem Owned.dropChannel (h : s.Owned) (fd : Int) : (s.dropChannel fd).Owned := by
  simp only [Dispatchers.dropChannel]
  split
  · rename_i c _
    apply h.inactivate _
    intro c'
    rcases eq_or_ne c' c with rfl | hne
    · exact .inr (Function.update_self ..)
    · exact .inl (Function.update_of_ne hne ..)
  · exact h

theorem Owned.open (h : s.Owned) (fd : Int) :
    ({ s with isOpen := Function.update s.isOpen fd true } : Dispatchers).Owned where
  registered := h.registered
  listed fd' hfd := open_stays_open (h.listed fd' hfd)
  handled fd' hfd := open_stays_open (h.handled fd' hfd)
  slaves := h.slaves
  halted := h.halted

/-- The master may register a channel of its own demultiplexer if `epoll_ctl` succeeds. -/
theorem Owned.registerHandler (h : s.Owned) {fd : Int} {handler : Handler} {ok : Bool}
    (hopen : 0 ≤ fd → s.isOpen fd = true)
    (hchan : ∀ c, handler = .events c → s.master.stop = false → 0 ≤ fd → c < s.nextChan ∧
      (s.chan c).fd = fd ∧ (s.chan c).demultiplexer = some 0 ∧ ok = true) :
    ({ s with master := s.master.registerHandler fd handler ok } : Dispatchers).Owned := by
  rcases registerHandler_cases s.master fd handler ok with heq | ⟨hstop, hfd, handlers, heq, hcases⟩
  · rw [heq]
    exact h
  · rw [heq]
    refine ⟨fun fd' c hc => ?_, fun fd' hfd' => ?_, fun fd' hfd' => ?_, h.slaves, h.halted⟩
    · rcases hcases fd' _ hc with hc | ⟨rfl, rfl⟩
      · obtain ⟨hlt, hfd', hdemultiplexer, hinterest⟩ := h.registered fd' c hc
        exact ⟨hlt, hfd', hdemultiplexer, isSome_interest_registerFd hinterest⟩
      · obtain ⟨hlt, hfd', hdemultiplexer, rfl⟩ := hchan c rfl hstop hfd
        refine ⟨hlt, hfd', hdemultiplexer, ?_⟩
        exact (Demultiplexer.interest_registerFd_self true hfd).trans (Bool.true_or _)
    · rcases eq_or_ne fd' fd with rfl | hne
      · exact hopen hfd
      · apply h.listed fd'
        rw [← Demultiplexer.interest_registerFd_of_ne hne ok]
        exact hfd'
    · obtain ⟨h', hh'⟩ := Option.isSome_iff_exists.mp hfd'
      rcases hcases fd' h' hh' with hold | ⟨rfl, _⟩
      · exact h.handled fd' (Option.isSome_iff_exists.mpr ⟨h', hold⟩)
      · exact hopen hfd

/-- The state of `HandleNewConnection` before the registration. -/
theorem Owned.newChannel (h : s.Owned) (fd : Int) (m : ChannelMap) :
    ({ s.setChan s.nextChan (.create A fd (some 0)) with
        nextChan := s.nextChan + 1
        allChannel := m } : Dispatchers).Owned where
  registered fd' c hc := by
    obtain ⟨hlt, hfd, hdemultiplexer, hinterest⟩ := h.registered fd' c hc
    have hsame : (s.setChan s.nextChan (.create A fd (some 0))).chan c = s.chan c :=
      Function.update_of_ne (Nat.ne_of_lt hlt) ..
    exact ⟨Nat.lt_succ_of_lt hlt, (congrArg Channel.fd hsame).trans hfd,
      (congrArg Channel.demultiplexer hsame).trans hdemultiplexer, hinterest⟩
  listed := h.listed
  handled := h.handled
  slaves := h.slaves
  halted := h.halted

theorem Owned.handleNewConnection (h : s.Owned) {fd : Int} {ok : Bool}
    (hopen : 0 ≤ fd → s.isOpen fd = true)
    (hmaster : OwnedByMaster s (.handleNewConnection fd ok)) :
    (s.handleNewConnection A fd ok).Owned := by
  have hnew := h.newChannel (A := A) fd (s.allChannel.emplace fd s.nextChan)
  have hregister (hok : s.master.stop = false → 0 ≤ fd → ok = true) :
      ({ s.setChan s.nextChan (.create A fd (some 0)) with
        master := s.master.registerHandler fd (.events s.nextChan) ok
        nextChan := s.nextChan + 1
        allChannel := s.allChannel.emplace fd s.nextChan } : Dispatchers).Owned := by
    apply hnew.registerHandler hopen
    rintro c ⟨⟩ hstop hfd
    have hself : (s.setChan s.nextChan (.create A fd (some 0))).chan s.nextChan =
        .create A fd (some 0) := Function.update_self ..
    exact ⟨Nat.lt_succ_self _, congrArg Channel.fd hself, congrArg Channel.demultiplexer hself,
      hok hstop hfd⟩
  rcases hmaster with hstopped | hneg | ⟨hno, hok⟩
  · rw [handleNewConnection_master (h.halted hstopped)]
    apply hregister
    intro hstop
    rw [hstopped] at hstop
    cases hstop
  · -- a failed `accept` is registered nowhere
    have hsame (d : Dispatcher) : d.registerHandler fd (.events s.nextChan) ok = d := by
      rw [Dispatcher.registerHandler, decide_eq_true hneg, Bool.or_true, if_pos rfl]
    cases Bool.eq_false_or_eq_true s.master.enableSlave with
    | inl henabled =>
      rcases hslaves : s.slaves with _ | ⟨d, ds⟩
      · rw [handleNewConnection_master (.inr hslaves), hsame]
        exact hnew
      · rw [handleNewConnection_slave henabled hslaves, hsame, ← hslaves]
        exact hnew
    | inr hdisabled =>
      rw [handleNewConnection_master (.inl hdisabled), hsame]
      exact hnew
  · rw [handleNewConnection_master hno]
    exact hregister fun _ _ => hok

theorem Owned.close (h : s.Owned) {fd : Int} (hnone : s.master.handlers fd = none) :
    (s.close fd).Owned := by
  have hopen {fd' : Int} (hne : fd' ≠ fd) (hfd : s.isOpen fd' = true) :
      Function.update s.isOpen fd false fd' = true := by
    rw [Function.update_of_ne hne, hfd]
  refine ⟨fun fd' c hc => ?_, fun fd' hfd' => ?_, fun fd' hfd' => ?_, fun d hd => ?_,
    fun hstop => ?_⟩
  · obtain ⟨hlt, hfd, hdemultiplexer, hinterest⟩ := h.registered fd' c hc
    have hne : fd' ≠ fd := by
      rintro rfl
      rw [show s.master.handlers fd' = _ from hc] at hnone
      cases hnone
    refine ⟨hlt, hfd, hdemultiplexer, ?_⟩
    exact (congrArg Option.isSome (Function.update_of_ne hne ..)).trans hinterest
  · rcases eq_or_ne fd' fd with rfl | hne
    · rw [show (s.close fd').master.demultiplexer.interest fd' = none from
        Function.update_self ..] at hfd'
      cases hfd'
    · refine hopen hne (h.listed fd' ?_)
      exact (congrArg Option.isSome (Function.update_of_ne hne ..)).symm.trans hfd'
  · have hne : fd' ≠ fd := by
      rintro rfl
      rw [show (s.close fd').master.handlers fd' = none from hnone] at hfd'
      cases hfd'
    exact hopen hne (h.handled fd' hfd')
  · obtain ⟨d', hd', rfl⟩ := List.mem_map.mp hd
    exact h.slaves d' hd'
  · cases h.halted hstop with
    | inl hdisabled => exact .inl hdisabled
    | inr hempty => exact .inr (List.map_eq_nil_iff.mpr hempty)

theorem Owned.eraseHandler (h : s.Owned) (fd : Int) :
    ({ s with master := s.master.eraseHandler fd } : Dispatchers).Owned := by
  have hcases {fd' : Int} {x : Handler} (hx : (s.master.eraseHandler fd).handlers fd' = some x) :
      s.master.handlers fd' = some x := by
    rcases eq_or_ne fd' fd with rfl | hne
    · rw [show (s.master.eraseHandler fd').handlers fd' = none from Function.update_self ..] at hx
      cases hx
    · exact (Function.update_of_ne hne ..).symm.trans hx
  refine ⟨fun fd' c hc => h.registered fd' c (hcases hc), h.listed, fun fd' hfd' => ?_, h.slaves,
    h.halted⟩
  obtain ⟨x, hx⟩ := Option.isSome_iff_exists.mp hfd'
  exact h.handled fd' (Option.isSome_iff_exists.mpr ⟨x, hcases hx⟩)

/-- A slave without handlers stays one whatever is erased from it. -/
theorem Owned.modifySlave (h : s.Owned) (i : Nat) (fd : Int) :
    (s.modify (i + 1) fun d => d.eraseHandler fd).Owned := by
  refine ⟨h.registered, h.listed, h.handled, fun d hd => ?_, fun hstop => ?_⟩
  · obtain ⟨j, hj⟩ := List.mem_iff_getElem?.mp hd
    rw [show (s.modify (i + 1) fun d => d.eraseHandler fd).slaves = s.slaves.modify i _ from rfl,
      List.getElem?_modify] at hj
    obtain ⟨d', hd', heq⟩ := Option.map_eq_some_iff.mp hj
    have hslave := h.slaves d' (List.mem_of_getElem? hd')
    split at heq <;> subst heq
    · refine ⟨hslave.1, fun fd' => ?_⟩
      rcases eq_or_ne fd' fd with rfl | hne
      · exact Function.update_self ..
      · exact (Function.update_of_ne hne ..).trans (hslave.2 fd')
    · exact hslave
  · cases h.halted hstop with
    | inl hdisabled => exact .inl hdisabled
    | inr hempty =>
      right
      rw [show (s.modify (i + 1) fun d => d.eraseHandler fd).slaves = s.slaves.modify i _ from rfl,
        hempty, List.modify_nil]

theorem Owned.handleUnexpected (h : s.Owned) {i : Nat} {fd : Int}
    (hhandler : ((s.dispatcher i).bind fun d => d.handlers fd).isSome = true) :
    (s.handleUnexpected i fd).Owned := by
  cases i with
  | zero =>
    have hclosed : ({ s with master := s.master.eraseHandler fd } : Dispatchers).close fd =
        (s.modify 0 fun d => (d.eraseHandler fd).removeFd fd).close fd := by
      simp only [Dispatchers.close, Dispatchers.modify, Dispatcher.removeFd, Demultiplexer.removeFd,
        Function.update_idem]
    have hclose := (h.eraseHandler fd).close (Function.update_self ..)
    rw [hclosed] at hclose
    exact hclose.dropChannel fd
  | succ i =>
    obtain ⟨x, hx⟩ := Option.isSome_iff_exists.mp hhandler
    obtain ⟨d, hd, hx⟩ := Option.bind_eq_some_iff.mp hx
    rw [(h.slaves d (List.mem_of_getElem? hd)).2 fd] at hx
    cases hx

theorem Owned.shutdown (h : s.Owned) : s.shutdown.Owned := by
  simp only [Dispatchers.shutdown]
  split
  · exact h
  · refine ⟨nofun, nofun, nofun, fun d hd => ?_, fun _ => ?_⟩
    · simp only at hd
      split at hd
      · cases hd
      · obtain ⟨d', hd', rfl⟩ := List.mem_map.mp hd
        exact h.slaves d' hd'
    · cases Bool.eq_false_or_eq_true s.master.enableSlave with
      | inl henabled => exact .inr (if_pos henabled)
      | inr hdisabled => exact .inl hdisabled

theorem owned_step (s : Dispatchers) (a : Action) (s' : Dispatchers) (h : s.Owned)
    (hmaster : OwnedByMaster s a) (hstep : step A s a = some s') : s'.Owned := by
  cases a with
  | enableSlave b =>
    simp only [step, Option.some.injEq] at hstep
    split at hstep <;> subst hstep
    · exact h
    · rename_i hstop
      exact ⟨h.registered, h.listed, h.handled, h.slaves, fun hs => absurd hs hstop⟩
  | addSlaveDispatcher n =>
    simp only [step, Option.some.injEq] at hstep
    split at hstep <;> subst hstep
    · exact h
    · rename_i hguard
      refine ⟨h.registered, h.listed, h.handled, fun d hd => ?_, fun hstop => ?_⟩
      · cases List.mem_append.mp hd with
        | inl hd => exact h.slaves d hd
        | inr hd =>
          obtain rfl := (List.mem_replicate.mp hd).2
          exact ⟨rfl, fun _ => rfl⟩
      · rw [show s.master.stop = true from hstop] at hguard
        exact absurd (Bool.true_or _) hguard
  | setMasterFD fd ok =>
    simp only [step, Option.some.injEq] at hstep
    split at hstep <;> subst hstep
    · exact h
    · have hopen := h.open fd
      have hset : ({ s with
          master := { s.master with masterfd := fd }
          isOpen := Function.update s.isOpen fd true } : Dispatchers).Owned :=
        ⟨hopen.registered, hopen.listed, hopen.handled, hopen.slaves, hopen.halted⟩
      exact hset.registerHandler (fun _ => Function.update_self ..) nofun
  | handleNewConnection fd ok =>
    simp only [step] at hstep
    split at hstep
    · rename_i hneg
      cases hstep
      exact h.handleNewConnection (fun hfd => absurd hneg (Int.not_lt.mpr hfd)) hmaster
    · split at hstep <;> cases hstep
      exact (h.open fd).handleNewConnection (fun _ => Function.update_self ..) hmaster
  | handleUnexpected i fd =>
    simp only [step] at hstep
    split at hstep <;> cases hstep
    rename_i hhandler
    exact h.handleUnexpected hhandler
  | removeHandler i fd =>
    simp only [step] at hstep
    split at hstep
    · split at hstep <;> cases hstep
      · exact h
      · cases i with
        | zero => exact (h.dropChannel fd).eraseHandler fd
        | succ i => exact (h.dropChannel fd).modifySlave i fd
    · cases hstep
  | shutdown =>
    cases hstep
    exact h.shutdown

/-- A descriptor that is not open is registered nowhere in the master. -/
theorem Owned.unused (h : s.Owned) {fd : Int} (hclosed : s.isOpen fd = false) :
    (s.master.demultiplexer.interest fd).isSome = false ∧ s.master.handlers fd = none := by
  constructor
  · cases Bool.eq_false_or_eq_true (s.master.demultiplexer.interest fd).isSome with
    | inl hsome => exact Bool.noConfusion ((h.listed fd hsome).symm.trans hclosed)
    | inr hnone => exact hnone
  · rcases hcases : s.master.handlers fd with _ | x
    · rfl
    · have hsome : (s.master.handlers fd).isSome = true := by rw [hcases]; rfl
      exact Bool.noConfusion ((h.handled fd hsome).symm.trans hclosed)

/-- The new channel is served only if the interest list of the master has its descriptor. -/
theorem interest_of_serves {fd : Int} {master : Dispatcher} {slaves : List Dispatcher}
    {m : ChannelMap} (h : ({ s.setChan s.nextChan (.create A fd (some 0)) with
        master := master, slaves := slaves, nextChan := s.nextChan + 1, allChannel := m } :
      Dispatchers).Serves fd s.nextChan) :
    (master.demultiplexer.interest fd).isSome = true := by
  obtain ⟨_, i, d, hi, hd, hinterest⟩ := h
  have hself : (s.setChan s.nextChan (.create A fd (some 0))).chan s.nextChan =
      .create A fd (some 0) := Function.update_self ..
  have hi' : some 0 = some i := (congrArg Channel.demultiplexer hself).symm.trans hi
  cases hi'
  cases hd
  exact hinterest

/-- A connection that is registered elsewhere, or whose registration fails, is not served by the
demultiplexer of the master. -/
theorem owned_of_wired {fd : Int} {ok : Bool}
    (hslaves : ∀ d ∈ s.slaves, d.stop = false ∧ ∀ fd, d.handlers fd = none)
    (hunused : (s.master.demultiplexer.interest fd).isSome = false ∧ s.master.handlers fd = none)
    (hwired : (s.handleNewConnection A fd ok).Wired) :
    OwnedByMaster s (.handleNewConnection fd ok) := by
  obtain ⟨hinterest, hhandlers⟩ := hunused
  rcases Bool.eq_false_or_eq_true s.master.stop with hstopped | hstop
  · exact .inl hstopped
  rcases Int.lt_or_le fd 0 with hneg | hfd
  · exact .inr (.inl hneg)
  have hmaster (hno : s.master.enableSlave = false ∨ s.slaves = []) : ok = true := by
    rw [handleNewConnection_master hno] at hwired
    have hsome := interest_of_serves (hwired 0 _ rfl fd s.nextChan
      (handlers_registerHandler hstop hfd hhandlers))
    rw [demultiplexer_registerHandler hstop hfd, Demultiplexer.interest_registerFd_self ok hfd,
      hinterest, Bool.or_false] at hsome
    exact hsome
  cases Bool.eq_false_or_eq_true s.master.enableSlave with
  | inl henabled =>
    rcases hcases : s.slaves with _ | ⟨d, ds⟩
    · exact .inr (.inr ⟨.inr hcases, hmaster (.inr hcases)⟩)
    · have hslave := hslaves d (by rw [hcases]; exact List.mem_cons_self ..)
      rw [handleNewConnection_slave henabled hcases] at hwired
      have hsome := interest_of_serves (hwired 1 _ rfl fd s.nextChan
        (handlers_registerHandler hslave.1 hfd (hslave.2 fd)))
      exact Bool.noConfusion (hinterest.symm.trans hsome)
  | inr hdisabled => exact .inr (.inr ⟨.inl hdisabled, hmaster (.inl hdisabled)⟩)

theorem wired_step_iff (s : Dispatchers) (a : Action) (s' : Dispatchers) (h : s.Owned)
    (hstep : step A s a = some s') : s'.Wired ↔ OwnedByMaster s a := by
  constructor
  · intro hwired
    cases a with
    | handleNewConnection fd ok =>
      simp only [step] at hstep
      split at hstep
      · rename_i hneg
        exact .inr (.inl hneg)
      · split at hstep <;> cases hstep
        rename_i hclosed
        exact owned_of_wired (s := { s with isOpen := Function.update s.isOpen fd true }) h.slaves
          (h.unused (Bool.eq_false_iff.mpr hclosed)) hwired
    | enableSlave b | addSlaveDispatcher n | setMasterFD fd ok | handleUnexpected i fd
    | removeHandler i fd | shutdown => trivial
  · intro hmaster
    exact (owned_step s a s' h hmaster hstep).wired

/-- Every registered connection is wired to the demultiplexer that has its descriptor,
throughout a run, exactly if the master registers every connection itself. -/
theorem wired_iff_owned_by_master (A : Text.Allocator) (as : List Action) :
    (machine A).AllStates Wired (initial A) as ↔ (machine A).AllSteps OwnedByMaster (initial A) as :=
  Machine.allStates_iff_allSteps (fun s a s' h _ => owned_step s a s' h)
    (fun s a s' h _ => wired_step_iff s a s' h) initial_owned initial_owned.wired as

/-- The channel of a connection that was given to a slave stays wired to the master. -/
theorem slave_connection_unserved : ∃ s, (machine .doubling).run (initial .doubling)
    [.setMasterFD 3 true, .enableSlave true, .addSlaveDispatcher 1,
      .handleNewConnection 5 true] = some s ∧ ¬ s.Wired := by
  refine ⟨_, rfl, fun hwired => ?_⟩
  obtain ⟨_, i, d, hi, hd, hinterest⟩ := hwired 1 _ rfl 5 0 rfl
  cases hi
  cases hd
  cases hinterest

end Dispatchers

end ServerDevLib.Reactor
