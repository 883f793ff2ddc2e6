import ServerDevLib.Reactor.HeldChannels

/-!
# Channels that are dropped

Beside the calls it is recorded which connection an open number belongs to, and
which channels have lost their descriptor, their handler or their place in the
maps. `HandleUnexpected` and `Shutdown` make the channel inactive that they
find in `_allChannel`, and `RemoveHandler` what it reads from the erased node;
a channel that lies elsewhere stays active.
-/

namespace ServerDevLib.Reactor

open Transition

namespace Serving

/-- The dispatcher has the handler of the channel under the number. -/
def HandledAt (s : Serving) (i : Nat) (fd : Int) (c : Nat) : Prop :=
  ∃ d, s.dispatcher i = some d ∧ d.handlers fd = some (.events c)

/-- A handler of the channel is taken out between the two states. -/
def Removes (s s' : Serving) (c : Nat) : Prop :=
  ∃ i fd, s.HandledAt i fd c ∧ ¬ s'.HandledAt i fd c

/-- The channel of an accepted connection, which still reports `Active()`. -/
def Active (s : Serving) (c : Nat) : Prop :=
  c < s.dispatchers.nextChan ∧ (s.dispatchers.chan c).active = true

variable {A : Text.Allocator} {s s' : Serving} {call : Call} {c : Nat} {fd : Int}

theorem not_removes (h : ∀ i d, s.dispatcher i = some d → ∃ d', s'.dispatcher i = some d' ∧
    ∀ fd c, d.handlers fd = some (.events c) → d'.handlers fd = some (.events c)) :
    ¬ s.Removes s' c := by
  rintro ⟨i, fd, ⟨d, hd, hhandler⟩, hnot⟩
  obtain ⟨d', hd', hkept⟩ := h i d hd
  exact hnot ⟨d', hd', hkept fd c hhandler⟩

theorem not_removes_of_map {f : Nat → Dispatcher → Dispatcher}
    (hd : ∀ j, s'.dispatcher j = (s.dispatcher j).map (f j))
    (hf : ∀ j d fd c, d.handlers fd = some (.events c) → (f j d).handlers fd = some (.events c)) :
    ¬ s.Removes s' c := by
  refine not_removes fun i d hi => ⟨f i d, ?_, hf i d⟩
  rw [hd, hi]
  rfl

/-- One entry is erased in one dispatcher. -/
theorem removes_iff_of_erase {i : Nat} {f : Nat → Dispatcher → Dispatcher}
    (hd : ∀ j, s'.dispatcher j = (s.dispatcher j).map (f j))
    (hf : ∀ j d fd', (f j d).handlers fd' = if i = j ∧ fd' = fd then none else d.handlers fd') :
    s.Removes s' c ↔ s.HandledAt i fd c := by
  have hafter (j : Nat) (fd' : Int) : s'.HandledAt j fd' c ↔
      ¬ (i = j ∧ fd' = fd) ∧ s.HandledAt j fd' c := by
    rw [HandledAt, HandledAt, hd]
    cases s.dispatcher j with
    | none => simp
    | some d => simp [hf]
  constructor
  · rintro ⟨j, fd', hhandled, hnot⟩
    rw [hafter] at hnot
    by_cases hsame : i = j ∧ fd' = fd
    · obtain ⟨rfl, rfl⟩ := hsame
      exact hhandled
    · exact absurd ⟨hsame, hhandled⟩ hnot
  · intro hhandled
    refine ⟨i, fd, hhandled, ?_⟩
    rw [hafter]
    exact fun h => h.1 ⟨rfl, rfl⟩

theorem removes_shutdown_iff (hstop : s.dispatchers.master.stop = false) :
    s.Removes s.shutdown c ↔ ∃ i fd, s.HandledAt i fd c ∧
      (i = 0 ∨ s.dispatchers.master.enableSlave = true) := by
  have hmaster : s.shutdown.dispatcher 0 = some s.dispatchers.master.shutdown :=
    congrArg some (Dispatchers.master_shutdown hstop)
  have hslaves (j : Nat) : s.shutdown.dispatcher (j + 1) = s.shutdown.dispatchers.slaves[j]? := rfl
  rw [show s.shutdown.dispatchers.slaves = _ from Dispatchers.slaves_shutdown hstop] at hslaves
  constructor
  · rintro ⟨i, fd, hhandled, hnot⟩
    refine ⟨i, fd, hhandled, ?_⟩
    cases i with
    | zero => exact .inl rfl
    | succ j =>
      right
      by_contra hdisabled
      obtain ⟨d, hd, hhandler⟩ := hhandled
      refine hnot ⟨d.removeFds fun fd => (s.dispatchers.master.handlers fd).isSome, ?_, hhandler⟩
      rw [hslaves, if_neg hdisabled, List.getElem?_map]
      exact congrArg _ hd
  · rintro ⟨i, fd, hhandled, hcases⟩
    refine ⟨i, fd, hhandled, ?_⟩
    rintro ⟨d, hd, hhandler⟩
    cases i with
    | zero =>
      obtain rfl := Option.some.inj (hmaster.symm.trans hd)
      cases hhandler
    | succ j =>
      rw [hslaves, if_pos (hcases.resolve_left (Nat.succ_ne_zero j))] at hd
      cases hd

end Serving

/-- `connection` has the channel that an open number was accepted for. -/
structure Dropping where
  serving : Serving
  connection : Int → Option Nat
  lost : Nat → Prop

namespace Dropping

open Serving

/-- The call closes the descriptor of the connection, and it is not the application's own close. -/
def Closes (s : Dropping) (call : Call) (t : Serving) (c : Nat) : Prop :=
  (∀ fd, call ≠ .closeFd fd) ∧ ∃ fd, s.connection fd = some c ∧ t.dispatchers.isOpen fd = false

/-- The connection is closed, or its handler removed, or its channel dropped. -/
def Loses (s : Dropping) (call : Call) (t : Serving) (c : Nat) : Prop :=
  s.Closes call t c ∨ s.serving.Removes t c ∨ s.serving.Drops t c

def accept (s : Dropping) : Call → Int → Option Nat
  | .handleNewConnection fd _ =>
    Function.update s.connection fd (some s.serving.dispatchers.nextChan)
  | _ => s.connection

def record (s : Dropping) (call : Call) (t : Serving) : Dropping :=
  { serving := t
    connection := fun fd => if t.dispatchers.isOpen fd then s.accept call fd else none
    lost := fun c => s.lost c ∨ c < s.serving.dispatchers.nextChan ∧ s.Loses call t c }

def initial (A : Text.Allocator) : Dropping :=
  { serving := .initial A, connection := fun _ => none, lost := fun _ => False }

def machine (A : Text.Allocator) : Machine Dropping Call where
  init s := s = initial A
  step s call := ((Serving.machine A).step s.serving call).map (s.record call)

/-- A channel that reports `Active()` has lost neither its descriptor nor its handler. -/
def Live (s : Dropping) : Prop := ∀ c, s.serving.Active c → ¬ s.lost c

/-- `Shutdown` clears the handlers of the dispatcher. -/
def Clears (s : Serving) (i : Nat) (d : Dispatcher) : Prop :=
  s.dispatcher i = some d ∧ (i = 0 ∨ s.dispatchers.master.enableSlave = true)

/-- Every active channel that the call loses is the one that the call makes inactive. -/
def Thorough (s : Dropping) : Call → Prop
  | .handleUnexpected i fd events => events.unexpected = true → ∀ c, s.serving.Active c →
    s.connection fd = some c ∨ s.serving.HandledAt i fd c → s.serving.allChannel fd = some c
  | .removeHandler i fd stale => (∃ d, s.serving.dispatcher i = some d ∧ d.stop = false) → 0 ≤ fd →
    ∀ c, s.serving.Active c → s.serving.HandledAt i fd c ∨ s.serving.allChannel fd = some c →
      (s.serving.allChannel fd).isSome = true ∧ stale = some c
  | .restoreAllChannel i k => ∀ channels, s.serving.extracted[k]? = some channels →
    ∀ c, s.serving.Active c → ¬ ∃ fd, channels fd = some c ∧
      (fd ∈ s.serving.waitToRemovedChannel i ∨ s.serving.allChannel fd ≠ none)
  | .shutdown => s.serving.dispatchers.master.stop = false → ∀ c, s.serving.Active c →
    (∃ i d fd, Clears s.serving i d ∧ (d.handlers fd = some (.events c) ∨
      s.connection fd = some c ∧ (d.handlers fd).isSome = true)) →
    s.serving.dispatchers.clears = true ∧
      s.serving.allChannel (s.serving.dispatchers.chan c).fd = some c
  | .enableSlave _ | .addSlaveDispatcher _ | .setMasterFD _ _ _ | .registerHandler _ _ _ _
  | .handleNewConnection _ _ | .extractExistedChannel | .addPendingFunctor _ | .openFd _
  | .closeFd _ => True

structure Fresh (s : Dropping) : Prop where
  filed : s.serving.Filed
  lost : ∀ c, s.lost c → c < s.serving.dispatchers.nextChan
  connection : ∀ fd c, s.connection fd = some c → s.serving.dispatchers.isOpen fd = true

variable {A : Text.Allocator} {s s' : Dropping} {call : Call} {t : Serving} {c : Nat} {fd : Int}

theorem fresh_initial (A : Text.Allocator) : (initial A).Fresh := by
  refine ⟨⟨fun m hm => ?_, List.pairwise_singleton ..⟩, nofun, nofun⟩
  rw [List.mem_singleton.mp hm]
  nofun

theorem Fresh.record (h : s.Fresh) (hstep : (Serving.machine A).step s.serving call = some t) :
    (s.record call t).Fresh where
  filed := by
    have hpreserves : (Serving.machine A).Preserves (fun _ _ => True) Filed := filed_step
    exact hpreserves _ _ _ h.filed trivial hstep
  lost c hc := by
    refine Nat.lt_of_lt_of_le ?_ (nextChan_le_step hstep)
    cases hc with
    | inl hold => exact h.lost c hold
    | inr hnew => exact hnew.1
  connection fd c hc := (Option.ite_none_right_eq_some.mp hc).1

theorem not_closes (h : s.Fresh)
    (hopen : ∀ fd, s.serving.dispatchers.isOpen fd = true → t.dispatchers.isOpen fd = true) :
    ¬ s.Closes call t c := by
  rintro ⟨_, fd, hc, hclosed⟩
  rw [hopen fd (h.connection fd c hc)] at hclosed
  cases hclosed

/-- The channels that the call touches are among those that it makes inactive. -/
theorem live_record_iff (touched inactivated : Nat → Prop) (h : s.Fresh) (hlive : s.Live)
    (hnext : s.serving.dispatchers.nextChan ≤ t.dispatchers.nextChan)
    (hactive : ∀ c < s.serving.dispatchers.nextChan, (t.dispatchers.chan c).active = true ↔
      (s.serving.dispatchers.chan c).active = true ∧ ¬ inactivated c)
    (hloses : ∀ c, ¬ inactivated c → (s.Loses call t c ↔ touched c)) :
    (s.record call t).Live ↔ ∀ c, s.serving.Active c → touched c → inactivated c := by
  constructor
  · rintro hlive' c ⟨hlt, hc⟩ htouched
    by_contra hnot
    exact hlive' c ⟨Nat.lt_of_lt_of_le hlt hnext, (hactive c hlt).mpr ⟨hc, hnot⟩⟩
      (.inr ⟨hlt, (hloses c hnot).mpr htouched⟩)
  · rintro hall c ⟨_, hc⟩ hlost
    cases hlost with
    | inl hold =>
      have hlt := h.lost c hold
      exact hlive c ⟨hlt, ((hactive c hlt).mp hc).1⟩ hold
    | inr hnew =>
      obtain ⟨hlt, hloss⟩ := hnew
      obtain ⟨hbefore, hnot⟩ := (hactive c hlt).mp hc
      exact hnot (hall c ⟨hlt, hbefore⟩ ((hloses c hnot).mp hloss))

/-- A call that loses no channel. -/
theorem live_record (h : s.Fresh) (hlive : s.Live)
    (hnext : s.serving.dispatchers.nextChan ≤ t.dispatchers.nextChan)
    (hactive : ∀ c < s.serving.dispatchers.nextChan,
      (t.dispatchers.chan c).active = (s.serving.dispatchers.chan c).active)
    (hloses : ∀ c, ¬ s.Loses call t c) : (s.record call t).Live := by
  refine (live_record_iff (fun _ => False) (fun _ => False) h hlive hnext
    (fun c hlt => ?_) fun c _ => iff_of_false (hloses c) id).mpr fun _ _ => id
  rw [hactive c hlt, and_iff_left not_false]

/-- `try_emplace` removes no handler. -/
theorem handlers_registerHandler_kept {d : Dispatcher} {h : Handler}
    (hhandler : d.handlers fd = some h) (fd' : Int) (handler : Handler) (ok : Bool) :
    (d.registerHandler fd' handler ok).handlers fd = some h := by
  by_cases hfd : fd = fd'
  · subst hfd
    exact Dispatchers.handlers_registerHandler_of_some hhandler handler ok
  · rw [Dispatchers.handlers_registerHandler_of_ne d hfd, hhandler]

theorem live_handleNewConnection (h : s.Fresh) (hlive : s.Live) (fd : Int) (ok : Bool)
    (isOpen : Int → Bool)
    (hopen : ∀ fd, s.serving.dispatchers.isOpen fd = true → isOpen fd = true) :
    (s.record (.handleNewConnection fd ok) (s.serving.put
      (({ s.serving.dispatchers with isOpen := isOpen } :
        Dispatchers).handleNewConnection A fd ok))).Live := by
  obtain ⟨hmap, hnext⟩ := Dispatchers.handleNewConnection_frame (A := A)
    { s.serving.dispatchers with isOpen := isOpen } fd ok
  obtain ⟨hchan, hisOpen⟩ := Dispatchers.chan_handleNewConnection (A := A)
    { s.serving.dispatchers with isOpen := isOpen } fd ok
  refine live_record h hlive (Nat.le_trans (Nat.le_succ _) (Nat.le_of_eq hnext.symm))
    (fun c hlt => ?_) fun c hloss => ?_
  · change (Dispatchers.chan (Dispatchers.handleNewConnection ..) c).active = _
    rw [hchan, Function.update_of_ne (Nat.ne_of_lt hlt)]
  · rcases hloss with hcloses | hremoves | hdrops
    · exact not_closes h (fun fd' hfd' => (congrFun hisOpen fd').trans (hopen fd' hfd')) hcloses
    · refine absurd hremoves (not_removes_of_map (f := fun j d =>
        if s.serving.dispatchers.assignee = j then
          d.registerHandler fd (.events s.serving.dispatchers.nextChan) ok
        else d) ?_ fun j d fd' c' hc' => ?_)
      · exact Dispatchers.dispatcher_handleNewConnection A
          { s.serving.dispatchers with isOpen := isOpen } fd ok
      · split
        · exact handlers_registerHandler_kept hc' ..
        · exact hc'
    · refine absurd hdrops (not_drops (fun fd' c' hc' => ?_) rfl)
      exact (congrFun hmap fd').trans (ChannelMap.emplace_of_some hc')

theorem live_registerHandler (h : s.Fresh) (hlive : s.Live) (i : Nat) (fd : Int)
    (handler : Handler) (ok : Bool) {f : Dispatcher → Dispatcher}
    (hf : ∀ d, (f d).handlers = d.handlers) :
    (s.record call (s.serving.put (s.serving.dispatchers.modify i fun d =>
      (f d).registerHandler fd handler ok))).Live := by
  obtain ⟨hmap, hnext⟩ := s.serving.dispatchers.modify_frame i
    fun d => (f d).registerHandler fd handler ok
  obtain ⟨hchan, hisOpen⟩ := s.serving.dispatchers.chan_modify i
    fun d => (f d).registerHandler fd handler ok
  refine live_record h hlive (Nat.le_of_eq hnext.symm)
    (fun c _ => congrArg (fun chan => (chan c).active) hchan) fun c hloss => ?_
  rcases hloss with hcloses | hremoves | hdrops
  · exact not_closes h (fun fd' hfd' => (congrFun hisOpen fd').trans hfd') hcloses
  · refine absurd hremoves (not_removes_of_map (f := fun j d =>
      if i = j then (f d).registerHandler fd handler ok else d) ?_ fun j d fd' c' hc' => ?_)
    · exact fun j => s.serving.dispatchers.dispatcher_modify i j _
    · split
      · exact handlers_registerHandler_kept ((congrFun (hf d) fd').trans hc') ..
      · exact hc'
  · exact absurd hdrops (not_drops (fun fd' c' hc' => (congrFun hmap fd').trans hc') rfl)

/-- A call that leaves the channels, the handlers and the open descriptors alone. -/
theorem live_of_eq (h : s.Fresh) (hlive : s.Live)
    (hdispatcher : ∀ i d, s.serving.dispatcher i = some d →
      ∃ d', t.dispatcher i = some d' ∧ d'.handlers = d.handlers)
    (hchan : t.dispatchers.chan = s.serving.dispatchers.chan)
    (hnext : t.dispatchers.nextChan = s.serving.dispatchers.nextChan)
    (hopen : ∀ fd, s.serving.dispatchers.isOpen fd = true → t.dispatchers.isOpen fd = true)
    (hdrops : ∀ c, ¬ s.serving.Drops t c) : (s.record call t).Live := by
  refine live_record h hlive (Nat.le_of_eq hnext.symm)
    (fun c _ => congrArg (fun chan => (chan c).active) hchan) fun c hloss => ?_
  rcases hloss with hcloses | hremoves | hdropped
  · exact not_closes h hopen hcloses
  · refine not_removes (fun i d hd => ?_) hremoves
    obtain ⟨d', hd', hhandlers⟩ := hdispatcher i d hd
    exact ⟨d', hd', fun fd c hc => (congrFun hhandlers fd).trans hc⟩
  · exact hdrops c hdropped

/-- A call that is refused, or that concerns nothing of what the dispatchers have. -/
theorem live_of_same (h : s.Fresh) (hlive : s.Live) (ht : t.dispatchers = s.serving.dispatchers)
    (hextracted : t.extracted = s.serving.extracted) : (s.record call t).Live := by
  have hmap : t.allChannel = s.serving.allChannel := congrArg Dispatchers.allChannel ht
  refine live_of_eq h hlive (fun i d hd => ⟨d, ?_, rfl⟩) (congrArg Dispatchers.chan ht)
    (congrArg Dispatchers.nextChan ht) (fun fd hfd => ?_) fun c => not_drops (fun fd c hc => ?_)
    hextracted
  · rw [dispatcher, ht]
    exact hd
  · rw [ht]
    exact hfd
  · rw [hmap]
    exact hc

theorem handlers_eraseHandler (d : Dispatcher) (fd fd' : Int) :
    (d.eraseHandler fd).handlers fd' = if fd' = fd then none else d.handlers fd' :=
  Function.update_apply ..

theorem live_handleUnexpected_iff (h : s.Fresh) (hlive : s.Live) {i : Nat} {events : Events}
    (ht : t.dispatchers = s.serving.dispatchers.handleUnexpected i fd)
    (hextracted : t.extracted = s.serving.extracted) :
    (s.record (.handleUnexpected i fd events) t).Live ↔ ∀ c, s.serving.Active c →
      s.connection fd = some c ∨ s.serving.HandledAt i fd c →
        s.serving.allChannel fd = some c := by
  obtain ⟨hmap, hnext⟩ := s.serving.dispatchers.handleUnexpected_frame i fd
  have hisOpen := s.serving.dispatchers.isOpen_handleUnexpected i fd
  rw [← ht] at hmap hnext hisOpen
  refine live_record_iff _ _ h hlive (Nat.le_of_eq hnext.symm) (fun c _ => ?_) fun c hnot => ?_
  · rw [ht, Dispatchers.active_handleUnexpected, Bool.and_eq_true, bne_iff_ne]
    rfl
  have hremoves : s.serving.Removes t c ↔ s.serving.HandledAt i fd c := by
    refine removes_iff_of_erase (f := fun j d =>
      (if i = j then (d.eraseHandler fd).removeFd fd else d).removeFd fd) (fun j => ?_)
      fun j d fd' => ?_
    · rw [dispatcher, ht]
      exact s.serving.dispatchers.dispatcher_handleUnexpected i fd j
    · by_cases hj : i = j
      · simp only [hj, if_true, true_and]
        exact handlers_eraseHandler d fd fd'
      · simp only [hj, if_false, false_and]
        rfl
  have hcloses : s.Closes (.handleUnexpected i fd events) t c ↔ s.connection fd = some c := by
    constructor
    · rintro ⟨_, fd', hc, hclosed⟩
      by_cases hfd : fd' = fd
      · subst hfd
        exact hc
      · rw [hisOpen, Function.update_of_ne hfd, h.connection fd' c hc] at hclosed
        cases hclosed
    · intro hc
      refine ⟨nofun, fd, hc, ?_⟩
      rw [hisOpen, Function.update_self]
  rw [Loses, hremoves, hcloses, drops_erase_iff h.filed hmap hextracted, ← or_assoc]
  exact or_iff_left hnot

theorem live_removeHandler_iff (h : s.Fresh) (hlive : s.Live) {i : Nat} {stale : Option Nat}
    (ht : t.dispatchers = (s.serving.dispatchers.eraseChannel fd stale).modify i
      fun d => d.eraseHandler fd) (hextracted : t.extracted = s.serving.extracted) :
    (s.record call t).Live ↔ ∀ c, s.serving.Active c →
      s.serving.HandledAt i fd c ∨ s.serving.allChannel fd = some c →
        (s.serving.allChannel fd).isSome = true ∧ stale = some c := by
  obtain ⟨hmap, hnext⟩ := s.serving.dispatchers.eraseChannel_frame fd stale
  obtain ⟨hmap', hnext'⟩ := (s.serving.dispatchers.eraseChannel fd stale).modify_frame i
    fun d => d.eraseHandler fd
  obtain ⟨hchan, hisOpen⟩ := (s.serving.dispatchers.eraseChannel fd stale).chan_modify i
    fun d => d.eraseHandler fd
  rw [← ht] at hmap' hnext' hchan hisOpen
  refine live_record_iff _ _ h hlive (Nat.le_of_eq (hnext'.trans hnext).symm) (fun c _ => ?_)
    fun c hnot => ?_
  · rw [hchan, Dispatchers.active_eraseChannel, Bool.and_eq_true, Bool.not_eq_true',
      Bool.and_eq_false_iff, not_and_or, Bool.not_eq_true, beq_eq_false_iff_ne]
    rfl
  have hremoves : s.serving.Removes t c ↔ s.serving.HandledAt i fd c := by
    refine removes_iff_of_erase (f := fun j d => if i = j then d.eraseHandler fd else d)
      (fun j => ?_) fun j d fd' => ?_
    · rw [dispatcher, ht, Dispatchers.dispatcher_modify, Dispatchers.dispatcher_eraseChannel]
      rfl
    · by_cases hj : i = j
      · simp only [hj, if_true, true_and]
        exact handlers_eraseHandler d fd fd'
      · simp only [hj, if_false, false_and]
  have hcloses : ¬ s.Closes call t c := by
    refine not_closes h fun fd' hfd' => ?_
    rw [hisOpen, Dispatchers.isOpen_eraseChannel, hfd']
  rw [Loses, hremoves, drops_erase_iff h.filed (hmap'.trans hmap) hextracted, or_iff_right hcloses]

theorem live_restore_iff (h : s.Fresh) (hlive : s.Live) {i k : Nat} {channels : ChannelMap}
    (hk : s.serving.extracted[k]? = some channels) :
    (s.record call ({ s.serving with
      extracted := s.serving.extracted.eraseIdx k }.restoreAllChannel i channels)).Live ↔
        ∀ c, s.serving.Active c → ¬ ∃ fd, channels fd = some c ∧
          (fd ∈ s.serving.waitToRemovedChannel i ∨ s.serving.allChannel fd ≠ none) := by
  refine live_record_iff _ (fun _ => False) h hlive (Nat.le_refl _) (fun c _ => ?_)
    fun c _ => ?_
  · exact (and_iff_left not_false).symm
  · rw [← drops_restore_iff h.filed hk]
    have hcloses : ¬ s.Closes call ({ s.serving with
        extracted := s.serving.extracted.eraseIdx k }.restoreAllChannel i channels) c :=
      not_closes h fun _ hfd => hfd
    have hremoves : ¬ s.serving.Removes ({ s.serving with
        extracted := s.serving.extracted.eraseIdx k }.restoreAllChannel i channels) c :=
      not_removes fun i d hd => ⟨d, hd, fun _ _ hc => hc⟩
    rw [Loses, or_iff_right hcloses, or_iff_right hremoves]

theorem live_shutdown_iff (h : s.Fresh) (hlive : s.Live)
    (hstop : s.serving.dispatchers.master.stop = false) :
    (s.record .shutdown s.serving.shutdown).Live ↔ ∀ c, s.serving.Active c →
      (∃ i d fd, Clears s.serving i d ∧ (d.handlers fd = some (.events c) ∨
        s.connection fd = some c ∧ (d.handlers fd).isSome = true)) →
      s.serving.dispatchers.clears = true ∧
        s.serving.allChannel (s.serving.dispatchers.chan c).fd = some c := by
  obtain ⟨_, hnext, _⟩ := Dispatchers.shutdown_frame hstop
  refine live_record_iff _ _ h hlive (Nat.le_of_eq hnext.symm) (fun c _ => ?_) fun c hnot => ?_
  · apply (Bool.eq_iff_iff.mp (Dispatchers.active_shutdown hstop c)).trans
    rw [Bool.and_eq_true, Bool.not_eq_true', Bool.and_eq_false_iff, not_and_or, Bool.not_eq_true,
      beq_eq_false_iff_ne]
    rfl
  have hdrops : ¬ s.serving.Drops s.serving.shutdown c := fun hdrops =>
    hnot (drops_shutdown h.filed hstop hdrops)
  rw [Loses, or_iff_left hdrops, removes_shutdown_iff hstop]
  constructor
  · rintro (⟨_, fd, hc, hclosed⟩ | ⟨i, fd, ⟨d, hd, hhandler⟩, hcleared⟩)
    · cases (Dispatchers.isOpen_shutdown_iff hstop fd).mp hclosed with
      | inl hbefore =>
        rw [h.connection fd c hc] at hbefore
        cases hbefore
      | inr hclears =>
        obtain ⟨i, d, hd, hcleared, hhandler⟩ := hclears
        exact ⟨i, d, fd, ⟨hd, hcleared⟩, .inr ⟨hc, hhandler⟩⟩
    · exact ⟨i, d, fd, ⟨hd, hcleared⟩, .inl hhandler⟩
  · rintro ⟨i, d, fd, ⟨hd, hcleared⟩, hhandler | ⟨hc, hhandler⟩⟩
    · exact .inr ⟨i, fd, ⟨d, hd, hhandler⟩, hcleared⟩
    · exact .inl ⟨nofun, fd, hc,
        (Dispatchers.isOpen_shutdown_iff hstop fd).mpr (.inr ⟨i, d, hd, hcleared, hhandler⟩)⟩

theorem live_step_iff (h : s.Fresh) (hlive : s.Live)
    (hstep : (Serving.machine A).step s.serving call = some t) :
    (s.record call t).Live ↔ s.Thorough call := by
  cases step_cases hstep with
  | failedConnection =>
    exact iff_of_true (live_handleNewConnection h hlive _ _ _ fun _ hfd => hfd) trivial
  | handleNewConnection =>
    exact iff_of_true (live_handleNewConnection h hlive _ _ _ fun _ hfd => open_stays_open hfd)
      trivial
  | handleUnexpected _ _ hevents =>
    refine Iff.trans (live_handleUnexpected_iff h hlive rfl rfl) ?_
    constructor
    · exact fun hall _ => hall
    · exact fun hall => hall hevents
  | @handleExpected i fd events hevents =>
    refine iff_of_true (live_of_same h hlive rfl rfl) fun hunexpected => ?_
    exact absurd (hevents.symm.trans hunexpected) Bool.false_ne_true
  | removeHandler hd hstop hfd =>
    refine Iff.trans (live_removeHandler_iff h hlive rfl rfl) ?_
    constructor
    · exact fun hall _ _ => hall
    · exact fun hall => hall ⟨_, hd, hstop⟩ hfd
  | @removeHandlerRefused i fd stale d hd hrefused =>
    apply iff_of_true (live_of_same h hlive rfl rfl)
    rintro ⟨d', hd', hstop⟩ hfd
    obtain rfl := Option.some.inj (hd.symm.trans hd')
    cases hrefused with
    | inl hstopped => exact absurd (hstop.symm.trans hstopped) Bool.false_ne_true
    | inr hneg => exact absurd hneg (Int.not_lt.mpr hfd)
  | restoreAllChannel hk =>
    apply (live_restore_iff h hlive hk).trans
    constructor
    · intro hall channels hchannels
      obtain rfl := Option.some.inj (hk.symm.trans hchannels)
      exact hall
    · exact fun hall => hall _ hk
  | shutdown hstop =>
    apply (live_shutdown_iff h hlive hstop).trans
    constructor
    · exact fun hall _ => hall
    · exact fun hall => hall hstop
  | shutdownStopped hstop =>
    refine iff_of_true (live_of_same h hlive rfl rfl) fun hrunning => ?_
    exact absurd (hrunning.symm.trans hstop) Bool.false_ne_true
  | @setMasterFD i fd ok =>
    exact iff_of_true (live_registerHandler h hlive i fd .accept ok
      (f := fun d => { d with masterfd := fd }) fun _ => rfl) trivial
  | @registerHandler i fd handler ok =>
    exact iff_of_true (live_registerHandler h hlive i fd handler ok
      (f := fun d => d) fun _ => rfl) trivial
  | extractExistedChannel =>
    refine iff_of_true ?_ trivial
    exact live_of_eq h hlive (fun i d hd => ⟨d, hd, rfl⟩) rfl rfl (fun _ hfd => hfd)
      fun c => drops_extract
  | enableSlave =>
    refine iff_of_true ?_ trivial
    refine live_of_eq h hlive (fun i d hd => ?_) rfl rfl (fun _ hfd => hfd)
      fun c => not_drops (fun _ _ hc => hc) rfl
    cases i with
    | zero =>
      cases hd
      exact ⟨_, rfl, rfl⟩
    | succ i => exact ⟨d, hd, rfl⟩
  | addSlaveDispatcher =>
    refine iff_of_true ?_ trivial
    refine live_of_eq h hlive (fun i d hd => ⟨d, ?_, rfl⟩) rfl rfl (fun _ hfd => hfd)
      fun c => not_drops (fun _ _ hc => hc) rfl
    have hpresent : i < (s.serving.dispatchers.master :: s.serving.dispatchers.slaves).length :=
      (List.getElem?_eq_some_iff.mp hd).1
    exact (List.getElem?_append_left hpresent).trans hd
  | openFd =>
    refine iff_of_true ?_ trivial
    exact live_of_eq h hlive (fun i d hd => ⟨d, hd, rfl⟩) rfl rfl (fun _ hfd => open_stays_open hfd)
      fun c => not_drops (fun _ _ hc => hc) rfl
  | @closeFd fd =>
    refine iff_of_true ?_ trivial
    refine live_record h hlive (Nat.le_refl _) (fun c _ => rfl) fun c hloss => ?_
    rcases hloss with hcloses | hremoves | hdrops
    · exact hcloses.1 fd rfl
    · refine absurd hremoves (not_removes_of_map (f := fun _ d => d.removeFd fd) ?_
        fun _ _ _ _ hc => hc)
      exact s.serving.dispatchers.dispatcher_close fd
    · exact not_drops (fun _ _ hc => hc) rfl hdrops
  | enableSlaveStopped | addSlaveDispatcherRefused | setMasterFDRefused | pend | pendSlave =>
    exact iff_of_true (live_of_same h hlive rfl rfl) trivial

/-- Throughout a run no active channel has lost its descriptor or its handler exactly if every
call makes inactive all that it closes, removes or drops. -/
theorem live_iff_thorough (A : Text.Allocator) (calls : List Call) :
    (machine A).AllStates Live (initial A) calls ↔
      (machine A).AllSteps Thorough (initial A) calls := by
  have hfresh (s : Dropping) (call : Call) (s' : Dropping) (h : s.Fresh)
      (hstep : (machine A).step s call = some s') : s'.Fresh := by
    obtain ⟨t, ht, rfl⟩ := Option.map_eq_some_iff.mp hstep
    exact h.record ht
  have hlive (s : Dropping) (call : Call) (s' : Dropping) (h : s.Fresh) (hlive : s.Live)
      (hstep : (machine A).step s call = some s') : s'.Live ↔ s.Thorough call := by
    obtain ⟨t, ht, rfl⟩ := Option.map_eq_some_iff.mp hstep
    exact live_step_iff h hlive ht
  exact Machine.allStates_iff_allSteps (fun s call s' h _ _ => hfresh s call s' h) hlive
    (fresh_initial A) (fun _ _ => id) calls

/-- A connection is closed while its channel is extracted, and all connections are closed by a
`Shutdown` without a master descriptor. -/
theorem active_channel_is_closed :
    (∃ s, (machine .doubling).run (initial .doubling)
        [.handleNewConnection 5 true, .extractExistedChannel, .handleUnexpected 0 5 EPOLLHUP] =
          some s ∧ s.serving.Active 0 ∧ s.lost 0) ∧
      ∃ s, (machine .doubling).run (initial .doubling)
        [.handleNewConnection 5 true, .shutdown] = some s ∧ s.serving.Active 0 ∧ s.lost 0 :=
  ⟨⟨_, rfl, ⟨by decide, rfl⟩, .inr ⟨by decide, .inl ⟨nofun, 5, rfl, rfl⟩⟩⟩,
    ⟨_, rfl, ⟨by decide, rfl⟩, .inr ⟨by decide, .inl ⟨nofun, 5, rfl, rfl⟩⟩⟩⟩

end Dropping

end ServerDevLib.Reactor
