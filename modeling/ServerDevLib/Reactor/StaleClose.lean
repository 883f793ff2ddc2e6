import ServerDevLib.Reactor.ClosingChannels

/-!
# Close notifications that come late

Beside the notification center it is recorded which channel every worker has
entered, which channels have completed a notification of data, and which
connection an open number belongs to. A channel is live while it is active and
its number belongs to its connection. `Read` makes its channel inactive before
it calls `NotifyClose`, and `NotifyClose` knows the number alone. If a number
is given away only when no worker is in `Read` for it, nothing but the end of a
live channel removes its entry.
-/

namespace ServerDevLib.Reactor

open Transition

/-- The worker is in `Read` for the number, where the last step may be `NotifyClose`. -/
def WorkerPc.ReadsAt (chan : Nat → Channel) (fd : Int) : WorkerPc → Prop
  | .reading c | .eof c => (chan c).fd = fd
  | .closing fd' => fd' = fd
  | .idle | .notifying _ | .emplacing _ | .found _ _ => False

structure Reported (W D : Type) where
  center : NotificationCenter W D
  origin : W → Nat
  notified : Nat → Bool
  owner : Int → Option Nat

namespace Reported

open NotificationCenter

variable {W D : Type}

/-- The channel is active, and its number belongs to its connection. -/
def Live (s : Reported W D) (c : Nat) : Prop :=
  (s.center.chan c).active = true ∧ s.owner (s.center.chan c).fd = some c

/-- `accept` returns a number whose last channel is inactive and has no worker in `Read`. -/
def Released (s : Reported W D) : Action W D → Prop
  | .accept fd =>
    (∀ c < s.center.nextChan, (s.center.chan c).fd = fd → (s.center.chan c).active = false) ∧
      ∀ w, ¬ (s.center.worker w).ReadsAt s.center.chan fd
  | _ => True

instance (chan : Nat → Channel) (fd : Int) (pc : WorkerPc) : Decidable (pc.ReadsAt chan fd) :=
  match pc with
  | .reading c | .eof c => inferInstanceAs (Decidable ((chan c).fd = fd))
  | .closing fd' => inferInstanceAs (Decidable (fd' = fd))
  | .idle | .notifying _ | .emplacing _ | .found _ _ => isFalse id

instance [Fintype W] (s : Reported W D) (a : Action W D) : Decidable (s.Released a) :=
  match a with
  | .accept fd => inferInstanceAs (Decidable
      ((∀ c < s.center.nextChan, (s.center.chan c).fd = fd → (s.center.chan c).active = false) ∧
        ∀ w, ¬ (s.center.worker w).ReadsAt s.center.chan fd))
  | .enter _ _ | .store _ _ _ | .inactivate _ | .find _ | .emplace _ | .promote _ | .notifyClose _
  | .copy _ | .getChannel | .getReceivedData | .demote | .register | .close _ _ | .remove _
  | .respond _ _ | .append _ | .discard _ => isTrue trivial

section Machine

variable [DecidableEq W] [DecidableEq D]

def record (s : Reported W D) (a : Action W D) (t : NotificationCenter W D) : Reported W D :=
  { center := t
    origin := match a with
      | .enter w c => Function.update s.origin w c
      | _ => s.origin
    notified := match a with
      | .emplace w | .promote w => Function.update s.notified (s.origin w) true
      | _ => s.notified
    owner := match a with
      | .accept fd => Function.update s.owner fd (some s.center.nextChan)
      | .close _ fd => Function.update s.owner fd none
      | _ => s.owner }

def initial (A : Text.Allocator) : Reported W D :=
  { center := .initial A, origin := fun _ => 0, notified := fun _ => false, owner := fun _ => none }

def machine (W D : Type) [DecidableEq W] [DecidableEq D] (A : Text.Allocator) :
    Machine (Reported W D) (Action W D) where
  init s := s = initial A
  step s a := ((NotificationCenter.machine W D A).step s.center a).map (s.record a)

end Machine

/-- What is kept for a worker that has entered the channel. -/
def Fits (s : Reported W D) (c : Nat) : WorkerPc → Prop
  | .idle => True
  | .reading c' | .eof c' => c' = c ∧ c < s.center.nextChan ∧
    ∀ c', s.owner (s.center.chan c).fd = some c' → c' = c
  | .closing fd => ∀ c', s.Live c' → (s.center.chan c').fd ≠ fd
  | .notifying fd | .emplacing fd => c < s.center.nextChan ∧ (s.center.chan c).fd = fd
  | .found fd node => (c < s.center.nextChan ∧ (s.center.chan c).fd = fd) ∧
    (s.Live c → ∃ e, s.center.waitToHandleFD.lookup fd = some e ∧ e.node = node)

structure Kept (s : Reported W D) : Prop where
  owned : ∀ c, (s.center.chan c).active = true →
    c < s.center.nextChan ∧ ∀ c', s.owner (s.center.chan c).fd = some c' → c' = c
  workers : ∀ w, s.Fits (s.origin w) (s.center.worker w)
  notified : ∀ c, s.notified c = true → c < s.center.nextChan
  entry : ∀ c, s.Live c → s.notified c = true →
    ∃ e, s.center.waitToHandleFD.lookup (s.center.chan c).fd = some e

/-- What no step but `accept` breaks: no channel becomes live, and live channels keep their
entries. -/
structure Frames (s s' : Reported W D) : Prop where
  nextChan : s'.center.nextChan = s.center.nextChan
  fd : ∀ c, (s'.center.chan c).fd = (s.center.chan c).fd
  active : ∀ c, (s'.center.chan c).active = true → (s.center.chan c).active = true
  owner : ∀ fd c, s'.owner fd = some c → s.owner fd = some c
  entry : ∀ c e, s.Live c → s.center.waitToHandleFD.lookup (s.center.chan c).fd = some e →
    ∃ e', s'.center.waitToHandleFD.lookup (s.center.chan c).fd = some e' ∧ e'.node = e.node

/-- What `accept` does: a new channel gets the number. -/
structure Connects (A : Text.Allocator) (fd : Int) (s s' : Reported W D) : Prop where
  nextChan : s'.center.nextChan = s.center.nextChan + 1
  chan : s'.center.chan =
    Function.update s.center.chan s.center.nextChan (.create A fd (some 0))
  owner : s'.owner = Function.update s.owner fd (some s.center.nextChan)
  worker : s'.center.worker = s.center.worker
  origin : s'.origin = s.origin
  notified : s'.notified = s.notified
  waitToHandleFD : s'.center.waitToHandleFD = s.center.waitToHandleFD

variable {A : Text.Allocator} {s s' : Reported W D} {w : W} {c : Nat} {fd : Int}

theorem kept_initial (A : Text.Allocator) : (initial A : Reported W D).Kept where
  owned _ h := Bool.noConfusion h
  workers _ := trivial
  notified := nofun
  entry := nofun

theorem Frames.live (h : s.Frames s') (hlive : s'.Live c) : s.Live c := by
  obtain ⟨hactive, howner⟩ := hlive
  rw [h.fd] at howner
  exact ⟨h.active c hactive, h.owner _ c howner⟩

theorem Fits.frame {pc : WorkerPc} (h : s.Fits c pc) (hframe : s.Frames s') : s'.Fits c pc := by
  have hcreated {fd : Int} (hc : c < s.center.nextChan ∧ (s.center.chan c).fd = fd) :
      c < s'.center.nextChan ∧ (s'.center.chan c).fd = fd := by
    rw [hframe.nextChan, hframe.fd]
    exact hc
  cases pc with
  | idle => trivial
  | reading c' | eof c' =>
    obtain ⟨hsame, hlt, howner⟩ := h
    refine ⟨hsame, Nat.lt_of_lt_of_eq hlt hframe.nextChan.symm, fun c' hc' => howner c' ?_⟩
    rw [hframe.fd] at hc'
    exact hframe.owner _ c' hc'
  | closing fd =>
    intro c' hlive
    rw [hframe.fd]
    exact h c' (hframe.live hlive)
  | notifying fd | emplacing fd => exact hcreated h
  | found fd node =>
    refine ⟨hcreated h.1, fun hlive => ?_⟩
    obtain ⟨e, he, rfl⟩ := h.2 (hframe.live hlive)
    obtain ⟨_, rfl⟩ := h.1
    exact hframe.entry c e (hframe.live hlive) he

theorem Kept.frame (h : s.Kept) (hframe : s.Frames s')
    (hworkers : ∀ w, s'.center.worker w = s.center.worker w ∧ s'.origin w = s.origin w ∨
      s'.Fits (s'.origin w) (s'.center.worker w))
    (hnotified : ∀ c, s'.notified c = true → s.notified c = true ∨ c < s.center.nextChan ∧
      (s'.Live c → ∃ e, s'.center.waitToHandleFD.lookup (s.center.chan c).fd = some e)) :
    s'.Kept where
  owned c hactive := by
    obtain ⟨hlt, howner⟩ := h.owned c (hframe.active c hactive)
    rw [hframe.nextChan, hframe.fd]
    exact ⟨hlt, fun c' hc' => howner c' (hframe.owner _ c' hc')⟩
  workers w := by
    cases hworkers w with
    | inl hsame =>
      rw [hsame.1, hsame.2]
      exact (h.workers w).frame hframe
    | inr hfits => exact hfits
  notified c hc := by
    rw [hframe.nextChan]
    cases hnotified c hc with
    | inl hold => exact h.notified c hold
    | inr hnew => exact hnew.1
  entry c hlive hc := by
    rw [hframe.fd]
    cases hnotified c hc with
    | inl hold =>
      obtain ⟨e, he⟩ := h.entry c (hframe.live hlive) hold
      obtain ⟨e', he', _⟩ := hframe.entry c e (hframe.live hlive) he
      exact ⟨e', he'⟩
    | inr hnew => exact hnew.2 hlive

theorem Frames.of_map (hnext : s'.center.nextChan = s.center.nextChan)
    (hchan : s'.center.chan = s.center.chan) (howner : s'.owner = s.owner)
    (hentry : ∀ c e, s.Live c → s.center.waitToHandleFD.lookup (s.center.chan c).fd = some e →
      ∃ e', s'.center.waitToHandleFD.lookup (s.center.chan c).fd = some e' ∧ e'.node = e.node) :
    s.Frames s' where
  nextChan := hnext
  fd c := congrArg (fun chan => (chan c).fd) hchan
  active c hc := (congrArg (fun chan => (chan c).active) hchan).symm.trans hc
  owner fd _ hc := (congrFun howner fd).symm.trans hc
  entry := hentry

theorem Frames.of_setChan (c : Nat) (ch : Channel) (hnext : s'.center.nextChan = s.center.nextChan)
    (hchan : s'.center.chan = (s.center.setChan c ch).chan)
    (hfd : ch.fd = (s.center.chan c).fd)
    (hactive : ch.active = true → (s.center.chan c).active = true) (howner : s'.owner = s.owner)
    (hmap : s'.center.waitToHandleFD = s.center.waitToHandleFD) : s.Frames s' where
  nextChan := hnext
  fd c' := by
    rw [hchan]
    exact setChan_fd hfd c'
  active c' hc' := by
    rw [hchan] at hc'
    exact active_of_setChan hactive hc'
  owner fd _ hc := (congrFun howner fd).symm.trans hc
  entry _ e _ he := by
    rw [hmap]
    exact ⟨e, he, rfl⟩

/-- The entries of live channels stay if one entry is replaced that keeps its node. -/
theorem Frames.of_insert {e : Entry} (hnext : s'.center.nextChan = s.center.nextChan)
    (hchan : s'.center.chan = s.center.chan) (howner : s'.owner = s.owner)
    (hmap : s'.center.waitToHandleFD = s.center.waitToHandleFD.insert fd e)
    (hnode : ∀ e', s.center.waitToHandleFD.lookup fd = some e' → e.node = e'.node) :
    s.Frames s' := by
  refine .of_map hnext hchan howner fun c e' _ he' => ?_
  rw [hmap]
  by_cases hfd : (s.center.chan c).fd = fd
  · subst hfd
    exact ⟨e, AList.lookup_insert _, hnode e' he'⟩
  · exact ⟨e', (AList.lookup_insert_ne hfd).trans he', rfl⟩

/-- `NotifyClose` erases no entry of a live channel. -/
theorem Frames.of_erase (hnext : s'.center.nextChan = s.center.nextChan)
    (hchan : s'.center.chan = s.center.chan) (howner : s'.owner = s.owner)
    (hmap : s'.center.waitToHandleFD = s.center.waitToHandleFD.erase fd)
    (hclosing : ∀ c, s.Live c → (s.center.chan c).fd ≠ fd) : s.Frames s' := by
  refine .of_map hnext hchan howner fun c e hlive he => ⟨e, ?_, rfl⟩
  rw [hmap]
  exact (AList.lookup_erase_ne (hclosing c hlive)).trans he

/-- A step of the other threads. -/
theorem Kept.others (h : s.Kept) (hframe : s.Frames s')
    (hworker : s'.center.worker = s.center.worker) (horigin : s'.origin = s.origin)
    (hnotified : s'.notified = s.notified) : s'.Kept :=
  h.frame hframe (fun w => .inl ⟨congrFun hworker w, congrFun horigin w⟩)
    fun c hc => .inl ((congrFun hnotified c).symm.trans hc)

theorem Connects.old (h : s.Connects A fd s') (hc : c < s.center.nextChan) :
    s'.center.chan c = s.center.chan c := by
  rw [h.chan]
  exact Function.update_of_ne (Nat.ne_of_lt hc) ..

theorem Connects.new (h : s.Connects A fd s') :
    s'.center.chan s.center.nextChan = .create A fd (some 0) := by
  rw [h.chan]
  exact Function.update_self ..

/-- The other active channels have other numbers. -/
theorem Connects.active (h : s.Connects A fd s') (hkept : s.Kept)
    (hdead : ∀ c < s.center.nextChan, (s.center.chan c).fd = fd → (s.center.chan c).active = false)
    (hactive : (s'.center.chan c).active = true) (hc : c ≠ s.center.nextChan) :
    c < s.center.nextChan ∧ (s.center.chan c).active = true ∧ (s.center.chan c).fd ≠ fd := by
  rw [h.chan, Function.update_of_ne hc] at hactive
  have hlt := (hkept.owned c hactive).1
  refine ⟨hlt, hactive, fun hfd => ?_⟩
  rw [hdead c hlt hfd] at hactive
  cases hactive

theorem Connects.live (h : s.Connects A fd s') (hkept : s.Kept)
    (hdead : ∀ c < s.center.nextChan, (s.center.chan c).fd = fd → (s.center.chan c).active = false)
    (hc : c < s.center.nextChan) (hlive : s'.Live c) : s.Live c := by
  obtain ⟨_, hactive, hfd⟩ := h.active hkept hdead hlive.1 (Nat.ne_of_lt hc)
  obtain ⟨_, howner⟩ := hlive
  rw [h.owner, h.old hc, Function.update_of_ne hfd] at howner
  exact ⟨hactive, howner⟩

/-- A worker that is not in `Read` for the number keeps what it has. -/
theorem Fits.connect {pc : WorkerPc} (hfits : s.Fits c pc) (h : s.Connects A fd s') (hkept : s.Kept)
    (hdead : ∀ c < s.center.nextChan, (s.center.chan c).fd = fd → (s.center.chan c).active = false)
    (hpc : ¬ pc.ReadsAt s.center.chan fd) : s'.Fits c pc := by
  cases pc with
  | idle => trivial
  | reading c' | eof c' =>
    obtain ⟨rfl, hlt, howner⟩ := hfits
    refine ⟨rfl, ?_⟩
    rw [h.nextChan, h.old hlt, h.owner, Function.update_of_ne hpc]
    exact ⟨Nat.lt_succ_of_lt hlt, howner⟩
  | closing fd' =>
    intro c' hlive
    by_cases hc : c' = s.center.nextChan
    · subst hc
      rw [h.new]
      exact Ne.symm hpc
    · have hlt := (h.active hkept hdead hlive.1 hc).1
      rw [h.old hlt]
      exact hfits c' (h.live hkept hdead hlt hlive)
  | notifying fd' | emplacing fd' =>
    rw [Fits, h.nextChan, h.old hfits.1]
    exact ⟨Nat.lt_succ_of_lt hfits.1, hfits.2⟩
  | found fd' node =>
    obtain ⟨⟨hlt, hfd⟩, hfound⟩ := hfits
    rw [Fits, h.nextChan, h.old hlt, h.waitToHandleFD]
    exact ⟨⟨Nat.lt_succ_of_lt hlt, hfd⟩, fun hlive => hfound (h.live hkept hdead hlt hlive)⟩

/-- The new connection finds no one at work in `Read` for its number. -/
theorem Kept.accept (hkept : s.Kept) (hreleased : s.Released (.accept fd))
    (h : s.Connects A fd s') : s'.Kept := by
  obtain ⟨hdead, hworkers⟩ := hreleased
  constructor
  · intro c hactive
    by_cases hc : c = s.center.nextChan
    · subst hc
      rw [h.nextChan, h.new, h.owner]
      refine ⟨Nat.lt_succ_self _, fun c' hc' => ?_⟩
      have hself := Function.update_self fd (some s.center.nextChan) s.owner
      exact (Option.some.inj (hself.symm.trans hc')).symm
    · obtain ⟨hlt, hactive', hfd⟩ := h.active hkept hdead hactive hc
      rw [h.nextChan, h.old hlt, h.owner, Function.update_of_ne hfd]
      exact ⟨Nat.lt_succ_of_lt hlt, (hkept.owned c hactive').2⟩
  · intro w
    rw [h.worker, h.origin]
    exact (hkept.workers w).connect h hkept hdead (hworkers w)
  · intro c hc
    rw [h.notified] at hc
    rw [h.nextChan]
    exact Nat.lt_succ_of_lt (hkept.notified c hc)
  · intro c hlive hc
    rw [h.notified] at hc
    have hlt := hkept.notified c hc
    rw [h.waitToHandleFD, h.old hlt]
    exact hkept.entry c (h.live hkept hdead hlt hlive) hc

section Steps

variable [DecidableEq W]

/-- A step of a worker that completes no notification. -/
theorem Kept.worker (h : s.Kept) {t : NotificationCenter W D} {pc : WorkerPc}
    (hcenter : s'.center = t.goto w pc) (ht : t.worker = s.center.worker) (hframe : s.Frames s')
    (horigin : ∀ v, v ≠ w → s'.origin v = s.origin v) (hnotified : s'.notified = s.notified)
    (hfits : s'.Fits (s'.origin w) pc) : s'.Kept := by
  refine h.frame hframe (fun v => ?_) fun c hc => .inl ((congrFun hnotified c).symm.trans hc)
  by_cases hv : v = w
  · subst hv
    rw [hcenter, worker_goto_self]
    exact .inr hfits
  · refine .inl ⟨?_, horigin v hv⟩
    rw [hcenter, worker_goto_of_ne hv, ht]

/-- The last step of a notification, after which there is an entry for a live channel. -/
theorem Kept.complete (h : s.Kept) {t : NotificationCenter W D}
    (hcenter : s'.center = t.goto w .idle) (ht : t.worker = s.center.worker)
    (hframe : s.Frames s') (horigin : s'.origin = s.origin)
    (hnotified : s'.notified = Function.update s.notified (s.origin w) true)
    (hcreated : s.origin w < s.center.nextChan ∧ (s.center.chan (s.origin w)).fd = fd)
    (hentry : s.Live (s.origin w) → ∃ e, t.waitToHandleFD.lookup fd = some e) : s'.Kept := by
  obtain ⟨hlt, hfd⟩ := hcreated
  refine h.frame hframe (fun v => ?_) fun c hc => ?_
  · by_cases hv : v = w
    · subst hv
      rw [hcenter, worker_goto_self]
      exact .inr trivial
    · refine .inl ⟨?_, congrFun horigin v⟩
      rw [hcenter, worker_goto_of_ne hv, ht]
  · rw [hnotified] at hc
    by_cases hcw : c = s.origin w
    · subst hcw
      refine .inr ⟨hlt, fun hlive => ?_⟩
      rw [hfd, hcenter]
      exact hentry (hframe.live hlive)
    · rw [Function.update_of_ne hcw] at hc
      exact .inl hc

variable [DecidableEq D]

theorem kept_step : (machine W D A).Preserves Released Kept := by
  intro s a s' h hreleased hstep
  obtain ⟨t, ht, rfl⟩ := Option.map_eq_some_iff.mp hstep
  have hsame {t : NotificationCenter W D} {a : Action W D}
      (hnext : t.nextChan = s.center.nextChan) (hchan : t.chan = s.center.chan)
      (howner : (s.record a t).owner = s.owner)
      (hmap : t.waitToHandleFD = s.center.waitToHandleFD) : s.Frames (s.record a t) :=
    .of_map hnext hchan howner fun c e _ he => ⟨e, by rw [← he, ← hmap]; rfl, rfl⟩
  cases step_cases ht with
  | @enter w c _ hcreated _ hactive =>
    refine h.worker (t := s.center) rfl rfl (hsame rfl rfl rfl rfl)
      (fun v hv => Function.update_of_ne hv ..) rfl ?_
    change Fits _ (Function.update s.origin w c w) _
    rw [Function.update_self]
    exact ⟨rfl, hcreated, (h.owned c hactive).2⟩
  | @storeError w c chunks ch hpc hreceive =>
    obtain ⟨buf, count, _, hch⟩ := Channel.receive_cases hreceive
    have hframe : s.Frames (s.record (.store w chunks .error)
        ((s.center.setChan c ch).goto w (.notifying ch.fd))) :=
      .of_setChan c ch rfl rfl (by rw [hch]) (by rw [hch]; exact id) rfl rfl
    obtain ⟨hc, hlt, _⟩ : s.Fits (s.origin w) (.reading c) := hpc ▸ h.workers w
    refine h.worker (t := s.center.setChan c ch) rfl rfl hframe (fun _ _ => rfl) rfl ⟨hlt, ?_⟩
    rw [hframe.fd]
    change (s.center.chan (s.origin w)).fd = ch.fd
    rw [← hc, hch]
  | @storeEof w c chunks ch hpc hreceive =>
    obtain ⟨buf, count, _, hch⟩ := Channel.receive_cases hreceive
    have hframe : s.Frames (s.record (.store w chunks .eof)
        ((s.center.setChan c ch).goto w (.eof c))) :=
      .of_setChan c ch rfl rfl (by rw [hch]) (by rw [hch]; exact id) rfl rfl
    have hfits : s.Fits (s.origin w) (.reading c) := hpc ▸ h.workers w
    exact h.worker (t := s.center.setChan c ch) rfl rfl hframe (fun _ _ => rfl) rfl
      (hfits.frame hframe)
  | @inactivate w c hpc =>
    have hframe : s.Frames (s.record (.inactivate w)
        ((s.center.setChan c (s.center.chan c).inactive).goto w (.closing (s.center.chan c).fd))) :=
      .of_setChan c _ rfl rfl rfl nofun rfl rfl
    obtain ⟨rfl, _, howner⟩ : s.Fits (s.origin w) (.eof c) := hpc ▸ h.workers w
    refine h.worker (t := s.center.setChan (s.origin w) _) rfl rfl hframe (fun _ _ => rfl) rfl ?_
    intro c' hlive hfd
    rw [hframe.fd] at hfd
    have howned := (hframe.live hlive).2
    rw [hfd] at howned
    obtain rfl := howner c' howned
    have hactive := hlive.1
    change ((s.center.setChan (s.origin w) _).chan (s.origin w)).active = true at hactive
    rw [setChan_self] at hactive
    cases hactive
  | @findNone w fd hpc =>
    have hfits : s.Fits (s.origin w) (.notifying fd) := hpc ▸ h.workers w
    exact h.worker (t := s.center) rfl rfl (hsame rfl rfl rfl rfl) (fun _ _ => rfl) rfl hfits
  | @findSome w fd e hpc he =>
    have hfits : s.Fits (s.origin w) (.notifying fd) := hpc ▸ h.workers w
    exact h.worker (t := s.center) rfl rfl (hsame rfl rfl rfl rfl) (fun _ _ => rfl) rfl
      ⟨hfits, fun _ => ⟨e, he, rfl⟩⟩
  | @emplaceNone w fd hpc hnone =>
    have hfits : s.Fits (s.origin w) (.emplacing fd) := hpc ▸ h.workers w
    refine h.complete (t := { s.center with
      waitToHandleFD := s.center.waitToHandleFD.insert fd ⟨s.center.nextNode, .MORE⟩
      nextNode := s.center.nextNode + 1 }) rfl rfl (.of_insert rfl rfl rfl rfl fun e he => ?_) rfl rfl
      hfits fun _ => ⟨_, AList.lookup_insert _⟩
    rw [hnone] at he
    cases he
  | @emplaceSome w fd e hpc he =>
    have hfits : s.Fits (s.origin w) (.emplacing fd) := hpc ▸ h.workers w
    exact h.complete (t := s.center) rfl rfl (hsame rfl rfl rfl rfl) rfl rfl hfits fun _ => ⟨e, he⟩
  | @promote w fd e hpc he =>
    have hfits : s.Fits (s.origin w) (.found fd e.node) := hpc ▸ h.workers w
    refine h.complete (t := s.center.applySection .NotifyDataReady fd e) rfl rfl
      (.of_insert rfl rfl rfl rfl fun e' he' => ?_) rfl rfl hfits.1
      fun _ => ⟨_, AList.lookup_insert _⟩
    rw [he] at he'
    cases he'
    rfl
  | @promoteDangling w fd node hpc hgone =>
    have hfits : s.Fits (s.origin w) (.found fd node) := hpc ▸ h.workers w
    refine h.complete (t := { s.center with dangled := true }) rfl rfl (hsame rfl rfl rfl rfl) rfl
      rfl hfits.1 fun hlive => ?_
    obtain ⟨e, he, hnode⟩ := hfits.2 hlive
    exact absurd hnode (hgone e he)
  | @notifyClose w fd hpc =>
    have hfits : s.Fits (s.origin w) (.closing fd) := hpc ▸ h.workers w
    exact h.worker (t := { s.center with waitToHandleFD := s.center.waitToHandleFD.erase fd }) rfl
      rfl (.of_erase rfl rfl rfl rfl hfits) (fun _ _ => rfl) rfl trivial
  | @getReceivedData c =>
    obtain ⟨count, hch, _⟩ := (s.center.chan c).getReceivedData_cases
    exact h.others (.of_setChan c (s.center.chan c).getReceivedData.1 rfl rfl (by rw [hch])
      (by rw [hch]; exact id) rfl rfl) rfl rfl rfl
  | @demote fd rest e _ he =>
    refine h.others (.of_insert rfl rfl rfl rfl fun e' he' => ?_) rfl rfl rfl
    rw [he] at he'
    cases he'
    rfl
  | accept => exact h.accept hreleased ⟨rfl, rfl, rfl, rfl, rfl, rfl, rfl⟩
  | @close d fd =>
    refine h.others ?_ rfl rfl rfl
    refine ⟨rfl, fun _ => rfl, fun _ => id, fun fd' c hc => ?_, fun c e _ he => ⟨e, he, rfl⟩⟩
    have herased : ChannelMap.erase s.owner fd fd' = some c := hc
    exact (ChannelMap.erase_cases herased).2
  | @removeSome d fd c =>
    exact h.others (.of_setChan c (s.center.chan c).inactive rfl rfl rfl nofun rfl rfl) rfl rfl rfl
  | @append i a =>
    obtain ⟨buf, hch⟩ := (s.center.chan a.target).appendToSend_cases A a.data
    exact h.others (.of_setChan a.target ((s.center.chan a.target).appendToSend A a.data) rfl rfl
      (by rw [hch]) (by rw [hch]; exact id) rfl rfl) rfl rfl rfl
  | copy | scanned | getChannel | demoteDangling | register | removeNone | respondSome
  | respondNone | appendInactive | discard => exact h.others (hsame rfl rfl rfl rfl) rfl rfl rfl

/-- No `NotifyClose` is about to be called for the number of a live channel, and a live channel
that has completed a notification has an entry. -/
theorem live_channel_keeps_entry (A : Text.Allocator) (s : Reported W D)
    (h : (machine W D A).ReachableUnder Released s) :
    (∀ w fd c, s.center.worker w = .closing fd → s.Live c → (s.center.chan c).fd ≠ fd) ∧
      ∀ c, s.Live c → s.notified c = true →
        ∃ e, s.center.waitToHandleFD.lookup (s.center.chan c).fd = some e := by
  have hkept : s.Kept := by
    refine h.invariant ?_ kept_step
    rintro s rfl
    exact kept_initial A
  refine ⟨fun w fd c hw => ?_, hkept.entry⟩
  have hfits : s.Fits (s.origin w) (.closing fd) := hw ▸ hkept.workers w
  exact hfits c

end Steps

theorem live_channel_keeps_entry_reused : ∃ s : Reported Unit Unit,
    (machine Unit Unit .doubling).runUnder Released (initial .doubling)
      [.accept 5, .register, .enter () 0, .store () [] .eof, .inactivate (), .notifyClose (),
        .close () 5, .remove (), .accept 5, .register, .enter () 1, .store () [[105]] .error,
        .find (), .emplace ()] = some s ∧
    s.Live 1 ∧ ∃ e, s.center.waitToHandleFD.lookup (s.center.chan 1).fd = some e := by
  have hview : ((machine Unit Unit .doubling).runUnder Released (initial .doubling)
      [.accept 5, .register, .enter () 0, .store () [] .eof, .inactivate (), .notifyClose (),
        .close () 5, .remove (), .accept 5, .register, .enter () 1, .store () [[105]] .error,
        .find (), .emplace ()]).map (fun s => ((s.center.chan 1).active,
          s.owner (s.center.chan 1).fd, s.notified 1)) = some (true, some 1, true) := by
    decide +kernel
  obtain ⟨s, hs, hview⟩ := Option.map_eq_some_iff.mp hview
  simp only [Prod.mk.injEq] at hview
  obtain ⟨hactive, howner, hnotified⟩ := hview
  refine ⟨s, hs, ⟨hactive, howner⟩, ?_⟩
  exact (live_channel_keeps_entry .doubling s (Machine.reachableUnder_of_runUnder rfl hs)).2 1
    ⟨hactive, howner⟩ hnotified

/-- A worker calls `NotifyClose` when its number has another connection, with unread bytes. -/
theorem stale_close_erases_entry : ∃ s : Reported Bool Unit,
    (machine Bool Unit .doubling).run (initial .doubling)
      [.accept 5, .register, .enter true 0, .store true [] .eof, .inactivate true, .close () 5,
        .remove (), .accept 5, .register, .enter false 1, .store false [[105]] .error, .find false,
        .emplace false, .notifyClose true] = some s ∧
    s.Live 1 ∧ s.notified 1 = true ∧ (s.center.chan 1).receivedCount = 1 ∧
      (s.center.waitToHandleFD.lookup (s.center.chan 1).fd).isNone = true := by
  have hview : ((machine Bool Unit .doubling).run (initial .doubling)
      [.accept 5, .register, .enter true 0, .store true [] .eof, .inactivate true, .close () 5,
        .remove (), .accept 5, .register, .enter false 1, .store false [[105]] .error, .find false,
        .emplace false, .notifyClose true]).map (fun s => ((s.center.chan 1).active,
          s.owner (s.center.chan 1).fd, s.notified 1, (s.center.chan 1).receivedCount,
          (s.center.waitToHandleFD.lookup (s.center.chan 1).fd).isNone)) =
            some (true, some 1, true, 1, true) := by
    decide +kernel
  obtain ⟨s, hs, hview⟩ := Option.map_eq_some_iff.mp hview
  simp only [Prod.mk.injEq] at hview
  obtain ⟨hactive, howner, hnotified, hcount, hnone⟩ := hview
  exact ⟨s, hs, ⟨hactive, howner⟩, hnotified, hcount, hnone⟩

end Reported

end ServerDevLib.Reactor
