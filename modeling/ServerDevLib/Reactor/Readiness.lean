import ServerDevLib.Reactor.StayingChannels

/-!
# No notification is lost

While connections stay, every channel with buffered bytes is covered: its
entry is above `ONE`, or a worker is on its way to raise it. After
`HandleReadyData` has fetched the bytes and before it has lowered the state,
`MOREPLUS` takes the place of `MORE`, because one of the two units belongs to
the bytes that are gone.
-/

namespace ServerDevLib.Reactor

open Transition

/-- The worker has stored bytes and is still to make them known; a worker that found no entry
does so only while there is none. -/
def WorkerPc.Announces (fd : Int) (absent : Prop) : WorkerPc → Prop
  | .notifying fd' | .found fd' _ => fd' = fd
  | .emplacing fd' => fd' = fd ∧ absent
  | _ => False

theorem WorkerPc.Announces.mono {pc : WorkerPc} {fd : Int} {p q : Prop} (h : pc.Announces fd p)
    (hpq : p → q) : pc.Announces fd q := by
  cases pc with
  | notifying fd' | found fd' node => exact h
  | emplacing fd' => exact ⟨h.1, hpq h.2⟩
  | idle | reading c | eof c | closing fd' => exact h.elim

/-- The worker is between storing bytes and the end of its notification. -/
def WorkerPc.Notifies (fd : Int) : WorkerPc → Prop
  | .notifying fd' | .found fd' _ | .emplacing fd' => fd' = fd
  | _ => False

def ConsumerPc.Drained (fd : Int) : ConsumerPc → Prop
  | .drained fd' _ => fd' = fd
  | _ => False

/-- The descriptors of the copy that are still to be visited, the current one first. -/
def ConsumerPc.queue : ConsumerPc → List Int
  | .idle => []
  | .scanning rest => rest.map Prod.fst
  | .holding _ fd rest | .drained fd rest => fd :: rest.map Prod.fst

namespace NotificationCenter

variable {W D : Type} {A : Text.Allocator} {s s' : NotificationCenter W D}

/-- The entry of the descriptor will make `HandleReadyData` fetch what is buffered now. -/
def Covered (s : NotificationCenter W D) (fd : Int) : Prop :=
  ∃ e, s.waitToHandleFD.lookup fd = some e ∧ e.state ≠ .ONE ∧
    (s.consumer.Drained fd → e.state = .MOREPLUS)

def Announced (s : NotificationCenter W D) (fd : Int) : Prop :=
  s.Covered fd ∨ ∃ w, (s.worker w).Announces fd (s.waitToHandleFD.lookup fd = none)

structure Noticed (s : NotificationCenter W D) : Prop where
  raised : ∀ fd, s.consumer.Pending fd → ∃ e, s.waitToHandleFD.lookup fd = some e ∧ e.state ≠ .ONE
  once : s.consumer.queue.Nodup
  announced : ∀ c, s.Registered c → 0 < (s.chan c).receivedCount → s.Announced (s.chan c).fd

theorem initial_noticed : (initial A : NotificationCenter W D).Noticed where
  raised _ h := h.elim
  once := List.nodup_nil
  announced _ h := absurd h.1 (Nat.not_lt_zero _)

theorem Announced.congr {fd : Int} (h : s.Announced fd) (hworker : s'.worker = s.worker)
    (hlookup : s'.waitToHandleFD.lookup fd = s.waitToHandleFD.lookup fd)
    (hdrained : s'.consumer.Drained fd → s.consumer.Drained fd) : s'.Announced fd := by
  rcases h with ⟨e, he, hone, hplus⟩ | ⟨w, hw⟩
  · exact .inl ⟨e, hlookup.trans he, hone, fun hd => hplus (hdrained hd)⟩
  · refine .inr ⟨w, ?_⟩
    rw [hworker, hlookup]
    exact hw

/-- A worker may leave its announcement behind once the entry covers it. -/
theorem Announced.goto [DecidableEq W] {fd : Int} (h : s.Announced fd) {w : W} {pc : WorkerPc}
    (hpc : (s.worker w).Announces fd (s.waitToHandleFD.lookup fd = none) →
      pc.Announces fd (s.waitToHandleFD.lookup fd = none) ∨ s.Covered fd) :
    (s.goto w pc).Announced fd := by
  rcases h with hcovered | ⟨v, hv⟩
  · exact .inl hcovered
  · rcases eq_or_ne v w with rfl | hne
    · cases hpc hv with
      | inl hv =>
        refine .inr ⟨v, ?_⟩
        rw [worker_goto_self]
        exact hv
      | inr hcovered => exact .inl hcovered
    · refine .inr ⟨v, ?_⟩
      rw [worker_goto_of_ne hne]
      exact hv

theorem Noticed.goto [DecidableEq W] (h : s.Noticed) {w : W} {pc : WorkerPc}
    (hpc : ∀ fd, (s.worker w).Announces fd (s.waitToHandleFD.lookup fd = none) →
      pc.Announces fd (s.waitToHandleFD.lookup fd = none) ∨ s.Covered fd) : (s.goto w pc).Noticed where
  raised := h.raised
  once := h.once
  announced c hc hcount := (h.announced c hc hcount).goto (hpc _)

theorem Noticed.setChan (h : s.Noticed) (c : Nat) (ch : Channel) (hfd : ch.fd = (s.chan c).fd)
    (hcount : s.Registered c → 0 < ch.receivedCount → s.Announced (s.chan c).fd) :
    (s.setChan c ch).Noticed where
  raised := h.raised
  once := h.once
  announced c' hc' hpos := by
    rw [setChan_fd hfd]
    rcases eq_or_ne c' c with rfl | hne
    · rw [setChan_self] at hpos
      exact hcount hc' hpos
    · rw [setChan_of_ne hne] at hpos
      exact h.announced c' hc' hpos

theorem Noticed.consume (h : s.Noticed) {pc : ConsumerPc}
    (hpending : ∀ fd, pc.Pending fd → s.consumer.Pending fd) (hqueue : pc.queue.Nodup)
    (hdrained : ∀ fd, pc.Drained fd → s.consumer.Drained fd) :
    ({ s with consumer := pc } : NotificationCenter W D).Noticed where
  raised fd hp := h.raised fd (hpending fd hp)
  once := hqueue
  announced c hc hcount := (h.announced c hc hcount).congr rfl rfl (hdrained _)

/-- Writing an entry that is above `ONE`, and at `MOREPLUS` while a unit is still to be taken
off, covers its descriptor and leaves the others as they were. -/
theorem Noticed.insert (h : s.Noticed) {fd : Int} {e : Entry} (next : Nat) (hone : e.state ≠ .ONE)
    (hplus : s.consumer.Drained fd → e.state = .MOREPLUS) :
    ({ s with waitToHandleFD := s.waitToHandleFD.insert fd e, nextNode := next } :
      NotificationCenter W D).Noticed where
  raised fd' hp := by
    rcases eq_or_ne fd' fd with rfl | hne
    · exact ⟨e, AList.lookup_insert _, hone⟩
    · obtain ⟨e', he', hone'⟩ := h.raised fd' hp
      exact ⟨e', (AList.lookup_insert_ne hne).trans he', hone'⟩
  once := h.once
  announced c hc hcount := by
    cases eq_or_ne (s.chan c).fd fd with
    | inl hfd =>
      refine .inl ⟨e, ?_, hone, ?_⟩
      · rw [hfd]
        exact AList.lookup_insert _
      · rw [hfd]
        exact hplus
    | inr hne => exact (h.announced c hc hcount).congr rfl (AList.lookup_insert_ne hne) id

theorem apply_notify_ne_one (state : ReadyState) : Section.NotifyDataReady.apply state ≠ .ONE := by
  cases state <;> decide

theorem apply_notify_of_ne_one {state : ReadyState} (h : state ≠ .ONE) :
    Section.NotifyDataReady.apply state = .MOREPLUS := by
  cases state with
  | ONE => exact absurd rfl h
  | MORE | MOREPLUS => rfl

theorem pending_of_drained {pc : ConsumerPc} {fd : Int} (h : pc.Drained fd) : pc.Pending fd := by
  cases pc with
  | drained fd' rest => exact .inl h
  | idle | scanning _ | holding _ _ _ => exact h.elim

theorem mem_queue_of_unvisited {rest : List (Int × ReadyState)} {fd : Int}
    (h : Unvisited rest fd) : fd ∈ rest.map Prod.fst := by
  obtain ⟨visited, hmem, rfl, _⟩ := h
  exact List.mem_map_of_mem hmem

theorem queue_visit (fd : Int) (state : ReadyState) (rest : List (Int × ReadyState)) :
    (s.visit fd state rest).queue.Sublist (fd :: rest.map Prod.fst) := by
  simp only [visit]
  split
  · exact List.sublist_cons_self ..
  · split
    · exact List.sublist_cons_self ..
    · exact List.Sublist.refl _

theorem not_drained_visit {fd fd' : Int} {state : ReadyState} {rest : List (Int × ReadyState)} :
    ¬ (s.visit fd state rest).Drained fd' := by
  simp only [visit]
  split
  · exact id
  · split <;> exact id

theorem Noticed.copy (h : s.Noticed) {entries : List (Int × ReadyState)}
    (hperm : entries.Perm s.snapshot) :
    ({ s with consumer := .scanning entries } : NotificationCenter W D).Noticed where
  raised fd hp := by
    obtain ⟨⟨_, state⟩, hmem, rfl, hone⟩ := hp
    obtain ⟨e, he, rfl⟩ := lookup_of_mem_snapshot (hperm.subset hmem)
    exact ⟨e, he, hone⟩
  once := nodup_of_perm_snapshot hperm
  announced c hc hcount := (h.announced c hc hcount).congr rfl rfl False.elim

/-- Lowering the state takes back the unit of the bytes that were fetched. -/
theorem Noticed.demote (h : s.Noticed) {fd : Int} {rest : List (Int × ReadyState)} {e : Entry}
    (hpc : s.consumer = .drained fd rest) (he : s.waitToHandleFD.lookup fd = some e) :
    ({ s.applySection .HandleReadyData fd e with consumer := .scanning rest } :
      NotificationCenter W D).Noticed := by
  have honce := h.once
  rw [hpc] at honce
  obtain ⟨hfresh, hrest⟩ := List.nodup_cons.mp honce
  refine ⟨fun fd' hp => ?_, hrest, fun c hc hcount => ?_⟩
  · have hne : fd' ≠ fd := by
      rintro rfl
      exact hfresh (mem_queue_of_unvisited hp)
    obtain ⟨e', he', hone⟩ := h.raised fd' (by rw [hpc]; exact .inr hp)
    exact ⟨e', (AList.lookup_insert_ne hne).trans he', hone⟩
  · have hann : s.Announced (s.chan c).fd := h.announced c hc hcount
    rcases eq_or_ne fd (s.chan c).fd with rfl | hne
    · rcases hann with ⟨e', he', _, hplus⟩ | ⟨w, hw⟩
      · rw [he] at he'
        cases he'
        have hstate : e.state = .MOREPLUS := hplus (by rw [hpc]; rfl)
        refine .inl ⟨_, AList.lookup_insert _, ?_, False.elim⟩
        simp only [hstate]
        decide
      · refine .inr ⟨w, hw.mono fun habsent => ?_⟩
        rw [he] at habsent
        cases habsent
    · exact hann.congr rfl (AList.lookup_insert_ne hne.symm) False.elim

/-- Once its bytes are fetched, a channel needs no announcement; the others are unaffected by
the unit that is still to be taken off. -/
theorem Noticed.fetch (h : s.Noticed) (hs : s.Settled) {c : Nat} {fd : Int}
    {rest : List (Int × ReadyState)} (hpc : s.consumer = .holding c fd rest) (r : List Request) :
    ({ s.setChan c (s.chan c).getReceivedData.1 with
        consumer := .drained fd rest, requests := r } : NotificationCenter W D).Noticed := by
  have hmapped : s.allChannel fd = some c := hs.held c fd rest hpc
  obtain ⟨count, hch, hle, hzero⟩ := (s.chan c).getReceivedData_cases
  have honce := h.once
  rw [hpc] at honce
  refine ⟨fun fd' hp => h.raised fd' (by rw [hpc]; exact hp), honce, fun c' hc' hcount => ?_⟩
  have hreg : s.Registered c' := hc'
  change 0 < ((s.setChan c _).chan c').receivedCount at hcount
  rcases eq_or_ne c' c with rfl | hne
  · rw [setChan_self, hch] at hcount
    have hactive := (hs.counted c' (Nat.lt_of_lt_of_le hcount hle)).2
    exact absurd (hzero hactive ▸ hcount) (Nat.lt_irrefl 0)
  · rw [setChan_of_ne hne] at hcount
    change Announced _ ((s.setChan c _).chan c').fd
    rw [setChan_of_ne hne]
    refine (h.announced c' hreg hcount).congr rfl rfl fun hdrained => ?_
    -- the drained descriptor belongs to the other channel
    have hfd : fd = (s.chan c').fd := hdrained
    rw [hfd, hs.mapped c' hreg] at hmapped
    exact absurd (Option.some.inj hmapped) hne

section

variable [DecidableEq W]

theorem Noticed.store (h : s.Noticed) {w : W} {c : Nat} (hpc : s.worker w = .reading c)
    {ch : Channel} (hfd : ch.fd = (s.chan c).fd) :
    ((s.setChan c ch).goto w (.notifying ch.fd)).Noticed := by
  have hgoto : (s.goto w (.notifying ch.fd)).Noticed := by
    apply h.goto
    intro fd hann
    rw [hpc] at hann
    exact hann.elim
  refine hgoto.setChan c ch hfd fun _ _ => .inr ⟨w, ?_⟩
  rw [worker_goto_self]
  exact hfd

theorem Noticed.emplace (h : s.Noticed) {w : W} {fd : Int} (hpc : s.worker w = .emplacing fd)
    (hnone : s.waitToHandleFD.lookup fd = none) :
    ({ s with
        waitToHandleFD := s.waitToHandleFD.insert fd ⟨s.nextNode, .MORE⟩
        nextNode := s.nextNode + 1 }.goto w .idle : NotificationCenter W D).Noticed := by
  have hinsert : ({ s with
      waitToHandleFD := s.waitToHandleFD.insert fd ⟨s.nextNode, .MORE⟩
      nextNode := s.nextNode + 1 } : NotificationCenter W D).Noticed := by
    apply h.insert (s.nextNode + 1) ReadyState.noConfusion
    intro hdrained
    obtain ⟨e, he, _⟩ := h.raised fd (pending_of_drained hdrained)
    rw [hnone] at he
    cases he
  apply hinsert.goto
  intro fd' hann
  change (s.worker w).Announces fd' _ at hann
  rw [hpc] at hann
  obtain ⟨rfl, habsent⟩ := hann
  rw [AList.lookup_insert] at habsent
  cases habsent

theorem Noticed.promote (h : s.Noticed) {w : W} {fd : Int} {node : Nat} {e : Entry}
    (hpc : s.worker w = .found fd node) (he : s.waitToHandleFD.lookup fd = some e) :
    ((s.applySection .NotifyDataReady fd e).goto w .idle).Noticed := by
  have hplus (hd : s.consumer.Drained fd) : Section.NotifyDataReady.apply e.state = .MOREPLUS := by
    obtain ⟨e', he', hone⟩ := h.raised fd (pending_of_drained hd)
    rw [he] at he'
    cases he'
    exact apply_notify_of_ne_one hone
  have hsection : (s.applySection .NotifyDataReady fd e).Noticed :=
    h.insert s.nextNode (apply_notify_ne_one e.state) hplus
  refine hsection.goto fun fd' hann => .inr ?_
  change (s.worker w).Announces fd' _ at hann
  rw [hpc] at hann
  cases hann
  exact ⟨_, AList.lookup_insert _, apply_notify_ne_one e.state, hplus⟩

end

variable [DecidableEq W] [DecidableEq D]

theorem noticed_step (s : NotificationCenter W D) (a : Action W D) (s' : NotificationCenter W D)
    (hbase : s.Settled ∧ s.Valid) (h : s.Noticed) (hstaying : Staying s a)
    (hstep : (machine W D A).step s a = some s') : s'.Noticed := by
  obtain ⟨hs, hv⟩ := hbase
  cases step_cases hstep with
  | enter hpc =>
    apply h.goto
    intro fd hann
    rw [hpc] at hann
    exact hann.elim
  | storeEof | close => exact hstaying.elim
  | storeError hpc hreceive =>
    obtain ⟨buf, count, _, hch⟩ := Channel.receive_cases hreceive
    exact h.store hpc (by rw [hch])
  | inactivate hpc => exact absurd hpc (hs.stays _ _ 0).1
  | notifyClose hpc => exact absurd hpc (hs.stays _ 0 _).2
  | findNone hpc hnone =>
    refine h.goto fun fd hann => .inl ?_
    rw [hpc] at hann
    cases hann
    exact ⟨rfl, hnone⟩
  | findSome hpc =>
    refine h.goto fun fd hann => .inl ?_
    rw [hpc] at hann
    exact hann
  | emplaceNone hpc hnone => exact h.emplace hpc hnone
  | emplaceSome hpc he =>
    apply h.goto
    intro fd hann
    rw [hpc] at hann
    obtain ⟨rfl, habsent⟩ := hann
    rw [he] at habsent
    cases habsent
  | promote hpc he => exact h.promote hpc he
  | promoteDangling hpc hgone =>
    obtain ⟨e, he, hnode⟩ := hv.found _ _ _ hpc
    exact absurd hnode (hgone e he)
  | copy _ hperm => exact h.copy hperm
  | scanned => exact h.consume (fun _ => False.elim) List.nodup_nil fun _ => False.elim
  | @getChannel fd state rest hpc =>
    have honce := h.once
    rw [hpc] at honce
    refine h.consume (fun fd' hp => ?_) (honce.sublist (queue_visit fd state rest))
      fun fd' hd => absurd hd not_drained_visit
    rw [hpc]
    exact pending_of_visit hp
  | getReceivedData hpc => exact h.fetch hs hpc _
  | demote hpc he => exact h.demote hpc he
  | demoteDangling hpc hnone =>
    refine absurd hnone (hv.pending _ ?_)
    rw [hpc]
    exact .inl rfl
  | accept =>
    refine ⟨h.raised, h.once, fun c hc hcount => ?_⟩
    change 0 < ((s.setChan s.nextChan _).chan c).receivedCount at hcount
    change Announced _ ((s.setChan s.nextChan _).chan c).fd
    rcases eq_or_ne c s.nextChan with rfl | hne
    · rw [setChan_self] at hcount
      exact absurd hcount (Nat.lt_irrefl 0)
    · rw [setChan_of_ne hne] at hcount ⊢
      exact (h.announced c (hs.counted c hcount).1 hcount).congr rfl rfl id
  | register =>
    refine ⟨h.raised, h.once, fun c hc hcount => ?_⟩
    exact (h.announced c (hs.counted c hcount).1 hcount).congr rfl rfl id
  | @removeSome d fd c hclosed | @removeNone d fd hclosed =>
    rw [hs.opened d] at hclosed
    cases hclosed
  | respondSome | respondNone | appendInactive | discard => exact ⟨h.raised, h.once, h.announced⟩
  | @append i a =>
    obtain ⟨buf, hch⟩ := (s.chan a.target).appendToSend_cases A a.data
    have hset := h.setChan a.target ((s.chan a.target).appendToSend A a.data) (by rw [hch])
      fun hreg hcount => by
        rw [hch] at hcount
        exact h.announced a.target hreg hcount
    exact ⟨hset.raised, hset.once, hset.announced⟩

theorem noticed_of_reachable (h : (machine W D A).ReachableUnder Staying s) : s.Noticed := by
  refine h.invariant_on (fun _ h => ⟨settled_of_reachable h, valid_of_staying h⟩) ?_ noticed_step
  rintro s rfl
  exact initial_noticed

theorem notifies_of_announces {pc : WorkerPc} {fd : Int} {absent : Prop}
    (h : pc.Announces fd absent) : pc.Notifies fd := by
  cases pc with
  | notifying fd' | found fd' node => exact h
  | emplacing fd' => exact h.1
  | idle | reading c | eof c | closing fd' => exact h.elim

/-- Buffered bytes whose notification is complete are waiting in the map, also between the
fetching of earlier ones and the lowering of the state. -/
theorem no_lost_notification (s : NotificationCenter W D)
    (h : (machine W D A).ReachableUnder Staying s) (c : Nat) (hcount : 0 < (s.chan c).receivedCount)
    (hworkers : ∀ w, ¬ (s.worker w).Notifies (s.chan c).fd) :
    ∃ e, s.waitToHandleFD.lookup (s.chan c).fd = some e ∧ (e.state = .MORE ∨ e.state = .MOREPLUS) := by
  have hreg := ((settled_of_reachable h).counted c hcount).1
  rcases (noticed_of_reachable h).announced c hreg hcount with ⟨e, he, hone, _⟩ | ⟨w, hw⟩
  · refine ⟨e, he, ?_⟩
    cases hstate : e.state with
    | ONE => exact absurd hstate hone
    | MORE => exact .inl rfl
    | MOREPLUS => exact .inr rfl
  · exact absurd (notifies_of_announces hw) (hworkers w)

/-- Bytes that arrive after the earlier ones were fetched raise the entry, which was at `ONE`. -/
theorem no_lost_notification_overlap : ∃ t s, (machine Unit Unit .doubling).runUnder Staying
    (initial .doubling)
    [.accept 5, .register, .enter () 0, .store () [[104]] .error, .find (), .emplace (),
      .copy [(5, .MORE)], .getChannel, .getReceivedData, .demote] = some t ∧
    (t.waitToHandleFD.lookup 5).map Entry.state = some .ONE ∧
    (machine Unit Unit .doubling).runUnder Staying t
      [.enter () 0, .store () [[105]] .error, .find (), .promote ()] = some s ∧
    (s.chan 0).receivedCount = 1 ∧
    ∃ e, s.waitToHandleFD.lookup (s.chan 0).fd = some e ∧ (e.state = .MORE ∨ e.state = .MOREPLUS) := by
  have hfetched : ((machine Unit Unit .doubling).runUnder Staying (initial .doubling)
      [.accept 5, .register, .enter () 0, .store () [[104]] .error, .find (), .emplace (),
        .copy [(5, .MORE)], .getChannel, .getReceivedData, .demote]).map
      (fun t => ((t.waitToHandleFD.lookup 5).map Entry.state,
        ((machine Unit Unit .doubling).runUnder Staying t
          [.enter () 0, .store () [[105]] .error, .find (), .promote ()]).map
            fun s => ((s.chan 0).receivedCount, s.worker ()))) =
      some (some .ONE, some (1, .idle)) := by decide +kernel
  obtain ⟨t, ht, hview⟩ := Option.map_eq_some_iff.mp hfetched
  obtain ⟨hone, hnotified⟩ := Prod.mk.inj hview
  obtain ⟨s, hs, hview⟩ := Option.map_eq_some_iff.mp hnotified
  obtain ⟨hcount, hworker⟩ := Prod.mk.inj hview
  have hreach := (Machine.reachableUnder_of_runUnder rfl ht).of_runUnder hs
  refine ⟨t, s, ht, hone, hs, hcount, no_lost_notification s hreach 0 ?_ ?_⟩
  · rw [hcount]
    exact Nat.zero_lt_one
  · rintro ⟨⟩
    rw [hworker]
    exact id

end NotificationCenter

end ServerDevLib.Reactor
