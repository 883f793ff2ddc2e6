import ServerDevLib.Reactor.Readiness

/-!
# Calls one after another

When no two calls overlap, a call of `Read` with its `NotifyDataReady` and a
call of `HandleReadyData` are single functions of the state, and a run of such
calls is a run of the center. `GetReceivedData` takes everything that is
buffered, while `HandleReadyData` takes back one unit of the readiness state;
a notification is counted also when no byte has come with it.
-/

namespace ServerDevLib.Reactor

open Transition

inductive Call
  | connect (fd : Int)
  | read (c : Nat) (chunks : List (List UInt8))
  | handleReadyData (entries : List (Int × ReadyState))

namespace NotificationCenter

variable {W D : Type}

section Functions

variable (A : Text.Allocator) (s : NotificationCenter W D)

/-- A connection is accepted and its handler registered. -/
def connect (fd : Int) : NotificationCenter W D :=
  { s.setChan s.nextChan (Channel.create A fd (some 0)) with
    nextChan := s.nextChan + 1
    isOpen := Function.update s.isOpen fd true
    allChannel := s.allChannel.emplace fd s.nextChan }

def notifyDataReady (fd : Int) : NotificationCenter W D :=
  match s.waitToHandleFD.lookup fd with
  | none => { s with
      waitToHandleFD := s.waitToHandleFD.insert fd ⟨s.nextNode, .MORE⟩
      nextNode := s.nextNode + 1 }
  | some e => s.applySection .NotifyDataReady fd e

/-- The call of `EnqueueTask`, with the arguments it is given. -/
def enqueueTask (c : Nat) : NotificationCenter W D :=
  let out := (s.chan c).getReceivedData
  { s.setChan c out.1 with requests := s.requests ++ [⟨c, (s.chan c).fd, out.2⟩] }

/-- The body of the loop of `HandleReadyData`. -/
def handleEntry (entry : Int × ReadyState) : NotificationCenter W D :=
  match s.allChannel entry.1 with
  | none => s
  | some c =>
    if entry.2 = .ONE then s
    else
      match s.waitToHandleFD.lookup entry.1 with
      | some e => (s.enqueueTask c).applySection .HandleReadyData entry.1 e
      | none => { s.enqueueTask c with dangled := true }

def handleReadyData (entries : List (Int × ReadyState)) : NotificationCenter W D :=
  entries.foldl handleEntry s

def call : Call → Option (NotificationCenter W D)
  | .connect fd => if 0 ≤ fd ∧ s.isOpen fd = false then some (s.connect A fd) else none
  | .read c chunks =>
    if c < s.nextChan then
      match (s.chan c).read A chunks .error with
      | some (ch, some (.dataReady fd)) => some ((s.setChan c ch).notifyDataReady fd)
      | _ => none
    else none
  | .handleReadyData entries =>
    if entries.Perm s.snapshot then some (s.handleReadyData entries) else none

end Functions

def calls (W D : Type) (A : Text.Allocator) : Machine (NotificationCenter W D) Call where
  init s := s = initial A
  step := call A

variable {A : Text.Allocator} {s s' : NotificationCenter W D}

theorem call_read_cases {c : Nat} {chunks : List (List UInt8)}
    (h : s.call A (.read c chunks) = some s') : ∃ ch,
      c < s.nextChan ∧ (s.chan c).active = true ∧ (s.chan c).receive A chunks = some ch ∧
        s' = (s.setChan c ch).notifyDataReady (s.chan c).fd := by
  simp only [call] at h
  split at h
  · rename_i hc
    cases hactive : (s.chan c).active with
    | false =>
      rw [Channel.read_of_inactive hactive] at h
      cases h
    | true =>
      rw [Channel.read_error_of_active hactive] at h
      cases hreceive : (s.chan c).receive A chunks with
      | none =>
        rw [hreceive] at h
        cases h
      | some ch =>
        rw [hreceive] at h
        cases h
        obtain ⟨buf, count, _, hch⟩ := Channel.receive_cases hreceive
        exact ⟨ch, hc, rfl, rfl, by rw [hch]⟩
  · cases h

/-- Between two calls nobody is inside one, and all channels are registered and live. -/
structure Live (s : NotificationCenter W D) : Prop where
  workers : ∀ w, s.worker w = .idle
  consumer : s.consumer = .idle
  accepted : s.accepted = none
  filed : ∀ fd c, s.allChannel fd = some c →
    c < s.nextChan ∧ (s.chan c).fd = fd ∧ s.isOpen fd = true
  mapped : ∀ c, c < s.nextChan → s.allChannel (s.chan c).fd = some c
  sized : ∀ c, (s.chan c).receivedBuf.size = Channel.BUFSIZE
  known : ∀ fd e, s.waitToHandleFD.lookup fd = some e →
    ∃ c, s.allChannel fd = some c ∧ (s.chan c).active = true

theorem initial_live : (initial A : NotificationCenter W D).Live where
  workers _ := rfl
  consumer := rfl
  accepted := rfl
  filed := nofun
  mapped _ hc := absurd hc (Nat.not_lt_zero _)
  sized _ := List.length_replicate
  known := nofun

theorem Live.setChan (h : s.Live) (c : Nat) (ch : Channel) (hfd : ch.fd = (s.chan c).fd)
    (hactive : ch.active = (s.chan c).active)
    (hsize : ch.receivedBuf.size = (s.chan c).receivedBuf.size) : (s.setChan c ch).Live where
  workers := h.workers
  consumer := h.consumer
  accepted := h.accepted
  filed fd c' hc' := by
    rw [setChan_fd hfd]
    exact h.filed fd c' hc'
  mapped c' hc' := by
    rw [setChan_fd hfd]
    exact h.mapped c' hc'
  sized c' := by
    rcases eq_or_ne c' c with rfl | hne
    · rw [setChan_self, hsize]
      exact h.sized c'
    · rw [setChan_of_ne hne]
      exact h.sized c'
  known fd e he := by
    obtain ⟨c', hc', hactive'⟩ := h.known fd e he
    refine ⟨c', hc', ?_⟩
    rcases eq_or_ne c' c with rfl | hne
    · rw [setChan_self, hactive]
      exact hactive'
    · rw [setChan_of_ne hne]
      exact hactive'

theorem Live.insert (h : s.Live) {fd : Int} {c : Nat} (hc : s.allChannel fd = some c)
    (hactive : (s.chan c).active = true) (e : Entry) (next : Nat) :
    ({ s with waitToHandleFD := s.waitToHandleFD.insert fd e, nextNode := next } :
      NotificationCenter W D).Live where
  workers := h.workers
  consumer := h.consumer
  accepted := h.accepted
  filed := h.filed
  mapped := h.mapped
  sized := h.sized
  known fd' e' he' := by
    rcases eq_or_ne fd' fd with rfl | hne
    · exact ⟨c, hc, hactive⟩
    · exact h.known fd' e' ((AList.lookup_insert_ne hne).symm.trans he')

theorem Live.connect (h : s.Live) {fd : Int} (hunused : s.isOpen fd = false) :
    (s.connect A fd).Live := by
  have hnone : s.allChannel fd = none := by
    cases hfiled : s.allChannel fd with
    | none => rfl
    | some c =>
      have hopened := (h.filed fd c hfiled).2.2
      rw [hunused] at hopened
      cases hopened
  have hold {c : Nat} (hc : c < s.nextChan) :
      (s.setChan s.nextChan (.create A fd (some 0))).chan c = s.chan c :=
    setChan_of_ne (Nat.ne_of_lt hc) _
  have hnew : (s.setChan s.nextChan (.create A fd (some 0))).chan s.nextChan =
      .create A fd (some 0) := setChan_self ..
  constructor
  · exact h.workers
  · exact h.consumer
  · exact h.accepted
  · intro fd' c hc
    rcases ChannelMap.emplace_cases hc with hc | ⟨_, rfl, rfl⟩
    · obtain ⟨hlt, hfd, hopen⟩ := h.filed fd' c hc
      exact ⟨Nat.lt_succ_of_lt hlt, (congrArg Channel.fd (hold hlt)).trans hfd,
        open_stays_open hopen⟩
    · exact ⟨Nat.lt_succ_self _, congrArg Channel.fd hnew, Function.update_self ..⟩
  · intro c hc
    rcases Nat.lt_succ_iff_lt_or_eq.mp hc with hlt | rfl
    · apply (congrArg _ (congrArg Channel.fd (hold hlt))).trans
      exact ChannelMap.emplace_of_some (h.mapped c hlt)
    · apply (congrArg _ (congrArg Channel.fd hnew)).trans
      exact ChannelMap.emplace_self hnone _
  · intro c
    change ((s.setChan s.nextChan _).chan c).receivedBuf.size = _
    rcases eq_or_ne c s.nextChan with rfl | hne
    · rw [setChan_self]
      exact List.length_replicate
    · rw [setChan_of_ne hne]
      exact h.sized c
  · intro fd' e he
    obtain ⟨c, hc, hactive⟩ := h.known fd' e he
    have hlt := (h.filed fd' c hc).1
    exact ⟨c, ChannelMap.emplace_of_some hc, (congrArg Channel.active (hold hlt)).trans hactive⟩

theorem Live.notifyDataReady (h : s.Live) {fd : Int} {c : Nat} (hc : s.allChannel fd = some c)
    (hactive : (s.chan c).active = true) : (s.notifyDataReady fd).Live := by
  simp only [NotificationCenter.notifyDataReady]
  split
  · exact h.insert hc hactive _ _
  · exact h.insert hc hactive _ s.nextNode

theorem Live.enqueueTask (h : s.Live) (c : Nat) : (s.enqueueTask c).Live := by
  obtain ⟨count, hch, _⟩ := (s.chan c).getReceivedData_cases
  have hset := h.setChan c (s.chan c).getReceivedData.1 (by rw [hch]) (by rw [hch]) (by rw [hch])
  exact ⟨hset.workers, hset.consumer, hset.accepted, hset.filed, hset.mapped, hset.sized,
    hset.known⟩

theorem handleEntry_of_one {entry : Int × ReadyState} (h : entry.2 = .ONE) :
    s.handleEntry entry = s := by
  simp only [handleEntry, h, if_true]
  split <;> rfl

theorem handleEntry_of_ne_one {entry : Int × ReadyState} {c : Nat} {e : Entry}
    (hone : entry.2 ≠ .ONE) (hc : s.allChannel entry.1 = some c)
    (he : s.waitToHandleFD.lookup entry.1 = some e) :
    s.handleEntry entry = (s.enqueueTask c).applySection .HandleReadyData entry.1 e := by
  simp only [handleEntry, hc, if_neg hone, he]

@[simp] theorem allChannel_handleEntry (entry : Int × ReadyState) :
    (s.handleEntry entry).allChannel = s.allChannel := by
  simp only [handleEntry]
  split
  · rfl
  · split
    · rfl
    · split <;> rfl

theorem Live.handleEntry (h : s.Live) {entry : Int × ReadyState} {e : Entry}
    (he : s.waitToHandleFD.lookup entry.1 = some e) : (s.handleEntry entry).Live := by
  by_cases hone : entry.2 = .ONE
  · rw [handleEntry_of_one hone]
    exact h
  · obtain ⟨c, hc, _⟩ := h.known _ e he
    rw [handleEntry_of_ne_one hone hc he]
    have hfetched := h.enqueueTask c
    obtain ⟨c', hc', hactive'⟩ := hfetched.known _ e he
    exact hfetched.insert hc' hactive' _ s.nextNode

/-- A round leaves the other descriptors as they were. -/
theorem handleEntry_of_ne (h : s.Live) {entry : Int × ReadyState} {fd : Int} (hne : fd ≠ entry.1) :
    (s.handleEntry entry).waitToHandleFD.lookup fd = s.waitToHandleFD.lookup fd ∧
      ∀ c, s.allChannel fd = some c → (s.handleEntry entry).chan c = s.chan c := by
  have hother {c c' : Nat} (hc' : s.allChannel entry.1 = some c') (hc : s.allChannel fd = some c) :
      c ≠ c' := by
    rintro rfl
    exact hne ((h.filed fd c hc).2.1.symm.trans (h.filed _ c hc').2.1)
  simp only [handleEntry]
  split
  · exact ⟨rfl, fun _ _ => rfl⟩
  · rename_i c' hc'
    split
    · exact ⟨rfl, fun _ _ => rfl⟩
    · split
      · exact ⟨AList.lookup_insert_ne hne, fun c hc => setChan_of_ne (hother hc' hc) _⟩
      · exact ⟨rfl, fun c hc => setChan_of_ne (hother hc' hc) _⟩

/-- A round takes one unit off a state above `ONE`, and everything out of the buffer. -/
theorem handleEntry_self (h : s.Live) {entry : Int × ReadyState} {e : Entry}
    (he : s.waitToHandleFD.lookup entry.1 = some e) (hstate : e.state = entry.2) :
    (∃ e', (s.handleEntry entry).waitToHandleFD.lookup entry.1 = some e' ∧
      e'.state = Section.HandleReadyData.apply e.state) ∧
    ∀ c, s.allChannel entry.1 = some c → entry.2 ≠ .ONE →
      ((s.handleEntry entry).chan c).receivedCount = 0 := by
  by_cases hone : entry.2 = .ONE
  · rw [handleEntry_of_one hone]
    refine ⟨⟨e, he, ?_⟩, fun _ _ hne => absurd hone hne⟩
    rw [hstate, hone]
    rfl
  · obtain ⟨c, hc, hactive⟩ := h.known _ e he
    rw [handleEntry_of_ne_one hone hc he]
    refine ⟨⟨_, AList.lookup_insert _, rfl⟩, fun c' hc' _ => ?_⟩
    obtain rfl := Option.some.inj (hc.symm.trans hc')
    obtain ⟨count, hch, _, hzero⟩ := (s.chan c).getReceivedData_cases
    change ((s.setChan c _).chan c).receivedCount = 0
    rw [setChan_self, hch]
    exact hzero hactive

/-- Every request so far carries a byte. -/
def Filled (s : NotificationCenter W D) : Prop := ∀ r ∈ s.requests, r.data ≠ []

theorem filled_handleEntry (h : s.Live) {entry : Int × ReadyState} {e : Entry}
    (he : s.waitToHandleFD.lookup entry.1 = some e) : (s.handleEntry entry).Filled ↔
      s.Filled ∧ (entry.2 ≠ .ONE → ∀ c, s.allChannel entry.1 = some c →
        0 < (s.chan c).receivedCount) := by
  by_cases hone : entry.2 = .ONE
  · rw [handleEntry_of_one hone]
    exact ⟨fun hfilled => ⟨hfilled, fun hne => absurd hone hne⟩, And.left⟩
  · obtain ⟨c, hc, hactive⟩ := h.known _ e he
    have hsize : 0 < (s.chan c).receivedBuf.size := by
      rw [h.sized c]
      decide
    have hdata := Channel.getReceivedData_ne_nil_iff hactive hsize
    rw [handleEntry_of_ne_one hone hc he]
    change (∀ r ∈ s.requests ++ [_], r.data ≠ []) ↔ _
    rw [List.forall_mem_append, List.forall_mem_singleton, hdata]
    constructor
    · rintro ⟨hfilled, hpos⟩
      refine ⟨hfilled, fun _ c' hc' => ?_⟩
      obtain rfl := Option.some.inj (hc.symm.trans hc')
      exact hpos
    · rintro ⟨hfilled, hpos⟩
      exact ⟨hfilled, hpos hone c hc⟩

/-- What the copy says of the entries that are still to be visited. -/
def Copied (s : NotificationCenter W D) (entries : List (Int × ReadyState)) : Prop :=
  (entries.map Prod.fst).Nodup ∧
    ∀ entry ∈ entries, ∃ e, s.waitToHandleFD.lookup entry.1 = some e ∧ e.state = entry.2

theorem Copied.head {entry : Int × ReadyState} {entries : List (Int × ReadyState)}
    (h : s.Copied (entry :: entries)) :
    ∃ e, s.waitToHandleFD.lookup entry.1 = some e ∧ e.state = entry.2 :=
  h.2 entry List.mem_cons_self

theorem Copied.ne_head {entry entry' : Int × ReadyState} {entries : List (Int × ReadyState)}
    (h : s.Copied (entry :: entries)) (hmem : entry' ∈ entries) : entry'.1 ≠ entry.1 := by
  intro heq
  exact (List.nodup_cons.mp h.1).1 (heq ▸ List.mem_map_of_mem hmem)

theorem Copied.tail {entry : Int × ReadyState} {entries : List (Int × ReadyState)}
    (h : s.Copied (entry :: entries)) (hlive : s.Live) : (s.handleEntry entry).Copied entries := by
  constructor
  · exact (List.nodup_cons.mp h.1).2
  · intro entry' hmem
    obtain ⟨e, he, hstate⟩ := h.2 entry' (List.mem_cons_of_mem _ hmem)
    exact ⟨e, (handleEntry_of_ne hlive (h.ne_head hmem)).1.trans he, hstate⟩

theorem Live.handleReadyData (h : s.Live) {entries : List (Int × ReadyState)}
    (hcopied : s.Copied entries) : (s.handleReadyData entries).Live := by
  induction entries generalizing s with
  | nil => exact h
  | cons entry entries ih =>
    obtain ⟨e, he, _⟩ := hcopied.head
    exact ih (h.handleEntry he) (hcopied.tail h)

@[simp] theorem allChannel_handleReadyData (entries : List (Int × ReadyState)) :
    (s.handleReadyData entries).allChannel = s.allChannel := by
  induction entries generalizing s with
  | nil => rfl
  | cons entry entries ih => exact ih.trans (allChannel_handleEntry entry)

/-- The tasks of one call carry data exactly if there is some behind every state above `ONE`. -/
theorem filled_handleReadyData (h : s.Live) {entries : List (Int × ReadyState)}
    (hcopied : s.Copied entries) : (s.handleReadyData entries).Filled ↔
      s.Filled ∧ ∀ entry ∈ entries, entry.2 ≠ .ONE → ∀ c, s.allChannel entry.1 = some c →
        0 < (s.chan c).receivedCount := by
  induction entries generalizing s with
  | nil => exact ⟨fun hfilled => ⟨hfilled, nofun⟩, And.left⟩
  | cons entry entries ih =>
    obtain ⟨e, he, _⟩ := hcopied.head
    have hrest := ih (h.handleEntry he) (hcopied.tail h)
    have hsame {entry' : Int × ReadyState} {c : Nat} (hmem : entry' ∈ entries)
        (hc : s.allChannel entry'.1 = some c) : (s.handleEntry entry).chan c = s.chan c :=
      (handleEntry_of_ne h (hcopied.ne_head hmem)).2 c hc
    rw [filled_handleEntry h he, allChannel_handleEntry] at hrest
    change ((s.handleEntry entry).handleReadyData entries).Filled ↔ _
    rw [hrest, List.forall_mem_cons, and_assoc]
    refine and_congr_right fun _ => and_congr_right fun _ => ?_
    refine forall₂_congr fun entry' hmem => forall_congr' fun _ => forall₂_congr fun c hc => ?_
    rw [hsame hmem hc]

theorem handleReadyData_of_not_mem (h : s.Live) {entries : List (Int × ReadyState)}
    (hcopied : s.Copied entries) {fd : Int} (hfd : fd ∉ entries.map Prod.fst) :
    (s.handleReadyData entries).waitToHandleFD.lookup fd = s.waitToHandleFD.lookup fd ∧
      ∀ c, s.allChannel fd = some c → (s.handleReadyData entries).chan c = s.chan c := by
  induction entries generalizing s with
  | nil => exact ⟨rfl, fun _ _ => rfl⟩
  | cons entry entries ih =>
    obtain ⟨e, he, _⟩ := hcopied.head
    rw [List.map_cons, List.mem_cons, not_or] at hfd
    obtain ⟨hne, hrest⟩ := hfd
    obtain ⟨hlookup, hchan⟩ := handleEntry_of_ne h hne
    obtain ⟨hlookup', hchan'⟩ := ih (h.handleEntry he) (hcopied.tail h) hrest
    refine ⟨hlookup'.trans hlookup, fun c hc => ?_⟩
    exact (hchan' c ((congrFun (allChannel_handleEntry entry) fd).trans hc)).trans (hchan c hc)

theorem handleReadyData_of_mem (h : s.Live) {entries : List (Int × ReadyState)}
    (hcopied : s.Copied entries) {entry : Int × ReadyState} (hmem : entry ∈ entries) :
    (∃ e, (s.handleReadyData entries).waitToHandleFD.lookup entry.1 = some e ∧
      e.state = Section.HandleReadyData.apply entry.2) ∧
    ∀ c, s.allChannel entry.1 = some c → entry.2 ≠ .ONE →
      ((s.handleReadyData entries).chan c).receivedCount = 0 := by
  induction entries generalizing s with
  | nil => cases hmem
  | cons head entries ih =>
    obtain ⟨e, he, hstate⟩ := hcopied.head
    rcases List.mem_cons.mp hmem with rfl | hmem
    · have hfresh : entry.1 ∉ entries.map Prod.fst := (List.nodup_cons.mp hcopied.1).1
      obtain ⟨hlookup, hchan⟩ :=
        handleReadyData_of_not_mem (h.handleEntry he) (hcopied.tail h) hfresh
      obtain ⟨⟨e', he', hstate'⟩, hzero⟩ := handleEntry_self h he hstate
      refine ⟨⟨e', hlookup.trans he', by rw [hstate', hstate]⟩, fun c hc hone => ?_⟩
      have hsame := hchan c ((congrFun (allChannel_handleEntry entry) _).trans hc)
      exact (congrArg Channel.receivedCount hsame).trans (hzero c hc hone)
    · obtain ⟨hentry, hzero⟩ := ih (h.handleEntry he) (hcopied.tail h) hmem
      refine ⟨hentry, fun c hc hone => ?_⟩
      exact hzero c ((congrFun (allChannel_handleEntry head) _).trans hc) hone

theorem copied_of_perm {entries : List (Int × ReadyState)} (h : entries.Perm s.snapshot) :
    s.Copied entries :=
  ⟨nodup_of_perm_snapshot h, fun _ hmem => lookup_of_mem_snapshot (h.subset hmem)⟩

theorem notifyDataReady_of_ne (s : NotificationCenter W D) {fd fd' : Int} (hne : fd' ≠ fd) :
    (s.notifyDataReady fd).waitToHandleFD.lookup fd' = s.waitToHandleFD.lookup fd' := by
  simp only [notifyDataReady]
  split <;> exact AList.lookup_insert_ne hne

theorem notifyDataReady_self (s : NotificationCenter W D) (fd : Int) : ∃ e,
    (s.notifyDataReady fd).waitToHandleFD.lookup fd = some e ∧ e.state ≠ .ONE := by
  simp only [notifyDataReady]
  split
  · exact ⟨_, AList.lookup_insert _, ReadyState.noConfusion⟩
  · exact ⟨_, AList.lookup_insert _, apply_notify_ne_one _⟩

/-- A notification touches nothing but the map of waiting descriptors. -/
theorem notifyDataReady_frame (s : NotificationCenter W D) (fd : Int) :
    (s.notifyDataReady fd).chan = s.chan ∧ (s.notifyDataReady fd).allChannel = s.allChannel ∧
      (s.notifyDataReady fd).requests = s.requests := by
  simp only [notifyDataReady]
  split <;> exact ⟨rfl, rfl, rfl⟩

theorem live_step : (calls W D A).Preserves (fun _ _ => True) Live := by
  intro s a s' h _ hstep
  cases a with
  | connect fd =>
    simp only [calls, call] at hstep
    split at hstep <;> cases hstep
    rename_i hguard
    exact h.connect hguard.2
  | read c chunks =>
    obtain ⟨ch, hc, hactive, hreceive, rfl⟩ := call_read_cases hstep
    obtain ⟨buf, count, _, hch⟩ := Channel.receive_cases hreceive
    have hset := h.setChan c ch (by rw [hch]) (by rw [hch]) (Channel.receive_count hreceive).1
    apply hset.notifyDataReady (h.mapped c hc)
    rw [setChan_self, hch]
    exact hactive
  | handleReadyData entries =>
    simp only [calls, call] at hstep
    split at hstep <;> cases hstep
    rename_i hperm
    exact h.handleReadyData (copied_of_perm hperm)

/-- A call of `HandleReadyData` in this state gives no task an empty string. -/
def Supplied (A : Text.Allocator) (s : NotificationCenter W D) : Prop :=
  ∀ entries s', s.call A (.handleReadyData entries) = some s' → s'.Filled

/-- There are bytes behind every state above `ONE`. -/
def Backed (s : NotificationCenter W D) : Prop :=
  ∀ fd e c, s.waitToHandleFD.lookup fd = some e → e.state ≠ .ONE → s.allChannel fd = some c →
    0 < (s.chan c).receivedCount

/-- `Read` leaves something in the buffer, and a call of `HandleReadyData` finds no descriptor
whose state would stay above `ONE`. -/
def Fed (s : NotificationCenter W D) : Call → Prop
  | .connect _ => True
  | .read c chunks => 0 < (s.chan c).receivedCount + chunks.flatten.length
  | .handleReadyData _ => ∀ fd e, s.waitToHandleFD.lookup fd = some e → e.state ≠ .MOREPLUS

theorem supplied_iff (h : s.Live) : s.Supplied A ↔ s.Filled ∧ s.Backed := by
  have hcall {entries : List (Int × ReadyState)} (hperm : entries.Perm s.snapshot) :
      s.call A (.handleReadyData entries) = some (s.handleReadyData entries) := if_pos hperm
  constructor
  · intro hsupplied
    have hcopied := copied_of_perm (List.Perm.refl s.snapshot)
    obtain ⟨hfilled, hpos⟩ :=
      (filled_handleReadyData h hcopied).mp (hsupplied _ _ (hcall (List.Perm.refl s.snapshot)))
    refine ⟨hfilled, fun fd e c he hone hc => ?_⟩
    exact hpos (fd, e.state) (mem_snapshot_of_lookup he) hone c hc
  · rintro ⟨hfilled, hbacked⟩ entries s' hs
    simp only [call] at hs
    split at hs <;> cases hs
    rename_i hperm
    have hcopied := copied_of_perm hperm
    refine (filled_handleReadyData h hcopied).mpr ⟨hfilled, fun entry hmem hone c hc => ?_⟩
    obtain ⟨e, he, hstate⟩ := hcopied.2 entry hmem
    exact hbacked entry.1 e c he (hstate ▸ hone) hc

theorem backed_connect_iff (h : s.Live) (fd : Int) :
    (s.connect A fd).Backed ↔ s.Backed := by
  have hold {fd' : Int} {e : Entry} {c : Nat} (he : s.waitToHandleFD.lookup fd' = some e)
      (hc : s.allChannel fd' = some c) :
      (s.connect A fd).allChannel fd' = some c ∧ (s.connect A fd).chan c = s.chan c :=
    ⟨ChannelMap.emplace_of_some hc, setChan_of_ne (Nat.ne_of_lt (h.filed fd' c hc).1) _⟩
  constructor
  · intro hbacked fd' e c he hone hc
    obtain ⟨hc', hchan⟩ := hold he hc
    exact hchan ▸ hbacked fd' e c he hone hc'
  · intro hbacked fd' e c' he hone hc'
    obtain ⟨c, hc, _⟩ := h.known fd' e he
    obtain ⟨hc'', hchan⟩ := hold he hc
    obtain rfl := Option.some.inj (hc''.symm.trans hc')
    exact hchan.symm ▸ hbacked fd' e c he hone hc

theorem backed_read_iff (h : s.Live) (hbacked : s.Backed) {c : Nat} (hc : c < s.nextChan)
    {ch : Channel} (hfd : ch.fd = (s.chan c).fd) :
    ((s.setChan c ch).notifyDataReady (s.chan c).fd).Backed ↔ 0 < ch.receivedCount := by
  obtain ⟨hchan, hall, _⟩ := (s.setChan c ch).notifyDataReady_frame (s.chan c).fd
  have hmapped : s.allChannel (s.chan c).fd = some c := h.mapped c hc
  constructor
  · intro hbacked'
    obtain ⟨e, he, hone⟩ := (s.setChan c ch).notifyDataReady_self (s.chan c).fd
    have hpos := hbacked' _ e c he hone ((congrFun hall _).trans hmapped)
    rw [hchan, setChan_self] at hpos
    exact hpos
  · intro hpos fd e c' he hone hc'
    have hfiled : s.allChannel fd = some c' := (congrFun hall fd).symm.trans hc'
    rw [hchan]
    rcases eq_or_ne c' c with rfl | hne
    · rw [setChan_self]
      exact hpos
    · have hother : fd ≠ (s.chan c).fd := by
        rintro rfl
        exact hne (Option.some.inj (hfiled.symm.trans hmapped))
      rw [setChan_of_ne hne]
      have hlookup := (s.setChan c ch).notifyDataReady_of_ne hother
      exact hbacked fd e c' (hlookup.symm.trans he) hone hfiled

/-- After the call a state above `ONE` is one that was at `MOREPLUS`, and nothing is buffered. -/
theorem backed_handleReadyData_iff (h : s.Live) {entries : List (Int × ReadyState)}
    (hperm : entries.Perm s.snapshot) : (s.handleReadyData entries).Backed ↔
      ∀ fd e, s.waitToHandleFD.lookup fd = some e → e.state ≠ .MOREPLUS := by
  have hcopied := copied_of_perm hperm
  constructor
  · intro hbacked fd e he hplus
    have hmem : (fd, .MOREPLUS) ∈ entries :=
      hperm.mem_iff.mpr (hplus ▸ mem_snapshot_of_lookup he)
    obtain ⟨c, hc, _⟩ := h.known fd e he
    obtain ⟨⟨e', he', hstate⟩, hzero⟩ := handleReadyData_of_mem h hcopied hmem
    have hone : e'.state ≠ .ONE := hstate.symm ▸ ReadyState.noConfusion
    have hpos := hbacked fd e' c he' hone
      ((congrFun (allChannel_handleReadyData entries) fd).trans hc)
    rw [hzero c hc ReadyState.noConfusion] at hpos
    exact absurd hpos (Nat.lt_irrefl 0)
  · intro hplus fd e' c he' hone _
    by_cases hfd : fd ∈ entries.map Prod.fst
    · obtain ⟨entry, hmem, rfl⟩ := List.mem_map.mp hfd
      obtain ⟨⟨e'', he'', hstate⟩, _⟩ := handleReadyData_of_mem h hcopied hmem
      obtain rfl := Option.some.inj (he''.symm.trans he')
      obtain ⟨e, he, hcopy⟩ := hcopied.2 entry hmem
      have hlow : entry.2 ≠ .MOREPLUS := hcopy ▸ hplus entry.1 e he
      rw [hstate] at hone
      cases hentry : entry.2 with
      | ONE | MORE =>
        rw [hentry] at hone
        exact absurd rfl hone
      | MOREPLUS => exact absurd hentry hlow
    · have hlookup := (handleReadyData_of_not_mem h hcopied hfd).1.symm.trans he'
      have hmem := hperm.mem_iff.mpr (mem_snapshot_of_lookup hlookup)
      exact absurd (List.mem_map_of_mem hmem) hfd

theorem supplied_step {a : Call} (h : s.Live) (hsupplied : s.Supplied A)
    (hstep : (calls W D A).step s a = some s') : s'.Supplied A ↔ s.Fed a := by
  have hlive := live_step s a s' h trivial hstep
  obtain ⟨hfilled, hbacked⟩ := (supplied_iff h).mp hsupplied
  rw [supplied_iff hlive]
  cases a with
  | connect fd =>
    simp only [calls, call] at hstep
    split at hstep <;> cases hstep
    exact ⟨fun _ => trivial, fun _ => ⟨hfilled, (backed_connect_iff h fd).mpr hbacked⟩⟩
  | read c chunks =>
    obtain ⟨ch, hc, _, hreceive, rfl⟩ := call_read_cases hstep
    obtain ⟨buf, count, _, hch⟩ := Channel.receive_cases hreceive
    have hfilled' : ((s.setChan c ch).notifyDataReady (s.chan c).fd).Filled := by
      rw [Filled, ((s.setChan c ch).notifyDataReady_frame (s.chan c).fd).2.2]
      exact hfilled
    rw [backed_read_iff h hbacked hc (by rw [hch]), (Channel.receive_count hreceive).2]
    exact ⟨And.right, fun hfed => ⟨hfilled', hfed⟩⟩
  | handleReadyData entries =>
    have hfilled' := hsupplied entries s' hstep
    simp only [calls, call] at hstep
    split at hstep <;> cases hstep
    rename_i hperm
    rw [backed_handleReadyData_iff h hperm]
    exact ⟨And.right, fun hfed => ⟨hfilled', hfed⟩⟩

theorem supplied_initial : (initial A : NotificationCenter W D).Supplied A :=
  (supplied_iff initial_live).mpr ⟨nofun, nofun⟩

/-- In a sequence of calls from the start, every task is given a byte exactly if every `Read`
leaves one and every call of `HandleReadyData` takes all units off. -/
theorem supplied_iff_fed (W D : Type) (A : Text.Allocator) (sequence : List Call) :
    (calls W D A).AllStates (Supplied A) (initial A) sequence ↔
      (calls W D A).AllSteps Fed (initial A) sequence :=
  Machine.allStates_iff_allSteps
    (fun s a s' h _ _ hstep => live_step s a s' h trivial hstep)
    (fun _ _ _ h hs hstep => supplied_step h hs hstep) initial_live supplied_initial sequence

theorem live_of_calls {cond : NotificationCenter W D → Call → Prop}
    (h : (calls W D A).ReachableUnder cond s) : s.Live := by
  refine h.invariant ?_ fun s a s' hlive _ => live_step s a s' hlive trivial
  rintro s rfl
  exact initial_live

theorem supplied_of_fed (h : (calls W D A).ReachableUnder Fed s) : s.Supplied A := by
  refine h.invariant_on (fun _ => live_of_calls) ?_
    fun s a s' hlive hsupplied hfed hstep => (supplied_step hlive hsupplied hstep).mpr hfed
  rintro s rfl
  exact supplied_initial

/-- The second of two units is left behind without a byte, and an empty `Read` brings a unit
alone. -/
theorem task_without_data :
    (∃ s, (calls Unit Unit .doubling).run (initial .doubling) [.connect 5, .read 0 [[104]],
      .read 0 [[105]], .handleReadyData [(5, .MOREPLUS)], .handleReadyData [(5, .MORE)]] = some s ∧
      ¬ s.Filled) ∧
    ∃ s, (calls Unit Unit .doubling).run (initial .doubling) [.connect 5, .read 0 [],
      .handleReadyData [(5, .MORE)]] = some s ∧ ¬ s.Filled := by
  have hempty {s : NotificationCenter Unit Unit} (h : [] ∈ s.requests.map Request.data) :
      ¬ s.Filled := by
    obtain ⟨r, hmem, hdata⟩ := List.mem_map.mp h
    exact fun hfilled => hfilled r hmem hdata
  constructor
  · have hview : ((calls Unit Unit .doubling).run (initial .doubling) [.connect 5, .read 0 [[104]],
        .read 0 [[105]], .handleReadyData [(5, .MOREPLUS)], .handleReadyData [(5, .MORE)]]).map
          (fun s => s.requests.map Request.data) = some [[104, 105], []] := by decide +kernel
    obtain ⟨s, hs, hrequests⟩ := Option.map_eq_some_iff.mp hview
    exact ⟨s, hs, hempty (by rw [hrequests]; decide)⟩
  · have hview : ((calls Unit Unit .doubling).run (initial .doubling) [.connect 5, .read 0 [],
        .handleReadyData [(5, .MORE)]]).map (fun s => s.requests.map Request.data) =
          some [[]] := by decide +kernel
    obtain ⟨s, hs, hrequests⟩ := Option.map_eq_some_iff.mp hview
    exact ⟨s, hs, hempty (by rw [hrequests]; decide)⟩

section Refinement

variable [DecidableEq W] [DecidableEq D]

theorem reachable_step (a : Action W D) (h : (machine W D A).ReachableUnder Staying s)
    (ha : Staying s a) (hstep : step A s a = some s') :
    (machine W D A).ReachableUnder Staying s' :=
  h.step ha hstep

/-- The search for the entry, with the place that it leads to. -/
theorem reachable_find {w : W} {fd : Int} {pc : WorkerPc}
    (hpc : pc = match s.waitToHandleFD.lookup fd with
      | none => .emplacing fd
      | some e => .found fd e.node)
    (h : (machine W D A).ReachableUnder Staying (s.goto w (.notifying fd))) :
    (machine W D A).ReachableUnder Staying (s.goto w pc) := by
  have hnotifying : (s.goto w (.notifying fd)).worker w = .notifying fd := worker_goto_self ..
  apply reachable_step (.find w) h trivial
  simp only [step, hnotifying]
  change (match s.waitToHandleFD.lookup fd with | none => _ | some e => _) = _
  cases hlookup : s.waitToHandleFD.lookup fd with
  | none =>
    rw [hlookup] at hpc
    rw [hpc]
    exact congrArg some (s.goto_goto ..)
  | some e =>
    rw [hlookup] at hpc
    rw [hpc]
    exact congrArg some (s.goto_goto ..)

/-- Without interruption, the steps of a notification amount to the whole of it. -/
theorem reachable_notifyDataReady {w : W} {fd : Int} (hw : s.worker w = .idle)
    (h : (machine W D A).ReachableUnder Staying (s.goto w (.notifying fd))) :
    (machine W D A).ReachableUnder Staying (s.notifyDataReady fd) := by
  have hback : (s.notifyDataReady fd).goto w .idle = s.notifyDataReady fd := by
    apply goto_idle
    simp only [notifyDataReady]
    split <;> exact hw
  rw [← hback]
  cases hlookup : s.waitToHandleFD.lookup fd with
  | none =>
    have hfind : (machine W D A).ReachableUnder Staying (s.goto w (.emplacing fd)) :=
      reachable_find (by rw [hlookup]) h
    have hpc' : (s.goto w (.emplacing fd)).worker w = .emplacing fd := worker_goto_self ..
    apply reachable_step (.emplace w) hfind trivial
    simp only [step, hpc']
    change (match s.waitToHandleFD.lookup fd with | none => _ | some e => _) = _
    rw [hlookup, notifyDataReady, hlookup]
    exact congrArg some (goto_goto { s with
      waitToHandleFD := s.waitToHandleFD.insert fd ⟨s.nextNode, .MORE⟩
      nextNode := s.nextNode + 1 } w (.emplacing fd) .idle)
  | some e =>
    have hfind : (machine W D A).ReachableUnder Staying (s.goto w (.found fd e.node)) :=
      reachable_find (by rw [hlookup]) h
    have hpc' : (s.goto w (.found fd e.node)).worker w = .found fd e.node := worker_goto_self ..
    apply reachable_step (.promote w) hfind trivial
    simp only [step, hpc']
    change (match (s.waitToHandleFD.lookup fd).filter _ with | some e => _ | none => _) = _
    rw [hlookup, notifyDataReady, hlookup, Option.filter_some, if_pos (decide_eq_true rfl)]
    exact congrArg some (goto_goto (s.applySection .NotifyDataReady fd e) w (.found fd e.node) .idle)

theorem reachable_read {w : W} {c : Nat} {chunks : List (List UInt8)} (hlive : s.Live)
    (h : (machine W D A).ReachableUnder Staying s)
    (hs : s.call A (.read c chunks) = some s') : (machine W D A).ReachableUnder Staying s' := by
  obtain ⟨ch, hc, hactive, hreceive, rfl⟩ := call_read_cases hs
  obtain ⟨buf, count, _, hch⟩ := Channel.receive_cases hreceive
  have hfd : ch.fd = (s.chan c).fd := by rw [hch]
  have hregistered : s.accepted ≠ some c := by
    rw [hlive.accepted]
    nofun
  have henter : (machine W D A).ReachableUnder Staying (s.goto w (.reading c)) := by
    apply reachable_step (.enter w c) h trivial
    simp only [step, hlive.workers w]
    exact if_pos ⟨hc, hregistered, hactive⟩
  have hpc : (s.goto w (.reading c)).worker w = .reading c := worker_goto_self ..
  apply reachable_notifyDataReady (s := s.setChan c ch) (hlive.workers w)
  apply reachable_step (.store w chunks .error) henter trivial
  simp only [step, hpc]
  change Option.map _ ((s.chan c).receive A chunks) = _
  rw [hreceive, ← hfd]
  exact congrArg some (goto_goto (s.setChan c ch) w (.reading c) (.notifying ch.fd))

/-- The steps of one visit amount to the body of the loop. -/
theorem reachable_handleEntry {entry : Int × ReadyState} {e : Entry}
    {entries : List (Int × ReadyState)} (hlive : s.Live)
    (he : s.waitToHandleFD.lookup entry.1 = some e)
    (h : (machine W D A).ReachableUnder Staying { s with consumer := .scanning (entry :: entries) }) :
    (machine W D A).ReachableUnder Staying
      { s.handleEntry entry with consumer := .scanning entries } := by
  obtain ⟨fd, state⟩ := entry
  obtain ⟨c, hc, _⟩ := hlive.known fd e he
  by_cases hone : state = .ONE
  · rw [handleEntry_of_one hone]
    apply reachable_step .getChannel h trivial
    simp only [step, visit, hc, if_pos hone]
  · rw [handleEntry_of_ne_one hone hc he]
    have hvisit : (machine W D A).ReachableUnder Staying
        { s with consumer := .holding c fd entries } := by
      apply reachable_step .getChannel h trivial
      simp only [step, visit, hc, if_neg hone]
    have hfetch : (machine W D A).ReachableUnder Staying
        { s.enqueueTask c with consumer := .drained fd entries } :=
      reachable_step .getReceivedData hvisit trivial rfl
    apply reachable_step .demote hfetch trivial
    change (match s.waitToHandleFD.lookup fd with | some e => _ | none => _) = _
    rw [he]
    rfl

theorem reachable_handleReadyData {entries : List (Int × ReadyState)} (hlive : s.Live)
    (hcopied : s.Copied entries)
    (h : (machine W D A).ReachableUnder Staying { s with consumer := .scanning entries }) :
    (machine W D A).ReachableUnder Staying (s.handleReadyData entries) := by
  induction entries generalizing s with
  | nil =>
    have hscanned := reachable_step .getChannel h trivial rfl
    rw [← hlive.consumer] at hscanned
    exact hscanned
  | cons entry entries ih =>
    obtain ⟨e, he, _⟩ := hcopied.head
    exact ih (hlive.handleEntry he) (hcopied.tail hlive) (reachable_handleEntry hlive he h)

theorem reachable_connect {fd : Int} (hlive : s.Live) (hfd : 0 ≤ fd) (hunused : s.isOpen fd = false)
    (h : (machine W D A).ReachableUnder Staying s) :
    (machine W D A).ReachableUnder Staying (s.connect A fd) := by
  have hnew : ((s.setChan s.nextChan (.create A fd (some 0))).chan s.nextChan).fd = fd :=
    congrArg Channel.fd (setChan_self ..)
  have hdone : { s.connect A fd with accepted := none } = s.connect A fd := by
    simp only [connect, setChan, hlive.accepted]
  rw [← hdone]
  have haccept := reachable_step (.accept fd) h trivial (if_pos ⟨hlive.accepted, hfd, hunused⟩)
  apply reachable_step .register haccept trivial
  change some { s.connect A fd with
    allChannel := s.allChannel.emplace
      ((s.setChan s.nextChan (.create A fd (some 0))).chan s.nextChan).fd s.nextChan
    accepted := none } = _
  rw [hnew]
  rfl

/-- A run of calls is a run of the center in which connections stay. -/
theorem reachable_of_calls (w : W) (h : (calls W D A).Reachable s) :
    (machine W D A).ReachableUnder Staying s := by
  induction h with
  | init h => exact .init h
  | @step s s' a hr _ hs ih =>
    have hlive := live_of_calls hr
    cases a with
    | connect fd =>
      simp only [calls, call] at hs
      split at hs <;> cases hs
      rename_i hguard
      exact reachable_connect hlive hguard.1 hguard.2 ih
    | read c chunks => exact reachable_read (w := w) hlive ih hs
    | handleReadyData entries =>
      simp only [calls, call] at hs
      split at hs <;> cases hs
      rename_i hperm
      apply reachable_handleReadyData hlive (copied_of_perm hperm)
      apply reachable_step (.copy entries) ih trivial
      simp only [step, hlive.consumer]
      exact if_pos hperm

/-- Between calls that keep to the condition, the state says which channels hold bytes. -/
theorem raised_iff_buffered (w : W) (h : (calls W D A).ReachableUnder Fed s) {c : Nat}
    (hc : c < s.nextChan) :
    (∃ e, s.waitToHandleFD.lookup (s.chan c).fd = some e ∧ e.state ≠ .ONE) ↔
      0 < (s.chan c).receivedCount := by
  have hlive := live_of_calls h
  constructor
  · rintro ⟨e, he, hone⟩
    exact ((supplied_iff hlive).mp (supplied_of_fed h)).2 _ e c he hone (hlive.mapped c hc)
  · intro hpos
    have hall : (calls W D A).Reachable s := h.reachable
    have hquiet (v : W) : ¬ (s.worker v).Notifies (s.chan c).fd := by
      rw [hlive.workers v]
      exact id
    obtain ⟨e, he, hstate⟩ := no_lost_notification s (reachable_of_calls w hall) c hpos hquiet
    refine ⟨e, he, ?_⟩
    cases hstate with
    | inl hstate =>
      rw [hstate]
      exact ReadyState.noConfusion
    | inr hstate =>
      rw [hstate]
      exact ReadyState.noConfusion

end Refinement

end NotificationCenter

end ServerDevLib.Reactor
