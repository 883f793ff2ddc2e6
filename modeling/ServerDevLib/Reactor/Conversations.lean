import ServerDevLib.Reactor.ReceiveRuns
import ServerDevLib.Reactor.ResponseDelivery

/-!
# Both directions of every connection

The runs of the notification center are joined by the calls of `Write` that
the workers make, and each connection is recorded on both sides: the bytes
that `::read` gave it and `::write` took from it, the requests that
`HandleReadyData` made of the former, and the answers that went into the
latter. `Write` tests `_active` before it locks `_sendMutex`; the section
behind the lock is one step.
-/

namespace ServerDevLib.Reactor

open Text Transition

structure Conversations (W D : Type) where
  center : NotificationCenter W D
  writing : W → Option Nat
  received : Nat → List UInt8
  sent : Nat → List UInt8
  taken : List Request

namespace Conversations

inductive Action (W D : Type)
  | center (a : NotificationCenter.Action W D)
  | enterWrite (w : W) (c : Nat)
  | write (w : W) (sent : Nat)

variable {W D : Type}

/-- The requests that were made of the bytes of a channel, joined. -/
def takenFrom (s : Conversations W D) (c : Nat) : List UInt8 :=
  ((s.taken.filter fun r => r.origin = c).map Request.data).flatten

/-- A worker in `Write` starts no `Read`. -/
def Free (s : Conversations W D) : NotificationCenter.Action W D → Prop
  | .enter w _ => s.writing w = none
  | _ => True

instance (s : Conversations W D) (a : NotificationCenter.Action W D) : Decidable (s.Free a) :=
  match a with
  | .enter w _ => inferInstanceAs (Decidable (s.writing w = none))
  | .store _ _ _ | .inactivate _ | .find _ | .emplace _ | .promote _ | .notifyClose _ | .copy _
  | .getChannel | .getReceivedData | .demote | .accept _ | .register | .close _ _ | .remove _
  | .respond _ _ | .append _ | .discard _ => isTrue trivial

def record (s : Conversations W D) (next : NotificationCenter W D) :
    NotificationCenter.Action W D → Conversations W D
  | .store w chunks _ =>
    match s.center.worker w with
    | .reading c =>
      { s with
        center := next
        received := Function.update s.received c (s.received c ++ chunks.flatten) }
    | _ => { s with center := next }
  | .getReceivedData =>
    { s with center := next, taken := s.taken ++ next.requests.drop s.center.requests.length }
  | _ => { s with center := next }

variable [DecidableEq W] [DecidableEq D] (A : Allocator)

/-- The section of `Write` under `_sendMutex`, in which `::write` accepts `sent` bytes. -/
def writeSection (s : Conversations W D) (w : W) (c sent : Nat) : Conversations W D :=
  { s with
    center := s.center.setChan c ((s.center.chan c).eraseSent A sent)
    writing := Function.update s.writing w none
    sent := Function.update s.sent c (s.sent c ++ (s.center.chan c).unsent.take sent) }

def step (s : Conversations W D) : Action W D → Option (Conversations W D)
  | .center a =>
    if s.Free a then (NotificationCenter.step A s.center a).map fun next => s.record next a else none
  | .enterWrite w c =>
    if s.center.worker w = .idle ∧ s.writing w = none ∧ c < s.center.nextChan ∧
        s.center.accepted ≠ some c ∧ (s.center.chan c).active = true then
      some { s with writing := Function.update s.writing w (some c) }
    else none
  | .write w sent =>
    match s.writing w with
    | some c =>
      if sent ≤ (s.center.chan c).unsent.length then some (s.writeSection A w c sent) else none
    | none => none

def initial : Conversations W D :=
  { center := .initial A, writing := fun _ => none, received := fun _ => [], sent := fun _ => [],
    taken := [] }

def machine (W D : Type) [DecidableEq W] [DecidableEq D] (A : Allocator) :
    Machine (Conversations W D) (Action W D) where
  init s := s = initial A
  step := step A

/-- No more is read than the receiving buffer keeps, nor fetched than the string has of it. -/
def Sized (s : Conversations W D) : Action W D → Prop
  | .center (.store w chunks _) => ∀ c, s.center.worker w = .reading c →
      Channel.Fits A (s.center.chan c).receivedBuf
        ((s.center.chan c).receivedCount + chunks.flatten.length)
  | .center .getReceivedData => ∀ c fd rest, s.center.consumer = .holding c fd rest →
      (s.center.chan c).receivedCount ≤ (s.center.chan c).receivedBuf.size
  | _ => True

instance (buf : CxxString) (total : Nat) : Decidable (Channel.Fits A buf total) :=
  inferInstanceAs (Decidable (_ ∨ _))

instance (s : Conversations W D) (a : Action W D) : Decidable (s.Sized A a) :=
  match a with
  | .center (.store w chunks _) =>
    match h : s.center.worker w with
    | .idle | .eof _ | .notifying _ | .emplacing _ | .found _ _ | .closing _ =>
      isTrue (by simp [Sized, h])
    | .reading c => decidable_of_iff (Channel.Fits A (s.center.chan c).receivedBuf
        ((s.center.chan c).receivedCount + chunks.flatten.length)) (by simp [Sized, h])
  | .center .getReceivedData =>
    match h : s.center.consumer with
    | .holding c _ _ => decidable_of_iff
        ((s.center.chan c).receivedCount ≤ (s.center.chan c).receivedBuf.size) (by simp [Sized, h])
    | .idle | .scanning _ | .drained _ _ => isTrue (by simp [Sized, h])
  | .center (.enter _ _) | .center (.inactivate _) | .center (.find _) | .center (.emplace _)
  | .center (.promote _) | .center (.notifyClose _) | .center (.copy _) | .center .getChannel
  | .center .demote | .center (.accept _) | .center .register | .center (.close _ _)
  | .center (.remove _) | .center (.respond _ _) | .center (.append _) | .center (.discard _)
  | .enterWrite _ _ | .write _ _ => isTrue trivial

/-- Both directions are kept apart: a channel is filed only under a descriptor that no request of
an earlier connection refers to. -/
def Sound (s : Conversations W D) (a : Action W D) : Prop :=
  s.Sized A a ∧ ∀ b, a = .center b → s.center.Unreferenced b

instance (s : Conversations W D) (a : Action W D) : Decidable (s.Sound A a) :=
  match a with
  | .center b => decidable_of_iff (s.Sized A (.center b) ∧ s.center.Unreferenced b)
      (by simp [Sound])
  | .enterWrite w c => decidable_of_iff (s.Sized A (.enterWrite w c)) (by simp [Sound])
  | .write w sent => decidable_of_iff (s.Sized A (.write w sent)) (by simp [Sound])

variable {A}

/-- What a step does, with the guards it has passed. -/
inductive Step (s : Conversations W D) : Action W D → Conversations W D → Prop
  | center {a next} (free : s.Free a)
      (step : (NotificationCenter.machine W D A).step s.center a = some next) :
      Step s (.center a) (s.record next a)
  | enterWrite {w c} (created : c < s.center.nextChan) :
      Step s (.enterWrite w c) { s with writing := Function.update s.writing w (some c) }
  | write {w c sent} (writing : s.writing w = some c)
      (fits : sent ≤ (s.center.chan c).unsent.length) :
      Step s (.write w sent) (s.writeSection A w c sent)

theorem step_cases {s s' : Conversations W D} {a : Action W D}
    (hstep : (machine W D A).step s a = some s') : Step (A := A) s a s' := by
  cases a with
  | center a =>
    simp only [machine, step] at hstep
    split at hstep
    · rename_i hfree
      obtain ⟨next, hnext, rfl⟩ := Option.map_eq_some_iff.mp hstep
      exact .center hfree hnext
    · cases hstep
  | enterWrite w c =>
    simp only [machine, step] at hstep
    split at hstep <;> cases hstep
    rename_i hguard
    exact .enterWrite hguard.2.2.1
  | write w sent =>
    simp only [machine, step] at hstep
    split at hstep
    · rename_i c hwriting
      split at hstep <;> cases hstep
      rename_i hfits
      exact .write hwriting hfits
    · cases hstep

omit [DecidableEq W] [DecidableEq D] in
theorem record_center (s : Conversations W D) (next : NotificationCenter W D)
    (a : NotificationCenter.Action W D) : (s.record next a).center = next := by
  cases a with
  | store =>
    simp only [record]
    split <;> rfl
  | _ => rfl

/-- What has come in on a connection is in requests or in the buffer, and what answers brought is
on the wire or in the buffer. -/
structure Flow (ch : Channel) (received taken sent delivered : List UInt8) : Prop where
  size : ch.receivedBuf.size = Channel.BUFSIZE
  room : ch.receivedCount < ch.receivedBuf.capacity
  incoming : taken ++ ch.buffered = received
  outgoing : sent ++ ch.unsent = delivered

section Flow

omit [DecidableEq W] [DecidableEq D]

variable {ch ch' : Channel} {received taken sent delivered : List UInt8}

theorem flow_create (A : Allocator) (fd : Int) (ptr : Option Nat) :
    Flow (.create A fd ptr) [] [] [] [] where
  size := List.length_replicate
  room := by
    have hsize : (Channel.create A fd ptr).receivedBuf.size = Channel.BUFSIZE := List.length_replicate
    have hle := (Channel.create A fd ptr).receivedBuf.size_le
    rw [hsize] at hle
    exact Nat.lt_of_lt_of_le (by decide : 0 < Channel.BUFSIZE) hle
  incoming := rfl
  outgoing := Channel.unsent_create (A := A) fd ptr

theorem Flow.inactive (h : Flow ch received taken sent delivered) :
    Flow ch.inactive received taken sent delivered :=
  ⟨h.size, h.room, h.incoming, h.outgoing⟩

theorem Flow.receive (h : Flow ch received taken sent delivered) {chunks : List (List UInt8)}
    (hfits : Channel.Fits A ch.receivedBuf (ch.receivedCount + chunks.flatten.length))
    (hreceive : ch.receive A chunks = some ch') :
    Flow ch' (received ++ chunks.flatten) taken sent delivered := by
  have htwo : 2 ≤ ch.receivedBuf.size := by
    rw [h.size]
    decide
  obtain ⟨hbuffered, hbelow⟩ := Channel.receive_spec htwo (Nat.le_of_lt h.room) hfits hreceive
  refine ⟨(Channel.receive_count hreceive).1.trans h.size, hbelow, ?_, ?_⟩
  · rw [hbuffered, ← h.incoming, List.append_assoc]
  · obtain ⟨buf, count, _, rfl⟩ := Channel.receive_cases hreceive
    exact h.outgoing

theorem Flow.getReceivedData (h : Flow ch received taken sent delivered)
    (hsize : ch.receivedCount ≤ ch.receivedBuf.size) :
    Flow ch.getReceivedData.1 received (taken ++ ch.getReceivedData.2) sent delivered := by
  cases hactive : ch.active with
  | true =>
    rw [Channel.getReceivedData_eq (fun _ => hactive) hsize]
    refine ⟨h.size, Nat.zero_lt_of_lt h.room, ?_, h.outgoing⟩
    rw [← h.incoming]
    exact List.append_nil _
  | false =>
    have hnone : ch.getReceivedData = (ch, []) := by
      rw [Channel.getReceivedData, hactive]
      rfl
    rw [hnone, List.append_nil]
    exact h

theorem Flow.appendToSend (h : Flow ch received taken sent delivered) (data : List UInt8) :
    Flow (ch.appendToSend A data) received taken sent (delivered ++ data) := by
  obtain ⟨buf, hch⟩ := ch.appendToSend_cases A data
  refine ⟨by rw [hch]; exact h.size, by rw [hch]; exact h.room, by rw [hch]; exact h.incoming, ?_⟩
  rw [Channel.unsent_appendToSend, ← h.outgoing, List.append_assoc]

theorem Flow.eraseSent (h : Flow ch received taken sent delivered) (n : Nat) :
    Flow (ch.eraseSent A n) received taken (sent ++ ch.unsent.take n) delivered := by
  refine ⟨h.size, h.room, h.incoming, ?_⟩
  rw [Channel.unsent_eraseSent, List.append_assoc, List.take_append_drop]
  exact h.outgoing

end Flow

/-- Nothing is recorded of a channel that has not been created. -/
structure Known (s : Conversations W D) : Prop where
  reading : ∀ w c, s.center.worker w = .reading c → c < s.center.nextChan
  writing : ∀ w c, s.writing w = some c → c < s.center.nextChan
  received : ∀ c, s.center.nextChan ≤ c → s.received c = []
  sent : ∀ c, s.center.nextChan ≤ c → s.sent c = []
  taken : ∀ r ∈ s.taken, r.origin < s.center.nextChan
  answered : ∀ a ∈ s.center.answers, a.target < s.center.nextChan
  delivered : ∀ a ∈ s.center.delivered, a.target < s.center.nextChan

structure Streams (s : Conversations W D) : Prop where
  registry : s.center.Registry
  known : s.Known
  flow : ∀ c, Flow (s.center.chan c) (s.received c) (s.takenFrom c) (s.sent c)
    (s.center.deliveredTo c)

section Known

variable {s : Conversations W D}

omit [DecidableEq W] [DecidableEq D] in
theorem Known.with_center (h : s.Known) {next : NotificationCenter W D}
    (hnext : s.center.nextChan ≤ next.nextChan)
    (hreading : ∀ w c, next.worker w = .reading c → c < next.nextChan)
    (hanswered : ∀ a ∈ next.answers, a.target < next.nextChan)
    (hdelivered : ∀ a ∈ next.delivered, a.target < next.nextChan) :
    ({ s with center := next } : Conversations W D).Known where
  reading := hreading
  writing w c hc := Nat.lt_of_lt_of_le (h.writing w c hc) hnext
  received c hc := h.received c (Nat.le_trans hnext hc)
  sent c hc := h.sent c (Nat.le_trans hnext hc)
  taken r hr := Nat.lt_of_lt_of_le (h.taken r hr) hnext
  answered := hanswered
  delivered := hdelivered

omit [DecidableEq D] in
/-- A worker that goes on to something else than `Read`. -/
theorem Known.reading_goto (h : s.Known) {center : NotificationCenter W D} {w : W} {pc : WorkerPc}
    (hworker : center.worker = s.center.worker) (hpc : ∀ c, pc = .reading c → c < s.center.nextChan)
    (v : W) (c : Nat) (hc : (center.goto w pc).worker v = .reading c) : c < s.center.nextChan := by
  rcases NotificationCenter.worker_goto hc with ⟨_, heq⟩ | ⟨_, hv⟩
  · exact hpc c heq
  · rw [hworker] at hv
    exact h.reading v c hv

theorem known_center (hr : s.center.Registry) (h : s.Known) {a : NotificationCenter.Action W D}
    {next : NotificationCenter W D}
    (hstep : (NotificationCenter.machine W D A).step s.center a = some next) :
    (s.record next a).Known := by
  cases NotificationCenter.step_cases hstep with
  | enter _ hcreated =>
    refine h.with_center le_rfl (h.reading_goto rfl ?_) h.answered h.delivered
    rintro c ⟨⟩
    exact hcreated
  | @storeError w c chunks ch hreading | @storeEof w c chunks ch hreading =>
    have hc := h.reading w c hreading
    simp only [record, hreading]
    refine ⟨h.reading_goto rfl nofun, h.writing, fun c' hc' => ?_, h.sent, h.taken, h.answered,
      h.delivered⟩
    change Function.update s.received c _ c' = []
    rw [Function.update_of_ne (Nat.ne_of_lt (Nat.lt_of_lt_of_le hc hc')).symm]
    exact h.received c' hc'
  | inactivate | findNone | findSome | emplaceNone | emplaceSome | promote | promoteDangling
  | notifyClose =>
    exact h.with_center le_rfl (h.reading_goto rfl nofun) h.answered h.delivered
  | copy | scanned | getChannel | demote | demoteDangling | register | close | removeSome
  | removeNone | respondNone | discard =>
    exact h.with_center le_rfl h.reading h.answered h.delivered
  | @getReceivedData c fd rest hholding =>
    refine ⟨h.reading, h.writing, h.received, h.sent, fun r hmem => ?_, h.answered, h.delivered⟩
    simp only [record, List.drop_left] at hmem
    rcases List.mem_append.mp hmem with hmem | hmem
    · exact h.taken r hmem
    · obtain rfl := List.mem_singleton.mp hmem
      exact (hr.held c fd rest hholding).1
  | accept =>
    exact h.with_center (Nat.le_succ _) (fun w c hc => Nat.lt_succ_of_lt (h.reading w c hc))
      (fun a ha => Nat.lt_succ_of_lt (h.answered a ha))
      (fun a ha => Nat.lt_succ_of_lt (h.delivered a ha))
  | respondSome _ hfiled =>
    refine h.with_center le_rfl h.reading (fun a hmem => ?_) h.delivered
    rcases List.mem_append.mp hmem with hmem | hmem
    · exact h.answered a hmem
    · obtain rfl := List.mem_singleton.mp hmem
      exact (hr.filed _ _ hfiled).1
  | @append i answer hanswer =>
    refine h.with_center le_rfl h.reading (fun a ha => h.answered a (List.mem_of_mem_eraseIdx ha))
      fun a hmem => ?_
    rcases List.mem_append.mp hmem with hmem | hmem
    · exact h.delivered a hmem
    · obtain rfl := List.mem_singleton.mp hmem
      exact h.answered a (List.mem_of_getElem? hanswer)
  | appendInactive =>
    exact h.with_center le_rfl h.reading (fun a ha => h.answered a (List.mem_of_mem_eraseIdx ha))
      h.delivered

end Known

section Streams

variable {s : Conversations W D}

omit [DecidableEq W] [DecidableEq D] in
/-- A step that touches one channel alone, and what is recorded of it. -/
theorem flow_setChan {chan : Nat → Channel} {received taken sent delivered : Nat → List UInt8}
    {received' taken' sent' delivered' : Nat → List UInt8} {c : Nat} {ch : Channel}
    (h : ∀ c, Flow (chan c) (received c) (taken c) (sent c) (delivered c))
    (hself : Flow ch (received' c) (taken' c) (sent' c) (delivered' c))
    (hreceived : ∀ c', c' ≠ c → received' c' = received c')
    (htaken : ∀ c', c' ≠ c → taken' c' = taken c') (hsent : ∀ c', c' ≠ c → sent' c' = sent c')
    (hdelivered : ∀ c', c' ≠ c → delivered' c' = delivered c') (c' : Nat) :
    Flow (Function.update chan c ch c') (received' c') (taken' c') (sent' c') (delivered' c') := by
  obtain rfl | hne := eq_or_ne c' c
  · rw [Function.update_self]
    exact hself
  · rw [Function.update_of_ne hne, hreceived c' hne, htaken c' hne, hsent c' hne, hdelivered c' hne]
    exact h c'

omit [DecidableEq W] [DecidableEq D] in
/-- What is filed under a number grows by what is filed under it. -/
theorem filed_append {α β : Type} (number : α → Nat) (data : α → β) (l : List α) (a : α) (c : Nat) :
    ((l ++ [a]).filter fun b => number b = c).map data =
      ((l.filter fun b => number b = c).map data) ++ if number a = c then [data a] else [] := by
  rw [List.filter_append, List.map_append]
  congr 1
  split <;> rename_i hc <;> simp [hc]

omit [DecidableEq W] [DecidableEq D] in
theorem joined_append {α : Type} (number : α → Nat) (data : α → List UInt8) (l : List α) (a : α)
    (c : Nat) : (((l ++ [a]).filter fun b => number b = c).map data).flatten =
      ((l.filter fun b => number b = c).map data).flatten ++ if number a = c then data a else [] := by
  rw [filed_append, List.flatten_append]
  split <;> simp

omit [DecidableEq W] [DecidableEq D] in
theorem joined_eq_nil {α : Type} {number : α → Nat} (data : α → List UInt8) {l : List α} {c : Nat}
    (h : ∀ a ∈ l, number a < c) : ((l.filter fun b => number b = c).map data).flatten = [] := by
  rw [List.filter_eq_nil_iff.mpr]
  · rfl
  · intro a ha heq
    exact Nat.ne_of_lt (h a ha) (of_decide_eq_true heq)

theorem streams_center (h : s.Streams) {a : NotificationCenter.Action W D}
    {next : NotificationCenter W D} (hsized : s.Sized A (.center a))
    (hstep : (NotificationCenter.machine W D A).step s.center a = some next) :
    (s.record next a).Streams := by
  have hkeeps : (NotificationCenter.machine W D A).Preserves (fun _ _ => True)
      NotificationCenter.Registry := NotificationCenter.registry_step
  have hregistry : (s.record next a).center.Registry := by
    rw [record_center]
    exact hkeeps s.center a next h.registry trivial hstep
  refine ⟨hregistry, known_center h.registry h.known hstep, ?_⟩
  cases NotificationCenter.step_cases hstep with
  | enter | findNone | findSome | emplaceNone | emplaceSome | promote | promoteDangling
  | notifyClose | copy | scanned | getChannel | demote | demoteDangling | register | close
  | removeNone | respondSome | respondNone | appendInactive | discard => exact h.flow
  | @storeError w c chunks ch hreading hreceive | @storeEof w c chunks ch hreading hreceive =>
    simp only [record, hreading]
    refine flow_setChan h.flow ?_ (fun c' hne => Function.update_of_ne hne ..) (fun _ _ => rfl)
      (fun _ _ => rfl) fun _ _ => rfl
    rw [Function.update_self]
    exact (h.flow c).receive (hsized c hreading) hreceive
  | @inactivate w c | @removeSome d fd c =>
    exact flow_setChan h.flow (h.flow c).inactive (fun _ _ => rfl) (fun _ _ => rfl) (fun _ _ => rfl)
      fun _ _ => rfl
  | @getReceivedData c fd rest hholding =>
    have htaken (c' : Nat) := joined_append Request.origin Request.data s.taken
      ⟨c, (s.center.chan c).fd, (s.center.chan c).getReceivedData.2⟩ c'
    simp only [record, List.drop_left, takenFrom, htaken]
    refine flow_setChan h.flow ?_ (fun _ _ => rfl) (fun c' hne => ?_) (fun _ _ => rfl) fun _ _ => rfl
    · rw [if_pos rfl]
      exact (h.flow c).getReceivedData (hsized c fd rest hholding)
    · rw [if_neg hne.symm, List.append_nil]
      rfl
  | @accept fd =>
    refine flow_setChan h.flow ?_ (fun _ _ => rfl) (fun _ _ => rfl) (fun _ _ => rfl) fun _ _ => rfl
    change Flow _ (s.received _) (s.takenFrom _) (s.sent _) (s.center.deliveredTo _)
    rw [h.known.received _ le_rfl, h.known.sent _ le_rfl, takenFrom, NotificationCenter.deliveredTo,
      joined_eq_nil _ h.known.taken, joined_eq_nil _ h.known.delivered]
    exact flow_create A fd (some 0)
  | @append i a =>
    have hdelivered (c' : Nat) := joined_append Answer.target Answer.data s.center.delivered a c'
    simp only [record, NotificationCenter.deliveredTo, hdelivered]
    refine flow_setChan h.flow ?_ (fun _ _ => rfl) (fun _ _ => rfl) (fun _ _ => rfl) fun c' hne => ?_
    · rw [if_pos rfl]
      exact (h.flow a.target).appendToSend a.data
    · rw [if_neg hne.symm, List.append_nil]
      rfl

omit [DecidableEq D] in
theorem streams_write (h : s.Streams) {w : W} {c sent : Nat} (hwriting : s.writing w = some c) :
    (s.writeSection A w c sent).Streams where
  registry := h.registry.setChan c _ rfl
  known := by
    refine ⟨h.known.reading, fun v c' hc' => ?_, h.known.received, fun c' hc' => ?_, h.known.taken,
      h.known.answered, h.known.delivered⟩
    · change Function.update s.writing w none v = some c' at hc'
      obtain rfl | hne := eq_or_ne v w
      · rw [Function.update_self] at hc'
        cases hc'
      · rw [Function.update_of_ne hne] at hc'
        exact h.known.writing v c' hc'
    · change Function.update s.sent c _ c' = []
      have hlt : c < c' := Nat.lt_of_lt_of_le (h.known.writing w c hwriting) hc'
      rw [Function.update_of_ne (Nat.ne_of_lt hlt).symm]
      exact h.known.sent c' hc'
  flow := by
    refine flow_setChan h.flow ?_ (fun _ _ => rfl) (fun _ _ => rfl)
      (fun c' hne => Function.update_of_ne hne ..) fun _ _ => rfl
    change Flow _ (s.received c) (s.takenFrom c) (Function.update s.sent c _ c) (s.center.deliveredTo c)
    rw [Function.update_self]
    exact (h.flow c).eraseSent sent

theorem streams_step : (machine W D A).Preserves (Sized A) Streams := by
  intro s a s' h hsized hstep
  cases step_cases hstep with
  | center _ hcenter => exact streams_center h hsized hcenter
  | @enterWrite w c hcreated =>
    refine ⟨h.registry, ⟨h.known.reading, fun v c' hc' => ?_, h.known.received, h.known.sent,
      h.known.taken, h.known.answered, h.known.delivered⟩, h.flow⟩
    change Function.update s.writing w (some c) v = some c' at hc'
    obtain rfl | hne := eq_or_ne v w
    · rw [Function.update_self] at hc'
      cases hc'
      exact hcreated
    · rw [Function.update_of_ne hne] at hc'
      exact h.known.writing v c' hc'
  | write hwriting => exact streams_write h hwriting

omit [DecidableEq W] [DecidableEq D] in
theorem initial_streams : (initial A : Conversations W D).Streams where
  registry := NotificationCenter.initial_registry
  known := ⟨nofun, nofun, fun _ _ => rfl, fun _ _ => rfl, nofun, nofun, nofun⟩
  flow _ := flow_create A (-1) none

theorem streams_of_reachable (h : (machine W D A).ReachableUnder (Sized A) s) : s.Streams := by
  refine h.invariant ?_ streams_step
  rintro s rfl
  exact initial_streams

theorem streams_of_sound (h : (machine W D A).ReachableUnder (Sound A) s) : s.Streams :=
  streams_of_reachable (h.mono_on (fun _ _ => trivial) fun _ _ _ _ hc _ => hc.1)

/-- `Write` has nothing to do with who answers whom. -/
theorem matched_of_reachable (h : (machine W D A).ReachableUnder (Sound A) s) :
    s.center.Matched := by
  have hinit (s : Conversations W D) (h : (machine W D A).init s) : s.center.Matched := by
    rw [show s = initial A from h]
    exact NotificationCenter.initial_matched
  have hbase (s : Conversations W D) (h : (machine W D A).ReachableUnder (Sound A) s) :
      s.center.Registry := (streams_of_sound h).registry
  refine Machine.ReachableUnder.invariant_on hbase hinit (fun s a s' hr hm hc hstep => ?_) h
  cases step_cases hstep with
  | @center a next _ hcenter =>
    rw [record_center]
    exact NotificationCenter.matched_step s.center a next hr hm (hc.2 a rfl) hcenter
  | enterWrite => exact hm
  | write => exact ⟨hm.held, hm.requested, hm.answered, hm.delivered⟩

/-- On every connection the requests are what was received, up to what is still buffered, and what
was sent are answers to requests of that connection, up to what is still unsent. -/
theorem both_directions (h : (machine W D A).ReachableUnder (Sound A) s) (c : Nat) :
    s.takenFrom c ++ (s.center.chan c).buffered = s.received c ∧
      s.sent c ++ (s.center.chan c).unsent = s.center.deliveredTo c ∧
      ∀ a ∈ s.center.delivered, a.target = c → a.origin = c := by
  have hflow := (streams_of_sound h).flow c
  refine ⟨hflow.incoming, hflow.outgoing, fun a ha htarget => ?_⟩
  rw [← htarget]
  exact ((matched_of_reachable h).delivered a ha).symm

/-- Two bytes come in, one of the two bytes of the answer goes out. -/
theorem both_directions_partial : ∃ s, (machine Unit Unit .doubling).runUnder (Sound .doubling)
    (initial .doubling)
    [.center (.accept 5), .center .register, .center (.enter () 0),
      .center (.store () [[104], [105]] .error), .center (.find ()), .center (.emplace ()),
      .center (.copy [(5, .MORE)]), .center .getChannel, .center .getReceivedData, .center .demote,
      .center (.respond 0 [111, 107]), .center (.append 0), .enterWrite () 0, .write () 1] = some s ∧
    (s.received 0, s.sent 0) = ([104, 105], [111]) ∧
    s.takenFrom 0 ++ (s.center.chan 0).buffered = s.received 0 ∧
    s.sent 0 ++ (s.center.chan 0).unsent = s.center.deliveredTo 0 ∧
    ∀ a ∈ s.center.delivered, a.target = 0 → a.origin = 0 := by
  obtain ⟨s, hs, heq⟩ : ∃ s, (machine Unit Unit .doubling).runUnder (Sound .doubling)
      (initial .doubling)
      [.center (.accept 5), .center .register, .center (.enter () 0),
        .center (.store () [[104], [105]] .error), .center (.find ()), .center (.emplace ()),
        .center (.copy [(5, .MORE)]), .center .getChannel, .center .getReceivedData, .center .demote,
        .center (.respond 0 [111, 107]), .center (.append 0), .enterWrite () 0, .write () 1] = some s ∧
      (s.received 0, s.sent 0) = ([104, 105], [111]) :=
    Option.map_eq_some_iff.mp (by decide +kernel)
  exact ⟨s, hs, heq, both_directions (Machine.reachableUnder_of_runUnder rfl hs) 0⟩

end Streams

end Conversations

end ServerDevLib.Reactor
