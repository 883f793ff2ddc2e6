import ServerDevLib.Reactor.Conversations

/-!
# A service on top of the reactor

The application takes the requests in the order in which `HandleReadyData`
made them, and answers one after the other: it looks the channel up, hands it
the answer and goes on to the next request. What a connection gets are then
the answers to its requests in their order. It gets all of them as long as it
is there, and none behind one that came too late for it.
-/

namespace ServerDevLib.Reactor

open Text Transition

namespace NotificationCenter

variable {W D : Type} {s : NotificationCenter W D}

/-- A channel that is not in the map, and will not be. -/
def Unfiled (s : NotificationCenter W D) (c : Nat) : Prop :=
  s.accepted ≠ some c ∧ ∀ fd, s.allChannel fd ≠ some c

/-- Nothing is delivered to the channel any more. -/
def Gone (s : NotificationCenter W D) (c : Nat) : Prop :=
  c < s.nextChan ∧ ((s.chan c).active = false ∨ s.Unfiled c ∧ ∀ a ∈ s.answers, a.target ≠ c)

/-- What has been filed is not waiting to be filed, and requests name its descriptor. -/
structure Seen (s : NotificationCenter W D) : Prop where
  filed : ∀ fd c, s.allChannel fd = some c → s.accepted ≠ some c
  held : ∀ c fd rest, s.consumer = .holding c fd rest → s.accepted ≠ some c
  requested : ∀ r ∈ s.requests, s.accepted ≠ some r.origin ∧ r.origin < s.nextChan ∧
    r.fd = (s.chan r.origin).fd

variable {A : Allocator}

theorem initial_seen : (initial A : NotificationCenter W D).Seen where
  filed := nofun
  held := nofun
  requested := nofun

variable [DecidableEq W] [DecidableEq D] {next : NotificationCenter W D} {a : Action W D} {c : Nat}

/-- A channel object keeps its descriptor, and does not become active again. -/
theorem chan_step (hstep : (machine W D A).step s a = some next) (hc : c < s.nextChan) :
    (next.chan c).fd = (s.chan c).fd ∧ ((s.chan c).active = false → (next.chan c).active = false) := by
  have hset (c' : Nat) (ch : Channel) (hfd : ch.fd = (s.chan c').fd)
      (hactive : (s.chan c').active = false → ch.active = false) :
      ((s.setChan c' ch).chan c).fd = (s.chan c).fd ∧
        ((s.chan c).active = false → ((s.setChan c' ch).chan c).active = false) := by
    refine ⟨setChan_fd hfd c, fun h => ?_⟩
    obtain rfl | hne := eq_or_ne c c'
    · rw [setChan_self]
      exact hactive h
    · rw [setChan_of_ne hne]
      exact h
  cases step_cases hstep with
  | enter | findNone | findSome | emplaceNone | emplaceSome | promote | promoteDangling
  | notifyClose | copy | scanned | getChannel | demote | demoteDangling | register | close
  | removeNone | respondSome | respondNone | appendInactive | discard => exact ⟨rfl, id⟩
  | storeError _ hreceive | storeEof _ hreceive =>
    obtain ⟨buf, count, _, rfl⟩ := Channel.receive_cases hreceive
    exact hset _ _ rfl id
  | inactivate | removeSome => exact hset _ _ rfl fun _ => rfl
  | @getReceivedData c' =>
    obtain ⟨count, hch, _⟩ := (s.chan c').getReceivedData_cases
    refine hset c' _ ?_ ?_ <;> rw [hch]
    exact id
  | accept =>
    have hne : c ≠ s.nextChan := Nat.ne_of_lt hc
    change ((s.setChan s.nextChan _).chan c).fd = _ ∧
      (_ → ((s.setChan s.nextChan _).chan c).active = false)
    rw [setChan_of_ne hne]
    exact ⟨rfl, id⟩
  | @append i a =>
    obtain ⟨buf, hch⟩ := (s.chan a.target).appendToSend_cases A a.data
    refine hset a.target _ ?_ ?_ <;> rw [hch]
    exact id

theorem unfiled_step (hstep : (machine W D A).step s a = some next) (hc : c < s.nextChan)
    (h : s.Unfiled c) : next.Unfiled c := by
  cases step_cases hstep with
  | accept =>
    refine ⟨?_, h.2⟩
    rintro ⟨⟩
    exact Nat.lt_irrefl _ hc
  | register haccepted =>
    refine ⟨nofun, fun fd hfd => ?_⟩
    rcases ChannelMap.emplace_cases hfd with hfd | ⟨_, _, rfl⟩
    · exact h.2 fd hfd
    · exact h.1 haccepted
  | removeSome => exact ⟨h.1, fun fd hfd => h.2 fd (ChannelMap.erase_cases hfd).2⟩
  | _ => exact h

theorem seen_step (hr : s.Registry) (h : s.Seen) (hstep : (machine W D A).step s a = some next) :
    next.Seen := by
  have hrequested {r : Request} (hmem : r ∈ s.requests) (haccepted : next.accepted ≠ some r.origin)
      (hnext : s.nextChan ≤ next.nextChan) :
      next.accepted ≠ some r.origin ∧ r.origin < next.nextChan ∧ r.fd = (next.chan r.origin).fd := by
    obtain ⟨_, hlt, hfd⟩ := h.requested r hmem
    exact ⟨haccepted, Nat.lt_of_lt_of_le hlt hnext, hfd.trans (chan_step hstep hlt).1.symm⟩
  have hsame (hnext : next.allChannel = s.allChannel ∧ next.accepted = s.accepted ∧
        s.nextChan ≤ next.nextChan)
      (hheld : ∀ c fd rest, next.consumer = .holding c fd rest → s.accepted ≠ some c)
      (hmem : ∀ r ∈ next.requests, r ∈ s.requests) : next.Seen := by
    obtain ⟨hall, haccepted, hle⟩ := hnext
    refine ⟨?_, ?_, fun r hr => hrequested (hmem r hr) ?_ hle⟩ <;> rw [haccepted]
    · rw [hall]
      exact h.filed
    · exact hheld
    · exact (h.requested r (hmem r hr)).1
  cases step_cases hstep with
  | enter | storeError | storeEof | inactivate | findNone | findSome | emplaceNone | emplaceSome
  | promote | promoteDangling | notifyClose | close | removeNone | respondSome | respondNone | append
  | appendInactive => exact hsame ⟨rfl, rfl, le_rfl⟩ h.held fun _ hr => hr
  | copy | scanned | demote | demoteDangling => exact hsame ⟨rfl, rfl, le_rfl⟩ nofun fun _ hr => hr
  | getChannel =>
    refine hsame ⟨rfl, rfl, le_rfl⟩ (fun c fd rest hpc => ?_) fun _ hr => hr
    exact h.filed _ c (visit_eq_holding hpc).1
  | @getReceivedData c fd rest hholding =>
    refine ⟨h.filed, nofun, fun r hmem => ?_⟩
    rcases List.mem_append.mp hmem with hmem | hmem
    · exact hrequested hmem (h.requested r hmem).1 le_rfl
    · obtain rfl := List.mem_singleton.mp hmem
      have hlt := (hr.held c fd rest hholding).1
      exact ⟨h.held c fd rest hholding, hlt, (chan_step hstep hlt).1.symm⟩
  | accept =>
    have hne {c : Nat} (hc : c < s.nextChan) : some s.nextChan ≠ some c := by
      rintro ⟨⟩
      exact Nat.lt_irrefl _ hc
    refine ⟨fun fd c hc => hne (hr.filed fd c hc).1, fun c fd rest hc => hne (hr.held c fd rest hc).1,
      fun r hmem => hrequested hmem (hne (h.requested r hmem).2.1) (Nat.le_succ _)⟩
  | register => exact ⟨nofun, nofun, fun r hmem => hrequested hmem nofun le_rfl⟩
  | removeSome =>
    refine ⟨fun fd c hc => h.filed fd c (ChannelMap.erase_cases hc).2, h.held, fun r hmem => ?_⟩
    exact hrequested hmem (h.requested r hmem).1 le_rfl
  | discard => exact hsame ⟨rfl, rfl, le_rfl⟩ h.held fun r hmem => List.mem_of_mem_eraseIdx hmem

theorem Gone.step (h : s.Gone c) (hstep : (machine W D A).step s a = some next)
    (hle : s.nextChan ≤ next.nextChan) (hanswers : ∀ a ∈ next.answers, a ∈ s.answers) :
    next.Gone c := by
  obtain ⟨hc, hgone⟩ := h
  exact ⟨Nat.lt_of_lt_of_le hc hle, hgone.imp (chan_step hstep hc).2 fun ⟨hunfiled, hnone⟩ =>
    ⟨unfiled_step hstep hc hunfiled, fun a ha => hnone a (hanswers a ha)⟩⟩

omit [DecidableEq W] [DecidableEq D] in
/-- A request whose lookup finds nothing is one of a channel that nobody finds any more. -/
theorem Seen.unfiled (h : s.Seen) (hr : s.Registry) {r : Request} (hmem : r ∈ s.requests)
    (habsent : s.allChannel r.fd = none) : s.Unfiled r.origin := by
  obtain ⟨haccepted, _, hfd⟩ := h.requested r hmem
  refine ⟨haccepted, fun fd hfiled => ?_⟩
  rw [hfd, (hr.filed fd r.origin hfiled).2, hfiled] at habsent
  cases habsent

end NotificationCenter

/-- `answered` says that the lookup for the oldest request has been made. -/
structure ServiceLoop (W D : Type) where
  conversations : Conversations W D
  answered : Bool
  finished : List Request

namespace ServiceLoop

inductive Action (W D : Type)
  | conversations (a : Conversations.Action W D)
  | lookUp
  | append
  | proceed

variable {W D : Type}

/-- What is not done by the thread that answers. -/
def Foreign : Conversations.Action W D → Prop
  | .center (.respond _ _) | .center (.append _) | .center (.discard _) => False
  | _ => True

instance (a : Conversations.Action W D) : Decidable (Foreign a) :=
  match a with
  | .center (.respond _ _) | .center (.append _) | .center (.discard _) => isFalse id
  | .center (.enter _ _) | .center (.store _ _ _) | .center (.inactivate _) | .center (.find _)
  | .center (.emplace _) | .center (.promote _) | .center (.notifyClose _) | .center (.copy _)
  | .center .getChannel | .center .getReceivedData | .center .demote | .center (.accept _)
  | .center .register | .center (.close _ _) | .center (.remove _) | .enterWrite _ _
  | .write _ _ => isTrue trivial

def initial (A : Allocator) : ServiceLoop W D := ⟨.initial A, false, []⟩

/-- The requests that have been answered. -/
def served (s : ServiceLoop W D) : List Request :=
  s.finished ++ if s.answered = true ∧ s.conversations.center.answers.length = 0 then
    s.conversations.center.requests.take 1 else []

variable [DecidableEq W] [DecidableEq D] (f : List UInt8 → List UInt8) (A : Allocator)

def step (s : ServiceLoop W D) : Action W D → Option (ServiceLoop W D)
  | .conversations a =>
    if Foreign a then
      (Conversations.step A s.conversations a).map fun next => { s with conversations := next }
    else none
  | .lookUp =>
    match s.conversations.center.requests with
    | [] => none
    | r :: _ =>
      if s.answered then none
      else (Conversations.step A s.conversations (.center (.respond 0 (f r.data)))).map fun next =>
        { s with conversations := next, answered := true }
  | .append =>
    (Conversations.step A s.conversations (.center (.append 0))).map fun next =>
      { s with conversations := next }
  | .proceed =>
    if s.answered = true ∧ s.conversations.center.answers.length = 0 then
      (Conversations.step A s.conversations (.center (.discard 0))).map fun next =>
        { conversations := next, answered := false
          finished := s.finished ++ s.conversations.center.requests.take 1 }
    else none

def machine (W D : Type) [DecidableEq W] [DecidableEq D] (f : List UInt8 → List UInt8)
    (A : Allocator) : Machine (ServiceLoop W D) (Action W D) where
  init s := s = initial A
  step := step f A

def Sound (s : ServiceLoop W D) : Action W D → Prop
  | .conversations a => s.conversations.Sound A a
  | .lookUp | .append | .proceed => True

instance (s : ServiceLoop W D) (a : Action W D) : Decidable (s.Sound A a) :=
  match a with
  | .conversations a => inferInstanceAs (Decidable (s.conversations.Sound A a))
  | .lookUp | .append | .proceed => isTrue trivial

variable {f} {A}

/-- What a step does, with the guards it has passed. -/
inductive Step (f : List UInt8 → List UInt8) (A : Allocator) (s : ServiceLoop W D) :
    Action W D → ServiceLoop W D → Prop
  | conversations {a next} (foreign : Foreign a)
      (step : (Conversations.machine W D A).step s.conversations a = some next) :
      Step f A s (.conversations a) { s with conversations := next }
  | lookUp {r rest next} (oldest : s.conversations.center.requests = r :: rest)
      (unanswered : s.answered = false)
      (step : (NotificationCenter.machine W D A).step s.conversations.center
        (.respond 0 (f r.data)) = some next) :
      Step f A s .lookUp
        { s with conversations := { s.conversations with center := next }, answered := true }
  | append {next} (step : (NotificationCenter.machine W D A).step s.conversations.center
        (.append 0) = some next) :
      Step f A s .append { s with conversations := { s.conversations with center := next } }
  | proceed {next} (answered : s.answered = true)
      (unanswered : s.conversations.center.answers = [])
      (step : (NotificationCenter.machine W D A).step s.conversations.center
        (.discard 0) = some next) :
      Step f A s .proceed
        { conversations := { s.conversations with center := next }, answered := false
          finished := s.finished ++ s.conversations.center.requests.take 1 }

theorem center_step {s : Conversations W D} {a : NotificationCenter.Action W D}
    {s' : Conversations W D} (hstep : Conversations.step A s (.center a) = some s') :
    ∃ next, (NotificationCenter.machine W D A).step s.center a = some next ∧
      s' = s.record next a := by
  have hstep : (Conversations.machine W D A).step s (.center a) = some s' := hstep
  cases Conversations.step_cases hstep with
  | @center _ next _ hnext => exact ⟨next, hnext, rfl⟩

theorem step_cases {s s' : ServiceLoop W D} {a : Action W D}
    (hstep : (machine W D f A).step s a = some s') : Step f A s a s' := by
  cases a with
  | conversations a =>
    simp only [machine, step] at hstep
    split at hstep
    · rename_i hforeign
      obtain ⟨next, hnext, rfl⟩ := Option.map_eq_some_iff.mp hstep
      exact .conversations hforeign hnext
    · cases hstep
  | lookUp =>
    simp only [machine, step] at hstep
    split at hstep
    · cases hstep
    · rename_i r rest holdest
      split at hstep
      · cases hstep
      · rename_i hanswered
        obtain ⟨conversations, hconversations, rfl⟩ := Option.map_eq_some_iff.mp hstep
        obtain ⟨next, hnext, rfl⟩ := center_step hconversations
        exact .lookUp holdest (Bool.eq_false_iff.mpr hanswered) hnext
  | append =>
    obtain ⟨conversations, hconversations, rfl⟩ := Option.map_eq_some_iff.mp hstep
    obtain ⟨next, hnext, rfl⟩ := center_step hconversations
    exact .append hnext
  | proceed =>
    simp only [machine, step] at hstep
    split at hstep
    · rename_i hguard
      obtain ⟨conversations, hconversations, rfl⟩ := Option.map_eq_some_iff.mp hstep
      obtain ⟨next, hnext, rfl⟩ := center_step hconversations
      exact .proceed hguard.1 (List.eq_nil_of_length_eq_zero hguard.2) hnext
    · cases hstep

/-- What the service gave to the requests of a channel that have been answered. -/
def replies (f : List UInt8 → List UInt8) (s : ServiceLoop W D) (c : Nat) : List (List UInt8) :=
  (s.served.filter fun r => r.origin = c).map fun r => f r.data

def deliveries (s : ServiceLoop W D) (c : Nat) : List (List UInt8) :=
  (s.conversations.center.delivered.filter fun a => a.target = c).map Answer.data

structure Ordered (f : List UInt8 → List UInt8) (s : ServiceLoop W D) : Prop where
  seen : s.conversations.center.Seen
  history : s.conversations.taken = s.finished ++ s.conversations.center.requests
  waiting : s.answered = false → s.conversations.center.answers = []
  current : s.answered = true → ∃ r rest, s.conversations.center.requests = r :: rest ∧
    (s.conversations.center.answers = [] ∨
      s.conversations.center.answers = [⟨r.origin, r.origin, f r.data⟩])
  kept : ∀ c, s.deliveries c = s.replies f c ∨
    s.conversations.center.Gone c ∧ s.deliveries c <+: s.replies f c

section Foreign

variable {t next : Conversations W D}

/-- The steps of others bring requests, and neither answer nor deliver any. -/
theorem center_foreign {b : NotificationCenter.Action W D} {center : NotificationCenter W D}
    (hforeign : Foreign (.center b))
    (hstep : (NotificationCenter.machine W D A).step t.center b = some center) :
    center.delivered = t.center.delivered ∧ center.answers = t.center.answers ∧
      t.center.nextChan ≤ center.nextChan ∧
      ∃ late, center.requests = t.center.requests ++ late ∧
        (t.record center b).taken = t.taken ++ late := by
  have hnone : ∃ late, t.center.requests = t.center.requests ++ late ∧ t.taken = t.taken ++ late :=
    ⟨[], (List.append_nil _).symm, (List.append_nil _).symm⟩
  cases NotificationCenter.step_cases hstep with
  | enter | inactivate | findNone | findSome | emplaceNone | emplaceSome | promote
  | promoteDangling | notifyClose | copy | scanned | getChannel | demote | demoteDangling | register
  | close | removeSome | removeNone => exact ⟨rfl, rfl, le_rfl, hnone⟩
  | storeError hreading | storeEof hreading =>
    refine ⟨rfl, rfl, le_rfl, ?_⟩
    simp only [Conversations.record, hreading]
    exact hnone
  | getReceivedData =>
    refine ⟨rfl, rfl, le_rfl, _, rfl, ?_⟩
    simp only [Conversations.record, List.drop_left]
  | accept => exact ⟨rfl, rfl, Nat.le_succ _, hnone⟩
  | respondSome | respondNone | append | appendInactive | discard => exact hforeign.elim

theorem foreign_step {a : Conversations.Action W D} (hforeign : Foreign a)
    (hstep : (Conversations.machine W D A).step t a = some next) :
    next.center.delivered = t.center.delivered ∧ next.center.answers = t.center.answers ∧
      t.center.nextChan ≤ next.center.nextChan ∧
      ∃ late, next.center.requests = t.center.requests ++ late ∧ next.taken = t.taken ++ late := by
  have hnone : ∃ late, t.center.requests = t.center.requests ++ late ∧ t.taken = t.taken ++ late :=
    ⟨[], (List.append_nil _).symm, (List.append_nil _).symm⟩
  cases Conversations.step_cases hstep with
  | center _ hcenter =>
    rw [Conversations.record_center]
    exact center_foreign hforeign hcenter
  | enterWrite | write => exact ⟨rfl, rfl, le_rfl, hnone⟩

/-- What has become unreachable stays so. -/
theorem channel_step {a : Conversations.Action W D} {c : Nat} (hc : c < t.center.nextChan)
    (hstep : (Conversations.machine W D A).step t a = some next) :
    ((t.center.chan c).active = false → (next.center.chan c).active = false) ∧
      (t.center.Unfiled c → next.center.Unfiled c) := by
  cases Conversations.step_cases hstep with
  | center _ hcenter =>
    rw [Conversations.record_center]
    exact ⟨(NotificationCenter.chan_step hcenter hc).2, NotificationCenter.unfiled_step hcenter hc⟩
  | enterWrite => exact ⟨id, id⟩
  | @write w c' sent =>
    refine ⟨fun hinactive => ?_, id⟩
    change ((t.center.setChan c' _).chan c).active = false
    obtain rfl | hne := eq_or_ne c c'
    · rw [NotificationCenter.setChan_self]
      exact hinactive
    · rw [NotificationCenter.setChan_of_ne hne]
      exact hinactive

theorem seen_step {a : Conversations.Action W D} (hr : t.center.Registry) (h : t.center.Seen)
    (hstep : (Conversations.machine W D A).step t a = some next) : next.center.Seen := by
  cases Conversations.step_cases hstep with
  | center _ hcenter =>
    rw [Conversations.record_center]
    exact NotificationCenter.seen_step hr h hcenter
  | enterWrite => exact h
  | @write w c sent =>
    refine ⟨h.filed, h.held, fun r hmem => ?_⟩
    obtain ⟨haccepted, hlt, hfd⟩ := h.requested r hmem
    have hsame : ((t.center.setChan c ((t.center.chan c).eraseSent A sent)).chan r.origin).fd =
        (t.center.chan r.origin).fd := by
      apply NotificationCenter.setChan_fd
      rfl
    exact ⟨haccepted, hlt, hfd.trans hsame.symm⟩

end Foreign

section Ordered

variable {s s' : ServiceLoop W D}

omit [DecidableEq W] [DecidableEq D] in
theorem initial_ordered : (initial A : ServiceLoop W D).Ordered f where
  seen := NotificationCenter.initial_seen
  history := rfl
  waiting _ := rfl
  current := nofun
  kept _ := .inl rfl

theorem Ordered.foreign (h : s.Ordered f) (hr : s.conversations.center.Registry)
    {a : Conversations.Action W D} {next : Conversations W D} (hforeign : Foreign a)
    (hstep : (Conversations.machine W D A).step s.conversations a = some next) :
    ({ s with conversations := next } : ServiceLoop W D).Ordered f := by
  obtain ⟨hdelivered, hanswers, hle, late, hrequests, htaken⟩ := foreign_step hforeign hstep
  have hserved : ({ s with conversations := next } : ServiceLoop W D).served = s.served := by
    simp only [served, hanswers, hrequests]
    cases hanswered : s.answered with
    | false => rfl
    | true =>
      obtain ⟨r, rest, hcons, _⟩ := h.current hanswered
      rw [hcons]
      rfl
  refine ⟨seen_step hr h.seen hstep, ?_, fun hanswered => ?_, fun hanswered => ?_, fun c => ?_⟩
  · simp only [hrequests, htaken, h.history, List.append_assoc]
  · rw [hanswers]
    exact h.waiting hanswered
  · obtain ⟨r, rest, hcons, hcurrent⟩ := h.current hanswered
    refine ⟨r, rest ++ late, ?_, ?_⟩
    · rw [hrequests, hcons]
      rfl
    · rw [hanswers]
      exact hcurrent
  · simp only [deliveries, replies, hserved, hdelivered]
    refine (h.kept c).imp id fun ⟨⟨hc, hgone⟩, hprefix⟩ => ⟨⟨Nat.lt_of_lt_of_le hc hle, ?_⟩, hprefix⟩
    obtain ⟨hinactive, hunfiled⟩ := channel_step hc hstep
    simp only [hanswers]
    exact hgone.imp hinactive fun hgone => ⟨hunfiled hgone.1, hgone.2⟩

omit [DecidableEq W] [DecidableEq D] in
theorem replies_served (s : ServiceLoop W D) {l : List Request} {r : Request}
    (h : s.served = l ++ [r]) (c : Nat) : s.replies f c =
      ((l.filter fun r => r.origin = c).map fun r => f r.data) ++
        if r.origin = c then [f r.data] else [] := by
  rw [replies, h]
  exact Conversations.filed_append Request.origin (fun r => f r.data) l r c

omit [DecidableEq W] [DecidableEq D] in
/-- A reply that is not delivered is one to a channel that is gone. -/
theorem kept_dropped {p p' q : Prop} [Decidable q] {ds rs : List (List UInt8)} {x : List UInt8}
    (h : ds = rs ∨ p ∧ ds <+: rs) (hp : p → p') (hq : q → p') :
    ds = (rs ++ if q then [x] else []) ∨ p' ∧ ds <+: rs ++ if q then [x] else [] := by
  by_cases hc : q
  · rw [if_pos hc]
    refine .inr ⟨hq hc, ?_⟩
    rcases h with rfl | ⟨_, hprefix⟩
    · exact List.prefix_append ..
    · exact hprefix.trans (List.prefix_append ..)
  · rw [if_neg hc, List.append_nil]
    exact h.imp id (And.imp hp id)

theorem Ordered.lookUp (h : s.Ordered f) (hr : s.conversations.center.Registry)
    (hm : s.conversations.center.Matched) {r : Request} {rest : List Request}
    {next : NotificationCenter W D} (holdest : s.conversations.center.requests = r :: rest)
    (hunanswered : s.answered = false)
    (hstep : (NotificationCenter.machine W D A).step s.conversations.center
      (.respond 0 (f r.data)) = some next) :
    ({ s with
      conversations := { s.conversations with center := next }
      answered := true } : ServiceLoop W D).Ordered f := by
  have hmem : r ∈ s.conversations.center.requests := by
    rw [holdest]
    exact List.mem_cons_self ..
  have hempty := h.waiting hunanswered
  have hseen := NotificationCenter.seen_step hr h.seen hstep
  have hserved : s.served = s.finished := by simp [served, hunanswered]
  cases NotificationCenter.step_cases hstep with
  | @respondSome _ _ r' c hrequest hfiled =>
    rw [holdest] at hrequest
    obtain rfl : r = r' := Option.some.inj hrequest
    obtain rfl : c = r.origin := hm.requested r hmem c hfiled
    refine ⟨hseen, h.history, nofun, fun _ => ⟨r, rest, holdest, .inr ?_⟩, fun c => ?_⟩
    · rw [hempty]
      rfl
    · have hsame : ({ s with
          conversations := { s.conversations with center := { s.conversations.center with
            answers := s.conversations.center.answers ++ [⟨r.origin, r.origin, f r.data⟩] } }
          answered := true } : ServiceLoop W D).replies f c = s.replies f c := by
        simp [replies, served, hunanswered]
      rw [hsame]
      refine (h.kept c).imp id fun ⟨⟨hc, hgone⟩, hprefix⟩ => ⟨⟨hc, ?_⟩, hprefix⟩
      refine hgone.imp id fun ⟨hunfiled, _⟩ => ⟨hunfiled, fun a ha => ?_⟩
      -- the lookup has found the channel, so the map has it
      rw [hempty] at ha
      obtain rfl := List.mem_singleton.mp ha
      rintro rfl
      exact hunfiled.2 _ hfiled
  | @respondNone _ _ r' hrequest habsent =>
    rw [holdest] at hrequest
    obtain rfl : r = r' := Option.some.inj hrequest
    have hunfiled := h.seen.unfiled hr hmem habsent
    refine ⟨hseen, h.history, nofun, fun _ => ⟨r, rest, holdest, .inl hempty⟩, fun c => ?_⟩
    have hnew := replies_served (f := f) ({ s with answered := true } : ServiceLoop W D)
      (l := s.finished) (r := r) (by simp [served, hempty, holdest]) c
    have hold : s.replies f c = (s.finished.filter fun r => r.origin = c).map fun r => f r.data := by
      rw [replies, hserved]
    change s.deliveries c = ({ s with answered := true } : ServiceLoop W D).replies f c ∨
      s.conversations.center.Gone c ∧
        s.deliveries c <+: ({ s with answered := true } : ServiceLoop W D).replies f c
    rw [hnew, ← hold]
    refine kept_dropped (h.kept c) id ?_
    rintro rfl
    refine ⟨(h.seen.requested r hmem).2.1, .inr ⟨hunfiled, ?_⟩⟩
    rw [hempty]
    nofun

theorem Ordered.append (h : s.Ordered f) (hr : s.conversations.center.Registry)
    {next : NotificationCenter W D}
    (hstep : (NotificationCenter.machine W D A).step s.conversations.center (.append 0) = some next) :
    ({ s with conversations := { s.conversations with center := next } } :
      ServiceLoop W D).Ordered f := by
  have hseen := NotificationCenter.seen_step hr h.seen hstep
  have hoccupied {a : Answer} (ha : s.conversations.center.answers[0]? = some a) :
      s.answered = true ∧ ∃ r rest, s.conversations.center.requests = r :: rest ∧
        s.conversations.center.answers = [a] ∧ a = ⟨r.origin, r.origin, f r.data⟩ := by
    cases hanswered : s.answered with
    | false =>
      rw [h.waiting hanswered] at ha
      cases ha
    | true =>
      obtain ⟨r, rest, hcons, hcurrent⟩ := h.current hanswered
      rcases hcurrent with hempty | hsingle
      · rw [hempty] at ha
        cases ha
      · rw [hsingle] at ha
        obtain rfl := Option.some.inj ha
        exact ⟨rfl, r, rest, hcons, hsingle, rfl⟩
  have hreplies {a : Answer} (r : Request) (hsingle : s.conversations.center.answers = [a])
      (t : ServiceLoop W D) (c : Nat) (ht : t.served = s.finished ++ [r]) :
      t.replies f c = s.replies f c ++ if r.origin = c then [f r.data] else [] := by
    rw [replies_served t ht]
    simp [replies, served, hsingle]
  cases NotificationCenter.step_cases hstep with
  | @append _ a ha hactive =>
    obtain ⟨hanswered, r, rest, hcons, hsingle, rfl⟩ := hoccupied ha
    have hempty : s.conversations.center.answers.eraseIdx 0 = [] := by
      rw [hsingle]
      rfl
    refine ⟨hseen, h.history, fun _ => hempty, fun _ => ⟨r, rest, hcons, .inl hempty⟩, fun c => ?_⟩
    rw [hreplies r hsingle]
    · have hdelivered := Conversations.filed_append Answer.target Answer.data
        s.conversations.center.delivered ⟨r.origin, r.origin, f r.data⟩ c
      simp only [deliveries, hdelivered]
      rcases h.kept c with heq | ⟨hgone, hprefix⟩
      · left
        rw [← heq]
        rfl
      · have hne : r.origin ≠ c := by
          rintro rfl
          rcases hgone.2 with hinactive | ⟨_, hnone⟩
          · exact absurd hactive (by rw [hinactive]; exact Bool.false_ne_true)
          · exact hnone _ (by rw [hsingle]; exact List.mem_singleton_self _) rfl
        rw [if_neg hne, List.append_nil, List.append_nil]
        refine .inr ⟨hgone.step hstep le_rfl ?_, hprefix⟩
        exact fun a ha => List.mem_of_mem_eraseIdx ha
    · simp [served, hanswered, hempty, NotificationCenter.setChan, hcons]
  | @appendInactive _ a ha hinactive =>
    obtain ⟨hanswered, r, rest, hcons, hsingle, rfl⟩ := hoccupied ha
    have hempty : s.conversations.center.answers.eraseIdx 0 = [] := by
      rw [hsingle]
      rfl
    refine ⟨hseen, h.history, fun _ => hempty, fun _ => ⟨r, rest, hcons, .inl hempty⟩, fun c => ?_⟩
    rw [hreplies r hsingle]
    · refine kept_dropped (h.kept c) (fun hgone => hgone.step hstep le_rfl ?_) ?_
      · exact fun a ha => List.mem_of_mem_eraseIdx ha
      · rintro rfl
        refine ⟨(h.seen.requested r ?_).2.1, .inl hinactive⟩
        rw [hcons]
        exact List.mem_cons_self ..
    · simp [served, hanswered, hempty, hcons]

theorem Ordered.proceed (h : s.Ordered f) (hr : s.conversations.center.Registry)
    {next : NotificationCenter W D} (hanswered : s.answered = true)
    (hempty : s.conversations.center.answers = [])
    (hstep : (NotificationCenter.machine W D A).step s.conversations.center (.discard 0) = some next) :
    ({ conversations := { s.conversations with center := next }, answered := false
       finished := s.finished ++ s.conversations.center.requests.take 1 } :
      ServiceLoop W D).Ordered f := by
  have hseen := NotificationCenter.seen_step hr h.seen hstep
  obtain ⟨r, rest, hcons, _⟩ := h.current hanswered
  have hserved : s.served = s.finished ++ [r] := by simp [served, hanswered, hempty, hcons]
  cases NotificationCenter.step_cases hstep with
  | discard =>
    have hrest : s.conversations.center.requests.eraseIdx 0 = rest := by
      rw [hcons]
      rfl
    refine ⟨hseen, ?_, fun _ => hempty, nofun, fun c => ?_⟩
    · simp only [h.history, hrest]
      rw [hcons]
      simp
    · have hreplies (t : ServiceLoop W D) (ht : t.served = s.finished ++ [r]) :
          t.replies f c = s.replies f c := by rw [replies, replies, ht, hserved]
      rw [hreplies]
      · exact (h.kept c).imp id (And.imp_left fun hgone => hgone.step hstep le_rfl fun _ ha => ha)
      · simp [served, hcons]

omit [DecidableEq W] [DecidableEq D] in
theorem sound_respond (t : Conversations W D) (i : Nat) (data : List UInt8) :
    t.Sound A (.center (.respond i data)) :=
  ⟨trivial, fun _ hb => by cases hb; trivial⟩

/-- The service loop runs the reactor. -/
theorem conversations_of_reachable (h : (machine W D f A).ReachableUnder (Sound A) s) :
    (Conversations.machine W D A).ReachableUnder (Conversations.Sound A) s.conversations := by
  apply h.project ServiceLoop.conversations
  · rintro s rfl
    rfl
  · intro s a s' hcond hstep
    right
    cases a with
    | conversations a =>
      simp only [machine, step] at hstep
      split at hstep
      · obtain ⟨next, hnext, rfl⟩ := Option.map_eq_some_iff.mp hstep
        exact ⟨a, hcond, hnext⟩
      · cases hstep
    | lookUp =>
      simp only [machine, step] at hstep
      split at hstep
      · cases hstep
      · split at hstep
        · cases hstep
        · obtain ⟨next, hnext, rfl⟩ := Option.map_eq_some_iff.mp hstep
          exact ⟨_, sound_respond .., hnext⟩
    | append =>
      obtain ⟨next, hnext, rfl⟩ := Option.map_eq_some_iff.mp hstep
      exact ⟨.center (.append 0), ⟨trivial, fun _ hb => by cases hb; trivial⟩, hnext⟩
    | proceed =>
      simp only [machine, step] at hstep
      split at hstep
      · obtain ⟨next, hnext, rfl⟩ := Option.map_eq_some_iff.mp hstep
        exact ⟨.center (.discard 0), ⟨trivial, fun _ hb => by cases hb; trivial⟩, hnext⟩
      · cases hstep

theorem ordered_of_reachable (h : (machine W D f A).ReachableUnder (Sound A) s) : s.Ordered f := by
  have hbase (s : ServiceLoop W D) (h : (machine W D f A).ReachableUnder (Sound A) s) :
      s.conversations.center.Registry ∧ s.conversations.center.Matched :=
    ⟨(Conversations.streams_of_sound (conversations_of_reachable h)).registry,
      Conversations.matched_of_reachable (conversations_of_reachable h)⟩
  refine h.invariant_on hbase ?_ fun s a s' hb hs _ hstep => ?_
  · rintro s rfl
    exact initial_ordered
  · cases step_cases hstep with
    | conversations hforeign hnext => exact hs.foreign hb.1 hforeign hnext
    | lookUp holdest hunanswered hnext => exact hs.lookUp hb.1 hb.2 holdest hunanswered hnext
    | append hnext => exact hs.append hb.1 hnext
    | proceed hanswered hempty hnext => exact hs.proceed hb.1 hanswered hempty hnext

/-- The requests of a connection, as the bytes they carry. -/
def requestsOf (s : ServiceLoop W D) (c : Nat) : List (List UInt8) :=
  (s.conversations.taken.filter fun r => r.origin = c).map Request.data

omit [DecidableEq W] [DecidableEq D] in
theorem Ordered.replies_prefix (h : s.Ordered f) (c : Nat) :
    s.replies f c <+: (s.requestsOf c).map f := by
  have hserved : s.served <+: s.conversations.taken := by
    rw [h.history, served]
    refine List.prefix_append_right_inj _ |>.mpr ?_
    split
    · exact List.take_prefix ..
    · exact List.nil_prefix
  have hmap := (hserved.filter fun r => decide (r.origin = c)).map fun r => f r.data
  rw [replies, requestsOf, List.map_map]
  exact hmap

/-- What a connection gets is what the service gives to its requests, in their order: to the first
of them, and to all that have been answered as long as the channel is filed and active. The
requests are what came in on it. -/
theorem serves_in_order (h : (machine W D f A).ReachableUnder (Sound A) s) (c : Nat) :
    (s.requestsOf c).flatten ++ (s.conversations.center.chan c).buffered =
        s.conversations.received c ∧
      (∃ replies, replies <+: (s.requestsOf c).map f ∧
        s.conversations.sent c ++ (s.conversations.center.chan c).unsent = replies.flatten) ∧
      ((s.conversations.center.chan c).active = true →
        (∃ fd, s.conversations.center.allChannel fd = some c) →
        s.conversations.sent c ++ (s.conversations.center.chan c).unsent =
          (s.replies f c).flatten) := by
  have hflow := (Conversations.streams_of_sound (conversations_of_reachable h)).flow c
  have hordered := ordered_of_reachable h
  have hsent : s.conversations.sent c ++ (s.conversations.center.chan c).unsent =
      (s.deliveries c).flatten := hflow.outgoing
  rw [hsent]
  refine ⟨hflow.incoming, ⟨s.deliveries c, ?_, rfl⟩, fun hactive ⟨fd, hfiled⟩ => ?_⟩
  · rcases hordered.kept c with heq | ⟨_, hprefix⟩
    · rw [heq]
      exact hordered.replies_prefix c
    · exact hprefix.trans (hordered.replies_prefix c)
  · rcases hordered.kept c with heq | ⟨hgone, _⟩
    · rw [heq]
    · rcases hgone.2 with hinactive | ⟨hunfiled, _⟩
      · rw [hactive] at hinactive
        cases hinactive
      · exact absurd hfiled (hunfiled.2 fd)

/-- An echo of two bytes, of which one is on the wire. -/
theorem serves_in_order_echo : ∃ s, (machine Unit Unit id .doubling).runUnder (Sound .doubling)
    (initial .doubling)
    [.conversations (.center (.accept 5)), .conversations (.center .register),
      .conversations (.center (.enter () 0)), .conversations (.center (.store () [[104], [105]] .error)),
      .conversations (.center (.find ())), .conversations (.center (.emplace ())),
      .conversations (.center (.copy [(5, .MORE)])), .conversations (.center .getChannel),
      .conversations (.center .getReceivedData), .lookUp, .append, .proceed,
      .conversations (.enterWrite () 0), .conversations (.write () 1)] = some s ∧
    (s.conversations.received 0, s.conversations.sent 0) = ([104, 105], [104]) ∧
    (s.requestsOf 0).flatten ++ (s.conversations.center.chan 0).buffered =
      s.conversations.received 0 ∧
    (∃ replies, replies <+: (s.requestsOf 0).map id ∧
      s.conversations.sent 0 ++ (s.conversations.center.chan 0).unsent = replies.flatten) := by
  obtain ⟨s, hs, heq⟩ : ∃ s, (machine Unit Unit id .doubling).runUnder (Sound .doubling)
      (initial .doubling)
      [.conversations (.center (.accept 5)), .conversations (.center .register),
        .conversations (.center (.enter () 0)), .conversations (.center (.store () [[104], [105]] .error)),
        .conversations (.center (.find ())), .conversations (.center (.emplace ())),
        .conversations (.center (.copy [(5, .MORE)])), .conversations (.center .getChannel),
        .conversations (.center .getReceivedData), .lookUp, .append, .proceed,
        .conversations (.enterWrite () 0), .conversations (.write () 1)] = some s ∧
      (s.conversations.received 0, s.conversations.sent 0) = ([104, 105], [104]) :=
    Option.map_eq_some_iff.mp (by decide +kernel)
  obtain ⟨hin, hout, _⟩ := serves_in_order (Machine.reachableUnder_of_runUnder rfl hs) 0
  exact ⟨s, hs, heq, hin, hout⟩

end Ordered

end ServiceLoop

end ServerDevLib.Reactor
