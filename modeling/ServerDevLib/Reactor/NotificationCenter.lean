import ServerDevLib.Foundation.Transition
import ServerDevLib.Reactor.Barrier
import ServerDevLib.Reactor.Dispatcher
import Mathlib.Data.List.AList

/-!
# The notification center and the dispatchers around it

Workers run `Channel::Read` on the channels of registered handlers and report
through `NotifyDataReady` and `NotifyClose`. One thread runs
`HandleReadyData`, the application answers what it has taken through
`NotifyResponseReady`, and the dispatchers accept and close connections. Each
lookup, each locked section and each barrier section is one step; the barrier
is taken as the mutual exclusion it is meant to be.

A channel is the number of its object, an iterator the number of the map node
it designates, so that an entry that is erased and emplaced again is a
different one. The copy of the map is iterated in any order. A dereferenced
iterator that designates no entry is recorded in `dangled`.
-/

namespace ServerDevLib.Reactor

open Transition

structure Entry where
  node : Nat
  state : ReadyState

/-- Where a worker is in `HandleEvent`; from `notifying` on it is in a call into the center. -/
inductive WorkerPc
  | idle
  | reading (c : Nat)
  | eof (c : Nat)
  | notifying (fd : Int)
  | emplacing (fd : Int)
  | found (fd : Int) (node : Nat)
  | closing (fd : Int)
  deriving DecidableEq

/-- Where `HandleReadyData` is, with the part of the copied map it has not visited. -/
inductive ConsumerPc
  | idle
  | scanning (rest : List (Int × ReadyState))
  | holding (c : Nat) (fd : Int) (rest : List (Int × ReadyState))
  | drained (fd : Int) (rest : List (Int × ReadyState))
  deriving DecidableEq

structure Request where
  origin : Nat
  fd : Int
  data : List UInt8

/-- A call of `NotifyWriteEvent` on a channel, with the channel whose request it answers. -/
structure Answer where
  target : Nat
  origin : Nat
  data : List UInt8

structure NotificationCenter (W D : Type) where
  chan : Nat → Channel
  nextChan : Nat
  isOpen : Int → Bool
  allChannel : ChannelMap
  waitToHandleFD : AList fun _ : Int => Entry
  nextNode : Nat
  worker : W → WorkerPc
  consumer : ConsumerPc
  closer : D → Option Int
  accepted : Option Nat
  requests : List Request
  answers : List Answer
  delivered : List Answer
  dangled : Bool

namespace NotificationCenter

inductive Action (W D : Type)
  | enter (w : W) (c : Nat)
  | store (w : W) (chunks : List (List UInt8)) (ended : ReadEnd)
  | inactivate (w : W)
  | find (w : W)
  | emplace (w : W)
  | promote (w : W)
  | notifyClose (w : W)
  | copy (entries : List (Int × ReadyState))
  | getChannel
  | getReceivedData
  | demote
  | accept (fd : Int)
  | register
  | close (d : D) (fd : Int)
  | remove (d : D)
  | respond (i : Nat) (data : List UInt8)
  | append (i : Nat)
  | discard (i : Nat)

variable {W D : Type} [DecidableEq W] [DecidableEq D]

def goto (s : NotificationCenter W D) (w : W) (pc : WorkerPc) : NotificationCenter W D :=
  { s with worker := Function.update s.worker w pc }

def setChan (s : NotificationCenter W D) (c : Nat) (ch : Channel) : NotificationCenter W D :=
  { s with chan := Function.update s.chan c ch }

/-- Applies a barrier section to an entry, which keeps its node. -/
def applySection (s : NotificationCenter W D) (sec : Section) (fd : Int) (e : Entry) :
    NotificationCenter W D :=
  { s with waitToHandleFD := s.waitToHandleFD.insert fd { e with state := sec.apply e.state } }

def snapshot (s : NotificationCenter W D) : List (Int × ReadyState) :=
  s.waitToHandleFD.entries.map fun entry => (entry.1, entry.2.state)

/-- The visit of one copied entry up to the call of `GetReceivedData`. -/
def visit (s : NotificationCenter W D) (fd : Int) (state : ReadyState)
    (rest : List (Int × ReadyState)) : ConsumerPc :=
  match s.allChannel fd with
  | none => .scanning rest
  | some c => if state = .ONE then .scanning rest else .holding c fd rest

def step (A : Text.Allocator) (s : NotificationCenter W D) :
    Action W D → Option (NotificationCenter W D)
  | .enter w c =>
    match s.worker w with
    | .idle =>
      if c < s.nextChan ∧ s.accepted ≠ some c ∧ (s.chan c).active = true then
        some (s.goto w (.reading c))
      else none
    | _ => none
  | .store w chunks ended =>
    match s.worker w with
    | .reading c => ((s.chan c).receive A chunks).map fun ch =>
      (s.setChan c ch).goto w (match ended with | .eof => .eof c | .error => .notifying ch.fd)
    | _ => none
  | .inactivate w =>
    match s.worker w with
    | .eof c => some ((s.setChan c (s.chan c).inactive).goto w (.closing (s.chan c).fd))
    | _ => none
  | .find w =>
    match s.worker w with
    | .notifying fd =>
      match s.waitToHandleFD.lookup fd with
      | none => some (s.goto w (.emplacing fd))
      | some e => some (s.goto w (.found fd e.node))
    | _ => none
  | .emplace w =>
    match s.worker w with
    | .emplacing fd =>
      match s.waitToHandleFD.lookup fd with
      | none => some ({ s with
          waitToHandleFD := s.waitToHandleFD.insert fd ⟨s.nextNode, .MORE⟩
          nextNode := s.nextNode + 1 }.goto w .idle)
      | some _ => some (s.goto w .idle)
    | _ => none
  | .promote w =>
    match s.worker w with
    | .found fd node =>
      match (s.waitToHandleFD.lookup fd).filter fun e => e.node = node with
      | some e => some ((s.applySection .NotifyDataReady fd e).goto w .idle)
      | none => some ({ s with dangled := true }.goto w .idle)
    | _ => none
  | .notifyClose w =>
    match s.worker w with
    | .closing fd => some ({ s with waitToHandleFD := s.waitToHandleFD.erase fd }.goto w .idle)
    | _ => none
  | .copy entries =>
    match s.consumer with
    | .idle => if entries.Perm s.snapshot then some { s with consumer := .scanning entries } else none
    | _ => none
  | .getChannel =>
    match s.consumer with
    | .scanning [] => some { s with consumer := .idle }
    | .scanning ((fd, state) :: rest) => some { s with consumer := s.visit fd state rest }
    | _ => none
  | .getReceivedData =>
    match s.consumer with
    | .holding c fd rest =>
      let out := (s.chan c).getReceivedData
      some { s.setChan c out.1 with
        consumer := .drained fd rest
        requests := s.requests ++ [⟨c, (s.chan c).fd, out.2⟩] }
    | _ => none
  | .demote =>
    match s.consumer with
    | .drained fd rest =>
      match s.waitToHandleFD.lookup fd with
      | some e => some { s.applySection .HandleReadyData fd e with consumer := .scanning rest }
      | none => some { s with consumer := .scanning rest, dangled := true }
    | _ => none
  | .accept fd =>
    if s.accepted = none ∧ 0 ≤ fd ∧ s.isOpen fd = false then
      some { s.setChan s.nextChan (Channel.create A fd (some 0)) with
        nextChan := s.nextChan + 1
        isOpen := Function.update s.isOpen fd true
        accepted := some s.nextChan }
    else none
  | .register =>
    match s.accepted with
    | some c =>
      some { s with allChannel := s.allChannel.emplace (s.chan c).fd c, accepted := none }
    | none => none
  | .close d fd =>
    match s.closer d with
    | none =>
      if s.isOpen fd then
        some { s with
          isOpen := Function.update s.isOpen fd false
          closer := Function.update s.closer d (some fd) }
      else none
    | some _ => none
  | .remove d =>
    match s.closer d with
    | some fd =>
      let s := { s with closer := Function.update s.closer d none }
      match s.allChannel fd with
      | some c => some { s.setChan c (s.chan c).inactive with allChannel := s.allChannel.erase fd }
      | none => some s
    | none => none
  | .respond i data =>
    match s.requests[i]? with
    | some r =>
      match s.allChannel r.fd with
      | some c => some { s with answers := s.answers ++ [⟨c, r.origin, data⟩] }
      | none => some s
    | none => none
  | .append i =>
    match s.answers[i]? with
    | some a =>
      let s := { s with answers := s.answers.eraseIdx i }
      if (s.chan a.target).active then
        some { s.setChan a.target ((s.chan a.target).appendToSend A a.data) with
          delivered := s.delivered ++ [a] }
      else some s
    | none => none
  | .discard i => if i < s.requests.length then some { s with requests := s.requests.eraseIdx i } else none

def initial (A : Text.Allocator) : NotificationCenter W D :=
  { chan := fun _ => Channel.create A (-1) none, nextChan := 0, isOpen := fun _ => false,
    allChannel := fun _ => none, waitToHandleFD := ∅, nextNode := 0, worker := fun _ => .idle,
    consumer := .idle, closer := fun _ => none, accepted := none, requests := [], answers := [],
    delivered := [], dangled := false }

def machine (W D : Type) [DecidableEq W] [DecidableEq D] (A : Text.Allocator) :
    Machine (NotificationCenter W D) (Action W D) where
  init s := s = initial A
  step := step A

/-- What each action does, with the guards it has passed. -/
inductive Step (A : Text.Allocator) (s : NotificationCenter W D) :
    Action W D → NotificationCenter W D → Prop
  | enter {w c} (idle : s.worker w = .idle) (created : c < s.nextChan)
      (registered : s.accepted ≠ some c) (active : (s.chan c).active = true) :
      Step A s (.enter w c) (s.goto w (.reading c))
  | storeError {w c chunks ch} (reading : s.worker w = .reading c)
      (received : (s.chan c).receive A chunks = some ch) :
      Step A s (.store w chunks .error) ((s.setChan c ch).goto w (.notifying ch.fd))
  | storeEof {w c chunks ch} (reading : s.worker w = .reading c)
      (received : (s.chan c).receive A chunks = some ch) :
      Step A s (.store w chunks .eof) ((s.setChan c ch).goto w (.eof c))
  | inactivate {w c} (eof : s.worker w = .eof c) :
      Step A s (.inactivate w) ((s.setChan c (s.chan c).inactive).goto w (.closing (s.chan c).fd))
  | findNone {w fd} (notifying : s.worker w = .notifying fd)
      (absent : s.waitToHandleFD.lookup fd = none) :
      Step A s (.find w) (s.goto w (.emplacing fd))
  | findSome {w fd e} (notifying : s.worker w = .notifying fd)
      (present : s.waitToHandleFD.lookup fd = some e) :
      Step A s (.find w) (s.goto w (.found fd e.node))
  | emplaceNone {w fd} (emplacing : s.worker w = .emplacing fd)
      (absent : s.waitToHandleFD.lookup fd = none) :
      Step A s (.emplace w) ({ s with
        waitToHandleFD := s.waitToHandleFD.insert fd ⟨s.nextNode, .MORE⟩
        nextNode := s.nextNode + 1 }.goto w .idle)
  | emplaceSome {w fd e} (emplacing : s.worker w = .emplacing fd)
      (present : s.waitToHandleFD.lookup fd = some e) : Step A s (.emplace w) (s.goto w .idle)
  | promote {w fd e} (found : s.worker w = .found fd e.node)
      (present : s.waitToHandleFD.lookup fd = some e) :
      Step A s (.promote w) ((s.applySection .NotifyDataReady fd e).goto w .idle)
  | promoteDangling {w fd node} (found : s.worker w = .found fd node)
      (gone : ∀ e, s.waitToHandleFD.lookup fd = some e → e.node ≠ node) :
      Step A s (.promote w) ({ s with dangled := true }.goto w .idle)
  | notifyClose {w fd} (closing : s.worker w = .closing fd) :
      Step A s (.notifyClose w)
        ({ s with waitToHandleFD := s.waitToHandleFD.erase fd }.goto w .idle)
  | copy {entries} (idle : s.consumer = .idle) (copied : entries.Perm s.snapshot) :
      Step A s (.copy entries) { s with consumer := .scanning entries }
  | scanned (scanning : s.consumer = .scanning []) :
      Step A s .getChannel { s with consumer := .idle }
  | getChannel {fd state rest} (scanning : s.consumer = .scanning ((fd, state) :: rest)) :
      Step A s .getChannel { s with consumer := s.visit fd state rest }
  | getReceivedData {c fd rest} (holding : s.consumer = .holding c fd rest) :
      Step A s .getReceivedData { s.setChan c (s.chan c).getReceivedData.1 with
        consumer := .drained fd rest
        requests := s.requests ++ [⟨c, (s.chan c).fd, (s.chan c).getReceivedData.2⟩] }
  | demote {fd rest e} (drained : s.consumer = .drained fd rest)
      (present : s.waitToHandleFD.lookup fd = some e) :
      Step A s .demote { s.applySection .HandleReadyData fd e with consumer := .scanning rest }
  | demoteDangling {fd rest} (drained : s.consumer = .drained fd rest)
      (gone : s.waitToHandleFD.lookup fd = none) :
      Step A s .demote { s with consumer := .scanning rest, dangled := true }
  | accept {fd} (idle : s.accepted = none) (unused : s.isOpen fd = false) :
      Step A s (.accept fd) { s.setChan s.nextChan (Channel.create A fd (some 0)) with
        nextChan := s.nextChan + 1
        isOpen := Function.update s.isOpen fd true
        accepted := some s.nextChan }
  | register {c} (accepted : s.accepted = some c) :
      Step A s .register
        { s with allChannel := s.allChannel.emplace (s.chan c).fd c, accepted := none }
  | close {d fd} (idle : s.closer d = none) (used : s.isOpen fd = true) :
      Step A s (.close d fd) { s with
        isOpen := Function.update s.isOpen fd false
        closer := Function.update s.closer d (some fd) }
  | removeSome {d fd c} (closed : s.closer d = some fd) (filed : s.allChannel fd = some c) :
      Step A s (.remove d) { s.setChan c (s.chan c).inactive with
        closer := Function.update s.closer d none
        allChannel := s.allChannel.erase fd }
  | removeNone {d fd} (closed : s.closer d = some fd) (absent : s.allChannel fd = none) :
      Step A s (.remove d) { s with closer := Function.update s.closer d none }
  | respondSome {i data r c} (request : s.requests[i]? = some r)
      (filed : s.allChannel r.fd = some c) :
      Step A s (.respond i data) { s with answers := s.answers ++ [⟨c, r.origin, data⟩] }
  | respondNone {i data r} (request : s.requests[i]? = some r)
      (absent : s.allChannel r.fd = none) : Step A s (.respond i data) s
  | append {i a} (answer : s.answers[i]? = some a) (active : (s.chan a.target).active = true) :
      Step A s (.append i) { s.setChan a.target ((s.chan a.target).appendToSend A a.data) with
        answers := s.answers.eraseIdx i
        delivered := s.delivered ++ [a] }
  | appendInactive {i a} (answer : s.answers[i]? = some a)
      (inactive : (s.chan a.target).active = false) :
      Step A s (.append i) { s with answers := s.answers.eraseIdx i }
  | discard {i} (request : i < s.requests.length) :
      Step A s (.discard i) { s with requests := s.requests.eraseIdx i }

theorem step_cases {A : Text.Allocator} {s s' : NotificationCenter W D} {a : Action W D}
    (hstep : (machine W D A).step s a = some s') : Step A s a s' := by
  cases a with
  | enter w c =>
    simp only [machine, step] at hstep
    split at hstep
    · rename_i hpc
      split at hstep <;> cases hstep
      rename_i hc
      exact .enter hpc hc.1 hc.2.1 hc.2.2
    · cases hstep
  | store w chunks ended =>
    simp only [machine, step] at hstep
    split at hstep
    · rename_i c hpc
      obtain ⟨ch, hreceive, rfl⟩ := Option.map_eq_some_iff.mp hstep
      cases ended with
      | error => exact .storeError hpc hreceive
      | eof => exact .storeEof hpc hreceive
    · cases hstep
  | inactivate w =>
    simp only [machine, step] at hstep
    split at hstep <;> cases hstep
    rename_i hpc
    exact .inactivate hpc
  | find w =>
    simp only [machine, step] at hstep
    split at hstep
    · rename_i hpc
      split at hstep <;> cases hstep <;> rename_i hlookup
      · exact .findNone hpc hlookup
      · exact .findSome hpc hlookup
    · cases hstep
  | emplace w =>
    simp only [machine, step] at hstep
    split at hstep
    · rename_i hpc
      split at hstep <;> cases hstep <;> rename_i hlookup
      · exact .emplaceNone hpc hlookup
      · exact .emplaceSome hpc hlookup
    · cases hstep
  | promote w =>
    simp only [machine, step] at hstep
    split at hstep
    · rename_i fd node hpc
      split at hstep <;> cases hstep <;> rename_i hlookup
      · obtain ⟨he, hnode⟩ := Option.filter_eq_some_iff.mp hlookup
        obtain rfl := of_decide_eq_true hnode
        exact .promote hpc he
      · apply Step.promoteDangling hpc
        intro e he hnode
        exact Option.filter_eq_none_iff.mp hlookup e he (decide_eq_true hnode)
    · cases hstep
  | notifyClose w =>
    simp only [machine, step] at hstep
    split at hstep <;> cases hstep
    rename_i hpc
    exact .notifyClose hpc
  | copy entries =>
    simp only [machine, step] at hstep
    split at hstep
    · rename_i hpc
      split at hstep <;> cases hstep
      rename_i hperm
      exact .copy hpc hperm
    · cases hstep
  | getChannel =>
    simp only [machine, step] at hstep
    split at hstep <;> cases hstep <;> rename_i hpc
    · exact .scanned hpc
    · exact .getChannel hpc
  | getReceivedData =>
    simp only [machine, step] at hstep
    split at hstep <;> cases hstep
    rename_i hpc
    exact .getReceivedData hpc
  | demote =>
    simp only [machine, step] at hstep
    split at hstep
    · rename_i hpc
      split at hstep <;> cases hstep <;> rename_i hlookup
      · exact .demote hpc hlookup
      · exact .demoteDangling hpc hlookup
    · cases hstep
  | accept fd =>
    simp only [machine, step] at hstep
    split at hstep <;> cases hstep
    rename_i hguard
    exact .accept hguard.1 hguard.2.2
  | register =>
    simp only [machine, step] at hstep
    split at hstep <;> cases hstep
    rename_i hc
    exact .register hc
  | close d fd =>
    simp only [machine, step] at hstep
    split at hstep
    · rename_i hidle
      split at hstep <;> cases hstep
      rename_i hopen
      exact .close hidle hopen
    · cases hstep
  | remove d =>
    simp only [machine, step] at hstep
    split at hstep
    · rename_i hclosed
      split at hstep <;> cases hstep <;> rename_i hfiled
      · exact .removeSome hclosed hfiled
      · exact .removeNone hclosed hfiled
    · cases hstep
  | respond i data =>
    simp only [machine, step] at hstep
    split at hstep
    · rename_i hr
      split at hstep <;> cases hstep <;> rename_i hfiled
      · exact .respondSome hr hfiled
      · exact .respondNone hr hfiled
    · cases hstep
  | append i =>
    simp only [machine, step] at hstep
    split at hstep
    · rename_i ha
      split at hstep <;> cases hstep <;> rename_i hactive
      · exact .append ha hactive
      · exact .appendInactive ha (Bool.eq_false_iff.mpr hactive)
    · cases hstep
  | discard i =>
    simp only [machine, step] at hstep
    split at hstep <;> cases hstep
    rename_i hi
    exact .discard hi

/-- What every run keeps of the channel objects: a channel is filed and held under its own
descriptor. -/
structure Registry (s : NotificationCenter W D) : Prop where
  filed : ∀ fd c, s.allChannel fd = some c → c < s.nextChan ∧ (s.chan c).fd = fd
  fresh : ∀ c, s.accepted = some c → c < s.nextChan
  held : ∀ c fd rest, s.consumer = .holding c fd rest → c < s.nextChan ∧ (s.chan c).fd = fd

section Registry

omit [DecidableEq W] [DecidableEq D]

variable {A : Text.Allocator} {s : NotificationCenter W D}

theorem setChan_self (c : Nat) (ch : Channel) : (s.setChan c ch).chan c = ch :=
  Function.update_self ..

theorem setChan_of_ne {c c' : Nat} (h : c' ≠ c) (ch : Channel) :
    (s.setChan c ch).chan c' = s.chan c' :=
  Function.update_of_ne h ..

theorem setChan_fd {c : Nat} {ch : Channel} (h : ch.fd = (s.chan c).fd) (c' : Nat) :
    ((s.setChan c ch).chan c').fd = (s.chan c').fd := by
  rcases eq_or_ne c' c with rfl | hne
  · rw [setChan_self, h]
  · rw [setChan_of_ne hne]

theorem Registry.setChan (h : s.Registry) (c : Nat) (ch : Channel) (hfd : ch.fd = (s.chan c).fd) :
    (s.setChan c ch).Registry where
  filed fd c' hc' := by
    rw [setChan_fd hfd]
    exact h.filed fd c' hc'
  fresh := h.fresh
  held c' fd rest hc' := by
    rw [setChan_fd hfd]
    exact h.held c' fd rest hc'

theorem Registry.consume (h : s.Registry) {pc : ConsumerPc}
    (hpc : ∀ c fd rest, pc = .holding c fd rest → c < s.nextChan ∧ (s.chan c).fd = fd) :
    ({ s with consumer := pc } : NotificationCenter W D).Registry :=
  ⟨h.filed, h.fresh, hpc⟩

theorem visit_eq_holding {fd fd' : Int} {state : ReadyState} {rest rest' : List (Int × ReadyState)}
    {c : Nat} (h : s.visit fd state rest = .holding c fd' rest') :
    s.allChannel fd = some c ∧ fd' = fd := by
  simp only [visit] at h
  split at h
  · cases h
  · rename_i hc
    split at h <;> cases h
    exact ⟨hc, rfl⟩

theorem initial_registry : (initial A : NotificationCenter W D).Registry where
  filed := nofun
  fresh := nofun
  held := nofun

end Registry

section Workers

omit [DecidableEq D]

variable {s : NotificationCenter W D}

theorem worker_goto_self (w : W) (pc : WorkerPc) : (s.goto w pc).worker w = pc :=
  Function.update_self ..

theorem worker_goto_of_ne {v w : W} (h : v ≠ w) (pc : WorkerPc) :
    (s.goto w pc).worker v = s.worker v :=
  Function.update_of_ne h ..

theorem worker_goto {w v : W} {pc pc' : WorkerPc} (h : (s.goto w pc).worker v = pc') :
    v = w ∧ pc = pc' ∨ v ≠ w ∧ s.worker v = pc' := by
  rcases eq_or_ne v w with rfl | hne
  · exact .inl ⟨rfl, (worker_goto_self v pc).symm.trans h⟩
  · exact .inr ⟨hne, (worker_goto_of_ne hne pc).symm.trans h⟩

theorem goto_goto (s : NotificationCenter W D) (w : W) (pc pc' : WorkerPc) :
    (s.goto w pc).goto w pc' = s.goto w pc' := by
  simp only [goto, Function.update_idem]

theorem goto_idle {w : W} (hw : s.worker w = .idle) : s.goto w .idle = s := by
  have hsame : Function.update s.worker w .idle = s.worker :=
    Function.update_eq_self_iff.mpr hw.symm
  rw [goto, hsame]

theorem Registry.goto (h : s.Registry) (w : W) (pc : WorkerPc) :
    (s.goto w pc).Registry :=
  ⟨h.filed, h.fresh, h.held⟩

end Workers

theorem registry_step {A : Text.Allocator} {cond : NotificationCenter W D → Action W D → Prop} :
    (machine W D A).Preserves cond Registry := by
  intro s a s' h _ hstep
  cases step_cases hstep with
  | enter | findNone | findSome | emplaceSome => exact h.goto _ _
  | emplaceNone | promote | promoteDangling | notifyClose | close | removeNone | respondSome
  | respondNone | appendInactive | discard => exact ⟨h.filed, h.fresh, h.held⟩
  | storeError _ hreceive | storeEof _ hreceive =>
    obtain ⟨buf, count, _, hch⟩ := Channel.receive_cases hreceive
    exact (h.setChan _ _ (by rw [hch])).goto _ _
  | @inactivate w c => exact (h.setChan c (s.chan c).inactive rfl).goto w _
  | copy | scanned => exact h.consume nofun
  | getChannel =>
    apply h.consume
    intro c fd rest hpc
    obtain ⟨hc, rfl⟩ := visit_eq_holding hpc
    exact h.filed _ c hc
  | @getReceivedData c =>
    obtain ⟨count, hch, _⟩ := (s.chan c).getReceivedData_cases
    have hset := h.setChan c (s.chan c).getReceivedData.1 (by rw [hch])
    exact ⟨hset.filed, hset.fresh, nofun⟩
  | demote | demoteDangling => exact ⟨h.filed, h.fresh, nofun⟩
  | @accept fd =>
    have hold {c : Nat} {fd' : Int} (hc : c < s.nextChan ∧ (s.chan c).fd = fd') :
        c < s.nextChan + 1 ∧ ((s.setChan s.nextChan (.create A fd (some 0))).chan c).fd = fd' := by
      rw [setChan_of_ne (Nat.ne_of_lt hc.1)]
      exact ⟨Nat.lt_succ_of_lt hc.1, hc.2⟩
    refine ⟨fun fd' c hc => hold (h.filed fd' c hc), ?_,
      fun c fd' rest hc => hold (h.held c fd' rest hc)⟩
    rintro c ⟨⟩
    exact Nat.lt_succ_self _
  | @register c hc =>
    refine ⟨fun fd c' hc' => ?_, nofun, h.held⟩
    rcases ChannelMap.emplace_cases hc' with hc' | ⟨_, rfl, rfl⟩
    · exact h.filed fd c' hc'
    · exact ⟨h.fresh c' hc, rfl⟩
  | @removeSome d fd c =>
    have hset := h.setChan c (s.chan c).inactive rfl
    refine ⟨fun fd' c' hc' => ?_, hset.fresh, hset.held⟩
    exact hset.filed fd' c' (ChannelMap.erase_cases hc').2
  | @append i a =>
    obtain ⟨buf, hch⟩ := (s.chan a.target).appendToSend_cases A a.data
    have hset := h.setChan a.target ((s.chan a.target).appendToSend A a.data) (by rw [hch])
    exact ⟨hset.filed, hset.fresh, hset.held⟩

theorem registry_of_reachable {A : Text.Allocator} {s : NotificationCenter W D}
    {cond : NotificationCenter W D → Action W D → Prop}
    (h : (machine W D A).ReachableUnder cond s) : s.Registry := by
  refine h.invariant ?_ registry_step
  rintro s rfl
  exact initial_registry

end NotificationCenter

end ServerDevLib.Reactor
