import ServerDevLib.Foundation.Transition
import ServerDevLib.Tcp.TcpServer
import Mathlib.Data.List.Nodup
import Mathlib.Data.List.Perm.Basic

/-!
# The connections of a server

One server lives in a process that opens and closes descriptors of its own,
some of them through sockets. The kernel gives a new descriptor any number that
is free. As long as nobody else closes what the server still lists, its list
has the connections that it has accepted and that are open, every `close` it
makes hits an object of its own, and a connection leaves the list only closed
or let go by a `Shutdown` that does not save.
-/

namespace ServerDevLib.Tcp

open Transition

universe u

/-- `created` and `accepted` are the objects that the server has opened, `accepted` its
connections under a positive number; `closed` has its calls of `close`, `released` the
connections that a `Shutdown` left open. -/
structure Process (K : Type u) where
  server : TcpServer
  sockets : K → TcpSocket
  kernel : Descriptors
  created : List Nat
  accepted : List Nat
  closed : List (Int × Option Nat)
  released : List Nat

namespace Process

inductive Action (K : Type u)
  | init (got : Int)
  | bind (addr : Address) (converted got : Int)
  | listen (n got : Int)
  | accept (got : Int)
  | reuseAddress (opt got : Int)
  | disableNagle (opt got : Int)
  | shutdown
  | autoSaveAcceptedFD (b : Bool)
  | closeCilent (fd : Int)
  | socket (k : K) (got : Int)
  | wrap (k : K) (fd : Int)
  | copy (k k' : K)
  | closeSocket (k : K)
  | open (fd : Int)
  | close (fd : Int)

variable {K : Type u}

/-- What the kernel may return for a new descriptor. -/
def Grants (s : Process K) (got : Int) : Prop := got = -1 ∨ 0 ≤ got ∧ s.kernel.object got = none

instance (s : Process K) (got : Int) : Decidable (s.Grants got) :=
  inferInstanceAs (Decidable (_ ∨ _))

/-- The effect of a system call of the server that returns `got`. -/
def perform (s : Process K) (got : Int) : Call → Process K
  | .socket =>
    if 0 ≤ got then
      { s with kernel := s.kernel.openAt got, created := s.created ++ [s.kernel.next] }
    else s
  | .accept _ =>
    if 0 ≤ got then
      { s with
        kernel := s.kernel.openAt got, created := s.created ++ [s.kernel.next]
        accepted := if 0 < got then s.accepted ++ [s.kernel.next] else s.accepted }
    else s
  | .close fd =>
    { s with kernel := s.kernel.closeAt fd, closed := s.closed ++ [(fd, s.kernel.object fd)] }
  | .bind _ _ | .listen _ _ | .setsockopt _ _ _ _ => s

def serve {R : Type} (s : Process K) (o : Outcome R) (got : Int) : Process K :=
  o.calls.foldl (fun s call => s.perform got call) { s with server := o.server }

/-- The connections that a `Shutdown` in this state leaves open. -/
def abandoned (s : Process K) : List Nat :=
  if s.server.access = true ∧ s.server.saveAllConnection = false then
    s.server.allAccepted.filterMap s.kernel.object
  else []

variable [DecidableEq K]

def setSocket (s : Process K) (k : K) (socket : TcpSocket) : Process K :=
  { s with sockets := Function.update s.sockets k socket }

def step (s : Process K) : Action K → Option (Process K)
  | .init got => if s.Grants got then some (s.serve (s.server.init got) got) else none
  | .bind addr converted got => some (s.serve (s.server.bind addr converted got) got)
  | .listen n got => some (s.serve (s.server.listen n got) got)
  | .accept got =>
    if s.Grants got ∧ (0 ≤ got → (s.kernel.object s.server.fd).isSome = true) then
      some (s.serve (s.server.accept got) got)
    else none
  | .reuseAddress opt got => some (s.serve (s.server.reuseAddress opt got) got)
  | .disableNagle opt got => some (s.serve (s.server.disableNagle opt got) got)
  | .shutdown =>
    some ({ s with released := s.released ++ s.abandoned }.serve s.server.shutdown 0)
  | .autoSaveAcceptedFD b => some (s.serve (s.server.autoSaveAcceptedFD b) 0)
  | .closeCilent fd => some (s.serve (s.server.closeCilent fd) 0)
  | .socket k got =>
    if s.Grants got then
      some { s.setSocket k (.ofFd got) with
        kernel := if 0 ≤ got then s.kernel.openAt got else s.kernel }
    else none
  | .wrap k fd => some (s.setSocket k (.ofFd fd))
  | .copy k k' => some (s.setSocket k (s.sockets k'))
  | .closeSocket k =>
    some { s.setSocket k (s.sockets k).close.1 with
      kernel := if (s.sockets k).valid then s.kernel.closeAt (s.sockets k).fd else s.kernel }
  | .open fd =>
    if 0 ≤ fd ∧ s.kernel.object fd = none then some { s with kernel := s.kernel.openAt fd } else none
  | .close fd => some { s with kernel := s.kernel.closeAt fd }

def initial : Process K :=
  { server := .create, sockets := fun _ => ⟨-1, false⟩, kernel := .empty, created := [],
    accepted := [], closed := [], released := [] }

def machine (K : Type u) [DecidableEq K] : Machine (Process K) (Action K) where
  init s := s = initial
  step := step

omit [DecidableEq K] in
/-- The server holds the descriptor. -/
def Holds (s : Process K) (fd : Int) : Prop :=
  s.server.access = true ∧ fd = s.server.fd ∨ fd ∈ s.server.allAccepted

/-- Nobody but the server closes a descriptor that it holds. -/
def Respectful (s : Process K) : Action K → Prop
  | .closeSocket k => (s.sockets k).valid = true → ¬ s.Holds (s.sockets k).fd
  | .close fd => ¬ s.Holds fd
  | _ => True

instance (s : Process K) (fd : Int) : Decidable (s.Holds fd) :=
  inferInstanceAs (Decidable (_ ∨ _))

instance (s : Process K) (a : Action K) : Decidable (s.Respectful a) :=
  match a with
  | .closeSocket k => inferInstanceAs (Decidable ((s.sockets k).valid = true → ¬ s.Holds _))
  | .close fd => inferInstanceAs (Decidable (¬ s.Holds fd))
  | .init _ | .bind _ _ _ | .listen _ _ | .accept _ | .reuseAddress _ _ | .disableNagle _ _
  | .shutdown | .autoSaveAcceptedFD _ | .closeCilent _ | .socket _ _ | .wrap _ _ | .copy _ _
  | .open _ => isTrue trivial

/-- The objects on which the server has called `close`. -/
def closedObjects (s : Process K) : List Nat := s.closed.filterMap Prod.snd

/-- `l` lists the connections that the server has still to close or to let go. -/
structure Accounts (s : Process K) (l : List Int) : Prop where
  wf : s.kernel.WellFormed
  distinct : l.Nodup
  created : ∀ n ∈ s.created, n < s.kernel.next
  accepted : ∀ n ∈ s.accepted, n ∈ s.created
  listed : ∀ fd ∈ l, ∃ n ∈ s.accepted, s.kernel.object fd = some n
  own : ∀ p ∈ s.closed, p = (-1, none) ∨ ∃ n ∈ s.created, p.2 = some n
  gone : ∀ n ∈ s.closedObjects, ∀ fd, s.kernel.object fd ≠ some n
  once : s.closedObjects.Nodup
  kept : ∀ n ∈ s.accepted, (∃ fd ∈ l, s.kernel.object fd = some n) ∨ n ∈ s.closedObjects ∨
    n ∈ s.released

section Accounts

omit [DecidableEq K]

variable {s : Process K} {l : List Int} {fd : Int} {n : Nat}

theorem initial_accounts : (initial : Process K).Accounts [] where
  wf := Descriptors.empty_wellFormed
  distinct := List.nodup_nil
  created := nofun
  accepted := nofun
  listed := nofun
  own := nofun
  gone := nofun
  once := List.nodup_nil
  kept := nofun

/-- The state of the server and of the sockets is not accounted for. -/
theorem Accounts.outside (h : s.Accounts l) (server : TcpServer) (sockets : K → TcpSocket) :
    ({ s with server := server, sockets := sockets } : Process K).Accounts l :=
  ⟨h.wf, h.distinct, h.created, h.accepted, h.listed, h.own, h.gone, h.once, h.kept⟩

theorem Accounts.closed_created (h : s.Accounts l) (hn : n ∈ s.closedObjects) : n ∈ s.created := by
  obtain ⟨p, hp, hsome⟩ := List.mem_filterMap.mp hn
  rcases h.own p hp with rfl | ⟨m, hm, hobject⟩
  · cases hsome
  · rw [hobject] at hsome
    exact Option.some.inj hsome ▸ hm

theorem closedObjects_close (s : Process K) (got fd : Int) :
    (s.perform got (.close fd)).closedObjects = s.closedObjects ++ (s.kernel.object fd).toList := by
  simp only [closedObjects, perform, List.filterMap_append]
  cases s.kernel.object fd <;> rfl

/-- What is closed is an object of the server, or nothing at all; of the list it takes at most the
descriptor itself. -/
theorem Accounts.close (h : s.Accounts l) (got : Int) {l' : List Int} (hsub : l'.Sublist l)
    (hcover : ∀ fd' ∈ l, fd' = fd ∨ fd' ∈ l') (hfd : fd ∉ l')
    (hown : fd = -1 ∨ ∃ n ∈ s.created, s.kernel.object fd = some n) :
    (s.perform got (.close fd)).Accounts l' := by
  have hobject : (fd = -1 ∧ s.kernel.object fd = none) ∨
      ∃ n ∈ s.created, s.kernel.object fd = some n := by
    rcases hown with rfl | hown
    · left
      refine ⟨rfl, Option.eq_none_iff_forall_ne_some.mpr fun n hn => ?_⟩
      exact absurd (h.wf.nonneg _ n hn) (by decide)
    · exact .inr hown
  have hkeep {fd' : Int} {n : Nat} (hmem : fd' ∈ l') (hn : s.kernel.object fd' = some n) :
      (s.kernel.closeAt fd).object fd' = some n := by
    refine Descriptors.object_closeAt.mpr ⟨?_, hn⟩
    rintro rfl
    exact hfd hmem
  refine ⟨h.wf.closeAt fd, hsub.nodup h.distinct, h.created, h.accepted, fun fd' hmem => ?_,
    fun p hp => ?_, fun n hn fd' => ?_, ?_, fun n hn => ?_⟩
  · obtain ⟨n, hn, hold⟩ := h.listed fd' (hsub.subset hmem)
    exact ⟨n, hn, hkeep hmem hold⟩
  · rcases List.mem_append.mp hp with hp | hp
    · exact h.own p hp
    · obtain rfl := List.mem_singleton.mp hp
      rcases hobject with ⟨rfl, hnone⟩ | ⟨n, hn, hsome⟩
      · left
        rw [hnone]
      · exact .inr ⟨n, hn, hsome⟩
  · rw [closedObjects_close] at hn
    rcases List.mem_append.mp hn with hn | hn
    · exact fun hother => h.gone n hn fd' (Descriptors.object_closeAt.mp hother).2
    · exact h.wf.gone (Option.mem_toList.mp hn) fd'
  · rw [closedObjects_close]
    cases hcase : s.kernel.object fd with
    | none => simpa using h.once
    | some n =>
      refine List.Nodup.append h.once (List.nodup_singleton n) (List.disjoint_singleton.mpr ?_)
      exact fun hn => h.gone n hn fd hcase
  · rw [closedObjects_close]
    rcases h.kept n hn with ⟨fd', hmem, hold⟩ | hclosed | hreleased
    · rcases hcover fd' hmem with rfl | hmem
      · exact .inr (.inl (List.mem_append_right _ (Option.mem_toList.mpr hold)))
      · exact .inl ⟨fd', hmem, hkeep hmem hold⟩
    · exact .inr (.inl (List.mem_append_left _ hclosed))
    · exact .inr (.inr hreleased)

theorem Accounts.close_listed (h : s.Accounts l) (got : Int) (hfd : fd ∈ l) :
    (s.perform got (.close fd)).Accounts (l.erase fd) := by
  obtain ⟨n, hn, hobject⟩ := h.listed fd hfd
  refine h.close got List.erase_sublist (fun fd' hmem => ?_) ?_ (.inr ⟨n, h.accepted n hn, hobject⟩)
  · exact or_iff_not_imp_left.mpr fun hne => (List.mem_erase_of_ne hne).mpr hmem
  · exact fun hmem => ((h.distinct.mem_erase_iff).mp hmem).1 rfl

theorem Accounts.close_all (h : s.Accounts l) (got : Int) :
    ((l.map Call.close).foldl (fun s call => s.perform got call) s).Accounts [] := by
  induction l generalizing s with
  | nil => exact h
  | cons fd l ih =>
    have hclose := h.close_listed got (List.mem_cons_self ..)
    rw [List.erase_cons_head] at hclose
    exact ih hclose

/-- What is given up is recorded. -/
theorem Accounts.release (h : s.Accounts l) :
    ({ s with released := s.released ++ l.filterMap s.kernel.object } : Process K).Accounts [] where
  wf := h.wf
  distinct := List.nodup_nil
  created := h.created
  accepted := h.accepted
  listed := nofun
  own := h.own
  gone := h.gone
  once := h.once
  kept n hn := by
    rcases h.kept n hn with ⟨fd, hmem, hobject⟩ | hclosed | hreleased
    · exact .inr (.inr (List.mem_append_right _ (List.mem_filterMap.mpr ⟨fd, hmem, hobject⟩)))
    · exact .inr (.inl hclosed)
    · exact .inr (.inr (List.mem_append_left _ hreleased))

/-- The rest of the process opens a descriptor. -/
theorem Accounts.opened (h : s.Accounts l) {got : Int} (hgot : 0 ≤ got)
    (hfree : s.kernel.object got = none) :
    ({ s with kernel := s.kernel.openAt got } : Process K).Accounts l where
  wf := h.wf.openAt hgot
  distinct := h.distinct
  created n hn := Nat.lt_succ_of_lt (h.created n hn)
  accepted := h.accepted
  listed fd hmem := by
    obtain ⟨n, hn, hold⟩ := h.listed fd hmem
    exact ⟨n, hn, Descriptors.object_openAt_of_free hfree hold⟩
  own := h.own
  gone n hn fd := by
    intro hobject
    rcases Descriptors.object_openAt.mp hobject with ⟨_, rfl⟩ | ⟨_, hold⟩
    · exact Nat.lt_irrefl _ (h.created _ (h.closed_created hn))
    · exact h.gone n hn fd hold
  once := h.once
  kept n hn := by
    refine (h.kept n hn).imp_left fun ⟨fd, hmem, hold⟩ => ?_
    exact ⟨fd, hmem, Descriptors.object_openAt_of_free hfree hold⟩

/-- The rest of the process closes a descriptor that is not in the list. -/
theorem Accounts.closed_elsewhere (h : s.Accounts l) (hfd : fd ∉ l) :
    ({ s with kernel := s.kernel.closeAt fd } : Process K).Accounts l := by
  have hkeep {fd' : Int} {n : Nat} (hmem : fd' ∈ l) (hn : s.kernel.object fd' = some n) :
      (s.kernel.closeAt fd).object fd' = some n := by
    refine Descriptors.object_closeAt.mpr ⟨?_, hn⟩
    rintro rfl
    exact hfd hmem
  refine ⟨h.wf.closeAt fd, h.distinct, h.created, h.accepted, fun fd' hmem => ?_, h.own,
    fun n hn fd' hobject => h.gone n hn fd' (Descriptors.object_closeAt.mp hobject).2, h.once,
    fun n hn => ?_⟩
  · obtain ⟨n, hn, hold⟩ := h.listed fd' hmem
    exact ⟨n, hn, hkeep hmem hold⟩
  · exact (h.kept n hn).imp_left fun ⟨fd', hmem, hold⟩ => ⟨fd', hmem, hkeep hmem hold⟩

/-- The server opens a descriptor, and may list it as a connection. -/
theorem Accounts.created_by_server (h : s.Accounts l) {got : Int} (hgot : 0 ≤ got)
    (hfree : s.kernel.object got = none) :
    ({ s with kernel := s.kernel.openAt got, created := s.created ++ [s.kernel.next] } :
      Process K).Accounts l := by
  have hopened := h.opened hgot hfree
  refine ⟨hopened.wf, h.distinct, fun n hn => ?_, fun n hn => List.mem_append_left _ (h.accepted n hn),
    hopened.listed, fun p hp => ?_, hopened.gone, h.once, hopened.kept⟩
  · rcases List.mem_append.mp hn with hn | hn
    · exact Nat.lt_succ_of_lt (h.created n hn)
    · obtain rfl := List.mem_singleton.mp hn
      exact Nat.lt_succ_self _
  · exact (h.own p hp).imp_right fun ⟨n, hn, hobject⟩ => ⟨n, List.mem_append_left _ hn, hobject⟩

theorem Accounts.accepted_by_server (h : s.Accounts l) {got : Int} (hgot : 0 ≤ got)
    (hfree : s.kernel.object got = none) :
    ({ s with
      kernel := s.kernel.openAt got, created := s.created ++ [s.kernel.next]
      accepted := s.accepted ++ [s.kernel.next] } : Process K).Accounts (TcpServer.emplace l got) := by
  have hcreated := h.created_by_server hgot hfree
  have hself : (s.kernel.openAt got).object got = some s.kernel.next :=
    Descriptors.object_openAt.mpr (.inl ⟨rfl, rfl⟩)
  refine ⟨hcreated.wf, TcpServer.nodup_emplace h.distinct got, hcreated.created, fun n hn => ?_,
    fun fd hmem => ?_, hcreated.own, hcreated.gone, h.once, fun n hn => ?_⟩
  · rcases List.mem_append.mp hn with hn | hn
    · exact List.mem_append_left _ (h.accepted n hn)
    · exact List.mem_append_right _ hn
  · rcases TcpServer.mem_emplace.mp hmem with rfl | hmem
    · exact ⟨_, List.mem_append_right _ (List.mem_singleton_self _), hself⟩
    · obtain ⟨n, hn, hobject⟩ := hcreated.listed fd hmem
      exact ⟨n, List.mem_append_left _ hn, hobject⟩
  · rcases List.mem_append.mp hn with hn | hn
    · exact (hcreated.kept n hn).imp_left fun ⟨fd, hmem, hobject⟩ =>
        ⟨fd, TcpServer.mem_emplace.mpr (.inr hmem), hobject⟩
    · obtain rfl := List.mem_singleton.mp hn
      exact .inl ⟨got, TcpServer.mem_emplace.mpr (.inl rfl), hself⟩

end Accounts

structure Owned (s : Process K) : Prop where
  accounts : s.Accounts s.server.allAccepted
  listening : s.server.access = true → s.server.fd ∉ s.server.allAccepted ∧
    (s.server.fd = -1 ∨ ∃ n ∈ s.created, s.kernel.object s.server.fd = some n)
  idle : s.server.access = false → s.server.allAccepted = []

section Owned

omit [DecidableEq K]

variable {s : Process K}

theorem initial_owned : (initial : Process K).Owned where
  accounts := initial_accounts
  listening := nofun
  idle _ := rfl

/-- The new descriptor of the server is open, if there is one. -/
theorem Owned.init (h : s.Owned) {got : Int} (hgrants : s.Grants got) :
    (s.serve (s.server.init got) got).Owned := by
  cases haccess : s.server.access with
  | true =>
    simp only [TcpServer.init, haccess, if_true, serve, List.foldl_nil]
    exact h
  | false =>
    have hempty := h.idle haccess
    have hnot {fd : Int} : fd ∉ s.server.allAccepted := by
      rw [hempty]
      exact List.not_mem_nil
    have houtside := h.accounts.outside
      { s.server with fd := got, access := decide (got ≠ 0) } s.sockets
    simp only [TcpServer.init, haccess, Bool.false_eq_true, if_false, serve, List.foldl_cons,
      List.foldl_nil, perform]
    rcases hgrants with rfl | ⟨hgot, hfree⟩
    · rw [if_neg (by decide)]
      exact ⟨houtside, fun _ => ⟨hnot, .inl rfl⟩, fun _ => hempty⟩
    · rw [if_pos hgot]
      refine ⟨houtside.created_by_server hgot hfree, fun _ => ⟨hnot, .inr ⟨s.kernel.next, ?_, ?_⟩⟩,
        fun _ => hempty⟩
      · exact List.mem_append_right _ (List.mem_singleton_self _)
      · exact Descriptors.object_openAt.mpr (.inl ⟨rfl, rfl⟩)

/-- Opening a free number takes nothing from the server. -/
theorem Owned.listening_openAt (h : s.Owned) {got : Int} (hfree : s.kernel.object got = none)
    (haccess : s.server.access = true) : s.server.fd = -1 ∨
      ∃ n ∈ s.created, (s.kernel.openAt got).object s.server.fd = some n :=
  (h.listening haccess).2.imp_right fun ⟨n, hn, hobject⟩ =>
    ⟨n, hn, Descriptors.object_openAt_of_free hfree hobject⟩

theorem Owned.accept (h : s.Owned) {got : Int} (hgrants : s.Grants got) :
    (s.serve (s.server.accept got) got).Owned := by
  cases haccess : s.server.access with
  | false =>
    simp only [TcpServer.accept, haccess, Bool.false_eq_true, if_false, serve, List.foldl_nil]
    exact h
  | true =>
    simp only [TcpServer.accept, haccess, if_true, serve, List.foldl_cons, List.foldl_nil, perform]
    have hidle {P : Prop} (hfalse : s.server.access = false) : P := by
      rw [haccess] at hfalse
      cases hfalse
    rcases hgrants with rfl | ⟨hgot, hfree⟩
    · rw [if_neg (by decide), if_neg (by decide)]
      exact h
    · rw [if_pos hgot]
      have hlistening := h.listening_openAt hfree haccess
      have hlater : s.server.fd = -1 ∨ ∃ n ∈ s.created ++ [s.kernel.next],
          (s.kernel.openAt got).object s.server.fd = some n :=
        hlistening.imp_right fun ⟨n, hn, hobject⟩ => ⟨n, List.mem_append_left _ hn, hobject⟩
      by_cases hpos : 0 < got
      · rw [if_pos hpos, if_pos hpos]
        refine ⟨(h.accounts.accepted_by_server hgot hfree).outside _ _, fun _ => ⟨?_, hlater⟩, nofun⟩
        intro hmem
        rcases TcpServer.mem_emplace.mp hmem with heq | hmem
        · have heq : s.server.fd = got := heq
          rcases (h.listening haccess).2 with hnone | ⟨n, _, hobject⟩
          · omega
          · rw [heq, hfree] at hobject
            cases hobject
        · exact (h.listening haccess).1 hmem
      · rw [if_neg hpos, if_neg hpos]
        exact ⟨h.accounts.created_by_server hgot hfree, fun _ => ⟨(h.listening haccess).1, hlater⟩,
          hidle⟩

theorem server_serve {R : Type} (s : Process K) (o : Outcome R) (got : Int) :
    (s.serve o got).server = o.server := by
  have hperform (t : Process K) (call : Call) : (t.perform got call).server = t.server := by
    cases call <;> simp only [perform] <;> split <;> rfl
  have hall (calls : List Call) (t : Process K) :
      (calls.foldl (fun s call => s.perform got call) t).server = t.server := by
    induction calls generalizing t with
    | nil => rfl
    | cons call calls ih => exact (ih _).trans (hperform t call)
  exact hall o.calls _

/-- The listening descriptor goes first, and then every connection or none. -/
theorem Owned.shutdown (h : s.Owned) :
    ({ s with released := s.released ++ s.abandoned }.serve s.server.shutdown 0 :
      Process K).Owned := by
  cases haccess : s.server.access with
  | false =>
    simp only [TcpServer.shutdown, haccess, Bool.false_eq_true, if_false, serve, List.foldl_nil,
      abandoned, false_and, List.append_nil]
    exact h
  | true =>
    obtain ⟨hnot, hown⟩ := h.listening haccess
    have hserver := server_serve { s with released := s.released ++ s.abandoned } s.server.shutdown 0
    have hstart := h.accounts.outside { s.server with access := false, allAccepted := [] } s.sockets
    have hcover : ∀ fd ∈ s.server.allAccepted, fd = s.server.fd ∨ fd ∈ s.server.allAccepted :=
      fun _ hmem => .inr hmem
    rw [TcpServer.shutdown, if_pos haccess] at hserver ⊢
    refine ⟨?_, ?_, ?_⟩
    · rw [hserver]
      simp only [serve, List.foldl_cons, abandoned, haccess, true_and]
      cases hsave : s.server.saveAllConnection with
      | true =>
        have hclosed := (hstart.close 0 (.refl _) hcover hnot hown).close_all 0
        simp only [hsave] at hclosed
        simpa using hclosed
      | false =>
        have hreleased := hstart.release.close 0 (.refl _) nofun List.not_mem_nil hown
        simp only [hsave] at hreleased
        exact hreleased
    · intro htrue
      rw [hserver] at htrue
      cases htrue
    · intro _
      rw [hserver]

theorem Owned.closeCilent (h : s.Owned) (fd : Int) :
    (s.serve (s.server.closeCilent fd) 0).Owned := by
  simp only [TcpServer.closeCilent]
  split
  · rename_i hmem
    have hclosed := (h.accounts.outside
      { s.server with allAccepted := s.server.allAccepted.erase fd } s.sockets).close_listed 0 hmem
    refine ⟨hclosed, fun haccess => ⟨?_, ?_⟩, fun haccess => ?_⟩
    · exact fun herase => (h.listening haccess).1 (List.mem_of_mem_erase herase)
    · refine (h.listening haccess).2.imp_right fun ⟨n, hn, hobject⟩ => ⟨n, hn, ?_⟩
      refine Descriptors.object_closeAt.mpr ⟨fun heq => ?_, hobject⟩
      have heq : s.server.fd = fd := heq
      exact (h.listening haccess).1 (heq ▸ hmem)
    · change s.server.allAccepted.erase fd = []
      rw [h.idle haccess]
      rfl
  · exact h

/-- What the rest of the process does with descriptors that the server does not hold. -/
theorem Owned.opened (h : s.Owned) {got : Int} (hgot : 0 ≤ got)
    (hfree : s.kernel.object got = none) :
    ({ s with kernel := s.kernel.openAt got } : Process K).Owned :=
  ⟨h.accounts.opened hgot hfree, fun haccess =>
    ⟨(h.listening haccess).1, h.listening_openAt hfree haccess⟩, h.idle⟩

theorem Owned.closed (h : s.Owned) {fd : Int} (hfd : ¬ s.Holds fd) :
    ({ s with kernel := s.kernel.closeAt fd } : Process K).Owned := by
  obtain ⟨hserver, hlist⟩ := not_or.mp hfd
  refine ⟨h.accounts.closed_elsewhere hlist, fun haccess => ⟨(h.listening haccess).1, ?_⟩, h.idle⟩
  refine (h.listening haccess).2.imp_right fun ⟨n, hn, hobject⟩ => ⟨n, hn, ?_⟩
  exact Descriptors.object_closeAt.mpr ⟨fun heq => hserver ⟨haccess, heq.symm⟩, hobject⟩

theorem Owned.outside (h : s.Owned) (sockets : K → TcpSocket) :
    ({ s with sockets := sockets } : Process K).Owned :=
  ⟨h.accounts.outside s.server sockets, h.listening, h.idle⟩

theorem Owned.forward (h : s.Owned) (call : Call) (got : Int)
    (hcall : ∀ t : Process K, t.perform got call = t) :
    (s.serve (s.server.forward call got) got).Owned := by
  simp only [TcpServer.forward]
  split
  · simp only [serve, List.foldl_cons, List.foldl_nil, hcall]
    exact h
  · exact h

end Owned

theorem owned_step : (machine K).Preserves Respectful Owned := by
  intro s a s' h hrespectful hstep
  cases a with
  | init got =>
    obtain ⟨hgrants, hs⟩ := Option.ite_none_right_eq_some.mp hstep
    cases hs
    exact h.init hgrants
  | bind addr converted got =>
    cases hstep
    simp only [TcpServer.bind]
    split
    · exact h
    · exact ⟨h.accounts.outside { s.server with addr := addr } s.sockets, h.listening, h.idle⟩
  | listen n got | reuseAddress opt got | disableNagle opt got =>
    cases hstep
    exact h.forward _ got fun _ => rfl
  | accept got =>
    obtain ⟨hguard, hs⟩ := Option.ite_none_right_eq_some.mp hstep
    cases hs
    exact h.accept hguard.1
  | shutdown =>
    cases hstep
    exact h.shutdown
  | autoSaveAcceptedFD b =>
    cases hstep
    exact ⟨h.accounts.outside { s.server with saveAllConnection := b } s.sockets, h.listening, h.idle⟩
  | closeCilent fd =>
    cases hstep
    exact h.closeCilent fd
  | socket k got =>
    obtain ⟨hgrants, hs⟩ := Option.ite_none_right_eq_some.mp hstep
    cases hs
    rcases hgrants with rfl | ⟨hgot, hfree⟩
    · rw [if_neg (by decide)]
      exact h.outside _
    · rw [if_pos hgot]
      exact (h.opened hgot hfree).outside _
  | wrap k fd | copy k k' =>
    cases hstep
    exact h.outside _
  | closeSocket k =>
    cases hstep
    cases hvalid : (s.sockets k).valid with
    | false =>
      simp only [Bool.false_eq_true, if_false]
      exact h.outside _
    | true =>
      simp only [if_true]
      exact (h.closed (hrespectful hvalid)).outside _
  | «open» fd =>
    obtain ⟨⟨hfd, hfree⟩, hs⟩ := Option.ite_none_right_eq_some.mp hstep
    cases hs
    exact h.opened hfd hfree
  | close fd =>
    cases hstep
    exact h.closed hrespectful

theorem owned_of_reachable {s : Process K} (h : (machine K).ReachableUnder Respectful s) :
    s.Owned := by
  refine h.invariant ?_ owned_step
  rintro s rfl
  exact initial_owned

/-- In every run in which nobody else closes what the server holds: what is in `_allAccepted` are
open connections that it has accepted; each `close` it has made was of an object it had opened, and
of none twice, or of the failed listening socket; and a connection that has left `_allAccepted` was
closed by the server or let go by a `Shutdown` that does not save. -/
theorem closes_own (s : Process K) (h : (machine K).ReachableUnder Respectful s) :
    (∀ fd ∈ s.server.allAccepted, ∃ n ∈ s.accepted, s.kernel.object fd = some n) ∧
      (∀ p ∈ s.closed, p = (-1, none) ∨ ∃ n ∈ s.created, p.2 = some n) ∧ s.closedObjects.Nodup ∧
      ∀ n ∈ s.accepted, (∃ fd ∈ s.server.allAccepted, s.kernel.object fd = some n) ∨
        n ∈ s.closedObjects ∨ n ∈ s.released := by
  have haccounts := (owned_of_reachable h).accounts
  exact ⟨haccounts.listed, haccounts.own, haccounts.once, haccounts.kept⟩

/-- Two connections are accepted, one under the number of one that was closed before; the saving
`Shutdown` closes the listening socket and both. -/
theorem closes_own_saved : ∃ s, (machine Unit).runUnder Respectful initial
    [.init 3, .listen 512 0, .autoSaveAcceptedFD true, .accept 4, .closeCilent 4, .accept 4,
      .accept 5, .socket () 6, .closeSocket (), .shutdown] = some s ∧
    (s.closed, s.released) = ([(4, some 1), (3, some 0), (4, some 2), (5, some 3)], []) ∧
    s.closedObjects.Nodup ∧ ∀ n ∈ s.accepted,
      (∃ fd ∈ s.server.allAccepted, s.kernel.object fd = some n) ∨
        n ∈ s.closedObjects ∨ n ∈ s.released := by
  obtain ⟨s, hs, heq⟩ : ∃ s, (machine Unit).runUnder Respectful initial
      [.init 3, .listen 512 0, .autoSaveAcceptedFD true, .accept 4, .closeCilent 4, .accept 4,
        .accept 5, .socket () 6, .closeSocket (), .shutdown] = some s ∧
      (s.closed, s.released) = ([(4, some 1), (3, some 0), (4, some 2), (5, some 3)], []) :=
    Option.map_eq_some_iff.mp (by decide +kernel)
  obtain ⟨_, _, honce, hkept⟩ := closes_own s (Machine.reachableUnder_of_runUnder rfl hs)
  exact ⟨s, hs, heq, honce, hkept⟩

end Process

end ServerDevLib.Tcp
