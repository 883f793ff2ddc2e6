import Mathlib.Data.BitVec
import Mathlib.Logic.Function.Basic

/-!
# Event masks and the demultiplexer

The masks of `epoll` are 32-bit words. The demultiplexer keeps the mask it
registers descriptors with, and `epoll_ctl` keeps for each registered
descriptor the mask that was set last.
-/

namespace ServerDevLib.Reactor

abbrev Events := BitVec 32

def EPOLLIN : Events := 0x1#32
def EPOLLOUT : Events := 0x4#32
def EPOLLERR : Events := 0x8#32
def EPOLLHUP : Events := 0x10#32
def EPOLLRDHUP : Events := 0x2000#32
def EPOLLET : Events := 0x80000000#32

def DEFAULT_EVENTS : Events := EPOLLET ||| EPOLLIN ||| EPOLLHUP ||| EPOLLERR

/-- The test `events & flag` of the source. -/
def Events.has (events flag : Events) : Bool := events &&& flag != 0#32

def Events.without (events flag : Events) : Events := events &&& ~~~flag

theorem has_twoPow (events : Events) (i : Nat) (hi : i < 32) :
    events.has (BitVec.twoPow 32 i) = events.getLsbD i := by
  rw [Events.has, BitVec.and_twoPow]
  split
  · rename_i h
    have hne : BitVec.twoPow 32 i ≠ 0#32 := by
      intro hzero
      have hbit := congrArg (BitVec.getLsbD · i) hzero
      simp [hi] at hbit
    rw [h, bne_iff_ne]
    exact hne
  · rename_i h
    simp [h]

@[simp] theorem has_or_out (events : Events) : Events.has (events ||| EPOLLOUT) EPOLLOUT = true := by
  rw [show EPOLLOUT = BitVec.twoPow 32 2 from rfl, has_twoPow _ _ (by decide)]
  simp

@[simp] theorem has_without_out (events : Events) :
    Events.has (Events.without events EPOLLOUT) EPOLLOUT = false := by
  rw [show EPOLLOUT = BitVec.twoPow 32 2 from rfl, has_twoPow _ _ (by decide)]
  simp [Events.without]

/-- The mask new descriptors get, and the interest list of the `epoll` instance. -/
structure Demultiplexer where
  events : Events
  interest : Int → Option Events

namespace Demultiplexer

def create : Demultiplexer := { events := DEFAULT_EVENTS, interest := fun _ => none }

/-- `EPOLL_CTL_ADD`; it fails for a member of the list, and for other reasons of the system. -/
def registerFd (d : Demultiplexer) (fd : Int) (ok : Bool) : Demultiplexer :=
  if fd < 0 then d
  else if ok && (d.interest fd).isNone then
    { d with interest := Function.update d.interest fd (some d.events) }
  else d

/-- `EPOLL_CTL_MOD`; it fails for a descriptor that is not in the list. -/
def modifyEvent (d : Demultiplexer) (fd : Int) (events : Events) : Option Demultiplexer :=
  if fd < 0 || (d.interest fd).isNone then none
  else some { d with interest := Function.update d.interest fd (some events) }

def removeFd (d : Demultiplexer) (fd : Int) : Demultiplexer :=
  { d with interest := Function.update d.interest fd none }

theorem interest_registerFd_of_ne {d : Demultiplexer} {fd fd' : Int} (h : fd' ≠ fd) (ok : Bool) :
    (d.registerFd fd ok).interest fd' = d.interest fd' := by
  simp only [registerFd]
  split
  · rfl
  · split
    · exact Function.update_of_ne h ..
    · rfl

theorem interest_registerFd_self {d : Demultiplexer} {fd : Int} (ok : Bool) (h : 0 ≤ fd) :
    ((d.registerFd fd ok).interest fd).isSome = (ok || (d.interest fd).isSome) := by
  simp only [registerFd, if_neg (Int.not_lt.mpr h)]
  cases ok <;> cases hd : d.interest fd <;> simp [hd]

end Demultiplexer

end ServerDevLib.Reactor
