import ServerDevLib.Foundation.Descriptors
import Mathlib.Data.List.Sort

/-!
# Listening sockets

Each operation is given what its system call returns, and yields the new
state, its own result and the system calls it has made. `Init` takes every
result of `socket` but zero for success.
-/

namespace ServerDevLib.Tcp

structure Address where
  ip : String
  port : UInt16
  family : UInt16
  deriving DecidableEq

inductive Call
  | socket
  | bind (fd : Int) (addr : Address)
  | listen (fd n : Int)
  | accept (fd : Int)
  | setsockopt (fd level option value : Int)
  | close (fd : Int)
  deriving DecidableEq

/-- `allAccepted` is the set of descriptors in its order. -/
structure TcpServer where
  fd : Int
  access : Bool
  saveAllConnection : Bool
  addr : Address
  allAccepted : List Int

structure Outcome (R : Type) where
  server : TcpServer
  result : R
  calls : List Call

namespace TcpServer

def emplace (l : List Int) (fd : Int) : List Int :=
  if fd ∈ l then l else l.orderedInsert (· ≤ ·) fd

theorem mem_emplace {l : List Int} {fd fd' : Int} : fd' ∈ emplace l fd ↔ fd' = fd ∨ fd' ∈ l := by
  rw [emplace]
  split
  · rename_i hmem
    refine (or_iff_right_of_imp ?_).symm
    rintro rfl
    exact hmem
  · exact List.mem_orderedInsert _

theorem nodup_emplace {l : List Int} (h : l.Nodup) (fd : Int) : (emplace l fd).Nodup := by
  rw [emplace]
  split
  · exact h
  · rename_i hnew
    exact (List.perm_orderedInsert _ fd l).nodup_iff.mpr (List.nodup_cons.mpr ⟨hnew, h⟩)

def create : TcpServer :=
  { fd := 0, access := false, saveAllConnection := false, addr := ⟨"", 0, 0⟩, allAccepted := [] }

def SOL_SOCKET : Int := 1

def IPPROTO_TCP : Int := 6

/-- `SO_REUSEADDR | SO_REUSEPORT` -/
def REUSE : Int := 15

def TCP_NODELAY : Int := 1

def init (s : TcpServer) (got : Int) : Outcome Bool :=
  if s.access then ⟨s, false, []⟩
  else
    let s := { s with fd := got, access := decide (got ≠ 0) }
    ⟨s, s.access, [.socket]⟩

/-- `converted` is what `inet_pton` makes of the address. -/
def bind (s : TcpServer) (addr : Address) (converted got : Int) : Outcome Int :=
  if converted ≤ 0 then ⟨s, converted, []⟩
  else ⟨{ s with addr := addr }, got, [.bind s.fd addr]⟩

/-- What an operation does that passes its call on to the kernel. -/
def forward (s : TcpServer) (call : Call) (got : Int) : Outcome Int :=
  if s.access then ⟨s, got, [call]⟩ else ⟨s, -1, []⟩

def listen (s : TcpServer) (n got : Int) : Outcome Int := s.forward (.listen s.fd n) got

def reuseAddress (s : TcpServer) (opt got : Int) : Outcome Int :=
  s.forward (.setsockopt s.fd SOL_SOCKET REUSE opt) got

def disableNagle (s : TcpServer) (opt got : Int) : Outcome Int :=
  s.forward (.setsockopt s.fd IPPROTO_TCP TCP_NODELAY opt) got

def accept (s : TcpServer) (got : Int) : Outcome Int :=
  if s.access then
    ⟨if got > 0 then { s with allAccepted := emplace s.allAccepted got } else s, got, [.accept s.fd]⟩
  else ⟨s, -1, []⟩

def shutdown (s : TcpServer) : Outcome Unit :=
  if s.access then
    ⟨{ s with access := false, allAccepted := [] }, (),
      .close s.fd :: if s.saveAllConnection then s.allAccepted.map .close else []⟩
  else ⟨s, (), []⟩

def autoSaveAcceptedFD (s : TcpServer) (b : Bool) : Outcome Unit :=
  ⟨{ s with saveAllConnection := b }, (), []⟩

def closeCilent (s : TcpServer) (fd : Int) : Outcome Bool :=
  if fd ∈ s.allAccepted then ⟨{ s with allAccepted := s.allAccepted.erase fd }, true, [.close fd]⟩
  else ⟨s, false, []⟩

end TcpServer

structure TcpSocket where
  fd : Int
  valid : Bool

namespace TcpSocket

/-- `TcpSocket(int fd)`, and `TcpSocket()` with what `socket` returns. -/
def ofFd (fd : Int) : TcpSocket := ⟨fd, decide (fd > 0)⟩

def close (s : TcpSocket) : TcpSocket × List Call :=
  if s.valid then ({ s with valid := false }, [.close s.fd]) else (s, [])

end TcpSocket

end ServerDevLib.Tcp
