import Mathlib
import Gateway.Http
import Gateway.CheckToken
import Gateway.Library.Program

/-! The calls a handler makes: sockets (NetCompat.h, POSIX branch), limiter, verifier. -/
namespace Gateway

open Program

abbrev Socket := Nat

inductive Errno where
  | EAGAIN
  | WSAETIMEDOUT
  | EINPROGRESS
  | EPIPE
  | other (code : Nat)
  deriving DecidableEq

/-- How an expired `SO_SNDTIMEO` or `SO_RCVTIMEO` is reported. -/
def Errno.isTimeout : Errno → Bool
  | EAGAIN | WSAETIMEDOUT => true
  | _ => false

inductive RecvResult (len : Nat) where
  | data (bytes : Bytes) (pos : 0 < bytes.length) (le : bytes.length ≤ len)
  | closed
  | error (e : Errno)

/-- The value of `send` and, when it is -1, `errno`. -/
structure SendResult (len : Nat) where
  value : Int
  errno : Errno
  range : value = -1 ∨ 0 ≤ value ∧ value ≤ len

inductive ConnectResult where
  | done
  | error (e : Errno)

inductive SelectResult where
  | ready
  | timeout
  | error

structure AddrInfo where
  family : Int
  socktype : Int
  protocol : Int
  addr : Bytes
  deriving DecidableEq

/-- What `getaddrinfo` returns; the null list is empty. -/
structure AddrResult where
  rc : Int
  list : List AddrInfo

inductive TimeoutOption where
  | SO_RCVTIMEO
  | SO_SNDTIMEO
  deriving DecidableEq

def O_NONBLOCK : Nat := 2048

/-- The functions of the source whose calls a trace records. -/
inductive Invocation where
  | reply (s : Socket) (r : HttpResponse)
  | forwardRequest (upstreamBase : Bytes) (req : HttpRequest) (forwardPath : Bytes)
      (auth : AuthInfo)

inductive Op where
  | recv (s : Socket) (len : Nat)
  | send (s : Socket) (data : Bytes) (flags : Nat)
  | closeSocket (s : Socket)
  | getaddrinfo (host port : Bytes)
  | freeaddrinfo (list : List AddrInfo)
  | socket (ai : AddrInfo)
  | getFl (s : Socket)
  | setFl (s : Socket) (flags : Nat)
  | connect (s : Socket) (ai : AddrInfo)
  | select (s : Socket) (timeoutMs : Int)
  | getSoError (s : Socket)
  | setTimeout (s : Socket) (opt : TimeoutOption) (ms : Int)
  | allow (ip : Bytes)
  | verifyJwt (token secret requiredIssuer : Bytes)
  | invoke (i : Invocation)

/-- The answers: `none` is the -1 of `socket`, `fcntl` and `getsockopt`. -/
@[reducible] def Res : Op → Type
  | .recv _ len => RecvResult len
  | .send _ data _ => SendResult data.length
  | .closeSocket _ => Unit
  | .getaddrinfo _ _ => AddrResult
  | .freeaddrinfo _ => Unit
  | .socket _ => Option Socket
  | .getFl _ => Option Nat
  | .setFl _ _ => Bool
  | .connect _ _ => ConnectResult
  | .select _ _ => SelectResult
  | .getSoError _ => Option Int
  | .setTimeout _ _ _ => Bool
  | .allow _ => Bool
  | .verifyJwt _ _ _ => AuthInfo
  | .invoke _ => Unit

instance (o : Op) : Nonempty (Res o) := by
  cases o with
  | recv s len => exact ⟨.closed⟩
  | send s data flags => exact ⟨⟨-1, .EPIPE, Or.inl rfl⟩⟩
  | getaddrinfo host port => exact ⟨⟨0, []⟩⟩
  | connect s ai => exact ⟨.done⟩
  | select s timeoutMs => exact ⟨.ready⟩
  | verifyJwt token secret requiredIssuer => exact ⟨{}⟩
  | socket ai => exact ⟨none⟩
  | getFl s => exact ⟨none⟩
  | getSoError s => exact ⟨none⟩
  | allow ip => exact ⟨true⟩
  | setFl s flags => exact ⟨true⟩
  | setTimeout s opt ms => exact ⟨true⟩
  | _ => exact ⟨()⟩

abbrev Io (α : Type) := Prog Op Res α

abbrev Trace := List (Event Op Res)

def perform (o : Op) : Io (Res o) := Prog.perform o

/-- Marks the entry of a function of the source. -/
def invoke (i : Invocation) : Io Unit := perform (.invoke i)

def closeSocket (s : Socket) : Io Unit := perform (.closeSocket s)

@[simp] theorem perform_bind {α : Type} (o : Op) (f : Res o → Io α) :
    (perform o >>= f) = .call o f := rfl

end Gateway
