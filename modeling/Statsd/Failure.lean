import Statsd.Number.Decimal

/-!
# Statsd.Failure — why a packet was not sent

A failure is a cause. Its wording (`Failure.message`) and the kind under which
callers know it (`Failure.kind`) are functions of the cause.
-/

namespace Statsd

/-- The kinds of failure that callers tell apart. -/
inductive FailureKind where
  | invalidInput
  | notFound
  | notConnected
  | connectionRefused
  | connectionReset
  | brokenPipe
  | wouldBlock
  | timedOut
  | writeZero
  | addressNotAvailable
  | networkUnreachable
  /-- A failure that has no kind of its own. -/
  | uncategorized
  /-- A kind on which nothing here depends, by its name. -/
  | other (name : String)
deriving DecidableEq, Repr

/-- What the operating system reports from a socket call. -/
inductive SystemError where
  | tooManyFiles
  | messageTooLong
  | familyNotSupported
  | addressNotAvailable
  | networkUnreachable
  | connectionRefused
  | connectionReset
  | brokenPipe
  | wouldBlock
deriving DecidableEq, Repr

namespace SystemError

/-- The kind of a system error. -/
def kind : SystemError → FailureKind
  | .tooManyFiles => .uncategorized
  | .messageTooLong => .uncategorized
  | .familyNotSupported => .uncategorized
  | .addressNotAvailable => .addressNotAvailable
  | .networkUnreachable => .networkUnreachable
  | .connectionRefused => .connectionRefused
  | .connectionReset => .connectionReset
  | .brokenPipe => .brokenPipe
  | .wouldBlock => .wouldBlock

/-- The number of a system error. -/
def code : SystemError → Nat
  | .tooManyFiles => 24
  | .messageTooLong => 90
  | .familyNotSupported => 97
  | .addressNotAvailable => 99
  | .networkUnreachable => 101
  | .connectionRefused => 111
  | .connectionReset => 104
  | .brokenPipe => 32
  | .wouldBlock => 11

/-- What the system says about the error. -/
def description : SystemError → String
  | .tooManyFiles => "Too many open files"
  | .messageTooLong => "Message too long"
  | .familyNotSupported => "Address family not supported by protocol"
  | .addressNotAvailable => "Cannot assign requested address"
  | .networkUnreachable => "Network is unreachable"
  | .connectionRefused => "Connection refused"
  | .connectionReset => "Connection reset by peer"
  | .brokenPipe => "Broken pipe"
  | .wouldBlock => "Resource temporarily unavailable"

/-- The description with the number behind it. -/
def message (e : SystemError) : String :=
  e.description ++ " (os error " ++ Decimal.ofNat e.code ++ ")"

end SystemError

/-- Why a packet was not sent, or a socket not made. -/
inductive Failure where
  /-- The operating system refused. -/
  | system (e : SystemError)
  /-- The local address is of another family than the target. -/
  | familyMismatch
  /-- A host name holds a character that no host name can hold. -/
  | malformedHost
  /-- A host name stands for no address. -/
  | unknownHost (host : String)
  /-- A datagram target whose address is not known yet. -/
  | unresolved (host : String) (port : UInt16)
  /-- A write took no byte of a packet. -/
  | nothingTaken
  /-- A datagram was cut. -/
  | cut (taken size : Nat)
  /-- A writer reported a failure of this kind. -/
  | reported (kind : FailureKind)
deriving DecidableEq, Repr

namespace Failure

/-- The kind under which callers know the failure. -/
def kind : Failure → FailureKind
  | .system e => e.kind
  | .familyMismatch => .invalidInput
  | .malformedHost => .invalidInput
  | .unknownHost _ => .notFound
  | .unresolved _ _ => .notConnected
  | .nothingTaken => .writeZero
  | .cut _ _ => .writeZero
  | .reported k => k

/-- The wording for a target that is not resolved, with the port as text. -/
def unresolvedMessage (host port : String) : String :=
  "statsd target " ++ host ++ ":" ++ port ++ " not resolved yet"

/-- The wording of a failure; a reported kind has none. -/
def message : Failure → String
  | .system e => e.message
  | .familyMismatch => "bind_ip should be of the same family with peer ip"
  | .malformedHost => "file name contained an unexpected NUL byte"
  | .unknownHost host => "no address found for host " ++ host
  | .unresolved host port => unresolvedMessage host (Decimal.ofNat port.toNat)
  | .nothingTaken => "failed to write whole packet"
  | .cut taken size =>
    "only " ++ Decimal.ofNat taken ++ " of " ++ Decimal.ofNat size ++ " bytes sent"
  | .reported _ => ""

end Failure

end Statsd
