import Statsd.Number.Decimal

/-!
# Statsd.Log — what is reported to the host program

Nothing that goes wrong when a metric is sent reaches the caller. It is
counted, and some of it is logged.
-/

namespace Statsd

/-- How much a log entry matters. -/
inductive Severity where
  | debug
  | warn
deriving DecidableEq, Repr

/-- The things that are logged. -/
inductive LogEntry where
  /-- A metric without a name was dropped. -/
  | emptyName
  /-- A set member that would break the line was dropped; the name is without its prefix. -/
  | reservedMember (name : String)
  /-- A packet could not be sent. -/
  | sendFailed
  /-- The target of a datagram client could not be resolved when it was made. -/
  | unresolvedTarget (host : String) (port : UInt16)
deriving DecidableEq, Repr

namespace LogEntry

/-- How much the entry matters. -/
def severity : LogEntry → Severity
  | .emptyName => .debug
  | .reservedMember _ => .debug
  | .sendFailed => .warn
  | .unresolvedTarget _ _ => .warn

/-- The wording of the entry, without the cause. -/
def message : LogEntry → String
  | .emptyName => "metrics with empty name dropped"
  | .reservedMember name => "set member with reserved char dropped for metrics " ++ name
  | .sendFailed => "sending metrics error"
  | .unresolvedTarget host port =>
    "failed to resolve statsd target " ++ host ++ ":" ++ Decimal.ofNat port.toNat ++
      ", will retry on send"

end LogEntry

end Statsd
