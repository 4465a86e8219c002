import Statsd.Number.Decimal
import Statsd.Number.Duration
import Statsd.Packet
import Statsd.Prefix
import Statsd.Sampling

/-!
# Statsd.Metric — observations and their lines

A metric is a name, something observed, and the rate at which such
observations are sent. Its line is

    name:value|type|@rate

with the client's prefix and a dot in front of the name, and the rate only if
it is below 1.

* `Observation` is what can be observed, with one constructor for each way a
  daemon reads it; the shorthands (`Observation.increment`, …) are functions
  into it.
* A daemon takes a gauge value with a leading sign as an adjustment. An
  absolute gauge whose text has a minus is therefore preceded by a line that
  sets the gauge to 0 (`Metric.resets`), and an adjustment always has a sign.
* A name must not be empty and a set member must not break the line
  (`Metric.refusal?`); all other names are taken as they are.
-/

namespace Statsd

/-! ## Observations -/

/-- The type of a metric, as a daemon names it. -/
inductive Kind where
  | counter
  | gauge
  | timing
  | set
deriving DecidableEq, Repr

/-- The type as it stands in a line. -/
def Kind.code : Kind → String
  | .counter => "c"
  | .gauge => "g"
  | .timing => "ms"
  | .set => "s"

/-- The absolute value of a gauge. -/
inductive Level where
  | whole (n : Int)
  | double (x : Binary64)
  | single (x : Binary32)
deriving DecidableEq, Repr

/-- The text of a gauge value. -/
def Level.text : Level → String
  | .whole n => Decimal.ofInt n
  | .double x => x.text
  | .single x => x.text

/-- Something observed. Integers may be of any width. -/
inductive Observation where
  /-- Add to a counter. -/
  | count (n : Int)
  /-- Set a gauge. -/
  | gauge (level : Level)
  /-- Change a gauge by an amount. -/
  | adjust (delta : Int)
  /-- A duration in milliseconds. -/
  | timing (millis : Binary64)
  /-- A member of a set, of which the distinct ones are counted. -/
  | member (text : String)
deriving DecidableEq, Repr

namespace Observation

/-- Add one to a counter. -/
def increment : Observation := .count 1

/-- Take one from a counter. -/
def decrement : Observation := .count (-1)

/-- Add to a counter. -/
def incrementBy (delta : Int64) : Observation := .count delta.toInt

/-- The negative of a 64-bit integer; the least one, which has none, gives the greatest. -/
def saturatingNeg (delta : Int64) : Int64 :=
  if delta = Int64.minValue then Int64.maxValue else -delta

/-- Take from a counter. -/
def decrementBy (delta : Int64) : Observation := .count (saturatingNeg delta).toInt

/-- Change a gauge by a 64-bit amount. -/
def gaugeDelta (delta : Int64) : Observation := .adjust delta.toInt

/-- A duration. -/
def duration (d : Duration) : Observation := .timing d.millis

/-- The type under which the observation is sent. -/
def kind : Observation → Kind
  | .count _ => .counter
  | .gauge _ => .gauge
  | .adjust _ => .gauge
  | .timing _ => .timing
  | .member _ => .set

/-- The value as it stands in the line. -/
def text : Observation → String
  | .count n => Decimal.ofInt n
  | .gauge level => level.text
  | .adjust delta => Decimal.ofIntSigned delta
  | .timing millis => millis.text
  | .member m => m

end Observation

/-- Whether a number's text begins with a minus. -/
def isNegativeText (text : String) : Bool := text.toList.head? == some '-'

/-! ## Metrics -/

/-- An observation under a name, and the rate at which it is to be sent. -/
structure Metric where
  name : String
  observation : Observation
  rate : Binary64
deriving DecidableEq, Repr

namespace Metric

/-- A metric that is sent always. -/
def always (name : String) (observation : Observation) : Metric :=
  ⟨name, observation, Binary64.one⟩

/-- The same metric at another rate; the last rate given counts. -/
def withRate (m : Metric) (rate : Binary64) : Metric := { m with rate }

/-- Whether the value line is preceded by one that sets the gauge to 0: a
negative level would be taken as an adjustment. -/
def resets (m : Metric) : Bool :=
  match m.observation with
  | .gauge level => isNegativeText level.text
  | _ => false

/-! ### Refusals -/

/-- A byte that would end the value early or break the line: a colon, a bar,
or a control character of ASCII. -/
def breaksLine (b : UInt8) : Bool :=
  b == 0x7c || b == 0x3a || b < 0x20 || b == 0x7f

/-- Whether a set member can stand between the delimiters of a line. -/
def memberAllowed (member : String) : Bool :=
  !member.toUTF8.data.any breaksLine

/-- Why a metric is dropped before anything is drawn or written. -/
inductive Refusal where
  | emptyName
  | reservedMember
deriving DecidableEq, Repr

/-- The first reason to drop the metric, if there is one. -/
def refusal? (m : Metric) : Option Refusal :=
  if m.name.isEmpty then some .emptyName
  else
    match m.observation with
    | .member text => if memberAllowed text then none else some .reservedMember
    | _ => none

/-! ### Lines -/

/-- The name with the prefix and a dot in front, or the bare name if the prefix is empty. -/
def fullName (scope : Prefix) (name : String) : String :=
  if scope.isEmpty then name else scope.text ++ "." ++ name

/-- The line that holds the value. -/
def valueLine (scope : Prefix) (m : Metric) : String :=
  fullName scope m.name ++ ":" ++ m.observation.text ++ "|" ++ m.observation.kind.code ++
    (if namesRate m.rate then "|@" ++ m.rate.text else "")

/-- The line that sets a gauge to 0. -/
def resetLine (scope : Prefix) (m : Metric) : String :=
  fullName scope m.name ++ ":0|g"

/-- What is sent for the metric: the value line, with the reset line in front
where one is needed. -/
def text (scope : Prefix) (m : Metric) : String :=
  if m.resets then resetLine scope m ++ "\n" ++ valueLine scope m else valueLine scope m

/-- The lines of the metric as one unit that is never split. -/
def message (scope : Prefix) (m : Metric) : Packet :=
  Packet.ofString (m.text scope) (if m.resets then 2 else 1)

end Metric

end Statsd
