/-!
# Statsd.Counters — what became of the lines

Four 64-bit counters are kept for all clients that share a sink. They wrap.
-/

namespace Statsd

/-- The counters of a sink. -/
structure Counters where
  /-- Packets handed over successfully. -/
  sentPackets : UInt64
  /-- Lines in those packets. -/
  sentLines : UInt64
  /-- Lines lost with a packet, or refused before they were written. -/
  droppedLines : UInt64
  /-- Observations that sampling left out. -/
  sampledOut : UInt64
deriving DecidableEq, Repr

namespace Counters

/-- Nothing has happened. -/
def zero : Counters := ⟨0, 0, 0, 0⟩

/-- Count a packet of so many lines as sent. -/
def addSent (c : Counters) (lines : Nat) : Counters :=
  { c with
    sentPackets := c.sentPackets + 1
    sentLines := c.sentLines + UInt64.ofNat lines }

/-- Count so many lines as lost. -/
def addDropped (c : Counters) (lines : Nat) : Counters :=
  { c with droppedLines := c.droppedLines + UInt64.ofNat lines }

/-- Count an observation as left out. -/
def addSampledOut (c : Counters) : Counters :=
  { c with sampledOut := c.sampledOut + 1 }

end Counters

end Statsd
