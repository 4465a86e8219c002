import Statsd.Failure

/-!
# Statsd.Stream.Writer — writing a packet to a stream

A stream may take a packet in pieces, may ask to try again, and may fail at
any byte. What it answers is given as data:

* `Peer` holds the answers to the coming writes;
* `Peer.write` writes one packet against them and reports everything that
  happened (`Exchange`): the bytes taken, the calls made, the answers left and
  the failure, if any;
* an interrupted write is tried again, a write that takes no byte is a
  failure, and a packet without bytes needs no write.
-/

namespace Statsd.Stream

/-- The answer to one write. -/
inductive WriteResult where
  /-- Up to so many bytes are taken. -/
  | accepted (n : Nat)
  /-- Nothing has happened; the write is to be tried again. -/
  | interrupted
  | failed (e : Failure)
deriving DecidableEq, Repr

/-- How the far end answers: the script entry by entry, then every write in
full until the room is used up. Without a room there is no end to it. -/
structure Peer where
  script : List WriteResult
  room : Option Nat
deriving DecidableEq, Repr

/-- What writing one packet came to. -/
structure Exchange where
  /-- The bytes of the packet that were taken, always a first part of it. -/
  taken : ByteArray
  /-- How many writes were made. -/
  calls : Nat
  /-- How the writes that follow will be answered. -/
  peer : Peer
  /-- Why the packet was given up, if it was. -/
  failure? : Option Failure

namespace Exchange

/-- Nothing more is written. -/
def none (peer : Peer) : Exchange := ⟨ByteArray.empty, 0, peer, .none⟩

/-- One write that took nothing and ended the packet. -/
def stop (peer : Peer) (e : Failure) : Exchange := ⟨ByteArray.empty, 1, peer, some e⟩

/-- What happens if one write has taken `chunk` before. -/
def after (x : Exchange) (chunk : ByteArray) : Exchange :=
  { x with taken := chunk ++ x.taken, calls := x.calls + 1 }

end Exchange

/-- A far end that takes whatever it is given. -/
def Peer.willing : Peer := ⟨[], none⟩

/-- Write when the script has ended. A far end without room for all of it takes
what it has room for, and then blocks. -/
def writeUnscripted (room : Option Nat) (rest : ByteArray) : Exchange :=
  match room with
  | none => (Exchange.none Peer.willing).after rest
  | some n =>
    let blocked := Exchange.stop ⟨[], some 0⟩ (.system .wouldBlock)
    if rest.size ≤ n then (Exchange.none ⟨[], some (n - rest.size)⟩).after rest
    else if n = 0 then blocked
    else blocked.after (rest.extract 0 n)

/-- Write what is left of a packet, one script entry after the other. -/
def writeScripted : List WriteResult → Option Nat → ByteArray → Exchange
  | [], room, rest =>
    if rest.isEmpty then .none ⟨[], room⟩ else writeUnscripted room rest
  | answer :: script, room, rest =>
    if rest.isEmpty then .none ⟨answer :: script, room⟩
    else
      match answer with
      | .accepted n =>
        let k := min n rest.size
        if k = 0 then .stop ⟨script, room⟩ .nothingTaken
        else (writeScripted script room (rest.extract k rest.size)).after (rest.extract 0 k)
      | .interrupted => (writeScripted script room rest).after ByteArray.empty
      | .failed e => .stop ⟨script, room⟩ e

/-- Write one packet. -/
def Peer.write (p : Peer) (packet : ByteArray) : Exchange :=
  writeScripted p.script p.room packet

/-- A packet given up, and how many of its bytes had been taken. -/
structure PartialWrite where
  written : Nat
  failure : Failure
deriving DecidableEq, Repr

/-- Whether the whole packet was taken. -/
def Exchange.outcome (x : Exchange) : Except PartialWrite Unit :=
  match x.failure? with
  | .none => .ok ()
  | some e => .error ⟨x.taken.size, e⟩

end Statsd.Stream
