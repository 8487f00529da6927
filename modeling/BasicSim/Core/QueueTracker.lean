import BasicSim.Core.LogUpdateHelper

/-!
# `Core.QueueTracker` — the trackers of queues (`model/core/queue-tracker.cc`, `model/core/qdisc-queue-tracker.cc`)

The two classes are the same but for what they are connected to and the names of their members: a log of the number of
packets and a log of the number of bytes. `Simulator::Now()` is an argument.
-/

namespace BasicSim

open Fallible RunLength

/-- What the two trackers share: the logs of the number of packets and of bytes. -/
structure QueueLogs where
  pkt : LogUpdateHelper Int
  byte : LogUpdateHelper Int
deriving DecidableEq

/-- `Update` where a caller lets an exception pass. -/
def LogUpdateHelper.updateOrThrow (h : LogUpdateHelper Int) (time value : Int) : Except Exc (LogUpdateHelper Int) :=
  match h.update toStr time value with
  | (.ok (), h') => .ok h'
  | (.error e, _) => .error e

/-- `Finalize` where a caller lets an exception pass. -/
def LogUpdateHelper.finalizeOrThrow (h : LogUpdateHelper Int) (time : Int) :
    Except Exc (List (Run Int Int) × LogUpdateHelper Int) :=
  match h.finalize toStr time with
  | (.ok log, h') => .ok (log, h')
  | (.error e, _) => .error e

namespace QueueLogs

/-- Both logs start with zero at the start. -/
def create : Except Exc QueueLogs := do
  let pkt ← LogUpdateHelper.create (-1) true false [] []
  let pkt ← pkt.updateOrThrow 0 0
  let byte ← LogUpdateHelper.create (-1) true false [] []
  let byte ← byte.updateOrThrow 0 0
  .ok ⟨pkt, byte⟩

def updatePkt (s : QueueLogs) (nowNs : Int) (numPackets : BitVec 32) : Except Exc QueueLogs := do
  .ok { s with pkt := ← s.pkt.updateOrThrow nowNs numPackets.toNat }

def updateByte (s : QueueLogs) (nowNs : Int) (numBytes : BitVec 32) : Except Exc QueueLogs := do
  .ok { s with byte := ← s.byte.updateOrThrow nowNs numBytes.toNat }

def finalizePkt (s : QueueLogs) (nowNs : Int) : Except Exc (List (Run Int Int) × QueueLogs) := do
  let (log, pkt) ← s.pkt.finalizeOrThrow nowNs
  .ok (log, { s with pkt })

def finalizeByte (s : QueueLogs) (nowNs : Int) : Except Exc (List (Run Int Int) × QueueLogs) := do
  let (log, byte) ← s.byte.finalizeOrThrow nowNs
  .ok (log, { s with byte })

end QueueLogs

/-! ## The tracker of the queue of a network device -/

abbrev QueueTracker := QueueLogs

namespace QueueTracker

def packetsInQueueCallback : QueueTracker → Int → BitVec 32 → Except Exc QueueTracker := QueueLogs.updatePkt

def bytesInQueueCallback : QueueTracker → Int → BitVec 32 → Except Exc QueueTracker := QueueLogs.updateByte

def getIntervalsNumPackets : QueueTracker → Int → Except Exc (List (Run Int Int) × QueueTracker) :=
  QueueLogs.finalizePkt

def getIntervalsNumBytes : QueueTracker → Int → Except Exc (List (Run Int Int) × QueueTracker) :=
  QueueLogs.finalizeByte

end QueueTracker

/-! ## The tracker of a queueing discipline -/

abbrev QdiscQueueTracker := QueueLogs

namespace QdiscQueueTracker

def queueDiscPacketsInQueueCallback : QdiscQueueTracker → Int → BitVec 32 → Except Exc QdiscQueueTracker :=
  QueueLogs.updatePkt

def queueDiscBytesInQueueCallback : QdiscQueueTracker → Int → BitVec 32 → Except Exc QdiscQueueTracker :=
  QueueLogs.updateByte

def getIntervalsNumPackets : QdiscQueueTracker → Int → Except Exc (List (Run Int Int) × QdiscQueueTracker) :=
  QueueLogs.finalizePkt

def getIntervalsNumBytes : QdiscQueueTracker → Int → Except Exc (List (Run Int Int) × QdiscQueueTracker) :=
  QueueLogs.finalizeByte

end QdiscQueueTracker

/-! ## Runs -/

/-- What a queue reports: the number of packets or of bytes that is in it now. -/
inductive QueueEvent where
  | packetsInQueue (numPackets : BitVec 32)
  | bytesInQueue (numBytes : BitVec 32)
deriving DecidableEq

/-- A callback of the queue at a time. -/
def QueueTracker.callback (s : QueueTracker) (event : Int × QueueEvent) : Except Exc QueueTracker :=
  match event.2 with
  | .packetsInQueue numPackets => s.packetsInQueueCallback event.1 numPackets
  | .bytesInQueue numBytes => s.bytesInQueueCallback event.1 numBytes

/-- A callback of the queueing discipline at a time. -/
def QdiscQueueTracker.callback (s : QdiscQueueTracker) (event : Int × QueueEvent) : Except Exc QdiscQueueTracker :=
  match event.2 with
  | .packetsInQueue numPackets => QdiscQueueTracker.queueDiscPacketsInQueueCallback s event.1 numPackets
  | .bytesInQueue numBytes => QdiscQueueTracker.queueDiscBytesInQueueCallback s event.1 numBytes

/-- A tracker after the callbacks of a queue. -/
def QueueTracker.run (events : List (Int × QueueEvent)) : Except Exc QueueTracker := do
  let s ← QueueLogs.create
  events.foldlM QueueTracker.callback s

/-- A tracker after the callbacks of a queueing discipline. -/
def QdiscQueueTracker.run (events : List (Int × QueueEvent)) : Except Exc QdiscQueueTracker := do
  let s ← QueueLogs.create
  events.foldlM QdiscQueueTracker.callback s

end BasicSim
