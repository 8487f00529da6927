import BasicSim.Core.LinkTracking
import BasicSim.Core.QueueTracker
import Mathlib.Data.List.Sort

/-!
# `Core.QueueResults` — the logs of queues (`helper/core/ptop-link-net-device-queue-tracking.cc`,
`helper/core/ptop-link-interface-tc-qdisc-queue-tracking.cc`)

For every tracked link `WriteResults` writes the intervals of its tracker to two files: the packets in the queue and
the bytes in it. The two classes are the same but for their trackers.

## Contents
- **Trackers.** `queueTrackers`, `qdiscQueueTrackers`: the tracked links after the callbacks of their queues.
- **Lines.** `QueueLine`, `QueueResults`.
- **All links.** `writeLinkNetDeviceQueueResults`, `writeLinkInterfaceTcQdiscQueueResults`.
-/

namespace BasicSim

open Fallible RunLength

/-! ## Trackers -/

/-- The trackers of links after the callbacks of their queues, which are known by what is tracked. -/
def queueTrackersOf {Tracked : Type} (run : List (Int × QueueEvent) → Except Exc QueueLogs)
    (events : Tracked → List (Int × QueueEvent)) (tracked : List (Int64Pair × Tracked)) :
    Except Exc (List (Int64Pair × QueueLogs)) :=
  tracked.mapM fun p => do
    let tracker ← run (events p.2)
    .ok (p.1, tracker)

/-- `m_queue_trackers`. -/
def queueTrackers (events : Nat → List (Int × QueueEvent)) :
    List (Int64Pair × Nat) → Except Exc (List (Int64Pair × QueueTracker)) :=
  queueTrackersOf QueueTracker.run events

/-- `m_qdisc_queue_trackers`. -/
def qdiscQueueTrackers {QueueDisc : Type} (events : Nat × QueueDisc → List (Int × QueueEvent)) :
    List (Int64Pair × Nat × QueueDisc) → Except Exc (List (Int64Pair × QdiscQueueTracker)) :=
  queueTrackersOf QdiscQueueTracker.run events

/-! ## Lines -/

/-- A line of one of the CSV files. The nodes are written as `int`. -/
structure QueueLine where
  fromNodeId : Int
  toNodeId : Int
  startNs : Int
  endNs : Int
  amount : Int
deriving DecidableEq

/-- The lines of the two files. -/
structure QueueResults where
  pktLines : List QueueLine
  byteLines : List QueueLine
deriving DecidableEq

/-- The lines for the intervals of a link. -/
def queueLines (directedEdge : Int64Pair) (logEntries : List (Run Int Int)) : List QueueLine :=
  logEntries.map fun x => ⟨toInt32 directedEdge.first, toInt32 directedEdge.second, x.left, x.right, x.value⟩

/-! ## All links -/

/-- The body of the loop over the trackers. -/
def writeQueueTracker (getPackets getBytes : QueueLogs → Int → Except Exc (List (Run Int Int) × QueueLogs)) (nowNs : Int)
    (results : QueueResults) (p : Int64Pair × QueueLogs) : Except Exc QueueResults := do
  let (logEntriesPkt, tracker) ← getPackets p.2 nowNs
  let (logEntriesByte, _) ← getBytes tracker nowNs
  .ok ⟨results.pktLines ++ queueLines p.1 logEntriesPkt, results.byteLines ++ queueLines p.1 logEntriesByte⟩

/-- The links in ascending order. -/
def ascendingByDirectedLink {Tracker : Type} (trackers : List (Int64Pair × Tracker)) : List (Int64Pair × Tracker) :=
  trackers.insertionSort fun a b => a.1 ≤ b.1

/-- `WriteResults` of `PtopLinkNetDeviceQueueTracking`, when it is enabled. -/
def writeLinkNetDeviceQueueResults (nowNs : Int) (trackers : List (Int64Pair × QueueTracker)) :
    Except Exc QueueResults :=
  (ascendingByDirectedLink trackers).foldlM
    (writeQueueTracker QueueTracker.getIntervalsNumPackets QueueTracker.getIntervalsNumBytes nowNs) ⟨[], []⟩

/-- `WriteResults` of `PtopLinkInterfaceTcQdiscQueueTracking`, when it is enabled. -/
def writeLinkInterfaceTcQdiscQueueResults (nowNs : Int) (trackers : List (Int64Pair × QdiscQueueTracker)) :
    Except Exc QueueResults :=
  (ascendingByDirectedLink trackers).foldlM
    (writeQueueTracker QdiscQueueTracker.getIntervalsNumPackets QdiscQueueTracker.getIntervalsNumBytes nowNs) ⟨[], []⟩

end BasicSim
