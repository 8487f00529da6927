import BasicSim.Core.NetDeviceUtilizationTracker
import Mathlib.Data.List.Sort

/-!
# `Core.UtilizationResults` — the utilization logs (`helper/core/ptop-link-net-device-utilization-tracking.cc`)

For every tracked link `WriteResults` writes the intervals of its tracker to one file. To another one it writes
a line for as many intervals in a row as have about the same utilization, and to a third one the utilization of
the link over the whole run.

Utilizations are compared in floating point; the outcome is a parameter. The text files have the same numbers as
the others in another form and are left out, but for the sum in the summary.

## Contents
- **Lines.** `UtilizationLine`, `UtilizationSummary`.
- **A link.** `WriteState`, `writeInterval`, `writeLink`.
- **All links.** `writeUtilizationResults`.
-/

namespace BasicSim

open Fallible

/-! ## Lines -/

/-- A line of one of the CSV files. The nodes are written as `int`. -/
structure UtilizationLine where
  fromNodeId : Int
  toNodeId : Int
  startNs : Int
  endNs : Int
  busyNs : Int
deriving DecidableEq

/-- What the line of the summary is computed from. -/
structure UtilizationSummary where
  fromNodeId : Int
  toNodeId : Int
  busySumNs : Int
  endNs : Int
deriving DecidableEq

/-- Whether the utilizations of an interval and of the next one are approximately not equal; the index of the
    interval comes first. -/
abbrev DifferenceTest := Nat → UtilizationInterval → UtilizationInterval → Bool

/-! ## A link -/

/-- The variables of the loop over the intervals, with what was written. -/
structure WriteState where
  intervalLeftSideNs : Int
  utilizationBusySumNs : Int
  runningBusySumNs : Int
  lines : List UtilizationLine
  compressedLines : List UtilizationLine
deriving DecidableEq

def WriteState.initial : WriteState := ⟨0, 0, 0, [], []⟩

/-- A line for a link. -/
def utilizationLine (directedEdge : Int64Pair) (startNs endNs busyNs : Int) : UtilizationLine :=
  ⟨toInt32 directedEdge.first, toInt32 directedEdge.second, startNs, endNs, busyNs⟩

/-- `print_compressed_line`: it is the last interval, or sufficiently different from the next. -/
def printCompressedLine (differs : DifferenceTest) (intervals : List UtilizationInterval) (j : Nat)
    (interval : UtilizationInterval) : Except Exc Bool :=
  if j + 1 = intervals.length then .ok true
  else do
    let next ← vectorAt intervals (j + 1)
    let _ ← int64 (interval.endNs - interval.startNs)
    let _ ← int64 (next.endNs - next.startNs)
    .ok (differs j interval next)

/-- The body of the loop over the intervals. -/
def writeInterval (differs : DifferenceTest) (directedEdge : Int64Pair) (intervals : List UtilizationInterval)
    (st : WriteState) (j : Nat) : Except Exc WriteState := do
  let interval ← vectorAt intervals j
  let utilizationBusySumNs ← int64 (st.utilizationBusySumNs + interval.busyNs)
  let runningBusySumNs ← int64 (st.runningBusySumNs + interval.busyNs)
  let lines := st.lines ++ [utilizationLine directedEdge interval.startNs interval.endNs interval.busyNs]
  let print ← printCompressedLine differs intervals j interval
  if print = true then do
    -- the width of the line, for the text file
    let _ ← int64 (interval.endNs - st.intervalLeftSideNs)
    .ok {
      intervalLeftSideNs := interval.endNs
      utilizationBusySumNs := utilizationBusySumNs
      runningBusySumNs := 0
      lines := lines
      compressedLines := st.compressedLines ++
        [utilizationLine directedEdge st.intervalLeftSideNs interval.endNs runningBusySumNs] }
  else
    .ok { st with utilizationBusySumNs := utilizationBusySumNs, runningBusySumNs := runningBusySumNs, lines := lines }

/-- What is written for a link. -/
structure LinkUtilization where
  lines : List UtilizationLine
  compressedLines : List UtilizationLine
  summary : UtilizationSummary
deriving DecidableEq

/-- The body of the loop over the trackers, for the intervals of a tracker. -/
def writeLink (differs : DifferenceTest) (directedEdge : Int64Pair) (intervals : List UtilizationInterval) :
    Except Exc LinkUtilization := do
  let st ← (List.range intervals.length).foldlM (writeInterval differs directedEdge intervals) .initial
  let last ← vectorAt intervals (intervals.length - 1)
  .ok ⟨st.lines, st.compressedLines,
    ⟨toInt32 directedEdge.first, toInt32 directedEdge.second, st.utilizationBusySumNs, last.endNs⟩⟩

/-! ## All links -/

/-- `m_utilization_trackers` after the callbacks of their devices. -/
def utilizationTrackers (events : Nat → List (Int × Bool))
    (tracked : List (Int64Pair × Nat × NetDeviceUtilizationTracker)) :
    Except Exc (List (Int64Pair × NetDeviceUtilizationTracker)) :=
  tracked.mapM fun p => do
    let tracker ← (events p.2.1).foldlM NetDeviceUtilizationTracker.callback p.2.2
    .ok (p.1, tracker)

/-- The links in ascending order. -/
def sortTrackers (trackers : List (Int64Pair × NetDeviceUtilizationTracker)) :
    List (Int64Pair × NetDeviceUtilizationTracker) := trackers.insertionSort fun a b => a.1 ≤ b.1

/-- `WriteResults` at the end of the simulation, when the tracking is enabled. -/
def writeUtilizationResults (differs : Int64Pair → DifferenceTest) (nowNs : Int)
    (trackers : List (Int64Pair × NetDeviceUtilizationTracker)) : Except Exc (List LinkUtilization) :=
  (sortTrackers trackers).mapM fun p => do
    let intervals ← p.2.finalizeUtilization nowNs
    writeLink (differs p.1) p.1 intervals

end BasicSim
