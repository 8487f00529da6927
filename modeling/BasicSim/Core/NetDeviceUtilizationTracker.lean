import BasicSim.Core.Cpp

/-!
# `Core.NetDeviceUtilizationTracker` — busy time (`model/core/net-device-utilization-tracker.cc`)

Every 64-bit operation is checked: an overflow is undefined behaviour. `Simulator::Now()` is an argument.
-/

namespace BasicSim

open Fallible

/-- An entry of `m_intervals`: start, end and busy time. -/
structure UtilizationInterval where
  startNs : Int
  endNs : Int
  busyNs : Int
deriving DecidableEq, Repr

structure NetDeviceUtilizationTracker where
  intervalNs : Int
  prevTimeNs : Int
  currentIntervalStart : Int
  currentIntervalEnd : Int
  idleTimeCounterNs : Int
  busyTimeCounterNs : Int
  currentStateIsOn : Bool
  intervals : List UtilizationInterval
deriving DecidableEq

namespace NetDeviceUtilizationTracker

/-- The constructor of the source. -/
def create (intervalNs : Int) : NetDeviceUtilizationTracker where
  intervalNs := intervalNs
  prevTimeNs := 0
  currentIntervalStart := 0
  currentIntervalEnd := intervalNs
  idleTimeCounterNs := 0
  busyTimeCounterNs := 0
  currentStateIsOn := false
  intervals := []

/-- Add everything from the previous time until `time`: it was spent in the state that ends now. -/
def addUntil (s : NetDeviceUtilizationTracker) (nextStateIsOn : Bool) (time : Int) :
    Except Exc NetDeviceUtilizationTracker :=
  if nextStateIsOn = true then do
    let idle ← int64 (s.idleTimeCounterNs + (← int64 (time - s.prevTimeNs)))
    .ok { s with idleTimeCounterNs := idle }
  else do
    let busy ← int64 (s.busyTimeCounterNs + (← int64 (time - s.prevTimeNs)))
    .ok { s with busyTimeCounterNs := busy }

/-- The body of the loop: save the current interval, and move to the next one. -/
def nextInterval (s : NetDeviceUtilizationTracker) (nextStateIsOn : Bool) :
    Except Exc NetDeviceUtilizationTracker := do
  let s ← s.addUntil nextStateIsOn s.currentIntervalEnd
  let sum ← int64 (s.idleTimeCounterNs + s.busyTimeCounterNs)
  throwIf (sum ≠ s.intervalNs) <| .assertion
    "m_idle_time_counter_ns + m_busy_time_counter_ns == m_interval_ns"
  let intervalStart ← int64 (s.currentIntervalStart + s.intervalNs)
  let intervalEnd ← int64 (s.currentIntervalEnd + s.intervalNs)
  .ok { s with
    intervals := s.intervals ++ [⟨s.currentIntervalStart, s.currentIntervalEnd, s.busyTimeCounterNs⟩]
    idleTimeCounterNs := 0
    busyTimeCounterNs := 0
    prevTimeNs := s.currentIntervalEnd
    currentIntervalStart := intervalStart
    currentIntervalEnd := intervalEnd }

/-- The loop; it is given how often it may go round. -/
def nextIntervals (nowNs : Int) (nextStateIsOn : Bool) :
    Nat → NetDeviceUtilizationTracker → Except Exc NetDeviceUtilizationTracker
  | 0, _ => .error (.undefined "the loop goes on")
  | fuel + 1, s =>
    if nowNs ≥ s.currentIntervalEnd then do
      let s ← s.nextInterval nextStateIsOn
      nextIntervals nowNs nextStateIsOn fuel s
    else .ok s

/-- The end of the interval grows by at least 1 each time, so the loop goes round at most once for every
    nanosecond up to now. -/
def trackUtilization (s : NetDeviceUtilizationTracker) (nowNs : Int) (nextStateIsOn : Bool) :
    Except Exc NetDeviceUtilizationTracker := do
  let s ← nextIntervals nowNs nextStateIsOn ((nowNs - s.currentIntervalEnd + 1).toNat + 1) s
  let s ← s.addUntil nextStateIsOn nowNs
  .ok { s with currentStateIsOn := nextStateIsOn, prevTimeNs := nowNs }

def netDevicePhyTxBeginCallback (s : NetDeviceUtilizationTracker) (nowNs : Int) :
    Except Exc NetDeviceUtilizationTracker := s.trackUtilization nowNs true

def netDevicePhyTxEndCallback (s : NetDeviceUtilizationTracker) (nowNs : Int) :
    Except Exc NetDeviceUtilizationTracker := s.trackUtilization nowNs false

def finalizeUtilization (s : NetDeviceUtilizationTracker) (nowNs : Int) :
    Except Exc (List UtilizationInterval) := do
  let s ← s.trackUtilization nowNs (!s.currentStateIsOn)
  if nowNs ≠ s.currentIntervalStart then
    .ok (s.intervals ++ [⟨s.currentIntervalStart, nowNs, s.busyTimeCounterNs⟩])
  else .ok s.intervals

/-- The same with the tracker that it leaves behind, whose intervals are what it returns. -/
def finalizeUtilizationInPlace (s : NetDeviceUtilizationTracker) (nowNs : Int) :
    Except Exc (List UtilizationInterval × NetDeviceUtilizationTracker) := do
  let s ← s.trackUtilization nowNs (!s.currentStateIsOn)
  let s :=
    if nowNs ≠ s.currentIntervalStart then
      { s with intervals := s.intervals ++ [⟨s.currentIntervalStart, nowNs, s.busyTimeCounterNs⟩] }
    else s
  .ok (s.intervals, s)

/-- A callback of the device at a time; `true` is `PhyTxBegin` and `false` is `PhyTxEnd`. -/
def callback (s : NetDeviceUtilizationTracker) (event : Int × Bool) :
    Except Exc NetDeviceUtilizationTracker :=
  if event.2 = true then s.netDevicePhyTxBeginCallback event.1 else s.netDevicePhyTxEndCallback event.1

/-- A tracker over its life: the callbacks, and the finalisation at the time `endNs`. -/
def run (intervalNs : Int) (events : List (Int × Bool)) (endNs : Int) :
    Except Exc (List UtilizationInterval) := do
  let s ← events.foldlM callback (create intervalNs)
  s.finalizeUtilization endNs

end NetDeviceUtilizationTracker

end BasicSim
