import BasicSim.Apps.Scheduler
import BasicSim.Apps.UdpBurst

/-!
# `Apps.ResultStatistics` — what the ping and burst schedulers compute for their results

`WriteResults` counts the replies of a ping and keeps their round-trip times with the smallest and the largest.
For a burst it computes the duration that the rates refer to, and the bytes that were sent or received.

Means, deviations and rates are floating-point numbers for the reader of the files; they are left out, with the
sums that only they are computed from.

## Contents
- **Pings.** `UdpPingLatencies`, `UdpPingStatistics`, `udpPingStatistics`, `udpPingResult`, `writeUdpPingsCsv`.
- **Bursts.** `UdpBurstResult`, `effectiveDurationNs`, and the results of the two directions.
-/

namespace BasicSim

open Fallible

/-! ## Pings -/

/-- What is computed from the time stamps of a line: -1 stands for a ping without a reply. -/
structure UdpPingLatencies where
  latencyToThereNs : Int
  latencyFromThereNs : Int
  rttNs : Int
deriving DecidableEq

/-- `reply_arrived`. -/
def UdpPingLine.replyArrived (line : UdpPingLine) : Bool := decide (line.replyNs ≠ -1)

def UdpPingLine.latencies (line : UdpPingLine) : Except Exc UdpPingLatencies :=
  if line.replyArrived = true then do
    let latencyToThereNs ← int64 (line.replyNs - line.sendRequestNs)
    let latencyFromThereNs ← int64 (line.receiveReplyNs - line.replyNs)
    let rttNs ← int64 (latencyToThereNs + latencyFromThereNs)
    .ok ⟨latencyToThereNs, latencyFromThereNs, rttNs⟩
  else .ok ⟨-1, -1, -1⟩

/-- The variables of the loop over the pings, with the lines of the result file. -/
structure UdpPingTotals where
  lines : List (UdpPingLine × UdpPingLatencies)
  /-- an `int` -/
  total : Int
  rttsNs : List Int
deriving DecidableEq

def UdpPingTotals.initial : UdpPingTotals := ⟨[], 0, []⟩

/-- The body of the loop, from the line on. -/
def UdpPingTotals.addLine (totals : UdpPingTotals) (line : UdpPingLine) : Except Exc UdpPingTotals := do
  let latencies ← line.latencies
  if line.replyArrived = true then do
    let total ← int32 (totals.total + 1)
    .ok ⟨totals.lines ++ [(line, latencies)], total, totals.rttsNs ++ [latencies.rttNs]⟩
  else .ok { totals with lines := totals.lines ++ [(line, latencies)] }

/-- The loop over the pings, counted with a `uint32_t`. -/
def udpPingTotals (info : UdpPingInfo) (t : UdpPingTimestamps) : Except Exc UdpPingTotals :=
  (List.range t.sent).foldlM (fun totals j => udpPingLine info t j >>= totals.addLine) .initial

structure UdpPingStatistics extends UdpPingTotals where
  minRttNs : Int
  maxRttNs : Int
deriving DecidableEq

/-- "10000s should be sufficiently high" -/
def initialMinRttNs : Int := 10000000000000

def initialMaxRttNs : Int := -1

/-- `Finalize the statistics`. -/
def UdpPingTotals.finalize (totals : UdpPingTotals) : UdpPingStatistics where
  toUdpPingTotals := totals
  minRttNs := if totals.rttsNs.length = 0 then -1 else totals.rttsNs.foldl min initialMinRttNs
  maxRttNs := if totals.rttsNs.length = 0 then -1 else totals.rttsNs.foldl max initialMaxRttNs

/-- The statistics of a ping. -/
def udpPingStatistics (info : UdpPingInfo) (t : UdpPingTimestamps) : Except Exc UdpPingStatistics := do
  let totals ← udpPingTotals info t
  .ok totals.finalize

/-- `reply_arrived_str`. -/
def UdpPingLine.replyArrivedStr (line : UdpPingLine) : Str :=
  if line.replyArrived = true then "YES".toList else "LOST".toList

/-- What is written for a ping: its lines with the statistics, and in `udp_pings.txt` its end time, too. -/
def udpPingResult (info : UdpPingInfo) (t : UdpPingTimestamps) : Except Exc (UdpPingStatistics × Int) := do
  let statistics ← udpPingStatistics info t
  let endTimeNs ← int64 (info.startTimeNs + info.fields.durationNs)
  .ok (statistics, endTimeNs)

/-- The lines of `udp_pings.csv`, ping by ping. -/
def writeUdpPingsCsv (timestamps : UdpPingClient → UdpPingTimestamps) (s : UdpPingScheduler) :
    Except Exc (List (UdpPingLine × UdpPingLatencies)) := do
  let rows ← writeUdpPingResults timestamps s
  let results ← rows.mapM fun (info, client, _) => udpPingResult info (timestamps client)
  .ok (results.flatMap fun result => result.1.lines)

/-! ## Bursts -/

/-- The integers that are written for a burst, or that its rates are computed from. -/
structure UdpBurstResult where
  info : UdpBurstInfo
  counter : BitVec 64
  sizeInclHeadersByte : BitVec 64
  sizePayloadOnlyByte : BitVec 64
  effectiveDurationNs : Int
deriving DecidableEq

/-- The duration of a burst that is cut off by the end of the simulation. -/
def effectiveDurationNs (simulationEndTimeNs : Int) (info : UdpBurstInfo) : Except Exc Int := do
  let endNs ← int64 (info.startTimeNs + info.fields.durationNs)
  if endNs ≥ simulationEndTimeNs then int64 (simulationEndTimeNs - info.startTimeNs)
  else .ok info.fields.durationNs

/-- The steps that the loops over the outgoing and the incoming bursts share. -/
def udpBurstResult (simulationEndTimeNs : Int) (sizes : UdpBurstSizes) (counter : BitVec 64)
    (info : UdpBurstInfo) : Except Exc UdpBurstResult := do
  let durationNs ← effectiveDurationNs simulationEndTimeNs info
  .ok {
    info := info
    counter := counter
    sizeInclHeadersByte := counter * sizes.maxSegmentSizeByte.setWidth 64
    sizePayloadOnlyByte := counter * sizes.maxUdpPayloadSizeByte.setWidth 64
    effectiveDurationNs := durationNs }

/-- From the `uint32_t` counter of a client. -/
def udpBurstOutgoingResult (simulationEndTimeNs : Int) (sizes : UdpBurstSizes) (sent : BitVec 32) :
    UdpBurstInfo → Except Exc UdpBurstResult :=
  udpBurstResult simulationEndTimeNs sizes (sent.setWidth 64)

/-- From a counter of a server. -/
def udpBurstIncomingResult (simulationEndTimeNs : Int) (sizes : UdpBurstSizes) (receivedCounter : Nat) :
    UdpBurstInfo → Except Exc UdpBurstResult :=
  udpBurstResult simulationEndTimeNs sizes (BitVec.ofNat 64 receivedCounter)

end BasicSim
