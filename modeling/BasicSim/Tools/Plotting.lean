import BasicSim.Core.Cpp
import BasicSim.Lib.Binning

/-!
# `Tools.Plotting` — the time series of the plotting tools (`tools/plotting`)

What the tools compute, before it is formatted as floating-point numbers and plotted. The integers of Python are
unbounded. A CSV file that `exputil` has read is the list of its rows; `parse_positive_int` of `exputil` is a
parameter.

## Contents
- **Python.** `PyExc` and reading an item.
- **Intervals.** `moveTo`, `sumUpIntoIntervals` (`plot_udp_burst.py`), `tcpFlowRateIntervals`
  (`generate_tcp_flow_rate_csv.py`).
- **Pings.** `pingResult`, `pingResults`, `isOutOfOrder`, `outOfOrderIntervals`, `plotUdpPing` (`plot_udp_ping.py`).
- **Bursts.** `udpBurstAmounts`, `udpBurstRate`, `udpBurstLatencies`, `plotUdpBurst` (`plot_udp_burst.py`).
- **Links.** `linkIntervals`, and with it the tools for queues and for utilization.
- **Flows.** `tcpFlowsEcdfs` (`plot_tcp_flows_ecdfs.py`).
-/

namespace BasicSim

open Fallible Binning

/-! ## Python -/

/-- What a run can end with instead of a value; a loop may also go on forever. -/
inductive PyExc where
  | indexError (what : String)
  | valueError (what : String)
  | goesOn
deriving DecidableEq, Repr

/-- `l[i]` for an index from `range`. -/
def itemAt {α : Type} (l : List α) (i : Nat) : Except PyExc α :=
  match l[i]? with
  | some a => .ok a
  | none => .error (.indexError "list index out of range")

/-! ## Intervals -/

/-- `current_interval`, and the `intervals` before it. -/
structure IntervalState where
  current : Bin Int
  intervals : List (Bin Int)
deriving DecidableEq

/-- Continue to fast-forward intervals until the next entry is in it; the loop is given how often it may go
    round. -/
def fastForward (intervalNs timeNs : Int) : Nat → IntervalState → Except PyExc IntervalState
  | 0, _ => .error .goesOn
  | fuel + 1, st =>
    if timeNs ≥ st.current.right then
      fastForward intervalNs timeNs fuel
        ⟨⟨st.current.right, st.current.right + intervalNs, 0⟩, st.intervals ++ [st.current]⟩
    else .ok st

/-- The inner loop. The right end grows by at least 1 each time, so it goes round at most once for every nanosecond up
    to the time. -/
def moveTo (intervalNs timeNs : Int) (st : IntervalState) : Except PyExc IntervalState :=
  fastForward intervalNs timeNs ((timeNs - st.current.right + 1).toNat + 1) st

/-- Add to the current interval. -/
def IntervalState.add (st : IntervalState) (amount : Int) : IntervalState :=
  { st with current := { st.current with amount := st.current.amount + amount } }

/-- The interval that the loops start with. -/
def firstInterval (intervalNs : Int) : IntervalState := ⟨⟨0, intervalNs, 0⟩, []⟩

def sumUpIntoIntervals (intervalNs : Int) (timeNsList dataList : List Int) : Except PyExc (List (Bin Int)) := do
  let st ← (List.range timeNsList.length).foldlM (fun st i => do
    let timeNs ← itemAt timeNsList i
    let st ← moveTo intervalNs timeNs st
    let data ← itemAt dataList i
    .ok (st.add data)) (firstInterval intervalNs)
  .ok (st.intervals ++ [st.current])

/-- A line of `tcp_flow_[id]_progress.csv`. -/
structure ProgressRow where
  tcpFlowId : Int
  timeNs : Int
  progressByte : Int
deriving DecidableEq

/-- The intervals of `generate_tcp_flow_rate_csv`, whose rates are then written. -/
def tcpFlowRateIntervals (tcpFlowId intervalNs : Int) (rows : List ProgressRow) :
    Except PyExc (List (Bin Int)) := do
  forM rows fun row => throwIf (row.tcpFlowId ≠ tcpFlowId) <| .valueError
    "The flow identifier does not match (it must be the same in the entire progress file)"
  let (st, _) ← rows.foldlM (fun (st, lastProgressByte) row => do
    let st ← moveTo intervalNs row.timeNs st
    .ok (st.add (row.progressByte - lastProgressByte), row.progressByte)) (firstInterval intervalNs, 0)
  -- the last interval is added if it is not empty
  .ok (if st.current.amount ≠ 0 then st.intervals ++ [st.current] else st.intervals)

/-! ## Pings -/

/-- A line of `udp_pings.csv`. -/
structure UdpPingRow where
  udpPingId : Int
  pingNo : Int
  sendRequestTimestamp : Int
  replyTimestamp : Int
  receiveReplyTimestamp : Int
  latencyToThereNs : Int
  latencyFromThereNs : Int
  rttNs : Int
  arrived : Str
deriving DecidableEq

/-- An entry of `ping_results`. -/
structure PingResult where
  pingNo : Int
  sendRequestTimestamp : Int
  replyTimestamp : Int
  receiveReplyTimestamp : Int
  latencyToThereNs : Int
  latencyFromThereNs : Int
  rttNs : Int
  isLost : Bool
deriving DecidableEq

def isLost (arrived : Str) : Except PyExc Bool :=
  if arrived = "YES".toList then .ok false
  else if arrived = "LOST".toList then .ok true
  else .error (.valueError ("Invalid value for arrival: " ++ String.ofList arrived))

/-- A lost ping has no timestamps. -/
def checkTimestamps (parsePositiveInt : Str → Except PyExc Int) (row : UdpPingRow) (isLost : Bool) :
    Except PyExc Unit :=
  if isLost = true then
    throwIf (row.replyTimestamp ≠ -1 ∨ row.receiveReplyTimestamp ≠ -1 ∨ row.latencyToThereNs ≠ -1 ∨
      row.latencyFromThereNs ≠ -1 ∨ row.rttNs ≠ -1) <| .valueError
      "Is lost so invalid timestamps should all be -1"
  else do
    let _ ← parsePositiveInt (toStr row.replyTimestamp)
    let _ ← parsePositiveInt (toStr row.receiveReplyTimestamp)
    let _ ← parsePositiveInt (toStr row.latencyToThereNs)
    let _ ← parsePositiveInt (toStr row.latencyFromThereNs)
    let _ ← parsePositiveInt (toStr row.rttNs)
    .ok ()

/-- Some checks, and the entry. -/
def pingResult (parsePositiveInt : Str → Except PyExc Int) (prevPingNo : Int) (row : UdpPingRow) :
    Except PyExc PingResult := do
  throwIf (row.pingNo ≠ prevPingNo + 1) <| .valueError "Ping number must be incrementally ascending"
  let isLost ← isLost row.arrived
  checkTimestamps parsePositiveInt row isLost
  .ok ⟨row.pingNo, row.sendRequestTimestamp, row.replyTimestamp, row.receiveReplyTimestamp, row.latencyToThereNs,
    row.latencyFromThereNs, row.rttNs, isLost⟩

/-- Find all entries for our pair. -/
def pingResults (parsePositiveInt : Str → Except PyExc Int) (udpPingId : Int) (rows : List UdpPingRow) :
    Except PyExc (List PingResult) := do
  let (results, _) ← rows.foldlM (fun ((results, prevPingNo) : List PingResult × Int) row => do
    if row.udpPingId = udpPingId then
      let entry ← pingResult parsePositiveInt prevPingNo row
      .ok (results ++ [entry], prevPingNo + 1)
    else .ok (results, prevPingNo)) ([], -1)
  .ok results

/-- What `current_lowest_timestamp` starts with. -/
def initialLowestTimestamp : Int := 1000000000000000

/-- The loop goes from the last entry to the first. -/
def markOutOfOrder (entry : PingResult) (later : Int × List Bool) : Int × List Bool :=
  let (currentLowestTimestamp, isOutOfOrder) := later
  if entry.isLost = true then (currentLowestTimestamp, true :: isOutOfOrder)
  else (min currentLowestTimestamp entry.receiveReplyTimestamp,
    decide (entry.receiveReplyTimestamp > currentLowestTimestamp) :: isOutOfOrder)

def isOutOfOrder (pingResults : List PingResult) : List Bool :=
  (pingResults.foldr markOutOfOrder (initialLowestTimestamp, [])).2

/-- The number of out-of-order entries in intervals. -/
def outOfOrderIntervals (intervalNs : Int) (pingResults : List PingResult) : Except PyExc (List (Bin Int)) := do
  let st ← (pingResults.zip (isOutOfOrder pingResults)).foldlM (fun st (entry, outOfOrder) => do
    let st ← moveTo intervalNs entry.sendRequestTimestamp st
    .ok (if outOfOrder = true then st.add 1 else st)) (firstInterval intervalNs)
  .ok (st.intervals ++ [st.current])

/-- The data that is plotted: the round-trip times, and the out-of-order entries in intervals. -/
structure UdpPingPlots where
  rtt : List (Int × Int)
  outOfOrder : List (Bin Int)
deriving DecidableEq

/-- The data RTT file, with 0 for a lost ping. -/
def pingRtts (pingResults : List PingResult) : List (Int × Int) :=
  pingResults.map fun entry => (entry.sendRequestTimestamp, if entry.isLost = true then 0 else entry.rttNs)

/-- `plot_udp_ping`, but for the plots. -/
def plotUdpPing (parsePositiveInt : Str → Except PyExc Int) (udpPingId intervalNs : Int) (rows : List UdpPingRow) :
    Except PyExc UdpPingPlots := do
  let results ← pingResults parsePositiveInt udpPingId rows
  let outOfOrder ← outOfOrderIntervals intervalNs results
  .ok ⟨pingRtts results, outOfOrder⟩

/-! ## Bursts -/

/-- A line of `udp_burst_[id]_outgoing.csv` or `udp_burst_[id]_incoming.csv`. -/
structure UdpBurstRow where
  udpBurstId : Int
  seqNo : Int
  timeNs : Int
deriving DecidableEq

/-- The data that is plotted: amounts and latencies at times, and rates in intervals. -/
structure UdpBurstPlots where
  sentAmount : List (Int × Int)
  arrivedAmount : List (Int × Int)
  sentRate : List (Bin Int)
  arrivedRate : List (Bin Int)
  oneWayLatency : List (Int × Int)
deriving DecidableEq

/-- `generate_udp_burst_sent_amount_csv` and `generate_udp_burst_arrived_amount_csv`. -/
def udpBurstAmounts (timeNsList : List Int) : List (Int × Int) :=
  (timeNsList.foldl (fun ((rows, prevAmount) : List (Int × Int) × Int) timeNs =>
    (rows ++ [(timeNs, prevAmount + 1500)], prevAmount + 1500)) ([], 0)).1

/-- `generate_udp_burst_sent_rate_csv` and `generate_udp_burst_arrived_rate_csv`, before the amounts are divided by the
    length of the intervals. -/
def udpBurstRate (intervalNs : Int) (timeNsList : List Int) : Except PyExc (List (Bin Int)) :=
  sumUpIntoIntervals intervalNs timeNsList (List.replicate timeNsList.length 1500)

/-- The dictionary `arrived`, where a later line for a sequence number replaces an earlier one. -/
def arrivedAt (incoming : List UdpBurstRow) : Int → Option Int :=
  incoming.foldl (fun arrived row => Function.update arrived row.seqNo (some row.timeNs)) fun _ => none

/-- `generate_udp_burst_latency_csv`. -/
def udpBurstLatencies (outgoing incoming : List UdpBurstRow) : List (Int × Int) :=
  outgoing.zipIdx.filterMap fun (row, i) =>
    (arrivedAt incoming i).map fun arrivedNs => (row.timeNs, arrivedNs - row.timeNs)

/-- `plot_udp_burst` until it plots. -/
def plotUdpBurst (udpBurstId intervalNs : Int) (outgoing incoming : List UdpBurstRow) :
    Except PyExc UdpBurstPlots := do
  throwIf (outgoing.map UdpBurstRow.udpBurstId ≠ List.replicate outgoing.length udpBurstId) <| .valueError
    "Mismatched UDP burst ID in outgoing data"
  throwIf (outgoing.map UdpBurstRow.seqNo ≠ (List.range outgoing.length).map Nat.cast) <| .valueError
    "Not all outgoing sequence numbers are incremented"
  throwIf (incoming.map UdpBurstRow.udpBurstId ≠ List.replicate incoming.length udpBurstId) <| .valueError
    "Mismatched UDP burst ID in incoming data"
  let outgoingTimeNsList := outgoing.map UdpBurstRow.timeNs
  let incomingTimeNsList := incoming.map UdpBurstRow.timeNs
  let sentRate ← udpBurstRate intervalNs outgoingTimeNsList
  let arrivedRate ← udpBurstRate intervalNs incomingTimeNsList
  .ok {
    sentAmount := udpBurstAmounts outgoingTimeNsList
    arrivedAmount := udpBurstAmounts incomingTimeNsList
    sentRate := sentRate
    arrivedRate := arrivedRate
    oneWayLatency := udpBurstLatencies outgoing incoming }

/-! ## Links -/

/-- What the tools for links and flows may raise. -/
inductive PlotError where
  | zeroDivisionError
  | valueError (what : String)
deriving DecidableEq, Repr

/-- A line of a log of a link: the packets or bytes in a queue during an interval, or its busy time. -/
structure LinkRow where
  fromNodeId : Int
  toNodeId : Int
  startNs : Int
  endNs : Int
  amount : Int
deriving DecidableEq

/-- `expected_next_start_ns` and `matched`, with the intervals that are written. -/
structure LinkPlot where
  expectedNextStartNs : Int
  matched : Bool
  intervals : List LinkRow
deriving DecidableEq

section LinkIntervals

variable (what : String) (check : LinkRow → Except PlotError Unit) (fromNodeId toNodeId : Int)

/-- The body of the loops: one interval after the other. -/
def LinkPlot.addRow (st : LinkPlot) (row : LinkRow) : Except PlotError LinkPlot :=
  if row.fromNodeId = fromNodeId ∧ row.toNodeId = toNodeId then do
    throwIf (row.startNs ≠ st.expectedNextStartNs) <| .valueError <|
      what ++ " do not match up: " ++ toString row.startNs ++ " vs. " ++ toString st.expectedNextStartNs
    check row
    .ok ⟨row.endNs, true, st.intervals ++ [row]⟩
  else .ok st

/-- The loops of the tools for links. -/
def linkIntervals (rows : List LinkRow) : Except PlotError (List LinkRow) := do
  let st ← rows.foldlM (LinkPlot.addRow what check fromNodeId toNodeId) ⟨0, false, []⟩
  -- must find data, else probably invalid node ids
  throwIf (st.matched = false) <| .valueError <|
    "No entries found link " ++ toString fromNodeId ++ " -> " ++ toString toNodeId
  .ok st.intervals

end LinkIntervals

/-- The intervals of `plot_link_net_device_queue`: of packets, and then of bytes. -/
def plotLinkNetDeviceQueue (fromNodeId toNodeId : Int) (pktRows byteRows : List LinkRow) :
    Except PlotError (List LinkRow × List LinkRow) := do
  let pkt ← linkIntervals "Queue packets intervals" (fun _ => .ok ()) fromNodeId toNodeId pktRows
  let byte ← linkIntervals "Queue byte intervals" (fun _ => .ok ()) fromNodeId toNodeId byteRows
  .ok (pkt, byte)

/-- `plot_link_interface_tc_qdisc_queue` differs in the names of its files only. -/
def plotLinkInterfaceTcQdiscQueue : Int → Int → List LinkRow → List LinkRow →
    Except PlotError (List LinkRow × List LinkRow) := plotLinkNetDeviceQueue

/-- The intervals of `plot_link_net_device_utilization`, whose busy time is divided by their length. -/
def plotLinkNetDeviceUtilization : Int → Int → List LinkRow → Except PlotError (List LinkRow) :=
  linkIntervals "Intervals" fun row => throwIf (row.endNs - row.startNs = 0) .zeroDivisionError

/-! ## Flows -/

/-- The columns of `tcp_flows.csv` that are used. -/
structure TcpFlowRow where
  sizeByte : Int
  durationNs : Int
  finished : Str
deriving DecidableEq

/-- The line says that the flow finished. -/
def TcpFlowRow.isFinished (row : TcpFlowRow) : Bool := decide (row.finished = "YES".toList)

/-- The numbers of flows, and the sizes and durations that the completion times and throughputs are computed from. -/
structure EcdfLists where
  numFinished : Nat
  numUnfinished : Nat
  finished : List (Int × Int)
deriving DecidableEq

/-- The size of a finished flow is divided by its duration. -/
def EcdfLists.addRow (st : EcdfLists) (row : TcpFlowRow) : Except PlotError EcdfLists :=
  if row.isFinished = true then do
    throwIf (row.durationNs = 0) .zeroDivisionError
    .ok { st with
      numFinished := st.numFinished + 1
      finished := st.finished ++ [(row.sizeByte, row.durationNs)] }
  else .ok { st with numUnfinished := st.numUnfinished + 1 }

/-- `plot_tcp_flows_ecdfs` until it plots. -/
def tcpFlowsEcdfs (rows : List TcpFlowRow) : Except PlotError EcdfLists := do
  let st ← rows.foldlM EcdfLists.addRow ⟨0, 0, []⟩
  throwIf (st.numFinished = 0) <| .valueError "No TCP flows were finished so an ECDF could not be produced"
  .ok st

end BasicSim
