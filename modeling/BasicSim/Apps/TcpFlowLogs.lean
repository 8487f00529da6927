import BasicSim.Apps.Applications
import BasicSim.Apps.TcpFlowClient
import BasicSim.Core.LogUpdateHelper

/-!
# `Apps.TcpFlowLogs` — the detailed logs of a flow and its line of the results

A `TcpFlowClient` (`model/apps/tcp-flow-client.cc`) that is created with detailed logging keeps nine logs: of its
progress, of six variables that its socket traces, and of the states of the connection. `WriteResults`
(`helper/apps/tcp-flow-scheduler.cc`) finalizes them and writes a line for the flow.

## Contents
- **Logs.** `TracedVariable`, `DetailedLogs`, their creation and the trace callbacks.
- **The client.** `LoggedFlow`, `startApplication`, `handle`, `finalizeDetailedLogs`.
- **Results.** `FinishedState`, `TcpFlowResult`, `writeTcpFlowLines`.
-/

namespace BasicSim

open Fallible

/-! ## Logs -/

/-- The variables of a socket that are logged as they change. -/
inductive TracedVariable where
  | rtt
  | rto
  | cwnd
  | cwndInflated
  | ssthresh
  | inflight
deriving DecidableEq

/-- How a log file is called. -/
def TracedVariable.name : TracedVariable → String
  | .rtt => "rtt"
  | .rto => "rto"
  | .cwnd => "cwnd"
  | .cwndInflated => "cwnd_inflated"
  | .ssthresh => "ssthresh"
  | .inflight => "inflight"

/-- The same for each of them, in this order. -/
def TracedVariable.each {α : Type} (f : TracedVariable → Except Exc α) : Except Exc (TracedVariable → α) := do
  let rtt ← f .rtt
  let rto ← f .rto
  let cwnd ← f .cwnd
  let cwndInflated ← f .cwndInflated
  let ssthresh ← f .ssthresh
  let inflight ← f .inflight
  .ok fun
    | .rtt => rtt
    | .rto => rto
    | .cwnd => cwnd
    | .cwndInflated => cwndInflated
    | .ssthresh => ssthresh
    | .inflight => inflight

/-- `TcpSocket::TcpStates_t`. -/
inductive TcpStates where
  | closed | listen | synSent | synRcvd | established | closeWait | lastAck | finWait1 | finWait2 | closing
  | timeWait | lastState
deriving DecidableEq

/-- `newStateString`. -/
def TcpStates.text : TcpStates → Str
  | .closed => "CLOSED".toList
  | .listen => "LISTEN".toList
  | .synSent => "SYN_SENT".toList
  | .synRcvd => "SYN_RCVD".toList
  | .established => "ESTABLISHED".toList
  | .closeWait => "CLOSE_WAIT".toList
  | .lastAck => "LAST_ACK".toList
  | .finWait1 => "FIN_WAIT_1".toList
  | .finWait2 => "FIN_WAIT_2".toList
  | .closing => "CLOSING".toList
  | .timeWait => "TIME_WAIT".toList
  | .lastState => "LAST_STATE".toList

/-- `TcpSocketState::TcpCongState_t`. -/
inductive TcpCongState where
  | caOpen | caDisorder | caCwr | caRecovery | caLoss | caLastState
deriving DecidableEq

/-- `newCongStateString`. -/
def TcpCongState.text : TcpCongState → Str
  | .caOpen => "CA_OPEN".toList
  | .caDisorder => "CA_DISORDER".toList
  | .caCwr => "CA_CWR".toList
  | .caRecovery => "CA_RECOVERY".toList
  | .caLoss => "CA_LOSS".toList
  | .caLastState => "CA_LAST_STATE".toList

section Files

variable {V : Type} [DecidableEq V]

/-- `Update` of a log of any values, where the caller lets an exception pass. -/
def LogUpdateHelper.updateFile (render : V → Str) (h : LogUpdateHelper V) (time : Int) (value : V) :
    Except Exc (LogUpdateHelper V) :=
  match h.update render time value with
  | (.ok (), h') => .ok h'
  | (.error e, _) => .error e

/-- `Finalize`, likewise; what it returns is not used. -/
def LogUpdateHelper.finalizeFile (render : V → Str) (h : LogUpdateHelper V) (time : Int) :
    Except Exc (LogUpdateHelper V) :=
  match h.finalize render time with
  | (.ok _, h') => .ok h'
  | (.error e, _) => .error e

end Files

/-- The `LogUpdateHelper` members of the client. -/
structure DetailedLogs where
  progressByte : LogUpdateHelper Int
  traced : TracedVariable → LogUpdateHelper Int
  state : LogUpdateHelper Str
  congState : LogUpdateHelper Str

namespace DetailedLogs

/-- What every line of a log begins with. -/
def linePrefix (client : TcpFlowClient) : Str := toStr client.tcpFlowId ++ ",".toList

def filename (client : TcpFlowClient) (name : String) : Str :=
  client.baseLogsDir ++ "/".toList ++ "tcp_flow_".toList ++ toStr client.tcpFlowId ++ "_".toList ++ name.toList ++
    ".csv".toList

section Create

variable {V : Type} (client : TcpFlowClient) (minusOne : V) (name : String)

/-- A log that is written to its file. -/
def createLog : Except Exc (LogUpdateHelper V) :=
  LogUpdateHelper.create minusOne false true (filename client name) (linePrefix client)

end Create

/-- The `char` that -1 is as a `std::string`. -/
def minusOneStr : Str := [Char.ofNat 255]

/-- The logging part of `StartApplication`. There is no round-trip time or congestion window yet, but there is a
    progress, and the states have their defaults. -/
def create (client : TcpFlowClient) (nowNs ackedBytes : Int) : Except Exc DetailedLogs := do
  let progressByte ← createLog client (-1 : Int) "progress"
  let progressByte ← progressByte.updateFile toStr nowNs ackedBytes
  let traced ← TracedVariable.each fun v => createLog client (-1 : Int) v.name
  let state ← createLog client minusOneStr "state"
  let state ← state.updateFile id nowNs TcpStates.closed.text
  let congState ← createLog client minusOneStr "cong_state"
  let congState ← congState.updateFile id nowNs TcpCongState.caOpen.text
  .ok ⟨progressByte, traced, state, congState⟩

/-- The body that the callbacks of the traced variables share. -/
def tracedChange (v : TracedVariable) (nowNs newValue : Int) (logs : DetailedLogs) :
    Except Exc DetailedLogs := do
  let h ← (logs.traced v).updateFile toStr nowNs newValue
  .ok { logs with traced := Function.update logs.traced v h }

def rttChange := tracedChange .rtt

def rtoChange := tracedChange .rto

def cwndChange := tracedChange .cwnd

def cwndInflatedChange := tracedChange .cwndInflated

def ssthreshChange := tracedChange .ssthresh

def inflightChange := tracedChange .inflight

/-- The callback that is connected to the trace source of a variable. -/
def onChange : TracedVariable → Int → Int → DetailedLogs → Except Exc DetailedLogs
  | .rtt => rttChange
  | .rto => rtoChange
  | .cwnd => cwndChange
  | .cwndInflated => cwndInflatedChange
  | .ssthresh => ssthreshChange
  | .inflight => inflightChange

def stateChange (newState : TcpStates) (nowNs : Int) (logs : DetailedLogs) : Except Exc DetailedLogs := do
  let state ← logs.state.updateFile id nowNs newState.text
  .ok { logs with state }

def congStateChange (newCongState : TcpCongState) (nowNs : Int) (logs : DetailedLogs) : Except Exc DetailedLogs := do
  let congState ← logs.congState.updateFile id nowNs newCongState.text
  .ok { logs with congState }

/-- The logs of variables end at one time, and those of the states at another. -/
def finalize (timestamp nowNs : Int) (logs : DetailedLogs) : Except Exc DetailedLogs := do
  let progressByte ← logs.progressByte.finalizeFile toStr timestamp
  let traced ← TracedVariable.each fun v => (logs.traced v).finalizeFile toStr timestamp
  let state ← logs.state.finalizeFile id nowNs
  let congState ← logs.congState.finalizeFile id nowNs
  .ok ⟨progressByte, traced, state, congState⟩

end DetailedLogs

/-! ## The client -/

/-- A client and its socket, with the logs if `m_enableDetailedLoggingToFile`. -/
structure LoggedFlow where
  flow : TcpFlow
  logs : Option DetailedLogs

/-- What calls the client back. A socket that takes acknowledged bytes out of its buffer, also if they are none, then
    moves its first unacknowledged sequence number. -/
inductive FlowCallback where
  | socket (event : TcpSocketEvent)
  | traced (v : TracedVariable) (newValue : Int)
  | state (newState : TcpStates)
  | congState (newCongState : TcpCongState)

namespace LoggedFlow

/-- Without logs, nothing is connected to the trace sources. -/
def withLogs (f : DetailedLogs → Except Exc DetailedLogs) (s : LoggedFlow) : Except Exc LoggedFlow :=
  match s.logs with
  | none => .ok s
  | some logs => do
    let logs ← f logs
    .ok { s with logs := some logs }

/-- Up to `Connect`. The socket may call back during it, and if it returns -1 the client calls `ConnectionFailed`
    itself, which is the same as when the socket does. -/
def startApplication (client : TcpFlowClient) (bindResult nowNs : Int) : Except Exc LoggedFlow := do
  let flow ← TcpFlow.startApplication bindResult 0 nowNs
  if client.enableDetailedLoggingToFile = true then do
    let ackedBytes ← flow.getAckedBytes
    let logs ← DetailedLogs.create client nowNs ackedBytes
    .ok ⟨flow, some logs⟩
  else .ok ⟨flow, none⟩

def txBufferUnackSequenceChange (nowNs : Int) (s : LoggedFlow) : Except Exc LoggedFlow :=
  s.withLogs fun logs => do
    let ackedBytes ← s.flow.getAckedBytes
    let progressByte ← logs.progressByte.updateFile toStr nowNs ackedBytes
    .ok { logs with progressByte }

/-- The callback that the client registered. -/
def handle (sendStepSize flowSizeByte rounds : Nat) (nowNs : Int) (callback : FlowCallback) (s : LoggedFlow) :
    Except Exc LoggedFlow :=
  match callback with
  | .socket (.acknowledged bytes) => do
    let flow ← s.flow.handle sendStepSize flowSizeByte rounds nowNs (.acknowledged bytes)
    txBufferUnackSequenceChange nowNs { s with flow }
  | .socket event => do
    let flow ← s.flow.handle sendStepSize flowSizeByte rounds nowNs event
    .ok { s with flow }
  | .traced v newValue => s.withLogs (DetailedLogs.onChange v nowNs newValue)
  | .state newState => s.withLogs (DetailedLogs.stateChange newState nowNs)
  | .congState newCongState => s.withLogs (DetailedLogs.congStateChange newCongState nowNs)

/-- The time that the logs of variables are finalized at: these exist only while the connection is alive. -/
def logsEndNs (nowNs : Int) (s : LoggedFlow) : Int :=
  if s.flow.client.connFailed = true ∨ s.flow.client.closedByError = true ∨ s.flow.client.closedNormally = true then
    s.flow.client.completionTimeNs
  else nowNs

def finalizeDetailedLogs (nowNs : Int) (s : LoggedFlow) : Except Exc LoggedFlow :=
  s.withLogs (DetailedLogs.finalize (s.logsEndNs nowNs) nowNs)

end LoggedFlow

/-! ## Results -/

/-- `finished_state`. -/
inductive FinishedState where
  | yes
  | noConnFail
  | noBadClose
  | noErrClose
  | noOngoing
deriving DecidableEq

def FinishedState.text : FinishedState → Str
  | .yes => "YES".toList
  | .noConnFail => "NO_CONN_FAIL".toList
  | .noBadClose => "NO_BAD_CLOSE".toList
  | .noErrClose => "NO_ERR_CLOSE".toList
  | .noOngoing => "NO_ONGOING".toList

def finishedState (client : TcpFlowClientState) : FinishedState :=
  if client.isCompleted = true then .yes
  else if client.connFailed = true then .noConnFail
  else if client.closedNormally = true then .noBadClose
  else if client.closedByError = true then .noErrClose
  else .noOngoing

/-- A line of `tcp_flows.csv`. -/
structure TcpFlowResult where
  tcpFlowId : Int
  fromNodeId : Int
  toNodeId : Int
  sizeByte : Int
  startTimeNs : Int
  endTimeNs : Int
  durationNs : Int
  sentByte : Int
  finishedState : FinishedState
  metadata : Str
deriving DecidableEq

/-- `fct_ns`. -/
def flowDurationNs (simulationEndTimeNs startTimeNs : Int) (client : TcpFlowClientState) : Except Exc Int :=
  if client.isCompleted = true then int64 (client.completionTimeNs - startTimeNs)
  else int64 (simulationEndTimeNs - startTimeNs)

def tcpFlowResult (simulationEndTimeNs : Int) (entry : TcpFlowScheduleEntry) (flow : TcpFlow) :
    Except Exc TcpFlowResult := do
  let sentByte ← flow.getAckedBytes
  let durationNs ← flowDurationNs simulationEndTimeNs entry.startTimeNs flow.client
  let endTimeNs ← int64 (entry.startTimeNs + durationNs)
  .ok ⟨entry.id, entry.fromNodeId, entry.toNodeId, entry.fields.sizeByte, entry.startTimeNs, endTimeNs, durationNs,
    sentByte, finishedState flow.client, entry.fields.metadata⟩

/-- The lines of the flows, each with the state of its application, and the applications with their logs
    finalized. -/
def writeTcpFlowLines (simulationEndTimeNs nowNs : Int) (flows : List (TcpFlowScheduleEntry × LoggedFlow)) :
    Except Exc (List (TcpFlowResult × LoggedFlow)) :=
  flows.mapM fun p => do
    let s ← p.2.finalizeDetailedLogs nowNs
    let result ← tcpFlowResult simulationEndTimeNs p.1 s.flow
    .ok (result, s)

end BasicSim
