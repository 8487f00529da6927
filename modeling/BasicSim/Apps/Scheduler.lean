import BasicSim.Apps.Applications
import BasicSim.Core.BasicSimulation
import BasicSim.Lib.EventLoop
import Mathlib.Data.List.Sort

/-!
# `Apps.Scheduler` — the three schedulers (`helper/apps/*-scheduler.cc`)

A scheduler reads its schedule when it is created, keeps the entries of this system and schedules the start of
the first one. The start of an entry creates its client application and schedules the start of the next entry.
After the simulation the results are written from the schedule and the applications.

The nodes of ns-3 are a parameter. The type of service and the socket generators that are handed through to
the applications are left out. What the result files hold beyond these rows is in `Apps.ResultStatistics`.

## Contents
- **Members.** `SchedulerSettings`, `Scheduler`, `NodeContainer`.
- **Starting.** `startNext`, and `startNextFlow`, `startNextUdpPing` and `startNextUdpBurst`.
- **Creation.** `createTcpFlowScheduler`, `createUdpPingScheduler`, `createUdpBurstScheduler`.
- **Results.** `writeTcpFlowResults`, `writeUdpPingResults`, `writeUdpBurstOutgoing`,
  `writeUdpBurstIncoming`.
-/

namespace BasicSim

open Fallible

/-! ## Members -/

/-- What is set when a scheduler is created. The ping scheduler has no detailed logging. -/
structure SchedulerSettings where
  enabled : Bool
  logsDir : Str
  enableLoggingForIds : OrdSet Int
deriving DecidableEq

structure Scheduler (Fields App : Type) extends SchedulerSettings where
  schedule : List (ScheduleEntry Fields)
  apps : List App
deriving DecidableEq

/-- What a scheduler uses of the nodes. Installing an application changes the rest of the simulation, which
    then starts it by events of its own. -/
structure NodeContainer (App World Event : Type) where
  /-- `Get(nodeId)->GetObject<Ipv4>()->GetAddress(1, 0).GetLocal()` -/
  getAddress : Int → Except Exc Ipv4Address
  /-- `Install(node)`, followed by `Start(NanoSeconds(0))` -/
  install : App → World → Except Exc (World × List (Int × Event))

/-! ## Starting -/

section Start

variable {Fields App World Event : Type}

/-- If there is a next entry to start, schedule its start. The index is an `int`, and so becomes the size. -/
def scheduleNext (schedule : List (ScheduleEntry Fields)) (i nowNs : Int) :
    Except Exc (List (Int × Int)) := do
  let next ← int32 (i + 1)
  if next ≠ toInt32 schedule.length then do
    let entry ← vectorAt schedule next
    let delayNs ← int64 (entry.startTimeNs - nowNs)
    .ok [(delayNs, next)]
  else .ok []

/-- The steps that the three start functions share. -/
def startNext (wrongTime : Exc)
    (createApp : SchedulerSettings → ScheduleEntry Fields → World →
      Except Exc (App × World × List (Int × Event)))
    (i nowNs : Int) (s : Scheduler Fields App) (world : World) :
    Except Exc ((Scheduler Fields App × List (Int × Int)) × (World × List (Int × Event))) := do
  let entry ← vectorAt s.schedule i
  throwIf (nowNs ≠ entry.startTimeNs) wrongTime
  let (app, world, events) ← createApp s.toSchedulerSettings entry world
  let next ← scheduleNext s.schedule i nowNs
  .ok (({ s with apps := s.apps ++ [app] }, next), (world, events))

end Start

section Clients

variable {World Event : Type}

/-- `TcpFlowScheduler::DEFAULT_SERVER_PORT`. -/
def defaultServerPort : Nat := 1024

/-- The client that a flow is started with, towards the default port. -/
def tcpFlowClient (nodes : NodeContainer TcpFlowClient World Event) (settings : SchedulerSettings)
    (entry : TcpFlowScheduleEntry) : Except Exc TcpFlowClient := do
  let localAddress ← nodes.getAddress entry.fromNodeId
  let remoteAddress ← nodes.getAddress entry.toNodeId
  -- the attribute wants at least 1
  throwIf (entry.fields.sizeByte < 1) <| .abort "Attribute FlowSizeByte is out of range"
  .ok {
    nodeId := entry.fromNodeId
    localAddress := ⟨localAddress, 0⟩
    remoteAddress := ⟨remoteAddress, defaultServerPort⟩
    tcpFlowId := entry.id
    flowSizeByte := entry.fields.sizeByte
    additionalParameters := entry.fields.additionalParameters
    enableDetailedLoggingToFile := decide (entry.id ∈ settings.enableLoggingForIds)
    baseLogsDir := settings.logsDir }

def TcpFlowClient.setRemotePort (client : TcpFlowClient) (port : Nat) : TcpFlowClient :=
  { client with remoteAddress := ⟨client.remoteAddress.ipv4, port⟩ }

/-- Install the client, and have the remote port selected. -/
def createTcpFlowClient (nodes : NodeContainer TcpFlowClient World Event) (serverPorts : OrdSet Nat)
    (selectRemotePort : TcpFlowClient → World → Nat × World) (settings : SchedulerSettings)
    (entry : TcpFlowScheduleEntry) (world : World) :
    Except Exc (TcpFlowClient × World × List (Int × Event)) := do
  let client ← tcpFlowClient nodes settings entry
  let (world, events) ← nodes.install client world
  let (remotePort, world) := selectRemotePort client world
  throwIf (remotePort ∉ serverPorts) <| .abort <|
    "Selected remote port " ++ toString remotePort ++ " is not among the server ports"
  .ok (client.setRemotePort remotePort, world, events)

def udpPingClient (nodes : NodeContainer UdpPingClient World Event) (entry : UdpPingInfo) :
    Except Exc UdpPingClient := do
  let localAddress ← nodes.getAddress entry.fromNodeId
  let remoteAddress ← nodes.getAddress entry.toNodeId
  .ok {
    nodeId := entry.fromNodeId
    localAddress := ⟨localAddress, 0⟩
    remoteAddress := ⟨remoteAddress, 1026⟩
    udpPingId := toUInt32 entry.id
    intervalNs := entry.fields.intervalNs
    durationNs := entry.fields.durationNs
    waitAfterwardsNs := entry.fields.waitAfterwardsNs
    additionalParameters := entry.fields.additionalParameters }

def createUdpPingClient (nodes : NodeContainer UdpPingClient World Event) (_ : SchedulerSettings)
    (entry : UdpPingInfo) (world : World) :
    Except Exc (UdpPingClient × World × List (Int × Event)) := do
  let client ← udpPingClient nodes entry
  let (world, events) ← nodes.install client world
  .ok (client, world, events)

def udpBurstClient (nodes : NodeContainer UdpBurstClient World Event) (settings : SchedulerSettings)
    (entry : UdpBurstInfo) : Except Exc UdpBurstClient := do
  let localAddress ← nodes.getAddress entry.fromNodeId
  let remoteAddress ← nodes.getAddress entry.toNodeId
  -- the attribute takes neither an infinity nor NaN
  throwIf (entry.fields.targetRateMegabitPerS.passesChecker = false) <|
    .abort "Attribute TargetRateMbps is out of range"
  .ok {
    nodeId := entry.fromNodeId
    localAddress := ⟨localAddress, 0⟩
    remoteAddress := ⟨remoteAddress, 1025⟩
    udpBurstId := toUInt32 entry.id
    targetRateMegabitPerSec := entry.fields.targetRateMegabitPerS
    durationNs := entry.fields.durationNs
    additionalParameters := entry.fields.additionalParameters
    enableDetailedLoggingToFile := decide (entry.id ∈ settings.enableLoggingForIds)
    baseLogsDir := settings.logsDir }

/-- The client is recorded together with its entry. -/
def createUdpBurstClient (nodes : NodeContainer UdpBurstClient World Event) (settings : SchedulerSettings)
    (entry : UdpBurstInfo) (world : World) :
    Except Exc ((UdpBurstInfo × UdpBurstClient) × World × List (Int × Event)) := do
  let client ← udpBurstClient nodes settings entry
  let (world, events) ← nodes.install client world
  .ok ((entry, client), world, events)

end Clients

abbrev TcpFlowScheduler := Scheduler TcpFlowFields TcpFlowClient

abbrev UdpPingScheduler := Scheduler UdpPingFields UdpPingClient

/-- `m_apps` is not used here; the applications are in `m_responsible_for_outgoing_bursts`. -/
structure UdpBurstScheduler extends Scheduler UdpBurstFields (UdpBurstInfo × UdpBurstClient) where
  servers : List UdpBurstServer
  /-- an entry and the position of its server -/
  responsibleForIncomingBursts : List (UdpBurstInfo × Nat)
deriving DecidableEq

section StartNext

variable {World Event : Type}

def startNextFlow (nodes : NodeContainer TcpFlowClient World Event) (serverPorts : OrdSet Nat)
    (selectRemotePort : TcpFlowClient → World → Nat × World) (i nowNs : Int) (s : TcpFlowScheduler)
    (world : World) :
    Except Exc ((TcpFlowScheduler × List (Int × Int)) × (World × List (Int × Event))) :=
  startNext (.assertion "now_ns == entry.GetStartTimeNs()")
    (createTcpFlowClient nodes serverPorts selectRemotePort) i nowNs s world

def startNextUdpPing (nodes : NodeContainer UdpPingClient World Event) (i nowNs : Int)
    (s : UdpPingScheduler) (world : World) :
    Except Exc ((UdpPingScheduler × List (Int × Int)) × (World × List (Int × Event))) :=
  startNext (.abort "now_ns == entry.GetStartTimeNs()") (createUdpPingClient nodes) i nowNs s world

def startNextUdpBurst (nodes : NodeContainer UdpBurstClient World Event) (i nowNs : Int)
    (s : Scheduler UdpBurstFields (UdpBurstInfo × UdpBurstClient)) (world : World) :
    Except Exc ((Scheduler UdpBurstFields (UdpBurstInfo × UdpBurstClient) × List (Int × Int)) ×
      (World × List (Int × Event))) :=
  startNext (.abort "now_ns == entry.GetStartTimeNs()") (createUdpBurstClient nodes) i nowNs s world

end StartNext

/-! ## Creation -/

section Create

variable {Fields App : Type} (sim : BasicSimulation) (topology : TopologyPtop) (files : Str → File)

/-- A scheduler that is not enabled. -/
def Scheduler.disabled : Scheduler Fields App where
  enabled := false
  logsDir := sim.logsDir
  enableLoggingForIds := ∅
  schedule := []
  apps := []

/-- Read the schedule file that the configuration names. -/
def readConfiguredSchedule (key : String) (read : Str → File → Except Exc (List (ScheduleEntry Fields))) :
    Except Exc (List (ScheduleEntry Fields)) := do
  let name ← getParamOrFail key.toList sim.config
  let filename := sim.runDir ++ "/".toList ++ name
  read filename (files filename)

/-- The identifiers to log in detail, which must exist. -/
def parseLoggingIds (key kind : String) (scheduleSize : Nat) : Except Exc (OrdSet Int) := do
  let str := getParamOrDefault key.toList "set()".toList sim.config
  let ids ← if str = "all".toList then .ok (OrdSet.ofList (upTo scheduleSize)) else parseSetPositiveInt64 str
  forM ids.toList fun id => throwIf ((scheduleSize : Int) ≤ id) <| .invalidArgument <|
    "Invalid " ++ kind ++ " ID in " ++ key ++ ": " ++ toString id
  .ok ids

/-- Keep the entries that start at a node of this system. -/
def filterSchedule (completeSchedule : List (ScheduleEntry Fields)) :
    Except Exc (List (ScheduleEntry Fields)) :=
  if sim.enableDistributed = true then
    filterLoop (fun entry => sim.isNodeAssignedToThisSystem entry.fromNodeId) completeSchedule
  else .ok completeSchedule

/-- The endpoints that this system installs servers on. -/
def serverNodes : Except Exc (List Int) := filterLoop sim.isResponsibleFor topology.getEndpoints.toList

/-- The event that is scheduled at the creation of a scheduler. -/
def firstStart (s : Scheduler Fields App) : List (Int × Int) :=
  match s.schedule with
  | [] => []
  | entry :: _ => [(entry.startTimeNs, 0)]

/-- The scheduler, and the nodes with a server. -/
def createTcpFlowScheduler : Except Exc (TcpFlowScheduler × List Int) := do
  let enabled ← parseBoolean (getParamOrDefault "enable_tcp_flow_scheduler".toList "false".toList sim.config)
  if enabled = false then .ok (Scheduler.disabled sim, [])
  else do
    let completeSchedule ← readConfiguredSchedule sim files "tcp_flow_schedule_filename"
      fun filename file => readTcpFlowSchedule filename file topology sim.simulationEndTimeNs
    let loggingIds ← parseLoggingIds sim "tcp_flow_enable_logging_for_tcp_flow_ids" "TCP flow"
      completeSchedule.length
    let schedule ← filterSchedule sim completeSchedule
    let servers ← serverNodes sim topology
    .ok (⟨⟨true, sim.logsDir, loggingIds⟩, schedule, []⟩, servers)

/-- The scheduler, and the nodes with a server. -/
def createUdpPingScheduler : Except Exc (UdpPingScheduler × List Int) := do
  let enabled ← parseBoolean (getParamOrDefault "enable_udp_ping_scheduler".toList "false".toList sim.config)
  if enabled = false then .ok (Scheduler.disabled sim, [])
  else do
    let completeSchedule ← readConfiguredSchedule sim files "udp_ping_schedule_filename"
      fun filename file => readUdpPingSchedule filename file topology sim.simulationEndTimeNs
    let schedule ← filterSchedule sim completeSchedule
    let servers ← serverNodes sim topology
    .ok (⟨⟨true, sim.logsDir, ∅⟩, schedule, []⟩, servers)

/-- Register one incoming burst at the server that is being set up, if it is for its node. -/
def registerBurst (loggingIds : OrdSet Int) (endpoint : Int) (serverIdx : Nat)
    (st : UdpBurstServer × List (UdpBurstInfo × Nat)) (entry : UdpBurstInfo) :
    UdpBurstServer × List (UdpBurstInfo × Nat) :=
  if entry.toNodeId = endpoint then
    (st.1.registerIncomingBurst entry.id (decide (entry.id ∈ loggingIds)), st.2 ++ [(entry, serverIdx)])
  else st

/-- Install a server on an endpoint of this system, and register its bursts. -/
def installBurstServer (completeSchedule : List UdpBurstInfo) (loggingIds : OrdSet Int)
    (st : List UdpBurstServer × List (UdpBurstInfo × Nat)) (endpoint : Int) :
    List UdpBurstServer × List (UdpBurstInfo × Nat) :=
  let st' := completeSchedule.foldl (registerBurst loggingIds endpoint st.1.length)
    (UdpBurstServer.create endpoint, st.2)
  (st.1 ++ [st'.1], st'.2)

def createUdpBurstScheduler (stod : Str → Except Exc (Double × Nat)) : Except Exc UdpBurstScheduler := do
  let enabled ← parseBoolean (getParamOrDefault "enable_udp_burst_scheduler".toList "false".toList sim.config)
  if enabled = false then .ok ⟨Scheduler.disabled sim, [], []⟩
  else do
    let completeSchedule ← readConfiguredSchedule sim files "udp_burst_schedule_filename"
      fun filename file => readUdpBurstSchedule stod filename file topology sim.simulationEndTimeNs
    let loggingIds ← parseLoggingIds sim "udp_burst_enable_logging_for_udp_burst_ids" "UDP burst"
      completeSchedule.length
    let endpoints ← serverNodes sim topology
    let (servers, incoming) := endpoints.foldl (installBurstServer completeSchedule loggingIds) ([], [])
    let schedule ← filterSchedule sim completeSchedule
    .ok ⟨⟨⟨true, sim.logsDir, loggingIds⟩, schedule, []⟩, servers, incoming⟩

end Create

/-! ## Results -/

/-- The row of a flow, from the application at the current index; the index is a `uint32_t`. -/
def tcpFlowRow (apps : List TcpFlowClient) (st : List (TcpFlowScheduleEntry × TcpFlowClient) × Int)
    (entry : TcpFlowScheduleEntry) :
    Except Exc (List (TcpFlowScheduleEntry × TcpFlowClient) × Int) := do
  let app ← vectorAt apps st.2
  .ok (st.1 ++ [(entry, app)], (st.2 + 1) % 2 ^ 32)

/-- The flows of the schedule, each with the application that is read for it. -/
def writeTcpFlowResults (s : TcpFlowScheduler) :
    Except Exc (List (TcpFlowScheduleEntry × TcpFlowClient)) :=
  if s.enabled = false then .ok []
  else do
    let st ← s.schedule.foldlM (tcpFlowRow s.apps) ([], 0)
    .ok st.1

/-- A line of the ping result file: the identifier, the sequence number and the three time stamps. -/
structure UdpPingLine where
  udpPingId : Int
  seqNo : Nat
  sendRequestNs : Int
  replyNs : Int
  receiveReplyNs : Int
deriving DecidableEq

def udpPingLine (info : UdpPingInfo) (t : UdpPingTimestamps) (j : Nat) : Except Exc UdpPingLine := do
  let replyNs ← vectorAt t.replyTimestamps j
  let sendRequestNs ← vectorAt t.sendRequestTimestamps j
  let receiveReplyNs ← vectorAt t.receiveReplyTimestamps j
  .ok ⟨info.id, j, sendRequestNs, replyNs, receiveReplyNs⟩

/-- The ping at an index: its entry, its client and its lines. -/
def udpPingRow (timestamps : UdpPingClient → UdpPingTimestamps) (s : UdpPingScheduler) (i : Int) :
    Except Exc (UdpPingInfo × UdpPingClient × List UdpPingLine) := do
  let info ← vectorAt s.schedule i
  let client ← vectorAt s.apps i
  let t := timestamps client
  let lines ← (List.range t.sent).mapM (udpPingLine info t)
  .ok (info, client, lines)

/-- The pings that have a client, counted with a `uint32_t`. -/
def writeUdpPingResults (timestamps : UdpPingClient → UdpPingTimestamps) (s : UdpPingScheduler) :
    Except Exc (List (UdpPingInfo × UdpPingClient × List UdpPingLine)) :=
  if s.enabled = false then .ok []
  else do
    let rows ← (upTo (min s.apps.length (2 ^ 32))).mapM (udpPingRow timestamps s)
    throwIf (2 ^ 32 ≤ s.apps.length) <| .undefined "the loop over the applications goes on"
    .ok rows

/-- The outgoing bursts in the order of their identifiers. -/
def writeUdpBurstOutgoing (s : UdpBurstScheduler) : List (UdpBurstInfo × UdpBurstClient) :=
  if s.enabled = false then [] else s.apps.insertionSort fun a b => a.1.id ≤ b.1.id

/-- An incoming burst with the counter of its server. -/
def udpBurstIncomingRow (servers : List UdpBurstServer) (p : UdpBurstInfo × Nat) :
    Except Exc (UdpBurstInfo × Nat) :=
  match servers[p.2]? with
  | some server => do
    let receivedCounter ← server.getReceivedCounterOf p.1.id
    .ok (p.1, receivedCounter)
  | none => .error (.undefined "no such server")

/-- The incoming bursts in the order of their identifiers. -/
def writeUdpBurstIncoming (s : UdpBurstScheduler) : Except Exc (List (UdpBurstInfo × Nat)) :=
  if s.enabled = false then .ok []
  else (s.responsibleForIncomingBursts.insertionSort fun a b => a.1.id ≤ b.1.id).mapM
    (udpBurstIncomingRow s.servers)

end BasicSim
