import BasicSim.Core.TopologyPtop

/-!
# `Apps.ScheduleReader` — the schedule files (`helper/apps/*-schedule-reader.cc`)

`read_tcp_flow_schedule`, `read_udp_ping_schedule` and `read_udp_burst_schedule` go through the same
steps on each line. They are one reader with the format of a line as a parameter; a format holds what
is a reader's own: the word for an entry, the number of fields, the fields after the two endpoints with
the check on them, and the end of one error text.
-/

namespace BasicSim

open Fallible

/-! ## Entries -/

/-- An entry of a schedule: what every schedule has, and the fields of its kind. -/
structure ScheduleEntry (Fields : Type) where
  id : Int
  fromNodeId : Int
  toNodeId : Int
  startTimeNs : Int
  fields : Fields
deriving DecidableEq

/-- The own fields of a `TcpFlowScheduleEntry`. -/
structure TcpFlowFields where
  sizeByte : Int
  additionalParameters : Str
  metadata : Str
deriving DecidableEq

/-- The own fields of a `UdpPingInfo`. -/
structure UdpPingFields where
  intervalNs : Int
  durationNs : Int
  waitAfterwardsNs : Int
  additionalParameters : Str
  metadata : Str
deriving DecidableEq

/-- The own fields of a `UdpBurstInfo`. -/
structure UdpBurstFields where
  targetRateMegabitPerS : Double
  durationNs : Int
  additionalParameters : Str
  metadata : Str
deriving DecidableEq

abbrev TcpFlowScheduleEntry := ScheduleEntry TcpFlowFields

abbrev UdpPingInfo := ScheduleEntry UdpPingFields

abbrev UdpBurstInfo := ScheduleEntry UdpBurstFields

/-! ## The reader -/

/-- What is a reader's own. -/
structure ScheduleFormat (Fields : Type) where
  /-- the word for an entry -/
  kind : String
  numFields : Nat
  /-- start time and own fields, from the split line -/
  parseFields : List Str → Except Exc (Int × Fields)
  /-- the check that follows the parsing of the fields -/
  checkFields : Fields → Except Exc Unit
  /-- the end of the text of the error for descending start times -/
  ascendingEnd : String

/-- The local variables of the reading loop. -/
structure ReaderState (Fields : Type) where
  schedule : List (ScheduleEntry Fields)
  lineCounter : Nat
  prevStartTimeNs : Int

section Reader

variable {Fields : Type} (format : ScheduleFormat Fields) (topology : TopologyPtop)
  (simulationEndTimeNs : Int)

/-- The endpoints of an entry must be valid endpoints of the topology. -/
def checkEndpoint (which : String) (nodeId : Int) : Except Exc Unit :=
  throwIf (topology.isValidEndpoint nodeId = false) <| .invalidArgument <|
    "Invalid " ++ which ++ "-endpoint for a schedule entry based on topology: "
      ++ toString (toInt32 nodeId)

/-- The body of the reading loop. -/
def readLine (st : ReaderState Fields) (line : Str) : Except Exc (ReaderState Fields) := do
  let commaSplit ← splitStringExpected line ",".toList format.numFields
  let id ← parsePositiveInt64 (← vectorAt commaSplit 0)
  throwIf (id ≠ toInt64 st.lineCounter) <| .invalidArgument <|
    format.kind ++ " ID is not ascending by one each line (violation: " ++ toString id ++ ")\n"
  let fromNodeId ← parsePositiveInt64 (← vectorAt commaSplit 1)
  let toNodeId ← parsePositiveInt64 (← vectorAt commaSplit 2)
  let (startTimeNs, fields) ← format.parseFields commaSplit
  format.checkFields fields
  throwIf (st.prevStartTimeNs > startTimeNs) <| .invalidArgument <|
    "Start time is not weakly ascending (on line with " ++ format.kind ++ " ID: " ++ toString id
      ++ ", violation: " ++ toString startTimeNs ++ ")" ++ format.ascendingEnd
  throwIf (fromNodeId = toNodeId) <| .invalidArgument <|
    format.kind ++ " to itself at node ID: " ++ toString toNodeId ++ "."
  checkEndpoint topology "from" fromNodeId
  checkEndpoint topology "to" toNodeId
  throwIf (startTimeNs ≥ simulationEndTimeNs) <| .invalidArgument <|
    format.kind ++ " " ++ toString id ++ " has invalid start time " ++ toString startTimeNs
      ++ " >= " ++ toString simulationEndTimeNs ++ "."
  .ok ⟨st.schedule ++ [⟨id, fromNodeId, toNodeId, startTimeNs, fields⟩], st.lineCounter + 1,
    startTimeNs⟩

/-- The steps that the three readers share. -/
def readSchedule (filename : Str) : File → Except Exc (List (ScheduleEntry Fields))
  | .missing => .error <| .runtimeError <|
    format.kind ++ " schedule file " ++ String.ofList filename ++ " does not exist."
  | .unreadable => .error <| .abort <|
    format.kind ++ " schedule file " ++ String.ofList filename ++ " could not be opened."
  | .content text => do
    let st ← (getlines text).foldlM (readLine format topology simulationEndTimeNs) ⟨[], 0, 0⟩
    .ok st.schedule

end Reader

/-! ## The three readers -/

def tcpFlowFormat : ScheduleFormat TcpFlowFields where
  kind := "TCP flow"
  numFields := 7
  parseFields commaSplit := do
    let sizeByte ← parsePositiveInt64 (← vectorAt commaSplit 3)
    let startTimeNs ← parsePositiveInt64 (← vectorAt commaSplit 4)
    let additionalParameters ← vectorAt commaSplit 5
    let metadata ← vectorAt commaSplit 6
    .ok (startTimeNs, ⟨sizeByte, additionalParameters, metadata⟩)
  checkFields _ := .ok ()
  ascendingEnd := "\n"

def udpPingFormat : ScheduleFormat UdpPingFields where
  kind := "UDP ping"
  numFields := 9
  parseFields commaSplit := do
    let intervalNs ← parsePositiveInt64 (← vectorAt commaSplit 3)
    let startTimeNs ← parsePositiveInt64 (← vectorAt commaSplit 4)
    let durationNs ← parsePositiveInt64 (← vectorAt commaSplit 5)
    let waitAfterwardsNs ← parsePositiveInt64 (← vectorAt commaSplit 6)
    let additionalParameters ← vectorAt commaSplit 7
    let metadata ← vectorAt commaSplit 8
    .ok (startTimeNs, ⟨intervalNs, durationNs, waitAfterwardsNs, additionalParameters, metadata⟩)
  checkFields fields :=
    throwIf (fields.intervalNs = 0) <| .invalidArgument "UDP ping interval is zero."
  ascendingEnd := ""

/-- The rate is read by `stod`. -/
def udpBurstFormat (stod : Str → Except Exc (Double × Nat)) : ScheduleFormat UdpBurstFields where
  kind := "UDP burst"
  numFields := 8
  parseFields commaSplit := do
    let targetRateMegabitPerS ← parsePositiveDouble stod (← vectorAt commaSplit 3)
    let startTimeNs ← parsePositiveInt64 (← vectorAt commaSplit 4)
    let durationNs ← parsePositiveInt64 (← vectorAt commaSplit 5)
    let additionalParameters ← vectorAt commaSplit 6
    let metadata ← vectorAt commaSplit 7
    .ok (startTimeNs, ⟨targetRateMegabitPerS, durationNs, additionalParameters, metadata⟩)
  checkFields fields :=
    throwIf (fields.targetRateMegabitPerS = .finite 0) <|
      .invalidArgument "UDP burst target rate is zero."
  ascendingEnd := "\n"

def readTcpFlowSchedule (filename : Str) (file : File) (topology : TopologyPtop)
    (simulationEndTimeNs : Int) : Except Exc (List TcpFlowScheduleEntry) :=
  readSchedule tcpFlowFormat topology simulationEndTimeNs filename file

def readUdpPingSchedule (filename : Str) (file : File) (topology : TopologyPtop)
    (simulationEndTimeNs : Int) : Except Exc (List UdpPingInfo) :=
  readSchedule udpPingFormat topology simulationEndTimeNs filename file

def readUdpBurstSchedule (stod : Str → Except Exc (Double × Nat)) (filename : Str) (file : File)
    (topology : TopologyPtop) (simulationEndTimeNs : Int) : Except Exc (List UdpBurstInfo) :=
  readSchedule (udpBurstFormat stod) topology simulationEndTimeNs filename file

end BasicSim
