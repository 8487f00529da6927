import BasicSim.Apps.ResultStatistics
import BasicSim.Apps.TcpFlowLogs
import BasicSim.Core.QueueResults
import BasicSim.Core.UtilizationResults

/-!
# `Apps.ResultFiles` — what a run has written at its end (`main/main-full.cc`)

After the simulation has run, `main` lets the schedulers and the trackings write their results. Here is the text of the
lines in nine of the files. Each of them starts with three integers; a file is the list of its lines.

## Contents
- **Files.** `ResultFile`.
- **Lines.** `LineFormat`, and the formats of the files.
- **Writing.** `RunEnd`, `writeResults`.
-/

namespace BasicSim

open Fallible

/-! ## Files -/

inductive ResultFile where
  | udpPings
  | tcpFlows
  | udpBurstsIncoming
  | udpBurstsOutgoing
  | linkNetDeviceUtilization
  | linkNetDeviceQueuePkt
  | linkNetDeviceQueueByte
  | linkInterfaceTcQdiscQueuePkt
  | linkInterfaceTcQdiscQueueByte
deriving DecidableEq

/-- The name of a file, without what a system puts in front. -/
def ResultFile.name : ResultFile → String
  | .udpPings => "udp_pings.csv"
  | .tcpFlows => "tcp_flows.csv"
  | .udpBurstsIncoming => "udp_bursts_incoming.csv"
  | .udpBurstsOutgoing => "udp_bursts_outgoing.csv"
  | .linkNetDeviceUtilization => "link_net_device_utilization.csv"
  | .linkNetDeviceQueuePkt => "link_net_device_queue_pkt.csv"
  | .linkNetDeviceQueueByte => "link_net_device_queue_byte.csv"
  | .linkInterfaceTcQdiscQueuePkt => "link_interface_tc_qdisc_queue_pkt.csv"
  | .linkInterfaceTcQdiscQueueByte => "link_interface_tc_qdisc_queue_byte.csv"

/-! ## Lines -/

/-- How lines are written: their first three columns are integers, and they have others after them. -/
structure LineFormat (Line : Type) where
  numbers : Line → Int × Int × Int
  others : Line → List Str
  others_ne_nil : ∀ line, others line ≠ []

namespace LineFormat

variable {Line : Type}

def text (format : LineFormat Line) (line : Line) : Str :=
  [','].intercalate (toStr (format.numbers line).1 :: toStr (format.numbers line).2.1
    :: toStr (format.numbers line).2.2 :: format.others line)

/-- The lines of a file. -/
def file (format : LineFormat Line) (lines : List Line) : List Str := lines.map format.text

end LineFormat

def utilizationCsv : LineFormat UtilizationLine where
  numbers line := (line.fromNodeId, line.toNodeId, line.startNs)
  others line := [toStr line.endNs, toStr line.busyNs]
  others_ne_nil _ := List.cons_ne_nil _ _

def queueCsv : LineFormat QueueLine where
  numbers line := (line.fromNodeId, line.toNodeId, line.startNs)
  others line := [toStr line.endNs, toStr line.amount]
  others_ne_nil _ := List.cons_ne_nil _ _

/-! ## Writing -/

end BasicSim
