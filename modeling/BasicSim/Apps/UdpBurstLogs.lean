import BasicSim.Apps.UdpBurst
import BasicSim.Lib.Histories

/-!
# `Apps.UdpBurstLogs` — the log files of bursts (`model/apps/udp-burst-server.cc`)

A server appends a line to the file of the burst that a packet names, if the burst is logged. The file is named by the
identifier alone, and all servers write to one directory. A client writes its own file, which is part of its state.

## Contents
- **Files.** `IncomingLogs`, `appendLine`.
- **Between the nodes.** `LoggedBursts`, `loggedBurstProtocol`.
-/

namespace BasicSim

open Fallible

/-- The lines of `udp_burst_[id]_incoming.csv`. -/
abbrev IncomingLogs := BitVec 64 → List UdpBurstLogLine

/-- The file is opened to append, and closed again. -/
def appendLine (logs : IncomingLogs) : Option UdpBurstLogLine → IncomingLogs
  | none => logs
  | some line => Function.update logs line.id (logs line.id ++ [line])

/-- The applications, and what their servers have written. -/
structure LoggedBursts where
  applications : BurstApplications
  incomingLogs : IncomingLogs

/-- The applications as parties, with their files. -/
def loggedBurstProtocol {Byte : Type} (it : BufferIterator Byte) (schedule : List UdpBurstInfo)
    (clientOf : UdpBurstInfo → UdpBurstClient) (sizes : UdpBurstSizes) :
    Datagrams.Protocol Exc LoggedBursts {entry // entry ∈ schedule} Int (BurstDatagram Byte) where
  act entry nowNs bursts := do
    let (apps, ms) ← (burstProtocol it schedule clientOf sizes).act entry nowNs bursts.applications
    .ok ({ bursts with applications := apps }, ms)
  Reaches := (burstProtocol it schedule clientOf sizes).Reaches
  receive nodeId m nowNs bursts :=
    match bursts.applications.servers nodeId with
    | none => .ok (bursts, [])
    | some server => do
      let (server, line) ← server.handlePacket (UdpBurstHeader.deserialize it m.packet.headers).1 nowNs
      .ok (⟨{ bursts.applications with servers := Function.update bursts.applications.servers nodeId (some server) },
        appendLine bursts.incomingLogs line⟩, [])

end BasicSim
