import BasicSim.Apps.Applications
import BasicSim.Apps.UdpHeaders
import BasicSim.Lib.Datagrams

/-!
# `Apps.UdpPing` — pings and their replies (`model/apps/udp-ping-client.cc`, `udp-ping-server.cc`)

A client sends pings with its identifier, a sequence number and the time. A server sends each of them back with
its own time instead. The client records the replies to its own pings.

Each of the functions is modelled for one packet, and `Send` up to the call of the socket.

## Contents
- **Client.** `nextHeader`, `sendPacket`, `handleRead`.
- **Server.** `UdpPingServer.handleRead`.
- **Between the nodes.** `PingDatagram`, `PingParty`, `pingProtocol`.
-/

namespace BasicSim

open Fallible

section Applications

variable {Byte : Type} (it : BufferIterator Byte)

/-! ## Client -/

namespace UdpPingClient

variable (client : UdpPingClient)

/-- The header of the next ping. -/
def nextHeader (nowNs : Int) (t : UdpPingTimestamps) : UdpPingHeader :=
  ⟨client.udpPingId.setWidth 64, BitVec.ofNat 64 t.sent, toUInt64 nowNs⟩

/-- `Send` up to the call of the socket: the packet, and the time stamps with a place for its reply. -/
def sendPacket (nowNs : Int) (t : UdpPingTimestamps) : Packet Byte × UdpPingTimestamps :=
  ((Packet.create 0).addHeader ((client.nextHeader nowNs t).serialize it),
    t.send (toUInt64 nowNs).toInt)

/-- The body of the loop in `HandleRead`. A reply to another client can arrive when a port is reused. -/
def handleRead (nowNs : Int) (packet : Packet Byte) (t : UdpPingTimestamps) :
    Except Exc UdpPingTimestamps :=
  let pingHeader := (UdpPingHeader.deserialize it packet.headers).1
  let seqNo : BitVec 32 := pingHeader.seq.setWidth 32
  if pingHeader.id = client.udpPingId.setWidth 64 then t.handleReply seqNo.toNat pingHeader.ts.toInt nowNs
  else .ok t

end UdpPingClient

/-! ## Server -/

/-- The body of the loop in `HandleRead`: the packet that is sent back. -/
def UdpPingServer.handleRead (nowNs : Int) (packet : Packet Byte) : Packet Byte :=
  let (incomingPingHeader, headers) := UdpPingHeader.deserialize it packet.headers
  let outgoingPingHeader : UdpPingHeader := ⟨incomingPingHeader.id, incomingPingHeader.seq, toUInt64 nowNs⟩
  Packet.addHeader { packet with headers := headers } (outgoingPingHeader.serialize it)

/-! ## Between the nodes -/

/-- A packet on its way. -/
inductive PingDatagram (Byte : Type) where
  | request (packet : Packet Byte)
  | reply (packet : Packet Byte)

def PingDatagram.packet : PingDatagram Byte → Packet Byte
  | .request packet => packet
  | .reply packet => packet

/-- Servers have no state, so one of them stands for all. -/
inductive PingParty (κ : Type) where
  | server
  | client (k : κ)

/-- The applications as parties. Any client can send at any time, whatever its timetable is. A reply is sent
    to the address of the request, where by then any client may be. -/
def pingProtocol {κ : Type} [DecidableEq κ] (clients : κ → UdpPingClient) :
    Datagrams.Protocol Exc (κ → UdpPingTimestamps) κ (PingParty κ) (PingDatagram Byte) where
  act k nowNs timestamps :=
    let (p, t) := (clients k).sendPacket it nowNs (timestamps k)
    .ok (Function.update timestamps k t, [.request p])
  Reaches
    | .request _, .server => True
    | .reply _, .client _ => True
    | _, _ => False
  receive
    | .server, m, nowNs, timestamps =>
      .ok (timestamps, [.reply (UdpPingServer.handleRead it nowNs m.packet)])
    | .client k, m, nowNs, timestamps => do
      let t ← (clients k).handleRead it nowNs m.packet (timestamps k)
      .ok (Function.update timestamps k t, [])

end Applications

end BasicSim
