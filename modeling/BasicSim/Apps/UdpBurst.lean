import BasicSim.Apps.Applications
import BasicSim.Apps.UdpHeaders
import BasicSim.Lib.Datagrams
import BasicSim.Lib.EventLoop

/-!
# `Apps.UdpBurst` — sending and counting bursts (`model/apps/udp-burst-client.cc`, `udp-burst-server.cc`)

A client sends a packet, counts it, and schedules its next `Send` after the gap that the target rate asks for,
as long as that is before the end of its duration. A server counts the packets of its registered bursts.

The rest of the simulation, with the socket, is a parameter. The event that a client scheduled is over when it
is executed, which is all that its `m_sendEvent` is asked for; so this member is left out.

## Contents
- **State.** `UdpBurstSizes`, `UdpBurstClientState`.
- **Client.** `sendPacket`, `packetGapNs`, `scheduleNextSend`, `send`, `startApplication`.
- **In a simulation.** `UdpNetwork`, `UdpNetwork.recording`, `UdpBurstClient.process`.
- **Server.** `UdpBurstServer.handlePacket`.
- **Between the nodes.** `BurstDatagram`, `BurstApplications`, `burstProtocol`.
-/

namespace BasicSim

open Fallible

/-! ## State -/

/-- The two `uint32_t` attributes that the helper leaves alone. -/
structure UdpBurstSizes where
  maxSegmentSizeByte : BitVec 32
  maxUdpPayloadSizeByte : BitVec 32
deriving DecidableEq

/-- Their defaults. -/
def UdpBurstSizes.default : UdpBurstSizes := ⟨1500, 1472⟩

/-- A line of `udp_burst_[id]_outgoing.csv` or `udp_burst_[id]_incoming.csv`. -/
structure UdpBurstLogLine where
  id : BitVec 64
  seq : BitVec 64
  timeNs : Int
deriving DecidableEq

/-- The members of a `UdpBurstClient` that change, and its log. -/
structure UdpBurstClientState where
  startTimeNs : Int
  sent : BitVec 32
  outgoingLog : List UdpBurstLogLine
deriving DecidableEq

def UdpBurstClientState.initial : UdpBurstClientState := ⟨0, 0, []⟩

/-- What a client schedules, and the event that starts it. -/
inductive UdpBurstEvent where
  | startApplication
  | send
deriving DecidableEq

/-! ## Client -/

namespace UdpBurstClient

section Send

variable {Byte : Type} (it : BufferIterator Byte) (client : UdpBurstClient) (sizes : UdpBurstSizes)

/-- The header of the next packet. -/
def nextHeader (st : UdpBurstClientState) : UdpBurstHeader :=
  ⟨client.udpBurstId.setWidth 64, st.sent.setWidth 64⟩

/-- `Send` up to the call of the socket: the packet, and the state in which it is counted and logged. -/
def sendPacket (nowNs : Int) (st : UdpBurstClientState) : Packet Byte × UdpBurstClientState :=
  let burstHeader := client.nextHeader st
  let p := Packet.create (sizes.maxUdpPayloadSizeByte - UdpBurstHeader.serializedSizeByte).toNat
  (p.addHeader (burstHeader.serialize it),
    { st with
      sent := st.sent + 1
      outgoingLog :=
        if client.enableDetailedLoggingToFile = true then
          st.outgoingLog ++ [⟨burstHeader.id, burstHeader.seq, nowNs⟩]
        else st.outgoingLog })

/-- `packet_gap_nanoseconds`. -/
def packetGapNs : Except Exc (BitVec 64) :=
  (Double.ceil ((Double.finite sizes.maxSegmentSizeByte.toNat).div
    (client.targetRateMegabitPerSec.div (.finite 8000)))).toUInt64

/-- The rest of `Send`: the next `Send`, with its delay, if there is one. -/
def scheduleNextSend (nowNs : Int) (st : UdpBurstClientState) :
    Except Exc (List (Int × UdpBurstEvent)) := do
  let gapNs ← client.packetGapNs sizes
  let endNs ← int64 (st.startTimeNs + client.durationNs)
  if toUInt64 nowNs + gapNs < toUInt64 endNs then .ok [(gapNs.toInt, .send)] else .ok []

end Send

/-- The socket is bound, connected and told not to broadcast; `Bind` returned an `int`. -/
def startApplication (bindResult nowNs : Int) (st : UdpBurstClientState) :
    Except Exc (UdpBurstClientState × List (Int × UdpBurstEvent)) := do
  throwIf (bindResult = -1) <| .runtimeError "Failed to bind socket"
  .ok ({ st with startTimeNs := nowNs }, [(0, .send)])

end UdpBurstClient

/-! ## In a simulation -/

/-- The rest of a simulation, as far as a UDP client meets it: its socket takes packets, whereupon other
    events are scheduled, and those events do anything else. -/
structure UdpNetwork (Byte World Event : Type) where
  bindResult : Int
  bound : bindResult ≠ -1
  socketSend : Packet Byte → Int → World → World × List (Int × Event)
  delays_nonneg : ∀ p nowNs world, ∀ e ∈ (socketSend p nowNs world).2, 0 ≤ e.1
  other : Event → Int → World → Except Exc (World × List (Int × Event))

/-- The same simulation, with a record of the packets that the socket was given and of the times. -/
def UdpNetwork.recording {Byte World Event : Type} (net : UdpNetwork Byte World Event) :
    UdpNetwork Byte (World × List (Int × Packet Byte)) Event where
  bindResult := net.bindResult
  bound := net.bound
  socketSend p nowNs world :=
    let (inner, events) := net.socketSend p nowNs world.1
    ((inner, world.2 ++ [(nowNs, p)]), events)
  delays_nonneg p nowNs world := net.delays_nonneg p nowNs world.1
  other event nowNs world := do
    let (inner, events) ← net.other event nowNs world.1
    .ok ((inner, world.2), events)

/-- A client and the rest of the simulation. -/
def UdpBurstClient.process {Byte World Event : Type} (it : BufferIterator Byte) (client : UdpBurstClient)
    (sizes : UdpBurstSizes) (net : UdpNetwork Byte World Event) :
    EventLoop.Process Exc UdpBurstClientState World UdpBurstEvent Event where
  own
    | .startApplication, nowNs, st, world => do
      let (st, next) ← startApplication net.bindResult nowNs st
      .ok ((st, next), (world, []))
    | .send, nowNs, st, world => do
      let (p, st) := client.sendPacket it sizes nowNs st
      let (world, events) := net.socketSend p nowNs world
      let next ← client.scheduleNextSend sizes nowNs st
      .ok ((st, next), (world, events))
  other := net.other

section Process

variable {Byte World Event : Type} {it : BufferIterator Byte} {client : UdpBurstClient}
  {sizes : UdpBurstSizes} {nowNs : Int} {st : UdpBurstClientState}

@[simp] theorem UdpBurstClient.sendPacket_startTimeNs :
    (client.sendPacket it sizes nowNs st).2.startTimeNs = st.startTimeNs := rfl

@[simp] theorem UdpBurstClient.sendPacket_sent :
    (client.sendPacket it sizes nowNs st).2.sent = st.sent + 1 := rfl

theorem UdpBurstClient.process_startApplication (net : UdpNetwork Byte World Event) (world : World) :
    (client.process it sizes net).own .startApplication nowNs st world
      = .ok (({ st with startTimeNs := nowNs }, [(0, .send)]), (world, [])) := by
  unfold UdpBurstClient.process UdpBurstClient.startApplication
  simp only [throwIf_of_not net.bound, ok_bind]

theorem UdpBurstClient.process_send (net : UdpNetwork Byte World Event) (world : World) :
    (client.process it sizes net).own .send nowNs st world =
      (client.scheduleNextSend sizes nowNs (client.sendPacket it sizes nowNs st).2 >>= fun next =>
        .ok (((client.sendPacket it sizes nowNs st).2, next),
          net.socketSend (client.sendPacket it sizes nowNs st).1 nowNs world)) := rfl

end Process

/-! ## Server -/

/-- The body of the loop in `HandleRead`, for a packet with this header: the server, and the line that is
    logged for the packet, if there is one. -/
def UdpBurstServer.handlePacket (server : UdpBurstServer) (incomingBurstHeader : UdpBurstHeader)
    (nowNs : Int) : Except Exc (UdpBurstServer × Option UdpBurstLogLine) := do
  let server ← server.countPacket incomingBurstHeader.id.toInt
  let precise ← mapAt server.incomingBurstsEnablePreciseLogging incomingBurstHeader.id.toInt
  .ok (server, if precise = true then
    some ⟨incomingBurstHeader.id, incomingBurstHeader.seq, nowNs⟩ else none)

/-! ## Between the nodes -/

/-- A packet on its way: the burst whose client sent it, and the node of the server that it is for. -/
structure BurstDatagram (Byte : Type) where
  burst : Int
  toNodeId : Int
  packet : Packet Byte

/-- The client of each burst, and the server of each node that has one. -/
structure BurstApplications where
  clients : Int → UdpBurstClientState
  servers : Int → Option UdpBurstServer

/-- The applications as parties. The client of an entry of the schedule can send at any time, whatever its
    timetable is; a packet for a node without a server is dropped there. -/
def burstProtocol {Byte : Type} (it : BufferIterator Byte) (schedule : List UdpBurstInfo)
    (clientOf : UdpBurstInfo → UdpBurstClient) (sizes : UdpBurstSizes) :
    Datagrams.Protocol Exc BurstApplications {entry // entry ∈ schedule} Int (BurstDatagram Byte) where
  act entry nowNs apps :=
    let (p, st) := (clientOf entry.1).sendPacket it sizes nowNs (apps.clients entry.1.id)
    .ok ({ apps with clients := Function.update apps.clients entry.1.id st },
      [⟨entry.1.id, entry.1.toNodeId, p⟩])
  Reaches m nodeId := m.toNodeId = nodeId
  receive nodeId m nowNs apps :=
    match apps.servers nodeId with
    | none => .ok (apps, [])
    | some server => do
      let (server, _) ← server.handlePacket (UdpBurstHeader.deserialize it m.packet.headers).1 nowNs
      .ok ({ apps with servers := Function.update apps.servers nodeId (some server) }, [])

end BasicSim
