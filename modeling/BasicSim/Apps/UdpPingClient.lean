import BasicSim.Apps.UdpBurst
import BasicSim.Apps.UdpPing

/-!
# `Apps.UdpPingClient` — a ping client in a simulation (`model/apps/udp-ping-client.cc`)

A client sends a ping and schedules the next one after the interval, as long as that is before the end of its
duration; otherwise it schedules its `Finish`, which closes the socket. `Send` and `Finish` check that the
events the client scheduled are over.

The rest of the simulation, with the socket, is a parameter; its events can bring replies to the socket.

## Contents
- **State.** `ScheduledEvents`, `UdpPingClientState`, `UdpPingClientData`, `UdpPingEvent`.
- **Client.** `scheduleTransmit`, `anotherPingFollows`, `finishDelayNs`, `scheduleAfterSend`, `startApplication`,
  `send`, `finish`, `readReplies`.
- **In a simulation.** `UdpPingNetwork`, `UdpPingClient.process`.
-/

namespace BasicSim

open Fallible

/-! ## State -/

/-- An `EventId`: the number of an event, or none for `EventId()`. -/
abbrev EventId := Option Nat

/-- The events that a client scheduled, numbered in order: how many, and which of them are still pending. -/
structure ScheduledEvents where
  count : Nat
  pending : List Nat
deriving DecidableEq

namespace ScheduledEvents

def empty : ScheduledEvents := ⟨0, []⟩

/-- One more event. -/
def schedule (events : ScheduledEvents) : ScheduledEvents := ⟨events.count + 1, events.pending ++ [events.count]⟩

/-- An event is executed: from now on it is expired. -/
def execute (events : ScheduledEvents) (uid : Nat) : ScheduledEvents :=
  { events with pending := events.pending.erase uid }

def isExpired (events : ScheduledEvents) : EventId → Bool
  | none => true
  | some uid => !events.pending.contains uid

end ScheduledEvents

/-- The members of a `UdpPingClient` that only its own events change, and these events. -/
structure UdpPingClientState where
  startTimeNs : Int
  sendEvent : EventId
  waitForFinishEvent : EventId
  events : ScheduledEvents
deriving DecidableEq

def UdpPingClientState.initial : UdpPingClientState := ⟨0, none, none, .empty⟩

/-- Whether a client has a socket, and what replies change. -/
structure UdpPingClientData where
  hasSocket : Bool
  timestamps : UdpPingTimestamps
deriving DecidableEq

def UdpPingClientData.initial : UdpPingClientData := ⟨false, .empty⟩

/-- What a client schedules, with its number, and the event that starts it. -/
inductive UdpPingEvent where
  | startApplication
  | send (uid : Nat)
  | finish (uid : Nat)
deriving DecidableEq

/-! ## Client -/

namespace UdpPingClient

section Functions

variable {Byte : Type} (it : BufferIterator Byte) (client : UdpPingClient)

def scheduleTransmit (dtNs : Int) (st : UdpPingClientState) : UdpPingClientState × List (Int × UdpPingEvent) :=
  ({ st with sendEvent := some st.events.count, events := st.events.schedule },
    [(dtNs, .send st.events.count)])

/-- `now_ns + m_interval < (uint64_t) (m_startTime + m_duration)`. -/
def anotherPingFollows (nowNs : Int) (st : UdpPingClientState) : Except Exc Bool := do
  let endNs ← int64 (st.startTimeNs + client.durationNs)
  .ok (decide (toUInt64 nowNs + toUInt64 client.intervalNs < toUInt64 endNs))

/-- `NanoSeconds(m_startTime + m_duration - now_ns + m_waitAfterwards)`, where `now_ns` is a `uint64_t`. -/
def finishDelayNs (nowNs : Int) (st : UdpPingClientState) : Except Exc Int := do
  let endNs ← int64 (st.startTimeNs + client.durationNs)
  .ok (toUInt64 endNs - toUInt64 nowNs + toUInt64 client.waitAfterwardsNs).toInt

/-- The last part of `Send`. -/
def scheduleAfterSend (nowNs : Int) (st : UdpPingClientState) :
    Except Exc (UdpPingClientState × List (Int × UdpPingEvent)) := do
  let follows ← client.anotherPingFollows nowNs st
  if follows = true then .ok (scheduleTransmit client.intervalNs st)
  else do
    let delayNs ← client.finishDelayNs nowNs st
    .ok ({ st with waitForFinishEvent := some st.events.count, events := st.events.schedule },
      [(delayNs, .finish st.events.count)])

/-- The socket is bound, connected and told not to broadcast, if there is none yet; `Bind` returned an `int`. -/
def openSocket (bindResult : Int) (data : UdpPingClientData) : Except Exc UdpPingClientData :=
  if data.hasSocket = true then .ok data
  else do
    throwIf (bindResult = -1) <| .runtimeError "Failed to bind socket"
    .ok { data with hasSocket := true }

def startApplication (bindResult nowNs : Int) (st : UdpPingClientState) (data : UdpPingClientData) :
    Except Exc ((UdpPingClientState × List (Int × UdpPingEvent)) × UdpPingClientData) := do
  let data ← openSocket bindResult data
  .ok (scheduleTransmit 0 { st with startTimeNs := nowNs }, data)

/-- `Send`, with the packet that the socket is given. -/
def send (nowNs : Int) (st : UdpPingClientState) (data : UdpPingClientData) :
    Except Exc ((UdpPingClientState × List (Int × UdpPingEvent)) × UdpPingClientData × Packet Byte) := do
  throwIf (st.events.isExpired st.sendEvent = false) <| .assertion "m_sendEvent.IsExpired()"
  let (p, timestamps) := client.sendPacket it nowNs data.timestamps
  throwIf (data.hasSocket = false) <| .undefined "no socket"
  let next ← client.scheduleAfterSend nowNs st
  .ok (next, { data with timestamps := timestamps }, p)

def finish (st : UdpPingClientState) (data : UdpPingClientData) : Except Exc UdpPingClientData := do
  throwIf (st.events.isExpired st.sendEvent = false) <| .abort "m_sendEvent.IsExpired()"
  throwIf (st.events.isExpired st.waitForFinishEvent = false) <| .abort "m_waitForFinishEvent.IsExpired()"
  .ok { data with hasSocket := false }

/-- `HandleRead`, for what the socket has to read. Without a socket nothing is read. -/
def readReplies (nowNs : Int) (packets : List (Packet Byte)) (data : UdpPingClientData) :
    Except Exc UdpPingClientData :=
  if data.hasSocket = true then do
    let timestamps ← packets.foldlM (fun timestamps packet => client.handleRead it nowNs packet timestamps)
      data.timestamps
    .ok { data with timestamps := timestamps }
  else .ok data

end Functions

end UdpPingClient

/-! ## In a simulation -/

/-- The rest of a simulation, as a ping client meets it: as a UDP client does, and packets can arrive. -/
structure UdpPingNetwork (Byte World Event : Type) extends UdpNetwork Byte World Event where
  /-- what an event brings to the socket -/
  arrivals : Event → Int → World → List (Packet Byte)

/-- The same simulation, with a record of the packets that the socket was given and of the times. -/
def UdpPingNetwork.recording {Byte World Event : Type} (net : UdpPingNetwork Byte World Event) :
    UdpPingNetwork Byte (World × List (Int × Packet Byte)) Event where
  toUdpNetwork := net.toUdpNetwork.recording
  arrivals event nowNs world := net.arrivals event nowNs world.1

/-- A client and the rest of the simulation. -/
def UdpPingClient.process {Byte World Event : Type} (it : BufferIterator Byte) (client : UdpPingClient)
    (net : UdpPingNetwork Byte World Event) :
    EventLoop.Process Exc UdpPingClientState (UdpPingClientData × World) UdpPingEvent Event where
  own
    | .startApplication, nowNs, st, (data, world) => do
      let (next, data) ← startApplication net.bindResult nowNs st data
      .ok (next, ((data, world), []))
    | .send uid, nowNs, st, (data, world) => do
      let (next, data, p) ← client.send it nowNs { st with events := st.events.execute uid } data
      let (world, events) := net.socketSend p nowNs world
      .ok (next, ((data, world), events))
    | .finish uid, _, st, (data, world) => do
      let st := { st with events := st.events.execute uid }
      let data ← finish st data
      .ok ((st, []), ((data, world), []))
  other event nowNs state := do
    let data ← client.readReplies it nowNs (net.arrivals event nowNs state.2) state.1
    let (world, events) ← net.other event nowNs state.2
    .ok ((data, world), events)

end BasicSim
