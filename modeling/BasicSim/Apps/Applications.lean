import BasicSim.Apps.ScheduleReader
import BasicSim.Core.SetupLinks

/-!
# `Apps.Applications` — what the schedulers create (`model/apps`)

The applications as far as the schedulers set them up and read their results. What a client is created with
does not change; the time stamps of a ping client and the counters of a burst server do.

## Contents
- **Clients.** `TcpFlowClient`, `UdpPingClient`, `UdpBurstClient`.
- **Results of a ping client.** `UdpPingTimestamps`, which keeps its vectors aligned.
- **Burst server.** `UdpBurstServer`, `registerIncomingBurst`, `countPacket`, `getReceivedCounterOf`.
-/

namespace BasicSim

open Fallible

/-! ## Clients -/

/-- An `InetSocketAddress`. -/
structure InetSocketAddress where
  ipv4 : Ipv4Address
  port : Nat
deriving DecidableEq

/-- What a `TcpFlowClient` is created with, and the node it is installed on. -/
structure TcpFlowClient where
  nodeId : Int
  localAddress : InetSocketAddress
  remoteAddress : InetSocketAddress
  tcpFlowId : Int
  flowSizeByte : Int
  additionalParameters : Str
  enableDetailedLoggingToFile : Bool
  baseLogsDir : Str
deriving DecidableEq

/-- What a `UdpPingClient` is created with, and the node it is installed on. Its identifier is a
    `uint32_t`. -/
structure UdpPingClient where
  nodeId : Int
  localAddress : InetSocketAddress
  remoteAddress : InetSocketAddress
  udpPingId : BitVec 32
  intervalNs : Int
  durationNs : Int
  waitAfterwardsNs : Int
  additionalParameters : Str
deriving DecidableEq

/-- What a `UdpBurstClient` is created with, and the node it is installed on. Its identifier is a
    `uint32_t`. -/
structure UdpBurstClient where
  nodeId : Int
  localAddress : InetSocketAddress
  remoteAddress : InetSocketAddress
  udpBurstId : BitVec 32
  targetRateMegabitPerSec : Double
  durationNs : Int
  additionalParameters : Str
  enableDetailedLoggingToFile : Bool
  baseLogsDir : Str
deriving DecidableEq

/-! ## Results of a ping client -/

/-- The counter and the three vectors of a `UdpPingClient`, with one place for every ping sent. The counter
    is a `uint32_t`. -/
structure UdpPingTimestamps where
  sent : Nat
  sendRequestTimestamps : List Int
  replyTimestamps : List Int
  receiveReplyTimestamps : List Int
  sent_eq : sent = sendRequestTimestamps.length % 2 ^ 32
  length_reply : replyTimestamps.length = sendRequestTimestamps.length
  length_receiveReply : receiveReplyTimestamps.length = sendRequestTimestamps.length
deriving DecidableEq

namespace UdpPingTimestamps

/-- No ping was sent yet. -/
def empty : UdpPingTimestamps := ⟨0, [], [], [], rfl, rfl, rfl⟩

/-- The time stamps part of `Send`. -/
def send (t : UdpPingTimestamps) (nowNs : Int) : UdpPingTimestamps where
  sent := (t.sent + 1) % 2 ^ 32
  sendRequestTimestamps := t.sendRequestTimestamps ++ [nowNs]
  replyTimestamps := t.replyTimestamps ++ [-1]
  receiveReplyTimestamps := t.receiveReplyTimestamps ++ [-1]
  sent_eq := by rw [List.length_append, List.length_singleton, t.sent_eq]; omega
  length_reply := by rw [List.length_append, List.length_append, t.length_reply]; rfl
  length_receiveReply := by rw [List.length_append, List.length_append, t.length_receiveReply]; rfl

/-- The part of `HandleRead` for a reply to one of the client's own pings. -/
def handleReply (t : UdpPingTimestamps) (seqNo : Nat) (replyNs nowNs : Int) :
    Except Exc UdpPingTimestamps := do
  throwIf (t.sendRequestTimestamps.length ≤ seqNo) <|
    .abort "Sequence number has not (yet) been sent out."
  let reply ← vectorAt t.replyTimestamps seqNo
  let receiveReply ← vectorAt t.receiveReplyTimestamps seqNo
  throwIf (reply ≠ -1 ∨ receiveReply ≠ -1) <| .abort "Already got reply for this sequence number."
  .ok {
    sent := t.sent
    sendRequestTimestamps := t.sendRequestTimestamps
    replyTimestamps := t.replyTimestamps.set seqNo replyNs
    receiveReplyTimestamps := t.receiveReplyTimestamps.set seqNo nowNs
    sent_eq := t.sent_eq
    length_reply := (List.length_set ..).trans t.length_reply
    length_receiveReply := (List.length_set ..).trans t.length_receiveReply }

end UdpPingTimestamps

/-! ## Burst server -/

/-- A `UdpBurstServer` and the node it is installed on. -/
structure UdpBurstServer where
  nodeId : Int
  incomingBursts : List Int
  incomingBurstsReceivedCounter : OrdMap Int Nat
  incomingBurstsEnablePreciseLogging : OrdMap Int Bool
deriving DecidableEq

namespace UdpBurstServer

/-- A server as it is installed. -/
def create (nodeId : Int) : UdpBurstServer := ⟨nodeId, [], ∅, ∅⟩

def registerIncomingBurst (server : UdpBurstServer) (udpBurstId : Int) (enablePreciseLogging : Bool) :
    UdpBurstServer where
  nodeId := server.nodeId
  incomingBursts := server.incomingBursts ++ [udpBurstId]
  incomingBurstsReceivedCounter := server.incomingBurstsReceivedCounter.insert udpBurstId 0
  incomingBurstsEnablePreciseLogging :=
    server.incomingBurstsEnablePreciseLogging.insert udpBurstId enablePreciseLogging

/-- The part of `HandleRead` for one packet, from the identifier in its header. -/
def countPacket (server : UdpBurstServer) (udpBurstId : Int) : Except Exc UdpBurstServer := do
  let _ ← mapAt server.incomingBurstsReceivedCounter udpBurstId
  let _ ← mapAt server.incomingBurstsEnablePreciseLogging udpBurstId
  .ok { server with
    incomingBurstsReceivedCounter :=
      server.incomingBurstsReceivedCounter.modify udpBurstId fun count => (count + 1) % 2 ^ 64 }

def getReceivedCounterOf (server : UdpBurstServer) (udpBurstId : Int) : Except Exc Nat :=
  mapAt server.incomingBurstsReceivedCounter udpBurstId

end UdpBurstServer

end BasicSim
