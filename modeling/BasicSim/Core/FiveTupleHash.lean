import BasicSim.Core.ArbiterEcmp
import BasicSim.Core.ArbiterPtop
import BasicSim.Lib.Bytes

/-!
# `Core.FiveTupleHash` — what an ECMP decision depends on (`model/core/arbiter-ecmp.cc`)

`ComputeFiveTupleHash` and the decision of `ArbiterEcmp` with it. `Hash32` of ns-3 is a parameter, and so is what
`PeekHeader` reads at the front of a packet: a packet is taken with both readings.

## Contents
- **Hash.** `EcmpPacket`, `peekPorts`, `fiveTupleBuffer`, `computeFiveTupleHash`.
- **Decision.** `EcmpArbiter`, whose `baseDecide` is the one that the routing calls.
- **Paths.** `followPath`.
-/

namespace BasicSim

open Fallible Bytes

namespace ArbiterEcmp

/-! ## Hash -/

/-- `GetSourcePort` and `GetDestinationPort` of a TCP or UDP header. -/
structure Ports where
  source : BitVec 16
  destination : BitVec 16
deriving DecidableEq

/-- What the hash reads of a packet, besides the addresses: two fields of its IPv4 header, and what `PeekHeader`
    reads as a TCP header and as a UDP header. -/
structure EcmpPacket where
  protocol : BitVec 8
  fragmentOffset : BitVec 16
  peekTcpHeader : Ports
  peekUdpHeader : Ports
deriving DecidableEq

/-- The text of the abort for a port that is zero. -/
def invalidPorts (transport : String) : Exc :=
  .abort ("Invalid port numbers; this indicates the " ++ transport
    ++ " header is likely not present whereas it is expected to be")

/-- The source and destination port, from the TCP or UDP header if there is one. -/
def peekPorts (p : EcmpPacket) (noOtherHeaders : Bool) : Except Exc Ports :=
  if noOtherHeaders = false then
    if p.protocol = 6 ∧ p.fragmentOffset = 0 then do
      let tcpHdr := p.peekTcpHeader
      throwIf (tcpHdr.source = 0 ∨ tcpHdr.destination = 0) <| invalidPorts "TCP"
      .ok tcpHdr
    else if p.protocol = 17 ∧ p.fragmentOffset = 0 then do
      let udpHdr := p.peekUdpHeader
      throwIf (udpHdr.source = 0 ∨ udpHdr.destination = 0) <| invalidPorts "UDP"
      .ok udpHdr
    else .ok ⟨0, 0⟩
  else .ok ⟨0, 0⟩

/-- `Ipv4Address::Serialize`: four bytes in network order. -/
def serialize (ip : Ipv4Address) : List (BitVec 8) :=
  let address : BitVec 32 := .ofFin ip
  [lowByte (address >>> 24), lowByte (address >>> 16), lowByte (address >>> 8), lowByte address]

/-- The constant ECMP perturbation. -/
def ecmpPerturbation : BitVec 32 := 1333527522

/-- The buffer that is hashed: the 5-tuple, the node identifier as per-node perturbation, and the constant. -/
def fiveTupleBuffer (header : Ipv4Header) (p : EcmpPacket) (nodeId : Int) (noOtherHeaders : Bool) :
    Except Exc (List (BitVec 8)) := do
  throwIf (nodeId < 0) <| .abort
    "Node identifier cannot be negative as it is converted to an unsigned integer."
  let unsignedNodeId := toUInt32 nodeId
  let ports ← peekPorts p noOtherHeaders
  .ok (serialize header.source ++ serialize header.destination ++
    [p.protocol,
      lowByte (ports.source >>> 8), lowByte ports.source,
      lowByte (ports.destination >>> 8), lowByte ports.destination,
      lowByte (unsignedNodeId >>> 24), lowByte (unsignedNodeId >>> 16),
      lowByte (unsignedNodeId >>> 8), lowByte unsignedNodeId,
      lowByte (ecmpPerturbation >>> 24), lowByte (ecmpPerturbation >>> 16),
      lowByte (ecmpPerturbation >>> 8), lowByte ecmpPerturbation])

def computeFiveTupleHash (hash32 : List (BitVec 8) → BitVec 32) (header : Ipv4Header) (p : EcmpPacket)
    (nodeId : Int) (noOtherHeaders : Bool) : Except Exc (BitVec 32) := do
  let buf ← fiveTupleBuffer header p nodeId noOtherHeaders
  .ok (hash32 buf)

/-! ## Decision -/

/-- `TopologyPtopDecide` of the source, with the hash of the packet. -/
def topologyPtopDecideByHash (hash32 : List (BitVec 8) → BitVec 32) (candidateList : List (List (BitVec 32)))
    (nodeId : Int) : TopologyPtopDecide EcmpPacket :=
  fun sourceNodeId targetNodeId _ pkt ipHeader isRequestForSourceIpSoNoNextHeader => do
    let hash ← computeFiveTupleHash hash32 ipHeader pkt nodeId isRequestForSourceIpSoNoNextHeader
    topologyPtopDecide candidateList nodeId sourceNodeId targetNodeId hash

/-- An `ArbiterEcmp`: the arbiter of a node with its `m_candidate_list`. -/
structure EcmpArbiter extends ArbiterPtop where
  candidateList : List (List (BitVec 32))

/-- `BaseDecide`. -/
def EcmpArbiter.baseDecide (arbiter : EcmpArbiter) (hash32 : List (BitVec 8) → BitVec 32) (pkt : EcmpPacket)
    (ipHeader : Ipv4Header) : Except Exc ArbiterResult :=
  arbiter.toArbiter.baseDecide
    (arbiter.toArbiterPtop.decide (topologyPtopDecideByHash hash32 arbiter.candidateList arbiter.nodeId))
    pkt ipHeader

/-! ## Paths -/

/-- A packet as a node sees it, with the addresses of its IPv4 header. -/
structure View where
  pkt : EcmpPacket
  ipHeader : Ipv4Header

/-- The nodes that a packet is at, from a node on, given how it is seen at each of them: it is delivered where
    `isLocal` holds of its destination, and the interface `k` of a node leads to `peer node k`. -/
def followPath (hash32 : List (BitVec 8) → BitVec 32) (arbiterOf : Int → EcmpArbiter)
    (isLocal : Int → Ipv4Address → Bool) (peer : Int → Nat → Int) :
    List View → Int → Except Exc (List Int)
  | [], node => .ok [node]
  | view :: views, node =>
    if isLocal node view.ipHeader.destination = true then .ok [node]
    else do
      let result ← (arbiterOf node).baseDecide hash32 view.pkt view.ipHeader
      if result.failed = true then .ok [node]
      else do
        let rest ← followPath hash32 arbiterOf isLocal peer views (peer node result.outIfIdx)
        .ok (node :: rest)

end ArbiterEcmp

end BasicSim
