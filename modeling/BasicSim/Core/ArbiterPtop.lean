import BasicSim.Core.SetupLinks

/-!
# `Core.ArbiterPtop` — from a node to an interface (`model/core/arbiter.cc`, `arbiter-ptop.cc`)

`Arbiter` resolves addresses to nodes, and `ArbiterPtop` turns the next node that a subclass decides
(`TopologyPtopDecide`) into an interface of its own node. The subclass is a parameter.

## Contents
- **Result.** `ArbiterResult`, whose constructor refuses the inconsistent values.
- **Arbiter.** `Arbiter`, `resolveNodeIdFromIp`, `baseDecide`.
- **Point-to-point.** `ArbiterPtop`, `decide`.
-/

namespace BasicSim

open Fallible

/-! ## Result -/

/-- The decision of an arbiter: it failed, or it is an interface other than the loop-back. -/
structure ArbiterResult where
  failed : Bool
  outIfIdx : Nat
  gatewayIpAddress : Nat
  outIfIdx_of_failed : failed = true → outIfIdx = 0
  gateway_of_failed : failed = true → gatewayIpAddress = 0
  outIfIdx_of_not_failed : failed = false → outIfIdx ≠ 0
deriving DecidableEq

namespace ArbiterResult

/-- The constructor of the source. -/
def create (failed : Bool) (outIfIdx gatewayIpAddress : Nat) : Except Exc ArbiterResult :=
  if h₁ : failed = true ∧ outIfIdx ≠ 0 then .error (.invalidArgument
    "If the arbiter result is a failure, the out interface index must be zero.")
  else if h₂ : failed = true ∧ gatewayIpAddress ≠ 0 then .error (.invalidArgument
    "If the arbiter result is a failure, the gateway IP address must be zero.")
  else if h₃ : failed = false ∧ outIfIdx = 0 then .error (.invalidArgument
    ("If the arbiter result is not a failure, the out interface index cannot be zero "
      ++ "(= loop-back interface)."))
  else .ok ⟨failed, outIfIdx, gatewayIpAddress, fun h => not_not.mp fun h' => h₁ ⟨h, h'⟩,
    fun h => not_not.mp fun h' => h₂ ⟨h, h'⟩, fun h h' => h₃ ⟨h, h'⟩⟩

/-- No route. -/
def noRoute : ArbiterResult :=
  ⟨true, 0, 0, fun _ => rfl, fun _ => rfl, fun h => absurd h (by decide)⟩

/-- Out of the interface `k`, without a gateway. -/
def outOf (k : Nat) (h : k ≠ 0) : ArbiterResult :=
  ⟨false, k, 0, fun h => absurd h (by decide), fun _ => rfl, fun _ => h⟩

def getOutIfIdx (r : ArbiterResult) : Except Exc Nat := do
  throwIf (r.failed = true) <| .runtimeError ("Cannot retrieve out interface index if the arbiter did "
    ++ "not succeed in finding a next hop")
  .ok r.outIfIdx

def getGatewayIpAddress (r : ArbiterResult) : Except Exc Nat := do
  throwIf (r.failed = true) <| .runtimeError ("Cannot retrieve gateway IP address if the arbiter did "
    ++ "not succeed in finding a next hop")
  .ok r.gatewayIpAddress

end ArbiterResult

/-! ## Arbiter -/

/-- The addresses of an `Ipv4Header`; what else the header holds belongs to the packet here. -/
structure Ipv4Header where
  source : Ipv4Address
  destination : Ipv4Address
deriving DecidableEq

/-- How a stream prints an `Ipv4Address`. -/
def Ipv4Address.toDotted (ip : Ipv4Address) : String :=
  toString (ip.val / 2 ^ 24) ++ "." ++ toString (ip.val / 2 ^ 16 % 256) ++ "."
    ++ toString (ip.val / 2 ^ 8 % 256) ++ "." ++ toString (ip.val % 256)

structure Arbiter where
  nodeId : Int
  ipToNodeId : OrdMap Ipv4Address Nat

namespace Arbiter

variable {s : Selectors} {ns3 : Ns3 s}

/-- The addresses of a node, without that of the loop-back. -/
def addNode (ipToNodeId : OrdMap Ipv4Address Nat) (node : Node × Nat) : OrdMap Ipv4Address Nat :=
  (node.1.interfaces.drop 1).foldl (fun m interface => m.insert interface.address node.2) ipToNodeId

/-- The constructor of the source. -/
def create (net : Network ns3) (thisNode : Nat) : Arbiter where
  nodeId := toInt32 thisNode
  ipToNodeId := net.nodes.zipIdx.foldl addNode ∅

def resolveNodeIdFromIp (arbiter : Arbiter) (ip : Ipv4Address) : Except Exc Nat :=
  match arbiter.ipToNodeId.find? ip with
  | some nodeId => .ok nodeId
  | none => .error (.invalidArgument ("IP address " ++ ip.toDotted ++ " (" ++ toString ip.val
      ++ ") is not mapped to a node id"))

/-- 102.102.102.102, which a socket sets to discover its actual source address. -/
def socketRequestSource : Ipv4Address := 1717986918

/-- The node that a packet is from: the current node, if it is a request for the source address. -/
def sourceNodeId (arbiter : Arbiter) (sourceIp : Ipv4Address) : Except Exc Nat :=
  if sourceIp = socketRequestSource then .ok (toUInt32 arbiter.nodeId).toNat
  else arbiter.resolveNodeIdFromIp sourceIp

/-- `BaseDecide`, with the `Decide` of the subclass. -/
def baseDecide {Packet : Type} (arbiter : Arbiter)
    (decide : Int → Int → Packet → Ipv4Header → Bool → Except Exc ArbiterResult) (pkt : Packet)
    (ipHeader : Ipv4Header) : Except Exc ArbiterResult := do
  let sourceNodeId ← arbiter.sourceNodeId ipHeader.source
  let targetNodeId ← arbiter.resolveNodeIdFromIp ipHeader.destination
  decide (toInt32 sourceNodeId) (toInt32 targetNodeId) pkt ipHeader
    (ipHeader.source == socketRequestSource)

end Arbiter

/-! ## Point-to-point -/

/-- `TopologyPtopDecide` of a subclass: the next node for source, target, the neighbours, the packet
    with its header, and whether it is a request for the source address. -/
abbrev TopologyPtopDecide (Packet : Type) : Type :=
  Int → Int → OrdSet Int → Packet → Ipv4Header → Bool → Except Exc Int

structure ArbiterPtop extends Arbiter where
  topology : TopologyPtop
  neighborNodeIdToIfIdx : List Nat

namespace ArbiterPtop

variable {s : Selectors} {ns3 : Ns3 s}

/-- Save which interface is for which neighbor node id, if edge `i` is one of the node. -/
def saveInterface (t : TopologyPtop) (idxs : List (Nat × Nat)) (nodeId : Int) (v : List Nat) (i : Int) :
    Except Exc (List Nat) := do
  let edge ← vectorAt t.undirectedEdges i
  if edge.first = nodeId then do
    let idx ← vectorAt idxs i
    vectorModifyAt v edge.second fun _ => idx.1
  else if edge.second = nodeId then do
    let idx ← vectorAt idxs i
    vectorModifyAt v edge.first fun _ => idx.2
  else .ok v

/-- The loop over the edges, whose counter is an `int`. -/
def saveInterfaces (t : TopologyPtop) (idxs : List (Nat × Nat)) (nodeId : Int) : Except Exc (List Nat) :=
  (upTo t.numUndirectedEdges).foldlM (fun v i => do
    let v ← saveInterface t idxs nodeId v i
    let _ ← int32 (i + 1)
    .ok v) (List.replicate t.numNodes.toNat 0)

/-- The constructor of the source. -/
def create (t : TopologyPtop) (links : Links ns3) (thisNode : Nat) : Except Exc ArbiterPtop := do
  let arbiter := Arbiter.create links.network thisNode
  let v ← saveInterfaces t links.interfaceIdxsForUndirectedEdges arbiter.nodeId
  .ok { arbiter with topology := t, neighborNodeIdToIfIdx := v }

def decide {Packet : Type} (arbiter : ArbiterPtop) (topologyPtopDecide : TopologyPtopDecide Packet)
    (sourceNodeId targetNodeId : Int) (pkt : Packet) (ipHeader : Ipv4Header)
    (isSocketRequestForSourceIp : Bool) : Except Exc ArbiterResult := do
  let selectedNodeId ← topologyPtopDecide sourceNodeId targetNodeId
    (← arbiter.topology.getAdjacencyList arbiter.nodeId) pkt ipHeader isSocketRequestForSourceIp
  if selectedNodeId ≠ -1 then do
    throwIf (selectedNodeId < 0 ∨ selectedNodeId ≥ arbiter.topology.numNodes) <| .runtimeError
      ("The selected next node " ++ toString selectedNodeId ++ " is out of node id range of [0, "
        ++ toString arbiter.topology.numNodes ++ ").")
    let selectedIfIdx ← vectorAt arbiter.neighborNodeIdToIfIdx selectedNodeId
    throwIf (selectedIfIdx = 0) <| .runtimeError
      ("The selected next node " ++ toString selectedNodeId ++ " is not a neighbor of node "
        ++ toString arbiter.nodeId ++ ".")
    ArbiterResult.create false selectedIfIdx 0
  else ArbiterResult.create true 0 0

end ArbiterPtop

end BasicSim
