import BasicSim.Core.FiveTupleHash
import BasicSim.Core.Ipv4ArbiterRouting
import BasicSim.Lib.RankedWalk

/-!
# `Core.NetworkForwarding` — a packet in the network

`ArbiterEcmpHelper::InstallArbiters` (`helper/core/arbiter-ecmp-helper.cc`) gives every node its arbiter. The routing
of the nodes (`model/core/ipv4-arbiter-routing.cc`) then passes a packet on from device to device.

What lies between two calls of the routing belongs to ns-3: a packet that is sent out of a device arrives at the other
end of its channel, and the time to live bounds how many channels it crosses. Queues and error models, which can drop
it, are left aside.

## Contents
- **Arbiters.** `installArbiters`.
- **Packets.** `handle`, what the routing of a node does with a packet; `travel`, its way.
-/

namespace BasicSim

open Fallible RankedWalk

variable {s : Selectors} {ns3 : Ns3 s}

/-! ## Arbiters -/

namespace ArbiterEcmp

/-- `v[i]`. -/
def vectorIndex {α : Type} (v : List α) (i : Int) : Except Exc α :=
  match v[i.toNat]? with
  | some a => .ok a
  | none => .error (.undefined "vector index out of range")

/-- The constructor of `ArbiterEcmp`. -/
def EcmpArbiter.create (t : TopologyPtop) (links : Links ns3) (thisNode : Nat)
    (candidateList : List (List (BitVec 32))) : Except Exc EcmpArbiter := do
  let arbiter ← ArbiterPtop.create t links thisNode
  .ok { arbiter with candidateList := candidateList }

/-- The arbiters that the nodes are given, in the order of the nodes. -/
def installArbiters (t : TopologyPtop) (links : Links ns3) : Except Exc (List EcmpArbiter) := do
  let globalEcmpState ← calculateGlobalState t
  (upTo t.numNodes).mapM fun i => do
    let candidateList ← vectorIndex globalEcmpState i
    EcmpArbiter.create t links i.toNat candidateList

end ArbiterEcmp

/-! ## Packets -/

namespace NetworkForwarding

open ArbiterEcmp

/-- Where a packet is: at its source, or at a node where it arrived over a device. -/
inductive Place where
  | source (nodeId : Int)
  | arrived (nodeId : Int) (device : Nat)
deriving DecidableEq

def Place.nodeId : Place → Int
  | .source v => v
  | .arrived v _ => v

/-- What becomes of a packet where it stays. -/
inductive Fate where
  | delivered (nodeId : Int) (iif : Nat)
  | noRoute (nodeId : Int)
deriving DecidableEq

/-- The other end of the channel of a device. -/
def crossing (net : Network ns3) (id : Nat) : Option Place := do
  let id' ← net.otherEnd id
  let d ← net.netDevices[id']?
  some (.arrived d.nodeId id')

/-- The packet leaves over the output device of a route. -/
def sendOver (net : Network ns3) (route : Ipv4Route) : Except Exc (Handling Place Fate) :=
  match route.outputDevice with
  | .loopback => .error (.undefined "the loop-back has no channel")
  | .pointToPoint id =>
    match crossing net id with
    | some place => .ok (.move place)
    | none => .error (.undefined "no channel")

section Handle

variable (links : Links ns3) (stack : Ipv4Stack) (hash32 : List (BitVec 8) → BitVec 32)
  (arbiters : List EcmpArbiter) (pkt : EcmpPacket) (ipHeader : Ipv4Header)

/-- After `RouteOutput`. -/
def afterRouteOutput (nodeId : Int) : Except Exc (Option Ipv4Route) → Except Exc (Handling Place Fate)
  | .error e => .error e
  | .ok none => .ok (.settle (.noRoute nodeId))
  | .ok (some route) => sendOver links.network route

/-- After `RouteInput`, given the calls it made. -/
def afterRouteInput (nodeId : Int) : List Call × Except Exc Bool → Except Exc (Handling Place Fate)
  | (_, .error e) => .error e
  | (calls, .ok _) =>
    match calls.getLast? with
    | some (.localDeliver iif) => .ok (.settle (.delivered nodeId iif))
    | some (.unicastForward route) => sendOver links.network route
    | _ => .ok (.settle (.noRoute nodeId))

/-- What the routing of the node does with the packet. -/
def handle (place : Place) : Except Exc (Handling Place Fate) := do
  let node ← links.network.getNode place.nodeId
  let arbiter ← vectorAt arbiters place.nodeId
  match place with
  | .source v =>
    afterRouteOutput links v
      (Ipv4ArbiterRouting.routeOutput stack node (arbiter.baseDecide hash32 pkt) ipHeader false).2
  | .arrived v id =>
    afterRouteInput links v
      (Ipv4ArbiterRouting.routeInput stack node (arbiter.baseDecide hash32 pkt) ipHeader (.pointToPoint id))

/-- The way of a packet that node `source` sends, with what becomes of it. -/
def travel (timeToLive : Nat) (source : Int) : List Place × Except Exc (Option Fate) :=
  walk (handle links stack hash32 arbiters pkt ipHeader) timeToLive (.source source)

end Handle

end NetworkForwarding

end BasicSim
