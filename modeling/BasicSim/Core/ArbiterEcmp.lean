import BasicSim.Core.TopologyPtop

/-!
# `Core.ArbiterEcmp` — equal-cost multi-path forwarding

`ArbiterEcmpHelper::CalculateGlobalState` (`helper/core/arbiter-ecmp-helper.cc`) and the decision of
`ArbiterEcmp` (`model/core/arbiter-ecmp.cc`).

The distance table is the flat `int32_t` array of the source, with its sentinel; every index and every
32-bit sum is checked. The hash of a packet is a parameter of the decision.
-/

namespace BasicSim

open Fallible

namespace ArbiterEcmp

/-- What the source writes for an infinite distance. -/
def infiniteDistance : Int := 100000000

/-- Initialise with 0 distance to itself, and infinite distance to all others. -/
def initializeDist (n : Int) (dist : RawArray Int) : Except Exc (RawArray Int) :=
  (upTo n).foldlM (fun dist i => (upTo n).foldlM (fun dist j =>
    dist.write (n * i + j) (if i = j then 0 else infiniteDistance)) dist) dist

/-- If there is an edge, the distance is 1. -/
def addEdges (n : Int) (edges : List Int64Pair) (dist : RawArray Int) : Except Exc (RawArray Int) :=
  edges.foldlM (fun dist edge => do
    let dist ← dist.write (n * edge.first + edge.second) 1
    dist.write (n * edge.second + edge.first) 1) dist

/-- The body of the Floyd-Warshall core. -/
def relaxCell (n k i j : Int) (dist : RawArray Int) : Except Exc (RawArray Int) := do
  let direct ← dist.read (n * i + j)
  let detour ← int32 ((← dist.read (n * i + k)) + (← dist.read (n * k + j)))
  if direct > detour then dist.write (n * i + j) detour else .ok dist

/-- Floyd-Warshall core. -/
def floydWarshall (n : Int) (dist : RawArray Int) : Except Exc (RawArray Int) :=
  (upTo n).foldlM (fun dist k => (upTo n).foldlM (fun dist i => (upTo n).foldlM (fun dist j =>
    relaxCell n k i j dist) dist) dist) dist

/-- `candidate_list[current][destination]` is the list of next hops. -/
abbrev GlobalState := List (List (List (BitVec 32)))

def emptyState (n : Int) : GlobalState :=
  (upTo n).foldl (fun state _ => state ++ [(upTo n).foldl (fun v _ => v ++ [[]]) []]) []

/-- `global_candidate_list.at(current).at(destination).push_back(hop)`. -/
def pushCandidate (state : GlobalState) (current destination hop : Int) :
    Except Exc GlobalState := do
  let row ← vectorAt state current
  let row ← vectorModifyAt row destination fun hops => hops ++ [toUInt32 hop]
  .ok (state.set current.toNat row)

/-- One of the two checks for an edge: `current → hop` is on a shortest path towards `destination` if
    the hop is one step closer. -/
def addCandidate (n : Int) (dist : RawArray Int) (current hop destination : Int)
    (state : GlobalState) : Except Exc GlobalState := do
  let fromCurrent ← int32 ((← dist.read (current * n + destination)) - 1)
  if fromCurrent = (← dist.read (hop * n + destination)) then
    pushCandidate state current destination hop
  else .ok state

/-- Both checks for one edge and one destination. -/
def addCandidates (n : Int) (dist : RawArray Int) (edge : Int64Pair) (j : Int)
    (state : GlobalState) : Except Exc GlobalState := do
  let state ← addCandidate n dist edge.first edge.second j state
  addCandidate n dist edge.second edge.first j state

def calculateGlobalState (topology : TopologyPtop) : Except Exc GlobalState := do
  let n := topology.numNodes
  throwIf (n > 40000) <| .runtimeError "Cannot handle more than 40000 nodes"
  let n2 := toInt32 (n * n)
  let dist ← initializeDist n (newArray Int n2)
  let dist ← addEdges n topology.undirectedEdges dist
  let dist ← floydWarshall n dist
  topology.undirectedEdges.foldlM (fun state edge =>
    (upTo n).foldlM (fun state j => addCandidates n dist edge j state) state) (emptyState n)

/-- The text of the error for an empty candidate list. -/
def noCandidates (nodeId sourceNodeId targetNodeId : Int) : Exc :=
  .invalidArgument ("There are no candidate ECMP next hops available at current node "
    ++ toString nodeId ++ " for a packet from source " ++ toString sourceNodeId
    ++ " to destination " ++ toString targetNodeId)

/-- `TopologyPtopDecide` of the arbiter of node `nodeId` with its `m_candidate_list`; `hash` is what
    `ComputeFiveTupleHash` returned. -/
def topologyPtopDecide (candidateList : List (List (BitVec 32))) (nodeId : Int)
    (sourceNodeId targetNodeId : Int) (hash : BitVec 32) : Except Exc Int := do
  let candidates ← vectorAt candidateList targetNodeId
  let s := candidates.length
  throwIf (s = 0) <| noCandidates nodeId sourceNodeId targetNodeId
  let hop ← vectorAt candidates (hash.toNat % s : Nat)
  .ok hop.toInt

/-- The decision at node `current`, whose arbiter was given `global_ecmp_state[current]`. -/
def decideAt (state : GlobalState) (current source target : Int) (hash : BitVec 32) :
    Except Exc Int := do
  let candidateList ← vectorAt state current
  topologyPtopDecide candidateList current source target hash

/-- Move `hops` times from `current` to the node that is decided there, for one packet from `source` to
    `target`. The nodes that the packet was at, in order. -/
def forward {Packet : Type} (state : GlobalState) (hash : Int → Packet → BitVec 32) (pkt : Packet)
    (source target : Int) : Nat → Int → Except Exc (List Int)
  | 0, current => .ok [current]
  | hops + 1, current => do
    let next ← decideAt state current source target (hash current pkt)
    let rest ← forward state hash pkt source target hops next
    .ok (current :: rest)

end ArbiterEcmp

end BasicSim
