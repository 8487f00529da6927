import BasicSim.Core.ExpUtil
import Mathlib.Data.List.Sort

/-!
# `Core.TopologyPtop` — the point-to-point topology (`model/core/topology-ptop.cc`)

The layout half of `TopologyPtop`: reading the topology configuration, parsing the graph and the
accessors. The link properties are in `Core.LinkProperties`, the ns-3 objects in `Core.SetupLinks`.
-/

namespace BasicSim

open Fallible

/-- The layout members of `TopologyPtop` (`m_num_nodes`, `m_switches`, …). -/
structure TopologyPtop where
  allNodesAreEndpoints : Bool
  numNodes : Int
  numUndirectedEdges : Int
  switches : OrdSet Int
  switchesWhichAreTors : OrdSet Int
  servers : OrdSet Int
  allNodeIds : OrdSet Int
  undirectedEdges : List Int64Pair
  undirectedEdgesSet : OrdSet Int64Pair
  adjacencyList : List (OrdSet Int)
  hasZeroServers : Bool
deriving DecidableEq

/-! ## `ReadTopologyConfig` -/

def topologyProperties : List Str :=
  ["num_nodes".toList, "num_undirected_edges".toList, "switches".toList,
    "switches_which_are_tors".toList, "servers".toList, "undirected_edges".toList,
    "all_nodes_are_endpoints".toList, "link_channel_delay_ns".toList,
    "link_net_device_data_rate_megabit_per_s".toList, "link_net_device_queue".toList,
    "link_net_device_receive_error_model".toList, "link_interface_traffic_control_qdisc".toList]

/-- The topology configuration and `m_all_nodes_are_endpoints`. -/
def readTopologyConfig (filename : Str) (file : File) : Except Exc (Config × Bool) := do
  let topologyConfig ← readConfig filename file
  forM topologyConfig.entries fun entry =>
    throwIf (entry.1 ∉ topologyProperties) <|
      .runtimeError ("Invalid topology property: " ++ String.ofList entry.1)
  let allNodesAreEndpoints ←
    parseBoolean (getParamOrDefault "all_nodes_are_endpoints".toList "false".toList topologyConfig)
  .ok (topologyConfig, allNodesAreEndpoints)

/-! ## `ParseTopologyGraph` -/

/-- The loop that fills `m_all_node_ids` and `m_adjacency_list`. Its counter is an `int`, which
    overflows when there are `2 ^ 31` nodes or more. -/
def createNodes (numNodes : Int) : Except Exc (OrdSet Int × List (OrdSet Int)) :=
  (List.range numNodes.toNat).foldlM (fun (allNodeIds, adjacencyList) (i : Nat) => do
    let _ ← int32 (i + 1)
    .ok (allNodeIds.insert (i : Int), adjacencyList ++ [∅])) (∅, [])

/-- One edge item: `a-b` with `a < b < numNodes`. -/
def parseUndirectedEdge (numNodes : Int) (s : Str) : Except Exc Int64Pair := do
  let spl ← splitStringExpected s "-".toList 2
  let a ← parsePositiveInt64 (← vectorAt spl 0)
  let b ← parsePositiveInt64 (← vectorAt spl 1)
  throwIf (a = b) <| .invalidArgument ("Cannot have edge to itself on node " ++ toString a)
  throwIf (numNodes ≤ a) <|
    .invalidArgument ("Left node identifier in edge does not exist: " ++ toString a)
  throwIf (numNodes ≤ b) <|
    .invalidArgument ("Right node identifier in edge does not exist: " ++ toString b)
  throwIf (b < a) <| .invalidArgument
    ("As a convention, the left node id must be smaller than the right node id: "
      ++ toString a ++ "-" ++ toString b)
  .ok ⟨a, b⟩

/-- What the edge loop fills. -/
structure EdgeState where
  undirectedEdges : List Int64Pair
  undirectedEdgesSet : OrdSet Int64Pair
  adjacencyList : List (OrdSet Int)

/-- The second half of the body of the edge loop. -/
def EdgeState.add (st : EdgeState) (e : Int64Pair) : Except Exc EdgeState := do
  let adjacencyList ← vectorModifyAt st.adjacencyList e.first fun ns => ns.insert e.second
  let adjacencyList ← vectorModifyAt adjacencyList e.second fun ns => ns.insert e.first
  .ok ⟨st.undirectedEdges ++ [e], st.undirectedEdgesSet.insert e, adjacencyList⟩

/-- The edge loop, over the items in the order of the string set. -/
def parseUndirectedEdges (numNodes : Int) (adjacencyList : List (OrdSet Int))
    (stringSet : OrdSet Str) : Except Exc EdgeState :=
  stringSet.toList.foldlM (fun st s => do st.add (← parseUndirectedEdge numNodes s))
    ⟨[], ∅, adjacencyList⟩

/-- The cardinality checks on the edges and the node types. -/
def checkLayout (numNodes numUndirectedEdges : Int) (switches tors servers : OrdSet Int)
    (undirectedEdges : List Int64Pair) (undirectedEdgesSet : OrdSet Int64Pair) : Except Exc Unit := do
  throwIf (undirectedEdges.length ≠ numUndirectedEdges.toNat) <|
    .invalidArgument "Indicated number of undirected edges does not match edge set"
  throwIf (undirectedEdges.length ≠ undirectedEdgesSet.size) <|
    .invalidArgument "Duplicates in edge set"
  throwIf ((directSetIntersection servers switches).size ≠ 0) <|
    .invalidArgument "Server and switch identifiers are not distinct"
  throwIf ((directSetUnion servers switches).size ≠ numNodes.toNat) <|
    .invalidArgument "The servers and switches do not encompass all nodes"
  throwIf ((directSetIntersection switches tors).size ≠ tors.size) <|
    .invalidArgument "Servers are marked as ToRs"

/-- Servers must be connected to ToRs only. -/
def checkServers (tors servers : OrdSet Int) (adjacencyList : List (OrdSet Int)) : Except Exc Unit :=
  forM servers.toList fun nodeId => do
    let neighborIds ← vectorAt adjacencyList nodeId
    forM neighborIds.toList fun neighborId =>
      throwIf (neighborId ∉ tors) <| .invalidArgument
        ("Server node " ++ toString nodeId ++ " has an edge to node " ++ toString neighborId
          ++ " which is not a ToR.")

/-- A set-valued node property. -/
def parseNodeSet (key : String) (config : Config) (numNodes : Int) : Except Exc (OrdSet Int) := do
  let tmp ← getParamOrFail key.toList config
  let s ← parseSetPositiveInt64 tmp
  allItemsAreLessThan s numNodes
  .ok s

/-- `ParseTopologyGraph`. `distributedNodeSystemIdAssignment` is there when the distributed mode is
    enabled. -/
def parseTopologyGraph (topologyConfig : Config) (allNodesAreEndpoints : Bool)
    (distributedNodeSystemIdAssignment : Option (List Int)) : Except Exc TopologyPtop := do
  let numNodes ← parsePositiveInt64 (← getParamOrFail "num_nodes".toList topologyConfig)
  let numUndirectedEdges ←
    parsePositiveInt64 (← getParamOrFail "num_undirected_edges".toList topologyConfig)
  let switches ← parseNodeSet "switches" topologyConfig numNodes
  let switchesWhichAreTors ← parseNodeSet "switches_which_are_tors" topologyConfig numNodes
  let servers ← parseNodeSet "servers" topologyConfig numNodes
  let (allNodeIds, adjacencyList) ← createNodes numNodes
  let stringSet ← parseSetString (← getParamOrFail "undirected_edges".toList topologyConfig)
  let st ← parseUndirectedEdges numNodes adjacencyList stringSet
  let undirectedEdges := st.undirectedEdges.insertionSort (· ≤ ·)
  checkLayout numNodes numUndirectedEdges switches switchesWhichAreTors servers undirectedEdges
    st.undirectedEdgesSet
  checkServers switchesWhichAreTors servers st.adjacencyList
  match distributedNodeSystemIdAssignment with
  | none => .ok ()
  | some assignment =>
    throwIf (assignment.length ≠ numNodes.toNat) <| .invalidArgument
      ("Incorrect amount of node-to-system-id assignments (must be " ++ toString numNodes
        ++ " but got " ++ toString (assignment.length % 2 ^ 32) ++ ")")
  .ok {
    allNodesAreEndpoints, numNodes, numUndirectedEdges, switches, switchesWhichAreTors, servers
    allNodeIds, undirectedEdges
    undirectedEdgesSet := st.undirectedEdgesSet
    adjacencyList := st.adjacencyList
    hasZeroServers := decide (servers.size = 0) }

/-! ## Accessors -/

namespace TopologyPtop

variable (t : TopologyPtop)

def isValidEndpoint (nodeId : Int) : Bool :=
  if t.allNodesAreEndpoints then true
  else if t.hasZeroServers then decide (nodeId ∈ t.switchesWhichAreTors)
  else decide (nodeId ∈ t.servers)

def getEndpoints : OrdSet Int :=
  if t.allNodesAreEndpoints then t.allNodeIds
  else if t.hasZeroServers then t.switchesWhichAreTors
  else t.servers

/-- All the links, that is the directed edges. -/
def getLinks : List Int64Pair :=
  t.undirectedEdges.foldl (fun links e => links ++ [e, e.swap]) []

def getLinksSet : OrdSet Int64Pair := OrdSet.ofList t.getLinks

def getAdjacencyList (nodeId : Int) : Except Exc (OrdSet Int) := vectorAt t.adjacencyList nodeId

end TopologyPtop

end BasicSim
