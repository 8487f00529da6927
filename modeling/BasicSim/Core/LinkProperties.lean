import BasicSim.Core.TopologyPtop

/-!
# `Core.LinkProperties` — the link property mappings (`model/core/topology-ptop.cc`)

`ParseUndirectedEdgeMap`, `ParseDirectedEdgeMap`, the five `ParseLink…Property` functions and
`ParseTopologyLinkProperties`. The two edge maps are one loop with the reading of a key, the test for a
known edge and the error texts as parameters, and so are the properties of the directed edges.

The selectors are abstract classes in the source; a topology is built with any of their
implementations, so they are parameters here.
-/

namespace BasicSim

open Fallible

/-- The three selectors of a topology, with the ns-3 objects that they make. -/
structure Selectors : Type 1 where
  ObjectFactory : Type
  ErrorModel : Type
  TrafficControlHelper : Type
  parseQueueValue : Str → Except Exc ObjectFactory
  parseReceiveErrorModelValue : Str → Except Exc (Bool × ErrorModel)
  parseTcQdiscValue : Str → Except Exc (Bool × TrafficControlHelper)

/-! ## Edge maps -/

/-- `a-b` with `a ≤ b`, the key of an undirected edge. -/
def parseUndirectedEdgeKey (key : Str) : Except Exc Int64Pair := do
  let dashSplitList ← splitStringExpected key "-".toList 2
  let a ← parsePositiveInt64 (← vectorAt dashSplitList 0)
  let b ← parsePositiveInt64 (← vectorAt dashSplitList 1)
  throwIf (b < a) <| .invalidArgument
    ("As a convention, the left node id must be smaller than the right node id: "
      ++ toString a ++ "-" ++ toString b)
  .ok ⟨a, b⟩

/-- `a->b`, the key of a directed edge. -/
def parseDirectedEdgeKey (key : Str) : Except Exc Int64Pair := do
  let dashSplitList ← splitStringExpected key "->".toList 2
  let a ← parsePositiveInt64 (← vectorAt dashSplitList 0)
  let b ← parsePositiveInt64 (← vectorAt dashSplitList 1)
  .ok ⟨a, b⟩

/-- What the two edge map parsers share: the loop over the entries, and the comparison with the number
    of keys that there must be. -/
def parseEdgeMap (parseKey : Str → Except Exc Int64Pair) (known : Int64Pair → Bool)
    (numKeys : Nat) (duplicateText unknownText missingText : String) (value : Str) :
    Except Exc (OrdMap Int64Pair Str) := do
  let pairList ← parseMapString value
  let result ← pairList.foldlM (fun (result : OrdMap Int64Pair Str) p => do
    let key ← parseKey p.1
    throwIf ((result.find? key).isSome = true) <| .runtimeError (duplicateText ++ String.ofList p.1)
    throwIf (known key = false) <| .runtimeError (unknownText ++ String.ofList p.1)
    .ok (result.insert key p.2)) ∅
  throwIf (numKeys ≠ result.size) <| .runtimeError missingText
  .ok result

section Parsing

variable (t : TopologyPtop)

def parseUndirectedEdgeMap (value : Str) : Except Exc (OrdMap Int64Pair Str) :=
  parseEdgeMap parseUndirectedEdgeKey (fun key => decide (key ∈ t.undirectedEdgesSet))
    t.undirectedEdgesSet.size "Duplicate key in undirected edge mapping: "
    "Unknown undirected edge: " "Not all undirected edges were covered" value

/-- The undirected edge that a directed edge belongs to. -/
def undirectedEdgeOf (key : Int64Pair) : Int64Pair :=
  ⟨if key.first < key.second then key.first else key.second,
    if key.second > key.first then key.second else key.first⟩

def parseDirectedEdgeMap (value : Str) : Except Exc (OrdMap Int64Pair Str) :=
  parseEdgeMap parseDirectedEdgeKey (fun key => decide (undirectedEdgeOf key ∈ t.undirectedEdgesSet))
    (t.undirectedEdgesSet.size * 2) "Duplicate key in directed edge mapping: "
    "Does not belong to an undirected edge: " "Not all directed edges were covered" value

/-! ## The mappings of the five properties -/

/-- Whether a property is given as a mapping; otherwise it is one global value. -/
def isMapping (value : Str) : Bool := startsWith (trim value) "map".toList

/-- Convert the values of an edge map, in the order of the keys. -/
def convertEdgeMap {V : Type} (parse : Str → Except Exc V) (edgeMapping : OrdMap Int64Pair Str) :
    Except Exc (OrdMap Int64Pair V) :=
  edgeMapping.entries.foldlM (fun (mapping : OrdMap Int64Pair V) entry => do
    let v ← parse entry.2
    .ok (mapping.insert entry.1 v)) ∅

/-- Give every link the global value, which is obtained anew for every edge. -/
def globalLinkMapping {V : Type} (readValue : Except Exc V) : Except Exc (OrdMap Int64Pair V) :=
  t.undirectedEdgesSet.toList.foldlM (fun (mapping : OrdMap Int64Pair V) p => do
    let v ← readValue
    .ok ((mapping.insert p v).insert p.swap v)) ∅

def parseLinkChannelDelayNsProperty (config : Config) : Except Exc (OrdMap Int64Pair Int) := do
  let value ← getParamOrFail "link_channel_delay_ns".toList config
  if isMapping value = false then do
    let linkChannelDelayNs ← parsePositiveInt64 value
    .ok (t.undirectedEdgesSet.toList.foldl (fun mapping p => mapping.insert p linkChannelDelayNs) ∅)
  else do
    let undirectedEdgeMapping ← parseUndirectedEdgeMap t value
    convertEdgeMap parsePositiveInt64 undirectedEdgeMapping

/-- The global rate is read once, before the loop over the edges. -/
def parseLinkNetDeviceDataRateMegabitPerSecProperty (stod : Str → Except Exc (Double × Nat))
    (config : Config) : Except Exc (OrdMap Int64Pair Double) := do
  let value ← getParamOrFail "link_net_device_data_rate_megabit_per_s".toList config
  if isMapping value = false then do
    let linkNetDeviceDataRateMegabitPerS ← parsePositiveDouble stod value
    globalLinkMapping t (.ok linkNetDeviceDataRateMegabitPerS)
  else do
    let directedEdgeMapping ← parseDirectedEdgeMap t value
    convertEdgeMap (parsePositiveDouble stod) directedEdgeMapping

/-- The global value is read once more at the end, to be printed. -/
def parseLinkNetDeviceQueueProperty (s : Selectors) (config : Config) :
    Except Exc (OrdMap Int64Pair s.ObjectFactory) := do
  let value ← getParamOrFail "link_net_device_queue".toList config
  if isMapping value = false then do
    let mapping ← globalLinkMapping t (s.parseQueueValue value)
    let _ ← s.parseQueueValue value
    .ok mapping
  else do
    let directedEdgeMapping ← parseDirectedEdgeMap t value
    convertEdgeMap s.parseQueueValue directedEdgeMapping

/-- A property of the directed edges that is read by a selector, value by value. -/
def parseLinkProperty {V : Type} (parameter : String) (parse : Str → Except Exc V) (config : Config) :
    Except Exc (OrdMap Int64Pair V) := do
  let value ← getParamOrFail parameter.toList config
  if isMapping value = false then globalLinkMapping t (parse value)
  else do
    let directedEdgeMapping ← parseDirectedEdgeMap t value
    convertEdgeMap parse directedEdgeMapping

def parseLinkNetDeviceReceiveErrorModelProperty (s : Selectors) (config : Config) :
    Except Exc (OrdMap Int64Pair (Bool × s.ErrorModel)) :=
  parseLinkProperty t "link_net_device_receive_error_model" s.parseReceiveErrorModelValue config

def parseLinkInterfaceTrafficControlQdiscProperty (s : Selectors) (config : Config) :
    Except Exc (OrdMap Int64Pair (Bool × s.TrafficControlHelper)) :=
  parseLinkProperty t "link_interface_traffic_control_qdisc" s.parseTcQdiscValue config

/-- The mapping members of `TopologyPtop`. -/
structure LinkProperties (s : Selectors) where
  linkChannelDelayNsMapping : OrdMap Int64Pair Int
  linkNetDeviceDataRateMegabitPerSMapping : OrdMap Int64Pair Double
  linkNetDeviceQueueMapping : OrdMap Int64Pair s.ObjectFactory
  linkNetDeviceReceiveErrorModelMapping : OrdMap Int64Pair (Bool × s.ErrorModel)
  linkInterfaceTrafficControlQdiscMapping : OrdMap Int64Pair (Bool × s.TrafficControlHelper)

def parseTopologyLinkProperties (stod : Str → Except Exc (Double × Nat)) (s : Selectors)
    (config : Config) : Except Exc (LinkProperties s) := do
  let delay ← parseLinkChannelDelayNsProperty t config
  let dataRate ← parseLinkNetDeviceDataRateMegabitPerSecProperty t stod config
  let queue ← parseLinkNetDeviceQueueProperty t s config
  let receiveErrorModel ← parseLinkNetDeviceReceiveErrorModelProperty t s config
  let tcQdisc ← parseLinkInterfaceTrafficControlQdiscProperty t s config
  .ok ⟨delay, dataRate, queue, receiveErrorModel, tcQdisc⟩

end Parsing

end BasicSim
