import BasicSim.Core.LinkProperties
import Mathlib.Data.Fin.Basic

/-!
# `Core.SetupLinks` — building the network (`SetupNodes` and `SetupLinks` of `topology-ptop.cc`)

ns-3 is not part of the sources. Its state is taken as far as the sources use it: the nodes with their
devices and interfaces, the point-to-point devices with what they were configured with, and the
channels between them. Devices and interfaces of a node are numbered in the order of installation, and
the loop-back is number 0. What ns-3 computes (a data rate from its text, the default queueing
discipline, whether a helper holds one, the addresses it hands out) is a parameter.

`PointToPointAbHelper::Install` (`helper/core/point-to-point-ab-helper.cc`) puts device A on the first
node and device B on the second.
-/

namespace BasicSim

open Fallible

/-- An `Ipv4Address`. -/
abbrev Ipv4Address := Fin (2 ^ 32)

instance instNeZeroAddresses : NeZero (2 ^ 32 : Nat) := ⟨by decide⟩

/-- What ns-3 computes. -/
structure Ns3 (s : Selectors) : Type 1 where
  DataRate : Type
  /-- the constructor of a `DataRate` from a text -/
  dataRate : Str → Except Exc DataRate
  /-- whether the helper holds a root queue disc, as after `SetRootQueueDisc` -/
  hasRootQueueDisc : s.TrafficControlHelper → Bool
  /-- `TrafficControlHelper::Default` -/
  defaultTrafficControl : s.TrafficControlHelper
  /-- the address handed out after `n` others -/
  assignAddress : Nat → Ipv4Address

/-! ## The ns-3 state -/

/-- A device of a node; the point-to-point devices are numbered in the order of their creation. -/
inductive DeviceRef where
  | loopback
  | pointToPoint (id : Nat)
deriving DecidableEq

/-- An interface of the IPv4 stack of a node, with its one address. -/
structure Interface where
  device : DeviceRef
  address : Ipv4Address
deriving DecidableEq

structure Node where
  devices : List DeviceRef
  interfaces : List Interface
deriving DecidableEq

/-- A `PointToPointNetDevice`. -/
structure NetDevice {s : Selectors} (ns3 : Ns3 s) where
  nodeId : Int
  ifIndex : Nat
  dataRate : ns3.DataRate
  queue : s.ObjectFactory
  channel : Option Nat
  receiveErrorModel : Option s.ErrorModel
  rootQueueDisc : Option s.TrafficControlHelper

/-- A `PointToPointChannel` between two devices. -/
structure Channel where
  delayNs : Int
  deviceA : Nat
  deviceB : Nat
deriving DecidableEq

structure Network {s : Selectors} (ns3 : Ns3 s) where
  nodes : List Node
  netDevices : List (NetDevice ns3)
  channels : List Channel
  numAddresses : Nat

/-- 127.0.0.1. -/
def loopbackAddress : Ipv4Address := 2130706433

def Node.addDevice (node : Node) (device : DeviceRef) : Node :=
  { node with devices := node.devices ++ [device] }

def Node.addInterface (node : Node) (interface : Interface) : Node :=
  { node with interfaces := node.interfaces ++ [interface] }

namespace Network

variable {s : Selectors} {ns3 : Ns3 s}

/-- `NodeContainer::Get`. -/
def getNode (net : Network ns3) (nodeId : Int) : Except Exc Node :=
  if 0 ≤ nodeId then
    match net.nodes[nodeId.toNat]? with
    | some node => .ok node
    | none => .error (.undefined "node index out of range")
  else .error (.undefined "node index out of range")

def modifyDevice (net : Network ns3) (id : Nat) (f : NetDevice ns3 → NetDevice ns3) : Network ns3 :=
  { net with netDevices := net.netDevices.modify id f }

def modifyNode (net : Network ns3) (nodeId : Int) (f : Node → Node) : Network ns3 :=
  { net with nodes := net.nodes.modify nodeId.toNat f }

/-- Create a point-to-point device on a node, with its queue. -/
def addDevice (net : Network ns3) (nodeId : Int) (dataRate : ns3.DataRate) (queue : s.ObjectFactory) :
    Except Exc (Network ns3 × Nat) := do
  let node ← net.getNode nodeId
  let id := net.netDevices.length
  let device : NetDevice ns3 := ⟨nodeId, node.devices.length, dataRate, queue, none, none, none⟩
  let net := { net with netDevices := net.netDevices ++ [device] }
  .ok (net.modifyNode nodeId fun node => node.addDevice (.pointToPoint id), id)

/-- Attach both devices to a new channel. -/
def attach (net : Network ns3) (delayNs : Int) (devA devB : Nat) : Network ns3 :=
  let channel := net.channels.length
  let net : Network ns3 := { net with channels := net.channels ++ [⟨delayNs, devA, devB⟩] }
  let net := net.modifyDevice devA fun d => { d with channel := some channel }
  net.modifyDevice devB fun d => { d with channel := some channel }

/-- `PointToPointAbHelper::Install`. -/
def install (net : Network ns3) (dataRateA dataRateB : ns3.DataRate) (queueA queueB : s.ObjectFactory)
    (delayNs : Int) (a b : Int) : Except Exc (Network ns3 × Nat × Nat) := do
  let (net, devA) ← net.addDevice a dataRateA queueA
  let (net, devB) ← net.addDevice b dataRateB queueB
  .ok (net.attach delayNs devA devB, devA, devB)

def setReceiveErrorModel (net : Network ns3) (id : Nat) (model : s.ErrorModel) : Network ns3 :=
  net.modifyDevice id fun d => { d with receiveErrorModel := some model }

/-- `TrafficControlHelper::Install`. A helper without a root queue disc installs nothing; the others want a
    device that has none yet. -/
def installTrafficControl (net : Network ns3) (id : Nat) (helper : s.TrafficControlHelper) :
    Except Exc (Network ns3) :=
  match net.netDevices[id]? with
  | none => .error (.undefined "no such device")
  | some d =>
    if ns3.hasRootQueueDisc helper = false then .ok net
    else if d.rootQueueDisc.isSome = true then
      .error (.abort "A root queue disc is already installed on the device")
    else .ok (net.modifyDevice id fun d => { d with rootQueueDisc := some helper })

/-- `TrafficControlHelper::Uninstall`. -/
def uninstallTrafficControl (net : Network ns3) (id : Nat) : Network ns3 :=
  net.modifyDevice id fun d => { d with rootQueueDisc := none }

/-- `Ipv4AddressHelper::Assign` for one device: a new interface with the next address, and the default
    traffic control if the device has none. -/
def assignAddress (net : Network ns3) (id : Nat) : Except Exc (Network ns3) :=
  match net.netDevices[id]? with
  | none => .error (.undefined "no such device")
  | some d =>
    let interface : Interface := ⟨.pointToPoint id, ns3.assignAddress net.numAddresses⟩
    let net := net.modifyNode d.nodeId fun node => node.addInterface interface
    let net := { net with numAddresses := net.numAddresses + 1 }
    if d.rootQueueDisc.isSome = true then .ok net
    else net.installTrafficControl id ns3.defaultTrafficControl

/-- The interface index of a device. -/
def getIfIndex (net : Network ns3) (id : Nat) : Except Exc Nat :=
  match net.netDevices[id]? with
  | none => .error (.undefined "no such device")
  | some d => .ok d.ifIndex

/-- The device at the other end of the channel of a device. -/
def otherEnd (net : Network ns3) (id : Nat) : Option Nat := do
  let d ← net.netDevices[id]?
  let channel ← d.channel
  let c ← net.channels[channel]?
  some (if c.deviceA = id then c.deviceB else c.deviceA)

end Network

/-! ## `SetupNodes` and `SetupLinks` -/

/-- What `SetupLinks` leaves behind. -/
structure Links {s : Selectors} (ns3 : Ns3 s) where
  network : Network ns3
  interfaceIdxsForUndirectedEdges : List (Nat × Nat)
  netDevicesForUndirectedEdges : List (Nat × Nat)
  /-- keyed by `std::pair<uint32_t, uint32_t>` -/
  linkToSendingNetDevice : OrdMap Int64Pair Nat

/-- `map.at(key)`. -/
def mapAt {κ υ : Type} [LinearOrder κ] (m : OrdMap κ υ) (key : κ) : Except Exc υ :=
  match m.find? key with
  | some v => .ok v
  | none => .error (.outOfRange "map::at")

/-- Conversion of a `std::pair<int64_t, int64_t>` to a `std::pair<uint32_t, uint32_t>`. -/
def toUInt32Pair (p : Int64Pair) : Int64Pair := ⟨(toUInt32 p.first).toNat, (toUInt32 p.second).toNat⟩

section Setup

variable {s : Selectors} (ns3 : Ns3 s)

/-- The nodes, each with the loop-back that comes with the Internet stack. -/
def setupNodes (numNodes : Int) : Network ns3 where
  nodes := List.replicate numNodes.toNat ⟨[.loopback], [⟨.loopback, loopbackAddress⟩]⟩
  netDevices := []
  channels := []
  numAddresses := 0

variable {ns3}

/-- Set the receive error model on a device if there is one. -/
def setErrorModelIf (net : Network ns3) (id : Nat) (model : Bool × s.ErrorModel) : Network ns3 :=
  if model.1 then net.setReceiveErrorModel id model.2 else net

/-- Install the queueing discipline on a device if there is one. -/
def installQdiscIf (net : Network ns3) (id : Nat) (qdisc : Bool × s.TrafficControlHelper) :
    Except Exc (Network ns3) :=
  if qdisc.1 then net.installTrafficControl id qdisc.2 else .ok net

/-- Remove the default traffic control layer if undesired. -/
def uninstallQdiscUnless (net : Network ns3) (id : Nat) (qdisc : Bool × s.TrafficControlHelper) :
    Network ns3 :=
  if !qdisc.1 then net.uninstallTrafficControl id else net

/-- The text that a `DataRate` is made of. -/
def dataRateText (megabitPerS : Double) : Str := megabitPerS.toStr ++ "Mbps".toList

/-- The body of the loop of `SetupLinks`. -/
def setupLink (p : LinkProperties s) (links : Links ns3) (undirectedEdge : Int64Pair) :
    Except Exc (Links ns3) := do
  let linkAToB := undirectedEdge
  let linkBToA := undirectedEdge.swap
  -- point-to-point helper
  let dataRateA ← ns3.dataRate (dataRateText (← mapAt p.linkNetDeviceDataRateMegabitPerSMapping linkAToB))
  let dataRateB ← ns3.dataRate (dataRateText (← mapAt p.linkNetDeviceDataRateMegabitPerSMapping linkBToA))
  let queueA ← mapAt p.linkNetDeviceQueueMapping linkAToB
  let queueB ← mapAt p.linkNetDeviceQueueMapping linkBToA
  let delayNs ← mapAt p.linkChannelDelayNsMapping undirectedEdge
  let (net, netDeviceA, netDeviceB) ← links.network.install dataRateA dataRateB queueA queueB delayNs
    undirectedEdge.first undirectedEdge.second
  -- receiving error model
  let errorModelBToA ← mapAt p.linkNetDeviceReceiveErrorModelMapping linkBToA
  let net := setErrorModelIf net netDeviceA errorModelBToA
  let errorModelAToB ← mapAt p.linkNetDeviceReceiveErrorModelMapping linkAToB
  let net := setErrorModelIf net netDeviceB errorModelAToB
  -- traffic control queueing discipline
  let qdiscAToB ← mapAt p.linkInterfaceTrafficControlQdiscMapping linkAToB
  let qdiscBToA ← mapAt p.linkInterfaceTrafficControlQdiscMapping linkBToA
  let net ← installQdiscIf net netDeviceA qdiscAToB
  let net ← installQdiscIf net netDeviceB qdiscBToA
  -- addresses; this installs the default traffic control layer if there is none yet
  let net ← net.assignAddress netDeviceA
  let net ← net.assignAddress netDeviceB
  let net := uninstallQdiscUnless net netDeviceA qdiscAToB
  let net := uninstallQdiscUnless net netDeviceB qdiscBToA
  -- save to mapping
  let aIfIdx ← net.getIfIndex netDeviceA
  let bIfIdx ← net.getIfIndex netDeviceB
  .ok {
    network := net
    interfaceIdxsForUndirectedEdges := links.interfaceIdxsForUndirectedEdges ++ [(aIfIdx, bIfIdx)]
    netDevicesForUndirectedEdges := links.netDevicesForUndirectedEdges ++ [(netDeviceA, netDeviceB)]
    linkToSendingNetDevice :=
      (links.linkToSendingNetDevice.insert (toUInt32Pair linkAToB) netDeviceA).insert
        (toUInt32Pair linkBToA) netDeviceB }

def setupLinks (t : TopologyPtop) (p : LinkProperties s) (net : Network ns3) :
    Except Exc (Links ns3) :=
  t.undirectedEdges.foldlM (setupLink p) ⟨net, [], [], ∅⟩

def Links.getSendingNetDeviceForLink (links : Links ns3) (link : Int64Pair) : Except Exc Nat :=
  mapAt links.linkToSendingNetDevice (toUInt32Pair link)

end Setup

end BasicSim
