import BasicSim.Core.BasicSimulation
import BasicSim.Core.NetDeviceUtilizationTracker
import BasicSim.Core.SetupLinks

/-!
# `Core.LinkTracking` — what is tracked on links (`helper/core/ptop-link-*-tracking.cc`)

The three trackings go through the same steps: unless the tracking is disabled, there is a tracker for each
link that it is enabled for and that starts at a node of this system. They are one loop with the creation of a
tracker as a parameter. What the trackers record, and the files that it is written to, are in `Core.QueueResults` and
`Core.UtilizationResults`.
-/

namespace BasicSim

open Fallible

/-! ## The loop over the links -/

section Loop

variable (sim : BasicSimulation) {Tracker : Type}

/-- The links of `..._enable_for_links`. -/
def enabledLinks (topology : TopologyPtop) (key : String) : Except Exc (OrdSet Int64Pair) :=
  let enableForLinksStr := getParamOrDefault key.toList "all".toList sim.config
  if enableForLinksStr = "all".toList then .ok topology.getLinksSet
  else parseSetDirectedPairPositiveInt64 enableForLinksStr

/-- Create the tracker of a link, if its first node is of this system. -/
def trackLink (createTracker : Int64Pair → Except Exc Tracker) (trackers : List (Int64Pair × Tracker))
    (p : Int64Pair) : Except Exc (List (Int64Pair × Tracker)) := do
  let responsible ← sim.isResponsibleFor p.first
  if responsible = true then do
    let tracker ← createTracker p
    .ok (trackers ++ [(p, tracker)])
  else .ok trackers

/-- `Enable it for links in the set`. -/
def trackLinks (createTracker : Int64Pair → Except Exc Tracker) (links : OrdSet Int64Pair) :
    Except Exc (List (Int64Pair × Tracker)) :=
  links.toList.foldlM (trackLink sim createTracker) []

end Loop

/-! ## The trackings -/

section Trackings

variable {s : Selectors} {ns3 : Ns3 s} (topology : TopologyPtop) (links : Links ns3)
  (sim : BasicSimulation)

/-- The device, and the tracker that is attached to it. -/
def ptopLinkNetDeviceUtilizationTracking :
    Except Exc (List (Int64Pair × Nat × NetDeviceUtilizationTracker)) := do
  let enabled ← parseBoolean
    (getParamOrDefault "enable_link_net_device_utilization_tracking".toList "false".toList sim.config)
  if enabled = false then .ok []
  else do
    let utilizationIntervalNs ← parseGeqOneInt64
      (← getParamOrFail "link_net_device_utilization_tracking_interval_ns".toList sim.config)
    let enableForLinksSet ← enabledLinks sim topology "link_net_device_utilization_tracking_enable_for_links"
    trackLinks sim (fun p => do
      let netDevice ← links.getSendingNetDeviceForLink p
      .ok (netDevice, NetDeviceUtilizationTracker.create utilizationIntervalNs)) enableForLinksSet

/-- The device whose queue is tracked. -/
def ptopLinkNetDeviceQueueTracking : Except Exc (List (Int64Pair × Nat)) := do
  let enabled ← parseBoolean
    (getParamOrDefault "enable_link_net_device_queue_tracking".toList "false".toList sim.config)
  if enabled = false then .ok []
  else do
    let enableForLinksSet ← enabledLinks sim topology "link_net_device_queue_tracking_enable_for_links"
    trackLinks sim links.getSendingNetDeviceForLink enableForLinksSet

/-- `GetRootQueueDiscOnDevice` of the sending device, which must have one. -/
def rootQueueDiscOf (p : Int64Pair) : Except Exc (Nat × s.TrafficControlHelper) := do
  let _ ← links.network.getNode p.first
  let netDevice ← links.getSendingNetDeviceForLink p
  match links.network.netDevices[netDevice]? with
  | none => .error (.undefined "no such device")
  | some d =>
    match d.rootQueueDisc with
    | some queueDisc => .ok (netDevice, queueDisc)
    | none => .error <| .invalidArgument <|
        "Cannot enable traffic-control qdisc queue tracking on an interface which does not have a qdisc ("
          ++ toString (toInt32 p.first) ++ " -> " ++ toString (toInt32 p.second) ++ ")."

/-- The device and the queueing discipline that is tracked. -/
def ptopLinkInterfaceTcQdiscQueueTracking :
    Except Exc (List (Int64Pair × Nat × s.TrafficControlHelper)) := do
  let enabled ← parseBoolean
    (getParamOrDefault "enable_link_interface_tc_qdisc_queue_tracking".toList "false".toList sim.config)
  if enabled = false then .ok []
  else do
    let enableForLinksSet ← enabledLinks sim topology
      "link_interface_tc_qdisc_queue_tracking_enable_for_links"
    trackLinks sim (rootQueueDiscOf links) enableForLinksSet

end Trackings

end BasicSim
