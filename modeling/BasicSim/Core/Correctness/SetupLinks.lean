import BasicSim.Core.Correctness.Double
import BasicSim.Core.Correctness.LinkProperties
import BasicSim.Core.DefaultSelectors
import BasicSim.Core.SetupLinks

/-!
# `Core.Correctness.SetupLinks` — every link reaches the right device

## Contents
- **One link.** `setupLink_eq` computes the body of the loop; nothing later unfolds it.
- **The invariant.** `Wired`: what the state holds after the edges `done`.
- **The loop.** `setupLinks_wired`, `Wired.of_setupLinks`.
- **Link properties.** `link_properties_reach_devices`.
- **Rates below half a bit/s.** `small_rates_are_lost`.
-/

namespace BasicSim

open Fallible

variable {s : Selectors} {ns3 : Ns3 s}

/-- The object of a selected pair, if it is selected. -/
def selected {α : Type} (p : Bool × α) : Option α := if p.1 then some p.2 else none

/-- What a helper installs on a device without a root queue disc. -/
def Ns3.installed (ns3 : Ns3 s) (helper : s.TrafficControlHelper) : Option s.TrafficControlHelper :=
  if ns3.hasRootQueueDisc helper then some helper else none

/-- The queueing discipline that the sending device of a link ends up with: without one that is selected none, and
    otherwise the selected one, or the default if the selected helper has none. -/
def Ns3.rootQueueDisc (ns3 : Ns3 s) (qdisc : Bool × s.TrafficControlHelper) : Option s.TrafficControlHelper :=
  if qdisc.1 then (ns3.installed qdisc.2).or (ns3.installed ns3.defaultTrafficControl) else none

theorem mapAt_eq_ok {κ υ : Type} [LinearOrder κ] {m : OrdMap κ υ} {key : κ} {v : υ} :
    mapAt m key = .ok v ↔ m.find? key = some v := by
  unfold mapAt
  cases m.find? key <;> simp

/-! ## One link -/

namespace Network

variable {nodes : List Node} {before after : List (NetDevice ns3)} {d : NetDevice ns3}
  {channels : List Channel} {k id : Nat}

theorem getNode_eq_ok {net : Network ns3} {nodeId : Int} {node : Node} :
    net.getNode nodeId = .ok node ↔ 0 ≤ nodeId ∧ net.nodes[nodeId.toNat]? = some node := by
  unfold getNode
  by_cases h : 0 ≤ nodeId
  · rw [if_pos h]
    cases net.nodes[nodeId.toNat]? <;> simp [h]
  · rw [if_neg h]
    simp [h]

theorem modify_at {α : Type} (f : α → α) (l : List α) (a : α) (r : List α) :
    (l ++ a :: r).modify l.length f = l ++ f a :: r := by
  induction l with
  | nil => rfl
  | cons b l ih => rw [List.cons_append, List.length_cons, List.modify_succ_cons, ih, List.cons_append]

theorem modifyDevice_at (h : id = before.length) (f : NetDevice ns3 → NetDevice ns3) :
    (⟨nodes, before ++ d :: after, channels, k⟩ : Network ns3).modifyDevice id f
      = ⟨nodes, before ++ f d :: after, channels, k⟩ := by
  subst h
  unfold modifyDevice
  rw [modify_at]

theorem getDevice_at (h : id = before.length) : (before ++ d :: after)[id]? = some d := by
  subst h
  simp

theorem setReceiveErrorModel_at (h : id = before.length) (hd : d.receiveErrorModel = none)
    (e : Bool × s.ErrorModel) :
    setErrorModelIf (⟨nodes, before ++ d :: after, channels, k⟩ : Network ns3) id e
      = ⟨nodes, before ++ { d with receiveErrorModel := selected e } :: after, channels, k⟩ := by
  unfold setErrorModelIf selected
  cases e.1 with
  | true => exact modifyDevice_at h _
  | false => cases d; cases hd; rfl

theorem installTrafficControl_at (h : id = before.length) (hd : d.rootQueueDisc = none)
    (helper : s.TrafficControlHelper) :
    (⟨nodes, before ++ d :: after, channels, k⟩ : Network ns3).installTrafficControl id helper
      = .ok ⟨nodes, before ++ { d with rootQueueDisc := ns3.installed helper } :: after, channels, k⟩ := by
  unfold installTrafficControl Ns3.installed
  have hnone : d.rootQueueDisc.isSome = false := by rw [hd]; rfl
  simp only [getDevice_at h, hnone, modifyDevice_at h]
  cases ns3.hasRootQueueDisc helper with
  | true => rfl
  | false => cases d; cases hd; rfl

theorem installQdiscIf_at (h : id = before.length) (hd : d.rootQueueDisc = none)
    (q : Bool × s.TrafficControlHelper) :
    installQdiscIf (⟨nodes, before ++ d :: after, channels, k⟩ : Network ns3) id q
      = .ok ⟨nodes, before ++ { d with rootQueueDisc := (selected q).bind ns3.installed } :: after, channels, k⟩ := by
  unfold installQdiscIf selected
  cases q.1 with
  | true => exact installTrafficControl_at h hd q.2
  | false => cases d; cases hd; rfl

/-- Assigning an address installs the default on a device without a queueing discipline. -/
theorem assignAddress_at (h : id = before.length) :
    (⟨nodes, before ++ d :: after, channels, k⟩ : Network ns3).assignAddress id
      = .ok ⟨nodes.modify d.nodeId.toNat fun node =>
            node.addInterface ⟨.pointToPoint id, ns3.assignAddress k⟩,
          before ++ { d with rootQueueDisc := d.rootQueueDisc.or (ns3.installed ns3.defaultTrafficControl) }
            :: after, channels, k + 1⟩ := by
  unfold assignAddress
  simp only [getDevice_at h]
  cases hq : d.rootQueueDisc with
  | some q => cases d; cases hq; rfl
  | none => exact installTrafficControl_at h hq _

theorem uninstallTrafficControl_at (h : id = before.length) (q : Bool × s.TrafficControlHelper)
    (hd : d.rootQueueDisc = ((selected q).bind ns3.installed).or (ns3.installed ns3.defaultTrafficControl)) :
    uninstallQdiscUnless (⟨nodes, before ++ d :: after, channels, k⟩ : Network ns3) id q
      = ⟨nodes, before ++ { d with rootQueueDisc := ns3.rootQueueDisc q } :: after, channels, k⟩ := by
  unfold uninstallQdiscUnless Ns3.rootQueueDisc
  unfold selected at hd
  cases hq : q.1 with
  | true => rw [hq] at hd; cases d; cases hd; rfl
  | false => exact modifyDevice_at h _

theorem getIfIndex_at (h : id = before.length) :
    (⟨nodes, before ++ d :: after, channels, k⟩ : Network ns3).getIfIndex id = .ok d.ifIndex := by
  unfold getIfIndex
  simp only [getDevice_at h]

/-- The two devices that installing a link creates, and their channel. -/
theorem install_eq {net : Network ns3} {dataRateA dataRateB : ns3.DataRate}
    {queueA queueB : s.ObjectFactory} {delayNs a b : Int} {nodeA nodeB : Node}
    (ha : net.getNode a = .ok nodeA) (hb : net.getNode b = .ok nodeB) (hab : a ≠ b) :
    net.install dataRateA dataRateB queueA queueB delayNs a b = .ok
      (⟨(net.nodes.modify a.toNat fun node =>
            node.addDevice (.pointToPoint net.netDevices.length)).modify b.toNat fun node =>
            node.addDevice (.pointToPoint (net.netDevices.length + 1)),
          net.netDevices ++ [⟨a, nodeA.devices.length, dataRateA, queueA, some net.channels.length,
              none, none⟩, ⟨b, nodeB.devices.length, dataRateB, queueB, some net.channels.length,
              none, none⟩],
          net.channels ++ [⟨delayNs, net.netDevices.length, net.netDevices.length + 1⟩],
          net.numAddresses⟩,
        net.netDevices.length, net.netDevices.length + 1) := by
  obtain ⟨ha0, hna⟩ := getNode_eq_ok.mp ha
  obtain ⟨hb0, hnb⟩ := getNode_eq_ok.mp hb
  have hne : a.toNat ≠ b.toNat := by omega
  -- the first device does not change the other node
  have hb' : (@Network.mk s ns3 (net.nodes.modify a.toNat fun node =>
        node.addDevice (.pointToPoint net.netDevices.length))
      (net.netDevices ++ [⟨a, nodeA.devices.length, dataRateA, queueA, none, none, none⟩])
      net.channels net.numAddresses).getNode b = .ok nodeB := by
    refine getNode_eq_ok.mpr ⟨hb0, ?_⟩
    show (net.nodes.modify a.toNat _)[b.toNat]? = _
    rw [List.getElem?_modify]
    simp only [if_neg hne, id_map', hnb]
  unfold install addDevice
  rw [ha, ok_bind, ok_bind]
  simp only [modifyNode]
  rw [hb', ok_bind]
  simp only [ok_bind, attach, List.length_append, List.length_singleton, List.append_assoc,
    List.singleton_append]
  rw [modifyDevice_at rfl]
  rw [show net.netDevices ++ ({ (⟨a, nodeA.devices.length, dataRateA, queueA, none, none, none⟩ :
      NetDevice ns3) with channel := some net.channels.length } ::
      [⟨b, nodeB.devices.length, dataRateB, queueB, none, none, none⟩]) =
    (net.netDevices ++ [⟨a, nodeA.devices.length, dataRateA, queueA, some net.channels.length, none,
      none⟩]) ++ [⟨b, nodeB.devices.length, dataRateB, queueB, none, none, none⟩] by simp]
  rw [modifyDevice_at (by simp)]
  simp

end Network

/-- The properties of one directed link. -/
structure LinkValue (s : Selectors) where
  dataRateMegabitPerS : Double
  queue : s.ObjectFactory
  receiveErrorModel : Bool × s.ErrorModel
  tcQdisc : Bool × s.TrafficControlHelper

/-- The mappings give the link these properties. -/
structure LinkProperties.HasValue (p : LinkProperties s) (link : Int64Pair) (v : LinkValue s) : Prop where
  dataRate : p.linkNetDeviceDataRateMegabitPerSMapping.find? link = some v.dataRateMegabitPerS
  queue : p.linkNetDeviceQueueMapping.find? link = some v.queue
  receiveErrorModel : p.linkNetDeviceReceiveErrorModelMapping.find? link = some v.receiveErrorModel
  tcQdisc : p.linkInterfaceTrafficControlQdiscMapping.find? link = some v.tcQdisc

/-- The device at the sending end of a link: it has the properties `v` of the link, except that it
    receives what is sent on the opposite link, whose properties are `w`. -/
def sendingDevice (link : Int64Pair) (ifIndex channel : Nat) (dataRate : ns3.DataRate)
    (v w : LinkValue s) : NetDevice ns3 where
  nodeId := link.first
  ifIndex := ifIndex
  dataRate := dataRate
  queue := v.queue
  channel := some channel
  receiveErrorModel := selected w.receiveErrorModel
  rootQueueDisc := ns3.rootQueueDisc v.tcQdisc

/-- The nodes after the devices `id` and `id + 1` were put on `a` and `b`. -/
def connectNodes (ns3 : Ns3 s) (nodes : List Node) (id addresses : Nat) (a b : Int) : List Node :=
  (((nodes.modify a.toNat fun node => node.addDevice (.pointToPoint id)).modify b.toNat
    fun node => node.addDevice (.pointToPoint (id + 1))).modify a.toNat
    fun node => node.addInterface ⟨.pointToPoint id, ns3.assignAddress addresses⟩).modify b.toNat
    fun node => node.addInterface ⟨.pointToPoint (id + 1), ns3.assignAddress (addresses + 1)⟩

/-- **What the loop of `SetupLinks` does for one edge.** -/
theorem setupLink_eq {p : LinkProperties s} {links : Links ns3} {e : Int64Pair} {v w : LinkValue s}
    {delayNs : Int} {dataRateA dataRateB : ns3.DataRate} {nodeA nodeB : Node} (hv : p.HasValue e v)
    (hw : p.HasValue e.swap w) (hdelay : p.linkChannelDelayNsMapping.find? e = some delayNs)
    (hra : ns3.dataRate (dataRateText v.dataRateMegabitPerS) = .ok dataRateA)
    (hrb : ns3.dataRate (dataRateText w.dataRateMegabitPerS) = .ok dataRateB)
    (ha : links.network.getNode e.first = .ok nodeA) (hb : links.network.getNode e.second = .ok nodeB)
    (hne : e.first ≠ e.second) :
    setupLink p links e = .ok {
      network := ⟨connectNodes ns3 links.network.nodes links.network.netDevices.length
          links.network.numAddresses e.first e.second,
        links.network.netDevices ++
          [sendingDevice e nodeA.devices.length links.network.channels.length dataRateA v w,
            sendingDevice e.swap nodeB.devices.length links.network.channels.length dataRateB w v],
        links.network.channels ++
          [⟨delayNs, links.network.netDevices.length, links.network.netDevices.length + 1⟩],
        links.network.numAddresses + 2⟩
      interfaceIdxsForUndirectedEdges :=
        links.interfaceIdxsForUndirectedEdges ++ [(nodeA.devices.length, nodeB.devices.length)]
      netDevicesForUndirectedEdges := links.netDevicesForUndirectedEdges ++
        [(links.network.netDevices.length, links.network.netDevices.length + 1)]
      linkToSendingNetDevice := (links.linkToSendingNetDevice.insert (toUInt32Pair e)
        links.network.netDevices.length).insert (toUInt32Pair e.swap)
        (links.network.netDevices.length + 1) } := by
  -- the two devices are the last two of the list; each step below changes one of them
  have hlen : ∀ x : NetDevice ns3, links.network.netDevices.length + 1
      = (links.network.netDevices ++ [x]).length := fun x => by simp
  have happ : ∀ x y : NetDevice ns3, links.network.netDevices ++ [x, y]
      = (links.network.netDevices ++ [x]) ++ [y] := fun x y => by simp
  unfold setupLink
  simp only [mapAt_eq_ok.mpr hv.dataRate, mapAt_eq_ok.mpr hv.queue, mapAt_eq_ok.mpr hv.tcQdisc,
    mapAt_eq_ok.mpr hv.receiveErrorModel, mapAt_eq_ok.mpr hw.dataRate, mapAt_eq_ok.mpr hw.queue,
    mapAt_eq_ok.mpr hw.tcQdisc, mapAt_eq_ok.mpr hw.receiveErrorModel, mapAt_eq_ok.mpr hdelay, hra, hrb,
    Network.install_eq ha hb hne, ok_bind]
  rw [Network.setReceiveErrorModel_at rfl rfl, happ, Network.setReceiveErrorModel_at (hlen _) rfl,
    ← happ, Network.installQdiscIf_at rfl rfl, ok_bind, happ,
    Network.installQdiscIf_at (hlen _) rfl, ok_bind, ← happ, Network.assignAddress_at rfl,
    ok_bind, happ, Network.assignAddress_at (hlen _), ok_bind, ← happ,
    Network.uninstallTrafficControl_at rfl v.tcQdisc rfl, happ,
    Network.uninstallTrafficControl_at (hlen _) w.tcQdisc rfl, ← happ, Network.getIfIndex_at rfl, ok_bind,
    happ, Network.getIfIndex_at (hlen _), ok_bind, ← happ]
  rfl

/-! ## The invariant -/

/-- A node with a new device, and the interface of the device. -/
def Node.connect (ns3 : Ns3 s) (node : Node) (id : Nat) : Node :=
  (node.addDevice (.pointToPoint id)).addInterface ⟨.pointToPoint id, ns3.assignAddress id⟩

theorem getElem?_connectNodes {nodes : List Node} {id : Nat} {a b : Int} (hab : a.toNat ≠ b.toNat)
    (x : Nat) :
    (connectNodes ns3 nodes id id a b)[x]? = (nodes[x]?).map fun node =>
      if x = a.toNat then node.connect ns3 id
      else if x = b.toNat then node.connect ns3 (id + 1) else node := by
  unfold connectNodes Node.connect
  simp only [List.getElem?_modify, eq_comm (b := x)]
  cases nodes[x]? with
  | none => rfl
  | some node =>
      by_cases ha : x = a.toNat
      · have hb : x ≠ b.toNat := fun h => hab (ha.symm.trans h)
        simp [ha, hab]
      · by_cases hb : x = b.toNat
        · simp [hb, Ne.symm hab]
        · simp [ha, hb]

theorem length_connectNodes {nodes : List Node} {id addresses : Nat} {a b : Int} :
    (connectNodes ns3 nodes id addresses a b).length = nodes.length := by
  unfold connectNodes
  simp only [List.length_modify]

/-- Edge `e` is set up as number `i`. -/
structure WiredLink (p : LinkProperties s) (links : Links ns3) (i : Nat) (e : Int64Pair) : Prop where
  device : ∃ v w dataRateA dataRateB delayNs ifA ifB, p.HasValue e v ∧ p.HasValue e.swap w ∧
    ns3.dataRate (dataRateText v.dataRateMegabitPerS) = .ok dataRateA ∧
    ns3.dataRate (dataRateText w.dataRateMegabitPerS) = .ok dataRateB ∧
    p.linkChannelDelayNsMapping.find? e = some delayNs ∧
    links.network.netDevices[2 * i]? = some (sendingDevice e ifA i dataRateA v w) ∧
    links.network.netDevices[2 * i + 1]? = some (sendingDevice e.swap ifB i dataRateB w v) ∧
    links.network.channels[i]? = some ⟨delayNs, 2 * i, 2 * i + 1⟩ ∧
    links.interfaceIdxsForUndirectedEdges[i]? = some (ifA, ifB)
  sending : links.linkToSendingNetDevice.find? (toUInt32Pair e) = some (2 * i)
  sendingBack : links.linkToSendingNetDevice.find? (toUInt32Pair e.swap) = some (2 * i + 1)

/-- What holds of a node: as many interfaces as devices, the loop-back first, and every other interface
    belongs to a device that knows its number. -/
structure NodeOk (net : Network ns3) (nodeId : Int) (node : Node) : Prop where
  length : node.devices.length = node.interfaces.length
  loopback : node.interfaces[0]? = some ⟨.loopback, loopbackAddress⟩
  interface : ∀ (k : Nat) (x : Interface), node.interfaces[k + 1]? = some x →
    ∃ (id : Nat) (d : NetDevice ns3), x = ⟨.pointToPoint id, ns3.assignAddress id⟩ ∧
      net.netDevices[id]? = some d ∧ d.nodeId = nodeId ∧ d.ifIndex = k + 1

/-- **The invariant of `SetupLinks`** after the edges `done`. -/
structure Wired (p : LinkProperties s) (n : Int) (links : Links ns3) (done : List Int64Pair) :
    Prop where
  numNodes : links.network.nodes.length = n.toNat
  numDevices : links.network.netDevices.length = 2 * done.length
  numChannels : links.network.channels.length = done.length
  numAddresses : links.network.numAddresses = 2 * done.length
  numIdxs : links.interfaceIdxsForUndirectedEdges.length = done.length
  link : ∀ i e, done[i]? = some e → WiredLink p links i e
  /-- every device has the interface that it knows the number of -/
  interface : ∀ (id : Nat) (d : NetDevice ns3), links.network.netDevices[id]? = some d →
    ∃ node : Node, links.network.getNode d.nodeId = .ok node ∧
      node.interfaces[d.ifIndex]? = some ⟨.pointToPoint id, ns3.assignAddress id⟩
  node : ∀ v node, links.network.getNode v = .ok node → NodeOk links.network v node
  keys : ∀ key ∈ links.linkToSendingNetDevice.keys,
    ∃ e ∈ done, key = toUInt32Pair e ∨ key = toUInt32Pair e.swap

/-- The ends of an edge are ascending nodes. -/
def InBounds (n : Int) (e : Int64Pair) : Prop := 0 ≤ e.first ∧ e.first < e.second ∧ e.second < n

theorem toUInt32Pair_of_bounds {n : Int} (hn : n < 2 ^ 31) {e : Int64Pair} (h : InBounds n e) :
    toUInt32Pair e = e ∧ toUInt32Pair e.swap = e.swap := by
  obtain ⟨h0, hlt, hsn⟩ := h
  have hfirst := toNat_toUInt32 h0 (by omega)
  have hsecond := toNat_toUInt32 (x := e.second) (by omega) (by omega)
  obtain ⟨a, b⟩ := e
  unfold toUInt32Pair Int64Pair.swap
  exact ⟨by rw [hfirst, hsecond], by rw [hfirst, hsecond]⟩

/-- The state before the first edge. -/
theorem wired_nil (p : LinkProperties s) (n : Int) :
    Wired p n (⟨setupNodes ns3 n, [], [], ∅⟩ : Links ns3) [] := by
  refine ⟨List.length_replicate, rfl, rfl, rfl, rfl, fun _ _ h => (nomatch h), fun _ _ h => (nomatch h),
    ?_, fun key hkey => absurd hkey (OrdMap.not_mem_keys_empty key)⟩
  intro v node hnode
  have hmem := List.mem_of_getElem? (Network.getNode_eq_ok.mp hnode).2
  rw [List.eq_of_mem_replicate hmem]
  exact ⟨rfl, rfl, fun k x h => nomatch h⟩

section Step

variable {p : LinkProperties s} {n : Int} {links : Links ns3} {done : List Int64Pair} {e : Int64Pair}

theorem getElem?_append_of_some {α : Type} {l r : List α} {j : Nat} {a : α} (h : l[j]? = some a) :
    (l ++ r)[j]? = some a := by
  rw [List.getElem?_append_left (List.getElem?_eq_some_iff.mp h).1, h]

/-- A link that is set up stays set up when devices, channels and indices are appended and the keys of
    another link are added. -/
theorem WiredLink.mono {links' : Links ns3} {i : Nat} (h : WiredLink p links i e)
    {devices : List (NetDevice ns3)} {channels : List Channel} {idxs : List (Nat × Nat)}
    (hd : links'.network.netDevices = links.network.netDevices ++ devices)
    (hc : links'.network.channels = links.network.channels ++ channels)
    (hi : links'.interfaceIdxsForUndirectedEdges = links.interfaceIdxsForUndirectedEdges ++ idxs)
    (hs : ∀ key id, links.linkToSendingNetDevice.find? key = some id →
      links'.linkToSendingNetDevice.find? key = some id) : WiredLink p links' i e := by
  obtain ⟨v, w, ra, rb, delay, ifA, ifB, hv, hw, hra, hrb, hdelay, hA, hB, hch, hidx⟩ := h.device
  refine ⟨⟨v, w, ra, rb, delay, ifA, ifB, hv, hw, hra, hrb, hdelay, ?_, ?_, ?_, ?_⟩,
    hs _ _ h.sending, hs _ _ h.sendingBack⟩
  · rw [hd]; exact getElem?_append_of_some hA
  · rw [hd]; exact getElem?_append_of_some hB
  · rw [hc]; exact getElem?_append_of_some hch
  · rw [hi]; exact getElem?_append_of_some hidx

theorem NodeOk.mono {net net' : Network ns3} {x : Int} {node : Node} (h : NodeOk net x node)
    {devices : List (NetDevice ns3)} (hd : net'.netDevices = net.netDevices ++ devices) :
    NodeOk net' x node := by
  refine ⟨h.length, h.loopback, ?_⟩
  intro k y hy
  obtain ⟨id, d, hx, hdev, hrest⟩ := h.interface k y hy
  exact ⟨id, d, hx, hd ▸ getElem?_append_of_some hdev, hrest⟩

/-- A node stays in order when it gets a device that was given the next number. -/
theorem NodeOk.connect {net net' : Network ns3} {x : Int} {node : Node} (h : NodeOk net x node)
    {devices : List (NetDevice ns3)} (hd : net'.netDevices = net.netDevices ++ devices) {id : Nat}
    {d : NetDevice ns3} (hid : net'.netDevices[id]? = some d) (hx : d.nodeId = x)
    (hif : d.ifIndex = node.devices.length) : NodeOk net' x (node.connect ns3 id) := by
  have hpos : 0 < node.interfaces.length := (List.getElem?_eq_some_iff.mp h.loopback).1
  refine ⟨?_, ?_, ?_⟩
  · show (node.devices ++ [_]).length = (node.interfaces ++ [_]).length
    simp [h.length]
  · exact getElem?_append_of_some h.loopback
  · intro k y hy
    have hy' : (node.interfaces ++ [⟨.pointToPoint id, ns3.assignAddress id⟩])[k + 1]? = some y := hy
    rcases Nat.lt_trichotomy (k + 1) node.interfaces.length with hk | hk | hk
    · rw [List.getElem?_append_left hk] at hy'
      exact (h.mono hd).interface k y hy'
    · rw [hk, List.getElem?_concat_length, Option.some.injEq] at hy'
      exact ⟨id, d, hy'.symm, hid, hx, by rw [hif, h.length, hk]⟩
    · rw [List.getElem?_eq_none (by simp; omega)] at hy'
      exact nomatch hy'

/-- The new interface has the number of the new device. -/
theorem NodeOk.interface_connect {net : Network ns3} {x : Int} {node : Node} (h : NodeOk net x node)
    {id : Nat} : (node.connect ns3 id).interfaces[node.devices.length]?
      = some ⟨.pointToPoint id, ns3.assignAddress id⟩ := by
  rw [h.length]
  exact List.getElem?_concat_length

/-- The nodes after an edge: its two ends have one more device. -/
theorem getNode_connectNodes {net net' : Network ns3} {id : Nat} {a b : Int} (ha : 0 ≤ a) (hb : 0 ≤ b)
    (hab : a ≠ b) (hnodes : net'.nodes = connectNodes ns3 net.nodes id id a b) {x : Int} {node : Node}
    (hnode : net.getNode x = .ok node) :
    net'.getNode x = .ok (if x = a then node.connect ns3 id
      else if x = b then node.connect ns3 (id + 1) else node) := by
  obtain ⟨hx, hat⟩ := Network.getNode_eq_ok.mp hnode
  refine Network.getNode_eq_ok.mpr ⟨hx, ?_⟩
  have hxa : x.toNat = a.toNat ↔ x = a := by omega
  have hxb : x.toNat = b.toNat ↔ x = b := by omega
  rw [hnodes, getElem?_connectNodes (by omega), hat]
  simp only [hxa, hxb, Option.map_some]

theorem exists_getNode_of_connectNodes {net net' : Network ns3} {id : Nat} {a b : Int}
    (hab : a.toNat ≠ b.toNat) (hnodes : net'.nodes = connectNodes ns3 net.nodes id id a b) {x : Int}
    {node' : Node} (hnode : net'.getNode x = .ok node') : ∃ node, net.getNode x = .ok node := by
  obtain ⟨hx, hat⟩ := Network.getNode_eq_ok.mp hnode
  rw [hnodes, getElem?_connectNodes hab] at hat
  obtain ⟨node, hnode, -⟩ := Option.map_eq_some_iff.mp hat
  exact ⟨node, Network.getNode_eq_ok.mpr ⟨hx, hnode⟩⟩

theorem swap_ne_of_inBounds {e' : Int64Pair} (h : InBounds n e) (h' : InBounds n e') :
    e.swap ≠ e' := fun heq => by
  have h1 : e.second = e'.first := congrArg Int64Pair.first heq
  have h2 : e.first = e'.second := congrArg Int64Pair.second heq
  unfold InBounds at h h'
  omega

/-- The keys of a new edge are new. -/
theorem Wired.keys_new (h : Wired p n links done) (hn : n < 2 ^ 31)
    (hbounds : ∀ e' ∈ done ++ [e], InBounds n e') (hnew : e ∉ done) :
    toUInt32Pair e ∉ links.linkToSendingNetDevice.keys ∧
      toUInt32Pair e.swap ∉ links.linkToSendingNetDevice.keys := by
  have he := hbounds e (by simp)
  obtain ⟨h1, h2⟩ := toUInt32Pair_of_bounds hn he
  rw [h1, h2]
  constructor <;> intro hkey
  all_goals
    obtain ⟨e', hmem, hkey⟩ := h.keys _ hkey
    have he' := hbounds e' (by simp [hmem])
    rw [(toUInt32Pair_of_bounds hn he').1, (toUInt32Pair_of_bounds hn he').2] at hkey
    rcases hkey with hkey | hkey
  · exact hnew (hkey ▸ hmem)
  · exact swap_ne_of_inBounds he' he hkey.symm
  · exact swap_ne_of_inBounds he he' hkey
  · have heq : e = e' := congrArg Int64Pair.swap hkey
    exact hnew (heq ▸ hmem)

/-- What an edge adds: two devices with their interfaces, a channel between them, and two keys. -/
structure AddsEdge (links links' : Links ns3) (e : Int64Pair) (devA devB : NetDevice ns3) (delayNs : Int) :
    Prop where
  nodes : links'.network.nodes = connectNodes ns3 links.network.nodes links.network.netDevices.length
    links.network.netDevices.length e.first e.second
  devices : links'.network.netDevices = links.network.netDevices ++ [devA, devB]
  channels : links'.network.channels = links.network.channels ++
    [⟨delayNs, links.network.netDevices.length, links.network.netDevices.length + 1⟩]
  numAddresses : links'.network.numAddresses = links.network.netDevices.length + 2
  idxs : links'.interfaceIdxsForUndirectedEdges =
    links.interfaceIdxsForUndirectedEdges ++ [(devA.ifIndex, devB.ifIndex)]
  sending : links'.linkToSendingNetDevice =
    (links.linkToSendingNetDevice.insert (toUInt32Pair e) links.network.netDevices.length).insert
      (toUInt32Pair e.swap) (links.network.netDevices.length + 1)

variable {links' : Links ns3} {devA devB : NetDevice ns3} {delayNs : Int}

theorem AddsEdge.deviceA (hadds : AddsEdge links links' e devA devB delayNs) :
    links'.network.netDevices[links.network.netDevices.length]? = some devA := by
  rw [hadds.devices, List.getElem?_append_right le_rfl, Nat.sub_self]
  rfl

theorem AddsEdge.deviceB (hadds : AddsEdge links links' e devA devB delayNs) :
    links'.network.netDevices[links.network.netDevices.length + 1]? = some devB := by
  rw [hadds.devices, List.getElem?_append_right (by omega), Nat.add_sub_cancel_left]
  rfl

/-- The keys of the edge are added, and no others change. -/
theorem AddsEdge.find? (hadds : AddsEdge links links' e devA devB delayNs)
    (hne : toUInt32Pair e.swap ≠ toUInt32Pair e)
    (hnew : toUInt32Pair e ∉ links.linkToSendingNetDevice.keys)
    (hnew' : toUInt32Pair e.swap ∉ links.linkToSendingNetDevice.keys) (key : Int64Pair) :
    links'.linkToSendingNetDevice.find? key =
      if key = toUInt32Pair e.swap then some (links.network.netDevices.length + 1)
      else if key = toUInt32Pair e then some links.network.netDevices.length
      else links.linkToSendingNetDevice.find? key := by
  have hnot : toUInt32Pair e.swap ∉
      (links.linkToSendingNetDevice.insert (toUInt32Pair e) links.network.netDevices.length).keys :=
    fun hmem => (OrdMap.mem_keys_insert.mp hmem).elim hne hnew'
  rw [hadds.sending, OrdMap.find?_insert_of_not_mem hnot, OrdMap.find?_insert_of_not_mem hnew]
  split_ifs <;> rfl

/-- The edges that were set up stay so, and the new one is. -/
theorem Wired.link_step (h : Wired p n links done) (hn : n < 2 ^ 31)
    (hbounds : ∀ e' ∈ done ++ [e], InBounds n e') (hnew : e ∉ done) {v w : LinkValue s}
    {dataRateA dataRateB : ns3.DataRate} {ifA ifB : Nat} (hv : p.HasValue e v) (hw : p.HasValue e.swap w)
    (hdelay : p.linkChannelDelayNsMapping.find? e = some delayNs)
    (hra : ns3.dataRate (dataRateText v.dataRateMegabitPerS) = .ok dataRateA)
    (hrb : ns3.dataRate (dataRateText w.dataRateMegabitPerS) = .ok dataRateB)
    (hadds : AddsEdge links links' e (sendingDevice e ifA done.length dataRateA v w)
      (sendingDevice e.swap ifB done.length dataRateB w v) delayNs) {i : Nat} {e' : Int64Pair}
    (hi : (done ++ [e])[i]? = some e') : WiredLink p links' i e' := by
  have he := hbounds e (by simp)
  obtain ⟨hkeyNew, hkeyNew'⟩ := h.keys_new hn hbounds hnew
  -- the two keys of the new edge are new and differ, so no earlier lookup changes
  have hkeyNe : toUInt32Pair e.swap ≠ toUInt32Pair e := by
    rw [(toUInt32Pair_of_bounds hn he).1, (toUInt32Pair_of_bounds hn he).2]
    exact swap_ne_of_inBounds he he
  have hfind := hadds.find? hkeyNe hkeyNew hkeyNew'
  rcases Nat.lt_trichotomy i done.length with hlt | heq | hgt
  · -- an edge that was there before
    rw [List.getElem?_append_left hlt] at hi
    refine (h.link i e' hi).mono hadds.devices hadds.channels hadds.idxs ?_
    intro key id hkey
    have hmem := OrdMap.find?_isSome.mp (Option.isSome_of_eq_some hkey)
    have hkne : key ≠ toUInt32Pair e := fun heq => hkeyNew (heq ▸ hmem)
    have hkne' : key ≠ toUInt32Pair e.swap := fun heq => hkeyNew' (heq ▸ hmem)
    rw [hfind, if_neg hkne', if_neg hkne, hkey]
  · -- the new edge
    subst heq
    rw [List.getElem?_concat_length, Option.some.injEq] at hi
    subst hi
    refine ⟨⟨v, w, dataRateA, dataRateB, delayNs, ifA, ifB, hv, hw, hra, hrb, hdelay,
      h.numDevices ▸ hadds.deviceA, h.numDevices ▸ hadds.deviceB, ?_, ?_⟩, ?_, ?_⟩
    · rw [hadds.channels, ← h.numChannels, List.getElem?_concat_length, h.numChannels, h.numDevices]
    · rw [hadds.idxs, ← h.numIdxs, List.getElem?_concat_length]
      rfl
    · rw [hfind, if_neg hkeyNe.symm, if_pos rfl, h.numDevices]
    · rw [hfind, if_pos rfl, h.numDevices]
  · rw [List.getElem?_eq_none (by simp; omega)] at hi
    cases hi

section Nodes

variable (h : Wired p n links done) (he : InBounds n e) {nodeA nodeB : Node}
  (ha : links.network.getNode e.first = .ok nodeA) (hb : links.network.getNode e.second = .ok nodeB)
  (hadds : AddsEdge links links' e devA devB delayNs) (hnodeA : devA.nodeId = e.first)
  (hnodeB : devB.nodeId = e.second) (hifA : devA.ifIndex = nodeA.devices.length)
  (hifB : devB.ifIndex = nodeB.devices.length)

include he hadds

theorem AddsEdge.getNode {x : Int} {node : Node} (hx : links.network.getNode x = .ok node) :
    links'.network.getNode x = .ok (if x = e.first then node.connect ns3 links.network.netDevices.length
      else if x = e.second then node.connect ns3 (links.network.netDevices.length + 1) else node) := by
  obtain ⟨h0, hlt, -⟩ := he
  exact getNode_connectNodes h0 (by omega) (by omega) hadds.nodes hx

include h ha hb hnodeA hnodeB hifA hifB

/-- Every device has its interface, also the two new ones. -/
theorem Wired.interface_step {id : Nat} {d : NetDevice ns3} (hid : links'.network.netDevices[id]? = some d) :
    ∃ node : Node, links'.network.getNode d.nodeId = .ok node ∧
      node.interfaces[d.ifIndex]? = some ⟨.pointToPoint id, ns3.assignAddress id⟩ := by
  have hne : e.second ≠ e.first := by
    unfold InBounds at he
    omega
  rcases Nat.lt_or_ge id links.network.netDevices.length with hlt | hge
  · -- a device that was there before: its node may have got another interface
    rw [hadds.devices, List.getElem?_append_left hlt] at hid
    obtain ⟨node, hx, hif⟩ := h.interface id d hid
    refine ⟨_, hadds.getNode he hx, ?_⟩
    split
    · exact getElem?_append_of_some hif
    · split
      · exact getElem?_append_of_some hif
      · exact hif
  · have hidLt := (List.getElem?_eq_some_iff.mp hid).1
    rw [hadds.devices, List.length_append, List.length_cons, List.length_singleton] at hidLt
    obtain rfl | rfl : id = links.network.netDevices.length ∨ id = links.network.netDevices.length + 1 := by
      omega
    · obtain rfl := Option.some.inj (hadds.deviceA.symm.trans hid)
      refine ⟨_, by rw [hnodeA]; exact hadds.getNode he ha, ?_⟩
      rw [if_pos rfl, hifA]
      exact (h.node _ _ ha).interface_connect
    · obtain rfl := Option.some.inj (hadds.deviceB.symm.trans hid)
      refine ⟨_, by rw [hnodeB]; exact hadds.getNode he hb, ?_⟩
      rw [if_neg hne, if_pos rfl, hifB]
      exact (h.node _ _ hb).interface_connect

/-- Every node stays in order, also the two ends of the edge. -/
theorem Wired.node_step {x : Int} {node' : Node} (hx' : links'.network.getNode x = .ok node') :
    NodeOk links'.network x node' := by
  have hab : e.first.toNat ≠ e.second.toNat := by
    unfold InBounds at he
    omega
  obtain ⟨node, hx⟩ := exists_getNode_of_connectNodes hab hadds.nodes hx'
  have hok := h.node x node hx
  obtain rfl := Except.ok.inj ((hadds.getNode he hx).symm.trans hx')
  split
  · next hxa =>
      subst hxa
      obtain rfl := Except.ok.inj (ha.symm.trans hx)
      exact hok.connect hadds.devices hadds.deviceA hnodeA hifA
  · split
    · next hxb =>
        subst hxb
        obtain rfl := Except.ok.inj (hb.symm.trans hx)
        exact hok.connect hadds.devices hadds.deviceB hnodeB hifB
    · exact hok.mono hadds.devices

end Nodes

theorem Wired.keys_step (h : Wired p n links done) (hadds : AddsEdge links links' e devA devB delayNs)
    {key : Int64Pair} (hkey : key ∈ links'.linkToSendingNetDevice.keys) :
    ∃ e' ∈ done ++ [e], key = toUInt32Pair e' ∨ key = toUInt32Pair e'.swap := by
  rw [hadds.sending, OrdMap.mem_keys_insert, OrdMap.mem_keys_insert] at hkey
  rcases hkey with rfl | rfl | hkey
  · exact ⟨e, by simp, .inr rfl⟩
  · exact ⟨e, by simp, .inl rfl⟩
  · obtain ⟨e', hmem, hkey⟩ := h.keys key hkey
    exact ⟨e', by simp [hmem], hkey⟩

theorem Wired.exists_getNode (h : Wired p n links done) {x : Int} (h0 : 0 ≤ x) (hx : x < n) :
    ∃ node, links.network.getNode x = .ok node := by
  have hlt : x.toNat < links.network.nodes.length := by
    rw [h.numNodes]
    omega
  exact ⟨links.network.nodes[x.toNat], Network.getNode_eq_ok.mpr ⟨h0, List.getElem?_eq_getElem hlt⟩⟩

/-- **Step lemma.** Setting up one more edge. -/
theorem Wired.step (h : Wired p n links done) (hn : n < 2 ^ 31)
    (hbounds : ∀ e' ∈ done ++ [e], InBounds n e') (hnew : e ∉ done) {v w : LinkValue s}
    {dataRateA dataRateB : ns3.DataRate} (hv : p.HasValue e v) (hw : p.HasValue e.swap w)
    (hdelay : p.linkChannelDelayNsMapping.find? e = some delayNs)
    (hra : ns3.dataRate (dataRateText v.dataRateMegabitPerS) = .ok dataRateA)
    (hrb : ns3.dataRate (dataRateText w.dataRateMegabitPerS) = .ok dataRateB) :
    ∃ links', setupLink p links e = .ok links' ∧ Wired p n links' (done ++ [e]) := by
  have he := hbounds e (by simp)
  obtain ⟨h0, hlt, hsn⟩ := hbounds e (by simp)
  obtain ⟨nodeA, ha⟩ := h.exists_getNode h0 (by omega)
  obtain ⟨nodeB, hb⟩ := h.exists_getNode (x := e.second) (by omega) hsn
  obtain ⟨links', hsetup, hadds⟩ : ∃ links', setupLink p links e = .ok links' ∧
      AddsEdge links links' e (sendingDevice e nodeA.devices.length done.length dataRateA v w)
        (sendingDevice e.swap nodeB.devices.length done.length dataRateB w v) delayNs := by
    have hsetup := setupLink_eq hv hw hdelay hra hrb ha hb (by omega)
    rw [h.numChannels, h.numAddresses, ← h.numDevices] at hsetup
    exact ⟨_, hsetup, rfl, rfl, rfl, rfl, rfl, rfl⟩
  refine ⟨links', hsetup, ?_⟩
  constructor
  case numNodes => rw [hadds.nodes, length_connectNodes, h.numNodes]
  case numDevices => rw [hadds.devices, List.length_append, h.numDevices]; simp; omega
  case numChannels => rw [hadds.channels]; simp [h.numChannels]
  case numAddresses => rw [hadds.numAddresses, h.numDevices]; simp; omega
  case numIdxs => rw [hadds.idxs]; simp [h.numIdxs]
  case link => exact fun i e' hi => h.link_step hn hbounds hnew hv hw hdelay hra hrb hadds hi
  case interface => exact fun id d hid => h.interface_step he ha hb hadds rfl rfl rfl rfl hid
  case node => exact fun x node hx => h.node_step he ha hb hadds rfl rfl rfl rfl hx
  case keys => exact fun key hkey => h.keys_step hadds hkey

end Step

/-! ## The loop -/

section Run

variable {t : TopologyPtop} {config : Config} {stod : Str → Except Exc (Double × Nat)}
  {p : LinkProperties s}

/-- A well-formed topology gives every link a value. -/
theorem LinkProperties.WellFormed.exists_hasValue (h : p.WellFormed t stod config) {link : Int64Pair}
    (hlink : link ∈ t.getLinks) : ∃ v, p.HasValue link v := by
  obtain ⟨_, _, hrate⟩ := h.dataRate
  obtain ⟨_, _, hqueue⟩ := h.queue
  obtain ⟨_, _, herror⟩ := h.receiveErrorModel
  obtain ⟨_, _, hqdisc⟩ := h.tcQdisc
  obtain ⟨_, hrate⟩ := hrate.exists_find? hlink
  obtain ⟨_, hqueue⟩ := hqueue.exists_find? hlink
  obtain ⟨_, herror⟩ := herror.exists_find? hlink
  obtain ⟨_, hqdisc⟩ := hqdisc.exists_find? hlink
  exact ⟨⟨_, _, _, _⟩, hrate, hqueue, herror, hqdisc⟩

/-- ns-3 does not accept the data rate of some link, and throws `err`. -/
def BadDataRate (ns3 : Ns3 s) (t : TopologyPtop) (p : LinkProperties s) (err : Exc) : Prop :=
  ∃ link ∈ t.getLinks, ∃ rate,
    p.linkNetDeviceDataRateMegabitPerSMapping.find? link = some rate ∧ ns3.dataRate (dataRateText rate) = .error err

/-- **Run lemma.** `SetupLinks` sets up all the links, or throws what `DataRate` throws. -/
theorem setupLinks_wired (ns3 : Ns3 s) (hwf : t.WellFormed) (hp : p.WellFormed t stod config) :
    (∃ links, setupLinks t p (setupNodes ns3 t.numNodes) = .ok links ∧
      Wired p t.numNodes links t.undirectedEdges) ∨
    ∃ err, setupLinks t p (setupNodes ns3 t.numNodes) = .error err ∧ BadDataRate ns3 t p err := by
  refine foldlM_either (fun done links => Wired p t.numNodes links done) (BadDataRate ns3 t p) ?_
    (wired_nil p t.numNodes)
  intro done e todo links hedges hwired
  have hmem : e ∈ t.undirectedEdges := by rw [hedges]; simp
  have hlink : e ∈ t.getLinks := TopologyPtop.mem_getLinks.mpr (.inl hmem)
  have hlink' : e.swap ∈ t.getLinks := TopologyPtop.mem_getLinks.mpr (.inr hmem)
  obtain ⟨v, hv⟩ := hp.exists_hasValue hlink
  obtain ⟨w, hw⟩ := hp.exists_hasValue hlink'
  obtain ⟨_, _, hdelays⟩ := hp.delay
  obtain ⟨delayNs, hdelay⟩ := hdelays.exists_find? hmem
  cases hra : ns3.dataRate (dataRateText v.dataRateMegabitPerS) with
  | error err =>
      refine .inr ⟨err, ?_, e, hlink, _, hv.dataRate, hra⟩
      unfold setupLink
      simp only [mapAt_eq_ok.mpr hv.dataRate, ok_bind, hra]
      rfl
  | ok dataRateA =>
      cases hrb : ns3.dataRate (dataRateText w.dataRateMegabitPerS) with
      | error err =>
          refine .inr ⟨err, ?_, e.swap, hlink', _, hw.dataRate, hrb⟩
          unfold setupLink
          simp only [mapAt_eq_ok.mpr hv.dataRate, mapAt_eq_ok.mpr hw.dataRate, ok_bind, hra, hrb]
          rfl
      | ok dataRateB =>
          have hnodup := hwf.edges_nodup
          rw [hedges, List.nodup_append] at hnodup
          refine .inl (hwired.step hwf.numNodes_lt (fun e' he' => hwf.edge_bounds e' ?_)
            (fun hdone => hnodup.2.2 e hdone e List.mem_cons_self rfl) hv hw hdelay hra hrb)
          rw [hedges, List.append_cons]
          exact List.mem_append_left _ he'

theorem Wired.of_setupLinks {ns3 : Ns3 s} {links : Links ns3} (hwf : t.WellFormed) (hp : p.WellFormed t stod config)
    (h : setupLinks t p (setupNodes ns3 t.numNodes) = .ok links) :
    Wired p t.numNodes links t.undirectedEdges := by
  rcases setupLinks_wired ns3 hwf hp with ⟨_, hok, hwired⟩ | ⟨_, hfail, _⟩
  · rwa [Except.ok.inj (h.symm.trans hok)]
  · exact nomatch hfail.symm.trans h

/-- What `SetupLinks` records for a link with the properties `v`: its sending device, and the device at
    the other end. -/
def ReachesDevices (links : Links ns3) (link : Int64Pair) (v : LinkValue s) (delayNs : Int) : Prop :=
  ∃ (id id' : Nat) (d d' : NetDevice ns3),
    links.getSendingNetDeviceForLink link = .ok id ∧
    links.network.netDevices[id]? = some d ∧
    links.network.otherEnd id = some id' ∧
    links.network.netDevices[id']? = some d' ∧
    -- the sending device
    d.nodeId = link.first ∧
    ns3.dataRate (dataRateText v.dataRateMegabitPerS) = .ok d.dataRate ∧
    d.queue = v.queue ∧
    d.rootQueueDisc = ns3.rootQueueDisc v.tcQdisc ∧
    -- the receiving device
    d'.nodeId = link.second ∧
    d'.receiveErrorModel = selected v.receiveErrorModel ∧
    -- the channel
    (∃ channel c, d.channel = some channel ∧ d'.channel = some channel ∧
      links.network.channels[channel]? = some c ∧ c.delayNs = delayNs)

/-- The devices of a link are the ends of its channel. -/
theorem WiredLink.otherEnd_first {links : Links ns3} {i : Nat} {e : Int64Pair}
    (h : WiredLink p links i e) : links.network.otherEnd (2 * i) = some (2 * i + 1) := by
  obtain ⟨_, _, _, _, _, _, _, -, -, -, -, -, hA, -, hch, -⟩ := h.device
  simp [Network.otherEnd, hA, sendingDevice, hch]

theorem WiredLink.otherEnd_second {links : Links ns3} {i : Nat} {e : Int64Pair}
    (h : WiredLink p links i e) : links.network.otherEnd (2 * i + 1) = some (2 * i) := by
  obtain ⟨_, _, _, _, _, _, _, -, -, -, -, -, -, hB, hch, -⟩ := h.device
  simp [Network.otherEnd, hB, sendingDevice, hch]

/-- The text that the data rate is made of shows the rate up to half a bit/s. -/
def ShowsBitPerS (rate : Double) : Prop :=
  ∀ q, rate = .finite q → ∃ text, dataRateText rate = text ++ "Mbps".toList ∧ ShowsMillionths q text

theorem LinkProperties.WellFormed.showsBitPerS (h : p.WellFormed t stod config) {link : Int64Pair} {v : LinkValue s}
    (hv : p.HasValue link v) : ShowsBitPerS v.dataRateMegabitPerS := by
  intro q hq
  obtain ⟨_, _, hrates⟩ := h.dataRate
  -- every rate was read as a positive number
  obtain ⟨_, htext⟩ := (hrates.values link v.dataRateMegabitPerS hv.dataRate).exists_text
  rw [hq] at htext ⊢
  exact ⟨_, rfl, Double.toStr_shows (parsePositiveDouble_nonneg htext)⟩

theorem WiredLink.reachesDevices {links : Links ns3} {i : Nat} {e : Int64Pair}
    (h : WiredLink p links i e) : ∃ v w delayNs, p.HasValue e v ∧ p.HasValue e.swap w ∧
      p.linkChannelDelayNsMapping.find? e = some delayNs ∧ ReachesDevices links e v delayNs ∧
      ReachesDevices links e.swap w delayNs := by
  obtain ⟨v, w, ra, rb, delayNs, ifA, ifB, hv, hw, hra, hrb, hdelay, hA, hB, hch, -⟩ := h.device
  exact ⟨v, w, delayNs, hv, hw, hdelay,
    ⟨_, _, _, _, mapAt_eq_ok.mpr h.sending, hA, h.otherEnd_first, hB, rfl, hra, rfl, rfl, rfl, rfl,
      _, _, rfl, rfl, hch, rfl⟩,
    ⟨_, _, _, _, mapAt_eq_ok.mpr h.sendingBack, hB, h.otherEnd_second, hA, rfl, hrb, rfl, rfl, rfl, rfl,
      _, _, rfl, rfl, hch, rfl⟩⟩

theorem Wired.exists_wiredLink {links : Links ns3} {n : Int} {done : List Int64Pair} {e : Int64Pair}
    (h : Wired p n links done) (he : e ∈ done) : ∃ i, done[i]? = some e ∧ WiredLink p links i e := by
  obtain ⟨i, hi⟩ := List.mem_iff_getElem?.mp he
  exact ⟨i, hi, h.link i e hi⟩

/-- Every link reaches its devices. -/
theorem Wired.reachesDevices {links : Links ns3} {n : Int} (h : Wired p n links t.undirectedEdges)
    {link : Int64Pair} (hlink : link ∈ t.getLinks) :
    ∃ v delayNs, p.HasValue link v ∧ ReachesDevices links link v delayNs ∧
      (p.linkChannelDelayNsMapping.find? link = some delayNs ∨
        p.linkChannelDelayNsMapping.find? link.swap = some delayNs) := by
  rcases TopologyPtop.mem_getLinks.mp hlink with he | he
  · obtain ⟨_, _, hi⟩ := h.exists_wiredLink he
    obtain ⟨v, w, delayNs, hv, _, hdelay, hd, _⟩ := hi.reachesDevices
    exact ⟨v, delayNs, hv, hd, .inl hdelay⟩
  · obtain ⟨_, _, hi⟩ := h.exists_wiredLink he
    obtain ⟨w, v, delayNs, _, hv, hdelay, _, hd⟩ := hi.reachesDevices
    exact ⟨v, delayNs, hv, hd, .inr hdelay⟩

end Run

/-! ## Link properties -/

/-- **The link properties are total and exact, and reach the right devices.** -/
theorem link_properties_reach_devices {config : Config} {all : Bool} {assignment : Option (List Int)}
    {t : TopologyPtop} (ht : parseTopologyGraph config all assignment = .ok t)
    {stod : Str → Except Exc (Double × Nat)} {p : LinkProperties s}
    (hp : parseTopologyLinkProperties t stod s config = .ok p) (ns3 : Ns3 s) :
    -- the key sets
    ((∀ k, k ∈ p.linkChannelDelayNsMapping.keys ↔ k ∈ t.undirectedEdges) ∧
      (∀ k, k ∈ p.linkNetDeviceDataRateMegabitPerSMapping.keys ↔
        k ∈ t.undirectedEdges ∨ k.swap ∈ t.undirectedEdges) ∧
      (∀ k, k ∈ p.linkNetDeviceQueueMapping.keys ↔
        k ∈ t.undirectedEdges ∨ k.swap ∈ t.undirectedEdges) ∧
      (∀ k, k ∈ p.linkNetDeviceReceiveErrorModelMapping.keys ↔
        k ∈ t.undirectedEdges ∨ k.swap ∈ t.undirectedEdges) ∧
      ∀ k, k ∈ p.linkInterfaceTrafficControlQdiscMapping.keys ↔
        k ∈ t.undirectedEdges ∨ k.swap ∈ t.undirectedEdges) ∧
    -- what the mappings hold
    p.WellFormed t stod config ∧
    -- when the edge maps are accepted
    ((∀ value, (∃ m, parseUndirectedEdgeMap t value = .ok m) ↔
        ∃ keyed, IsUndirectedEdgeMap t value keyed) ∧
      ∀ value, (∃ m, parseDirectedEdgeMap t value = .ok m) ↔
        ∃ keyed, IsDirectedEdgeMap t value keyed) ∧
    -- `SetupLinks` fails no lookup
    (∀ err, setupLinks t p (setupNodes ns3 t.numNodes) = .error err → BadDataRate ns3 t p err) ∧
    -- the devices
    ∀ links, setupLinks t p (setupNodes ns3 t.numNodes) = .ok links → ∀ link ∈ t.getLinks,
      ∃ v delayNs, p.HasValue link v ∧ ReachesDevices links link v delayNs ∧
        (p.linkChannelDelayNsMapping.find? link = some delayNs ∨
          p.linkChannelDelayNsMapping.find? link.swap = some delayNs) ∧
        ShowsBitPerS v.dataRateMegabitPerS := by
  have hwf := TopologyPtop.wellFormed_of_parse ht
  have hpwf := parseTopologyLinkProperties_wellFormed hwf hp
  have hlinkKeys {V : Type} {parameter : String} {parse : Str → Except Exc V}
      {m : OrdMap Int64Pair V} (h : IsLinkMapping t config parameter parse m) (k : Int64Pair) :
      k ∈ m.keys ↔ k ∈ t.undirectedEdges ∨ k.swap ∈ t.undirectedEdges := by
    obtain ⟨_, _, h⟩ := h
    exact (h.keys k).trans TopologyPtop.mem_getLinks
  refine ⟨⟨?_, hlinkKeys hpwf.dataRate, hlinkKeys hpwf.queue, hlinkKeys hpwf.receiveErrorModel,
    hlinkKeys hpwf.tcQdisc⟩, hpwf, ⟨?_, ?_⟩, ?_,
    ?_⟩
  · obtain ⟨_, _, hdelay⟩ := hpwf.delay
    exact hdelay.keys
  · intro value
    exact ⟨fun ⟨_, h⟩ => ((parseUndirectedEdgeMap_eq_ok hwf).mp h).imp fun _ hk => hk.1,
      fun ⟨keyed, h⟩ => ⟨_, (parseUndirectedEdgeMap_eq_ok hwf).mpr ⟨keyed, h, rfl⟩⟩⟩
  · intro value
    exact ⟨fun ⟨_, h⟩ => ((parseDirectedEdgeMap_eq_ok hwf).mp h).imp fun _ hk => hk.1,
      fun ⟨keyed, h⟩ => ⟨_, (parseDirectedEdgeMap_eq_ok hwf).mpr ⟨keyed, h, rfl⟩⟩⟩
  · intro err herr
    rcases setupLinks_wired ns3 hwf hpwf with ⟨_, hok, _⟩ | ⟨_, hfail, hbad⟩
    · exact nomatch hok.symm.trans herr
    · rwa [← Except.error.inj (hfail.symm.trans herr)]
  · intro links hlinks link hlink
    obtain ⟨v, delayNs, hv, hdevices, hdelay⟩ := (Wired.of_setupLinks hwf hpwf hlinks).reachesDevices hlink
    exact ⟨v, delayNs, hv, hdevices, hdelay, hpwf.showsBitPerS hv⟩

/-- `pairConfig` with link properties that differ by direction. -/
def pairLinkConfig : Config :=
  [("link_channel_delay_ns", "10000"),
    ("link_net_device_data_rate_megabit_per_s", "map(0->1: 10, 1->0: 25)"),
    ("link_net_device_queue", "map(1->0: q10, 0->1: q01)"),
    ("link_net_device_receive_error_model", "map(0->1: none, 1->0: lossy)"),
    ("link_interface_traffic_control_qdisc", "fq")].foldl
    (fun (config : Config) entry => config.insert entry.1.toList entry.2.toList) pairConfig

/-- Selectors that keep the text; `none` selects nothing. -/
def textSelectors : Selectors where
  ObjectFactory := Str
  ErrorModel := Str
  TrafficControlHelper := Str
  parseQueueValue value := .ok value
  parseReceiveErrorModelValue value := .ok (value != "none".toList, value)
  parseTcQdiscValue value := .ok (value != "none".toList, value)

instance : DecidableEq textSelectors.TrafficControlHelper := inferInstanceAs (DecidableEq Str)

/-- `std::stod` on the texts of integers. -/
def stodInteger (s : Str) : Except Exc (Double × Nat) :=
  (stoll s).map fun r => (.finite r.1, r.2)

/-- Addresses in networks of their own, two by two; every helper has a queueing discipline. -/
def textNs3 : Ns3 textSelectors where
  DataRate := Str
  dataRate := .ok
  hasRootQueueDisc _ := true
  defaultTrafficControl := "default".toList
  assignAddress n := Fin.ofNat _ (167772160 + 256 * (n / 2) + n % 2 + 1)

def pairLinkProperties : LinkProperties textSelectors where
  linkChannelDelayNsMapping := OrdMap.ofEntries [(⟨0, 1⟩, 10000)]
  linkNetDeviceDataRateMegabitPerSMapping :=
    OrdMap.ofEntries [(⟨0, 1⟩, .finite 10), (⟨1, 0⟩, .finite 25)]
  linkNetDeviceQueueMapping := OrdMap.ofEntries [(⟨0, 1⟩, "q01".toList), (⟨1, 0⟩, "q10".toList)]
  linkNetDeviceReceiveErrorModelMapping :=
    OrdMap.ofEntries [(⟨0, 1⟩, (false, "none".toList)), (⟨1, 0⟩, (true, "lossy".toList))]
  linkInterfaceTrafficControlQdiscMapping :=
    OrdMap.ofEntries [(⟨0, 1⟩, (true, "fq".toList)), (⟨1, 0⟩, (true, "fq".toList))]

theorem parseTopologyGraph_pairLinkConfig :
    parseTopologyGraph pairLinkConfig true none = .ok pairTopology := by decide

theorem parseTopologyLinkProperties_pairLinkConfig :
    parseTopologyLinkProperties pairTopology stodInteger textSelectors pairLinkConfig
      = .ok pairLinkProperties := by
  rfl

/-- The same properties for the default selectors. -/
def defaultLinkConfig : Config :=
  [("link_channel_delay_ns", "10000"),
    ("link_net_device_data_rate_megabit_per_s", "map(0->1: 10, 1->0: 25)"),
    ("link_net_device_queue", "map(1->0: drop_tail(50p), 0->1: drop_tail(100p))"),
    ("link_net_device_receive_error_model", "map(0->1: none, 1->0: iid_uniform_random_pkt(0))"),
    ("link_interface_traffic_control_qdisc", "map(0->1: default, 1->0: fifo(10p))")].foldl
    (fun (config : Config) entry => config.insert entry.1.toList entry.2.toList) pairConfig

/-- Objects that are known by their types. -/
def typedFactories : Ns3Factories where
  QueueSize := Str
  ObjectFactory := String
  TrafficControlHelper := Option String
  queueSize := .ok
  queueFactory typeId _ := .ok typeId
  trafficControlHelper := none
  setRootQueueDisc typeId _ := .ok (some typeId)

def typedNs3 : Ns3 (defaultSelectors typedFactories stodInteger) where
  DataRate := Str
  dataRate := .ok
  hasRootQueueDisc helper := Option.isSome (helper : Option String)
  defaultTrafficControl := some "ns3::FqCoDelQueueDisc"
  assignAddress n := Fin.ofNat _ (167772160 + 256 * (n / 2) + n % 2 + 1)

def defaultLinkProperties : LinkProperties (defaultSelectors typedFactories stodInteger) where
  linkChannelDelayNsMapping := OrdMap.ofEntries [(⟨0, 1⟩, 10000)]
  linkNetDeviceDataRateMegabitPerSMapping := OrdMap.ofEntries [(⟨0, 1⟩, .finite 10), (⟨1, 0⟩, .finite 25)]
  linkNetDeviceQueueMapping :=
    OrdMap.ofEntries [(⟨0, 1⟩, "ns3::DropTailQueue<Packet>"), (⟨1, 0⟩, "ns3::DropTailQueue<Packet>")]
  linkNetDeviceReceiveErrorModelMapping :=
    OrdMap.ofEntries [(⟨0, 1⟩, (false, none)), (⟨1, 0⟩, (true, some ⟨.packet, .finite 0⟩))]
  linkInterfaceTrafficControlQdiscMapping :=
    OrdMap.ofEntries [(⟨0, 1⟩, (true, none)), (⟨1, 0⟩, (true, some "ns3::FifoQueueDisc"))]

theorem parseTopologyGraph_defaultLinkConfig :
    parseTopologyGraph defaultLinkConfig true none = .ok pairTopology := by decide

theorem parseTopologyLinkProperties_defaultLinkConfig :
    parseTopologyLinkProperties pairTopology stodInteger (defaultSelectors typedFactories stodInteger)
      defaultLinkConfig = .ok defaultLinkProperties := by rfl

/-- The discipline of the first device is the default, and the one of the second is what was asked for. -/
theorem link_properties_reach_devices_pairTopology :
    ∃ links, setupLinks pairTopology defaultLinkProperties (setupNodes typedNs3 2) = .ok links ∧
      links.network.netDevices.map NetDevice.rootQueueDisc =
        [some (some "ns3::FqCoDelQueueDisc"), some (some "ns3::FifoQueueDisc")] ∧
      ∀ link ∈ pairTopology.getLinks, ∃ v delayNs, defaultLinkProperties.HasValue link v ∧
        ReachesDevices links link v delayNs ∧
        (defaultLinkProperties.linkChannelDelayNsMapping.find? link = some delayNs ∨
          defaultLinkProperties.linkChannelDelayNsMapping.find? link.swap = some delayNs) ∧
        ShowsBitPerS v.dataRateMegabitPerS :=
  ⟨_, rfl, rfl, (link_properties_reach_devices parseTopologyGraph_defaultLinkConfig
    parseTopologyLinkProperties_defaultLinkConfig typedNs3).2.2.2.2 _ rfl⟩

/-! ## Rates below half a bit/s -/

/-- `std::stod`, with one text that is not an integer. -/
def smallStod (s : Str) : Except Exc (Double × Nat) :=
  if s = "4e-7".toList then .ok (.ofRat (4 / 10 ^ 7), 4) else stodInteger s

def smallRateConfig : Config :=
  [("link_channel_delay_ns", "10000"),
    ("link_net_device_data_rate_megabit_per_s", "map(0->1: 4e-7, 1->0: 0)"),
    ("link_net_device_queue", "map(1->0: q10, 0->1: q01)"),
    ("link_net_device_receive_error_model", "map(0->1: none, 1->0: lossy)"),
    ("link_interface_traffic_control_qdisc", "fq")].foldl
    (fun (config : Config) entry => config.insert entry.1.toList entry.2.toList) pairConfig

def smallRateProperties : LinkProperties textSelectors :=
  { pairLinkProperties with
    linkNetDeviceDataRateMegabitPerSMapping :=
      OrdMap.ofEntries [(⟨0, 1⟩, .ofRat (4 / 10 ^ 7)), (⟨1, 0⟩, .finite 0)] }

theorem parseTopologyGraph_smallRateConfig :
    parseTopologyGraph smallRateConfig true none = .ok pairTopology := by decide

theorem parseTopologyLinkProperties_smallRateConfig :
    parseTopologyLinkProperties pairTopology smallStod textSelectors smallRateConfig = .ok smallRateProperties := by
  have hrates : parseLinkNetDeviceDataRateMegabitPerSecProperty pairTopology smallStod smallRateConfig
      = .ok smallRateProperties.linkNetDeviceDataRateMegabitPerSMapping := by decide +kernel
  unfold parseTopologyLinkProperties
  rw [hrates]
  rfl

theorem dataRateText_small : dataRateText (.ofRat (4 / 10 ^ 7)) = dataRateText (.finite 0) := by decide +kernel

/-- The devices of a link with 0.4 bit/s and of one with 0 bit/s have the same data rate, in every ns-3; so the data rate
    of a device does not tell the rate that its link is given. -/
theorem small_rates_are_lost :
    parseTopologyGraph smallRateConfig true none = .ok pairTopology ∧
    parseTopologyLinkProperties pairTopology smallStod textSelectors smallRateConfig = .ok smallRateProperties ∧
    (∃ links, setupLinks pairTopology smallRateProperties (setupNodes textNs3 2) = .ok links) ∧
    ∀ (ns3 : Ns3 textSelectors) links, setupLinks pairTopology smallRateProperties (setupNodes ns3 2) = .ok links →
      ¬ ∃ rateOf : ns3.DataRate → Double, ∀ link ∈ pairTopology.getLinks, ∀ id d,
        links.getSendingNetDeviceForLink link = .ok id → links.network.netDevices[id]? = some d →
        smallRateProperties.linkNetDeviceDataRateMegabitPerSMapping.find? link = some (rateOf d.dataRate) := by
  refine ⟨parseTopologyGraph_smallRateConfig, parseTopologyLinkProperties_smallRateConfig, ⟨_, rfl⟩, ?_⟩
  rintro ns3 links hlinks ⟨rateOf, hrateOf⟩
  have hwf := TopologyPtop.wellFormed_of_parse parseTopologyGraph_smallRateConfig
  have hpwf := parseTopologyLinkProperties_wellFormed hwf parseTopologyLinkProperties_smallRateConfig
  have hwired := Wired.of_setupLinks hwf hpwf hlinks
  -- a device has the data rate that ns-3 makes of the text
  have hdevice : ∀ link ∈ pairTopology.getLinks, ∃ rate dataRate,
      smallRateProperties.linkNetDeviceDataRateMegabitPerSMapping.find? link = some rate ∧
      ns3.dataRate (dataRateText rate) = .ok dataRate ∧ rate = rateOf dataRate := by
    intro link hlink
    obtain ⟨v, _, hv, ⟨id, _, d, _, hid, hd, -, -, -, hrate, -⟩, -⟩ := hwired.reachesDevices hlink
    exact ⟨_, _, hv.dataRate, hrate, Option.some.inj (hv.dataRate.symm.trans (hrateOf link hlink id d hid hd))⟩
  obtain ⟨_, rateA, hfindA, hrateA, hA⟩ := hdevice ⟨0, 1⟩ (by decide)
  obtain ⟨_, rateB, hfindB, hrateB, hB⟩ := hdevice ⟨1, 0⟩ (by decide)
  obtain rfl := Option.some.inj hfindA
  obtain rfl := Option.some.inj hfindB
  rw [dataRateText_small] at hrateA
  have hne : Double.ofRat (4 / 10 ^ 7) ≠ .finite 0 := by decide +kernel
  exact hne (hA.trans (by rw [← Except.ok.inj (hrateB.symm.trans hrateA), ← hB]))

end BasicSim
