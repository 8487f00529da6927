import BasicSim.Core.Correctness.EcmpTables
import BasicSim.Core.Correctness.FiveTupleHash
import BasicSim.Core.Correctness.Ipv4ArbiterRouting
import BasicSim.Core.NetworkForwarding

/-!
# `Core.Correctness.NetworkForwarding` — the network delivers

The arbiters, the routing and the wiring together: a packet crosses the links of a shortest path and is delivered once,
by the node that has its destination.

## Contents
- **Addresses.** `UnicastAddresses`; only the owner of an address takes it for its own.
- **Arbiters.** `Installed`, what `InstallArbiters` gives to the nodes; `baseDecide_next` and `baseDecide_none`.
- **One node.** What its routing does with a packet: `handle_forwards`, `handle_delivers`, `handle_error`.
- **The way.** The hop distance is the rank of a place (`ranked`), so `network_forwarding_delivers`.
-/

namespace BasicSim

open Fallible RankedWalk ArbiterEcmp

variable {s : Selectors} {ns3 : Ns3 s}

/-! ## Addresses -/

/-- The addresses that are handed out are ordinary ones, too: the helper numbers subnets of 256 from 10.0.0.0 on, and
    hands out the first ones of each. -/
structure Ns3.UnicastAddresses (ns3 : Ns3 s) (n : Nat) : Prop extends ns3.AddressesOk n where
  not_multicast : ∀ i < n, (ns3.assignAddress i).isMulticast = false
  not_broadcast : ∀ i < n, (ns3.assignAddress i).val % 256 ≠ 255

theorem Node.IsBroadcast.last_byte {node : Node} {ip : Ipv4Address} (h : node.IsBroadcast ip) : ip.val % 256 = 255 := by
  rcases h with hall | ⟨⟨x, i⟩, -, rfl⟩
  · omega
  · unfold Ipv4Address.broadcast
    split
    · simp only [Fin.val_ofNat]
      omega
    · simp only [Fin.val_ofNat]
      omega

variable {t : TopologyPtop} {links : Links ns3} {p : LinkProperties s}

section Owner

variable {n : Int} {done : List Int64Pair} (hw : Wired p n links done)
  (haddr : ns3.UnicastAddresses (2 * done.length)) {v w : Int} {k : Nat} {ip : Ipv4Address} {node : Node}
  (hnode : links.network.getNode v = .ok node)

include hw haddr

theorem Wired.ordinary (hip : links.network.Owns w k ip) :
    ip.isMulticast = false ∧ ip.isLoopback = false ∧ ip.val % 256 ≠ 255 := by
  obtain ⟨id, -, hid, rfl, -⟩ := hw.owns hip
  exact ⟨haddr.not_multicast id hid, decide_eq_false (haddr.not_loopback id hid), haddr.not_broadcast id hid⟩

include hnode

/-- Only its owner takes an address for its own. -/
theorem Wired.isLocal_iff (hip : links.network.Owns w k ip) :
    node.HasAddress ip ∨ node.IsBroadcast ip ↔ v = w := by
  obtain ⟨-, hloop, hbyte⟩ := hw.ordinary haddr hip
  rw [or_iff_left fun h : node.IsBroadcast ip => hbyte h.last_byte]
  constructor
  · rintro ⟨x, hx, rfl⟩
    obtain ⟨i, hi⟩ := List.mem_iff_getElem?.mp hx
    cases i with
    | zero =>
        -- the loop-back has an address of its own
        obtain rfl := Option.some.inj (hi.symm.trans (hw.node v node hnode).loopback)
        exact absurd hloop (by decide)
    | succ i => exact (hw.owner_unique haddr.toAddressesOk ⟨node, x, hnode, hi, rfl⟩ hip).1
  · rintro rfl
    obtain ⟨node', x, hnode', hx, hxip⟩ := hip
    obtain rfl := Except.ok.inj (hnode.symm.trans hnode')
    exact ⟨x, List.mem_of_getElem? hx, hxip⟩

end Owner

/-! ## Arbiters -/

namespace NetworkForwarding

/-- The arbiters of the nodes, with the rows of the state that was calculated. -/
structure Installed (t : TopologyPtop) (links : Links ns3) (state : GlobalState) (arbiters : List EcmpArbiter) :
    Prop where
  length : (arbiters.length : Int) = t.numNodes
  arbiter : ∀ v ∈ upTo t.numNodes, ∃ arbiter, vectorAt arbiters v = .ok arbiter ∧
    vectorAt state v = .ok arbiter.candidateList ∧
    arbiter.toArbiter = Arbiter.create links.network v.toNat ∧ arbiter.nodeId = v ∧ arbiter.topology = t ∧
    arbiter.MapsNeighbors t links v

/-- What a loop over the nodes makes is at the places of the nodes. -/
theorem vectorAt_of_forall₂_upTo {β : Type} {R : Int → β → Prop} {n : Int} {r : List β}
    (h : List.Forall₂ R (upTo n) r) {v : Int} (hv : v ∈ upTo n) : ∃ b, vectorAt r v = .ok b ∧ R v b := by
  obtain ⟨h0, hlt⟩ := mem_upTo.mp hv
  have hlen := h.length_eq
  rw [length_upTo] at hlen
  have hget : (upTo n).get ⟨v.toNat, by rw [length_upTo]; omega⟩ = v := by
    simp [upTo, h0]
  refine ⟨r.get ⟨v.toNat, by omega⟩, vectorAt_eq_ok.mpr ⟨h0, List.getElem?_eq_getElem (by omega)⟩, ?_⟩
  have hR := List.Forall₂.get h (i := v.toNat) (by rw [length_upTo]; omega) (by omega)
  rwa [hget] at hR

theorem installArbiters_spec (hwf : t.WellFormed) (hw : Wired p t.numNodes links t.undirectedEdges)
    (haddr : ns3.AddressesOk (2 * t.undirectedEdges.length)) {state : GlobalState}
    (hstate : calculateGlobalState t = .ok state)
    (hrows : ∀ v ∈ upTo t.numNodes, ∃ row, vectorAt state v = .ok row) :
    ∃ arbiters, installArbiters t links = .ok arbiters ∧ Installed t links state arbiters := by
  obtain ⟨arbiters, hrun, hall⟩ := mapM_total (l := upTo t.numNodes)
    (f := fun i => do
      let candidateList ← vectorIndex state i
      EcmpArbiter.create t links i.toNat candidateList)
    (R := fun v arbiter => vectorAt state v = .ok arbiter.candidateList ∧
      arbiter.toArbiter = Arbiter.create links.network v.toNat ∧ arbiter.nodeId = v ∧ arbiter.topology = t ∧
      arbiter.MapsNeighbors t links v)
    (fun v hv => by
      obtain ⟨h0, hlt⟩ := mem_upTo.mp hv
      have hcast : (v.toNat : Int) = v := Int.toNat_of_nonneg h0
      obtain ⟨row, hrow⟩ := hrows v hv
      obtain ⟨arbiter, hcreate, hbase, hid, htop, hmaps⟩ :=
        ArbiterPtop.create_mapsNeighbors hwf hw haddr (show (v.toNat : Int) < t.numNodes by omega)
      rw [hcast] at hid hmaps
      refine ⟨⟨arbiter, row⟩, ?_, hrow, hbase, hid, htop, hmaps⟩
      have hindex : vectorIndex state v = .ok row := by
        rw [vectorIndex, (vectorAt_eq_ok.mp hrow).2]
      rw [hindex, ok_bind, EcmpArbiter.create, hcreate, ok_bind])
  refine ⟨arbiters, ?_, ?_, fun v hv => vectorAt_of_forall₂_upTo hall hv⟩
  · rw [installArbiters, hstate, ok_bind, hrun]
  · rw [← hall.length_eq, length_upTo]
    exact Int.toNat_of_nonneg hwf.numNodes_nonneg

/-- A packet from an address of node `source` to an address of node `target`, with the transport header that its
    protocol field promises. -/
structure Addressed (links : Links ns3) (pkt : EcmpPacket) (ipHeader : Ipv4Header) (source target : Int) : Prop where
  source : ∃ k, links.network.Owns source k ipHeader.source
  target : ∃ k, links.network.Owns target k ipHeader.destination
  not_request : ipHeader.source ≠ Arbiter.socketRequestSource
  ports : HasPorts pkt false

section Network

variable {state : GlobalState} {d : Int → Int → Int} {arbiters : List EcmpArbiter} {arbiter : EcmpArbiter}
  {stack : Ipv4Stack} {hash32 : List (BitVec 8) → BitVec 32} {pkt : EcmpPacket} {ipHeader : Ipv4Header}
  {source target v : Int} {node : Node}

theorem Addressed.request_eq (h : Addressed links pkt ipHeader source target) :
    (ipHeader.source == Arbiter.socketRequestSource) = false := beq_false_of_ne h.not_request

theorem Addressed.sourceNode (h : Addressed links pkt ipHeader source target) (v : Int) :
    SourceNode links v ipHeader source := by
  unfold SourceNode
  rw [if_neg h.not_request]
  exact h.source

variable (hash32 ipHeader) in
/-- The decision with the hash of the packet is the decision for some hash. -/
theorem exists_decideAt (hv : 0 ≤ v) (hports : HasPorts pkt false) (hrow : vectorAt state v = .ok arbiter.candidateList)
    (source target : Int) (neighbors : OrdSet Int) :
    ∃ hash, topologyPtopDecideByHash hash32 arbiter.candidateList v source target neighbors pkt ipHeader false
      = decideAt state v source target hash := by
  obtain ⟨buf, hbuf⟩ : ∃ buf, fiveTupleBuffer ipHeader pkt v false = .ok buf :=
    ⟨_, fiveTupleBuffer_eq_ok.mpr ⟨hv, hports, rfl⟩⟩
  refine ⟨hash32 buf, ?_⟩
  unfold topologyPtopDecideByHash computeFiveTupleHash decideAt
  rw [hbuf, ok_bind, ok_bind, hrow, ok_bind]

variable (hwf : t.WellFormed) (hw : Wired p t.numNodes links t.undirectedEdges)
  (haddr : ns3.UnicastAddresses (2 * t.undirectedEdges.length))

include hwf hw haddr

/-- `BaseDecide` hands the two nodes to the decision by hash. -/
theorem baseDecide_eq_decide (hpacket : Addressed links pkt ipHeader source target) (hv : v ∈ upTo t.numNodes)
    (hbase : arbiter.toArbiter = Arbiter.create links.network v.toNat) (hid : arbiter.nodeId = v) :
    arbiter.baseDecide hash32 pkt ipHeader = arbiter.toArbiterPtop.decide
      (topologyPtopDecideByHash hash32 arbiter.candidateList v) source target pkt ipHeader false := by
  obtain ⟨h0, hlt⟩ := mem_upTo.mp hv
  obtain ⟨k, hk⟩ := hpacket.target
  have hsource := hpacket.sourceNode v
  rw [← Int.toNat_of_nonneg h0] at hsource
  rw [EcmpArbiter.baseDecide, hid, hbase,
    Arbiter.baseDecide_eq hwf hw haddr.toAddressesOk (by omega) hsource hk, hpacket.request_eq]

variable (hd : DistanceTable t d)
  (hC : Candidates t.numNodes state fun c x y => x ∈ upTo t.numNodes ∧ Closer t d c x y)
  (hinst : Installed t links state arbiters) (hpacket : Addressed links pkt ipHeader source target)

include hd hC hinst hpacket

variable (hash32) in
/-- **Decision of one node.** On the way, the arbiter decides for an interface that leads to a node which is one hop
    closer. -/
theorem baseDecide_next (hv : v ∈ upTo t.numNodes) (hne : v ≠ target) (hreach : t.graph.Reachable v target) :
    ∃ arbiter b i hi, vectorAt arbiters v = .ok arbiter ∧
      arbiter.baseDecide hash32 pkt ipHeader = .ok (.outOf i hi) ∧ IsInterfaceTo links v b i ∧ NextHop t target v b := by
  obtain ⟨h0, hlt⟩ := mem_upTo.mp hv
  obtain ⟨arbiter, hat, hrow, hbase, hid, htop, hmaps⟩ := hinst.arbiter v hv
  obtain ⟨neighbors, hneighbors⟩ := hwf.exists_adjacencyList h0 hlt
  obtain ⟨k, hk⟩ := hpacket.target
  have ht := mem_upTo.mpr (hw.owner_bounds hk)
  obtain ⟨hash, hdecide⟩ := exists_decideAt hash32 ipHeader h0 hpacket.ports hrow source target neighbors
  obtain ⟨b, hb, hadj, hreach', hdist⟩ := decideAt_closer hwf hd hC hv ht hne hreach source hash
  -- the neighbour that is decided has an interface of the node
  obtain ⟨i, hi, hi0, hif⟩ := hmaps.neighbor b (hwf.isNeighbor_iff.mpr hadj)
  obtain ⟨hb0, hblt⟩ := hwf.adj_bounds hadj.symm
  refine ⟨arbiter, b, i, hi0, hat, ?_, hif, hadj, hreach', hdist⟩
  rw [baseDecide_eq_decide hwf hw haddr hpacket hv hbase hid]
  exact ArbiterPtop.decide_neighbor (by rw [htop, hid, hneighbors]) (hdecide.trans hb) hb0 (by rw [htop]; exact hblt) hi0 hi

variable (hash32) in
/-- At the target, and where it is out of reach, the arbiter throws. -/
theorem baseDecide_none (hnonneg : ∀ i j, 0 ≤ d i j) (hv : v ∈ upTo t.numNodes)
    (h : v = target ∨ ¬ t.graph.Reachable v target) :
    ∃ arbiter, vectorAt arbiters v = .ok arbiter ∧
      arbiter.baseDecide hash32 pkt ipHeader = .error (noCandidates v source target) := by
  obtain ⟨h0, hlt⟩ := mem_upTo.mp hv
  obtain ⟨arbiter, hat, hrow, hbase, hid, htop, -⟩ := hinst.arbiter v hv
  obtain ⟨neighbors, hneighbors⟩ := hwf.exists_adjacencyList h0 hlt
  obtain ⟨k, hk⟩ := hpacket.target
  have ht := mem_upTo.mpr (hw.owner_bounds hk)
  obtain ⟨hash, hdecide⟩ := exists_decideAt hash32 ipHeader h0 hpacket.ports hrow source target neighbors
  refine ⟨arbiter, hat, ?_⟩
  rw [baseDecide_eq_decide hwf hw haddr hpacket hv hbase hid]
  unfold ArbiterPtop.decide
  rw [htop, hid, hneighbors, ok_bind, hdecide, decideAt_none hwf hd hnonneg hC hv ht h, error_bind]

/-! ## One node -/

omit hwf hw haddr hd hC hinst hpacket

theorem getInterfaceForDevice_eq {x : Interface} (h : x ∈ node.interfaces) :
    ∃ (iif : Nat) (y : Interface), node.getInterfaceForDevice x.device = iif ∧ node.interfaces[iif]? = some y ∧
      y.device = x.device := by
  have hpos := Node.getInterfaceForDevice_nonneg h
  unfold Node.getInterfaceForDevice at hpos ⊢
  cases hfind : node.interfaces.findIdx? (fun interface => interface.device = x.device) with
  | none =>
      rw [hfind] at hpos
      exact absurd (by decide) hpos
  | some iif =>
      obtain ⟨hlt, heq, -⟩ := List.findIdx?_eq_some_iff_getElem.mp hfind
      exact ⟨iif, _, rfl, List.getElem?_eq_getElem hlt, of_decide_eq_true heq⟩

/-- The routing entry of a decision. -/
theorem routeOf_outOf {i : Nat} {hi : i ≠ 0} {x : Interface} (hx : node.interfaces[i]? = some x) (dest : Ipv4Address) :
    Ipv4ArbiterRouting.routeOf stack node dest (.outOf i hi)
      = .ok (some ⟨dest, stack.sourceAddressSelection node i dest, 0, x.device⟩) := by
  have hdevice : node.getNetDevice i = .ok x.device := by
    unfold Node.getNetDevice
    rw [hx]
  unfold Ipv4ArbiterRouting.routeOf
  rw [if_neg (show (ArbiterResult.outOf i hi).failed ≠ true from Bool.false_ne_true)]
  show (do let outputDevice ← node.getNetDevice i; _) = _
  rw [hdevice]
  rfl

/-- `RouteOutput` is the lookup. -/
theorem routeOutput_eq {baseDecide : Ipv4Header → Except Exc ArbiterResult}
    (hmc : ipHeader.destination.isMulticast = false) (hloop : ipHeader.destination.isLoopback = false) :
    Ipv4ArbiterRouting.routeOutput stack node baseDecide ipHeader false = ([.baseDecide], do
      Ipv4ArbiterRouting.routeOf stack node ipHeader.destination (← baseDecide ipHeader)) := by
  unfold Ipv4ArbiterRouting.routeOutput
  rw [if_neg (by rw [hmc]; decide)]
  exact Ipv4ArbiterRouting.lookupArbiter_eq hmc hloop

/-- The packet crosses the link to a neighbour: it leaves over the sending device of the link, and arrives over the
    device at its other end. -/
structure Crossed (t : TopologyPtop) (links : Links ns3) (a b : Place) : Prop where
  adj : t.graph.Adj a.nodeId b.nodeId
  link : ∃ id id', links.getSendingNetDeviceForLink ⟨a.nodeId, b.nodeId⟩ = .ok id ∧
    links.network.otherEnd id = some id' ∧ b = .arrived b.nodeId id'

/-- The packet is delivered over the interface of the device that it arrived over. -/
def DeliveredOver (links : Links ns3) (target : Int) (place : Place) (fate : Fate) : Prop :=
  ∃ id iif node x, place = .arrived target id ∧ fate = .delivered target iif ∧
    links.network.getNode target = .ok node ∧ node.interfaces[iif]? = some x ∧ x.device = .pointToPoint id

/-- A place of the way: the source, or a node with a device to arrive over. -/
def OnTheWay (links : Links ns3) (source : Int) : Place → Prop
  | .source v => v = source
  | .arrived v id => ∃ dev, links.network.netDevices[id]? = some dev ∧ dev.nodeId = v

/-- What leaves over the device of an interface arrives at the other end of the link. -/
theorem sendOver_eq {a b : Int} {i : Nat} {x : Interface} (hif : IsInterfaceTo links a b i)
    (hnode : links.network.getNode a = .ok node) (hx : node.interfaces[i]? = some x) (route : Ipv4Route)
    (hroute : route.outputDevice = x.device) :
    ∃ id id' dev', links.getSendingNetDeviceForLink ⟨a, b⟩ = .ok id ∧ links.network.otherEnd id = some id' ∧
      links.network.netDevices[id']? = some dev' ∧ dev'.nodeId = b ∧
      sendOver links.network route = .ok (.move (.arrived b id')) := by
  obtain ⟨node', id, id', dev, dev', hnode', hx', hsend, -, -, hother, hdev', rfl⟩ := hif
  obtain rfl := Except.ok.inj (hnode.symm.trans hnode')
  obtain rfl := Option.some.inj (hx.symm.trans hx')
  refine ⟨id, id', dev', hsend, hother, hdev', rfl, ?_⟩
  have hcross : crossing links.network id = some (.arrived dev'.nodeId id') := by
    simp only [crossing, hother, hdev', Option.bind_eq_bind, Option.bind_some]
  simp only [sendOver, hroute, hcross]

/-- A device on the way belongs to an interface of its node. -/
theorem exists_interface_of_onTheWay {n : Int} {done : List Int64Pair} (hw : Wired p n links done) {id : Nat}
    (h : OnTheWay links source (.arrived v id)) (hnode : links.network.getNode v = .ok node) :
    ∃ x ∈ node.interfaces, x.device = .pointToPoint id := by
  obtain ⟨dev, hdev, rfl⟩ := h
  obtain ⟨node', hnode', hx⟩ := hw.interface id dev hdev
  obtain rfl := Except.ok.inj (hnode.symm.trans hnode')
  exact ⟨_, List.mem_of_getElem? hx, rfl⟩

theorem handle_source (hnode : links.network.getNode v = .ok node) (hat : vectorAt arbiters v = .ok arbiter) :
    handle links stack hash32 arbiters pkt ipHeader (.source v) = afterRouteOutput links v
      (Ipv4ArbiterRouting.routeOutput stack node (arbiter.baseDecide hash32 pkt) ipHeader false).2 := by
  unfold handle
  rw [show Place.nodeId (.source v) = v from rfl, hnode, ok_bind, hat, ok_bind]

theorem handle_arrived (hnode : links.network.getNode v = .ok node) (hat : vectorAt arbiters v = .ok arbiter) (id : Nat) :
    handle links stack hash32 arbiters pkt ipHeader (.arrived v id) = afterRouteInput links v
      (Ipv4ArbiterRouting.routeInput stack node (arbiter.baseDecide hash32 pkt) ipHeader (.pointToPoint id)) := by
  unfold handle
  rw [show Place.nodeId (.arrived v id) = v from rfl, hnode, ok_bind, hat, ok_bind]

include hw haddr hinst hpacket

/-- The target delivers. -/
theorem handle_delivers (hstack : stack.Documented) {id : Nat} (hplace : OnTheWay links source (.arrived target id)) :
    ∃ fate, handle links stack hash32 arbiters pkt ipHeader (.arrived target id) = .ok (.settle fate) ∧
      DeliveredOver links target (.arrived target id) fate := by
  obtain ⟨k, hk⟩ := hpacket.target
  obtain ⟨h0, hlt⟩ := hw.owner_bounds hk
  obtain ⟨node, hnode⟩ := hw.exists_getNode h0 hlt
  obtain ⟨arbiter, hat, -⟩ := hinst.arbiter target (mem_upTo.mpr ⟨h0, hlt⟩)
  obtain ⟨x, hx, hdevice⟩ := exists_interface_of_onTheWay hw hplace hnode
  obtain ⟨iif, y, hiif, hy, hydev⟩ := getInterfaceForDevice_eq hx
  obtain ⟨hmc, -, -⟩ := hw.ordinary haddr hk
  refine ⟨.delivered target iif, ?_, id, iif, node, y, rfl, rfl, hnode, hy, hydev.trans hdevice⟩
  rw [handle_arrived hnode hat, ← hdevice, Ipv4ArbiterRouting.routeInput_local (Node.getInterfaceForDevice_nonneg hx)
    hstack hmc ((hw.isLocal_iff haddr hnode hk).mpr rfl), hiif]
  rfl

include hwf hd hC

/-- A node on the way sends the packet over a link, one hop closer. -/
theorem handle_forwards (hstack : stack.Documented) {place : Place} (hplace : OnTheWay links source place)
    (hv : place.nodeId ∈ upTo t.numNodes) (hne : place.nodeId ≠ target)
    (hreach : t.graph.Reachable place.nodeId target) :
    ∃ place', handle links stack hash32 arbiters pkt ipHeader place = .ok (.move place') ∧
      Crossed t links place place' ∧ OnTheWay links source place' ∧
      NextHop t target place.nodeId place'.nodeId := by
  obtain ⟨h0, hlt⟩ := mem_upTo.mp hv
  obtain ⟨k, hk⟩ := hpacket.target
  obtain ⟨hmc, hloop, -⟩ := hw.ordinary haddr hk
  obtain ⟨node, hnode⟩ := hw.exists_getNode h0 hlt
  obtain ⟨arbiter, b, i, hi, hat, hdecide, hif, hnext⟩ :=
    baseDecide_next hash32 hwf hw haddr hd hC hinst hpacket hv hne hreach
  obtain ⟨x, hx⟩ : ∃ x, node.interfaces[i]? = some x := by
    obtain ⟨node', id, -, -, -, hnode', hx, -⟩ := hif
    obtain rfl := Except.ok.inj (hnode.symm.trans hnode')
    exact ⟨_, hx⟩
  -- whichever call it is, the route goes out of the interface that was decided
  obtain ⟨id, id', dev', hsend, hother, hdev', hb, hover⟩ := sendOver_eq hif hnode hx
    ⟨ipHeader.destination, stack.sourceAddressSelection node i ipHeader.destination, 0, x.device⟩ rfl
  refine ⟨.arrived b id', ?_, ⟨hnext.1, id, id', hsend, hother, rfl⟩, ⟨dev', hdev', hb⟩, hnext⟩
  cases place with
  | source v =>
      rw [handle_source (v := v) hnode hat, routeOutput_eq hmc hloop, hdecide, ok_bind, routeOf_outOf hx]
      exact hover
  | arrived v id₀ =>
      obtain ⟨y, hy, hdevice⟩ := exists_interface_of_onTheWay hw hplace hnode
      have hlocal := mt (hw.isLocal_iff haddr hnode hk).mp hne
      rw [handle_arrived (v := v) hnode hat, ← hdevice, Ipv4ArbiterRouting.routeInput_outOf
        (Node.getInterfaceForDevice_nonneg hy) hstack hmc hlocal hloop hdecide hx]
      exact hover

/-- A source that is the target, or cannot reach it, throws. -/
theorem handle_error (hnonneg : ∀ i j, 0 ≤ d i j) (h : source = target ∨ ¬ t.graph.Reachable source target) :
    handle links stack hash32 arbiters pkt ipHeader (.source source) = .error (noCandidates source source target) := by
  obtain ⟨k', hk'⟩ := hpacket.source
  obtain ⟨h0, hlt⟩ := hw.owner_bounds hk'
  obtain ⟨k, hk⟩ := hpacket.target
  obtain ⟨hmc, hloop, -⟩ := hw.ordinary haddr hk
  obtain ⟨node, hnode⟩ := hw.exists_getNode h0 hlt
  obtain ⟨arbiter, hat, hdecide⟩ := baseDecide_none hash32 hwf hw haddr hd hC hinst hpacket hnonneg
    (mem_upTo.mpr ⟨h0, hlt⟩) h
  rw [handle_source hnode hat, routeOutput_eq hmc hloop, hdecide]
  rfl

/-! ## The way -/

omit hwf hw haddr hd hC hinst hpacket

/-- The hop distance to the target is the rank of a place. -/
structure Distance (t : TopologyPtop) (links : Links ns3) (source target : Int) (k : Nat) (place : Place) : Prop where
  onTheWay : OnTheWay links source place
  node : place.nodeId ∈ upTo t.numNodes
  reachable : t.graph.Reachable place.nodeId target
  dist : t.graph.dist place.nodeId target = k

include hwf hw haddr hd hC hinst hpacket

theorem ranked (hstack : stack.Documented) (hne : source ≠ target) :
    Ranked (handle links stack hash32 arbiters pkt ipHeader) (Distance t links source target) (Crossed t links)
      (DeliveredOver links target) := by
  constructor
  · intro place h
    have heq : place.nodeId = target := h.reachable.dist_eq_zero_iff.mp h.dist
    cases place with
    | source v => exact absurd (Eq.trans (Eq.symm h.onTheWay) heq) hne
    | arrived v id =>
        obtain rfl : v = target := heq
        exact handle_delivers hw haddr hinst hpacket hstack h.onTheWay
  · intro k place h
    have hne' : place.nodeId ≠ target := by
      intro heq
      have := h.dist
      rw [heq, SimpleGraph.dist_self] at this
      omega
    obtain ⟨place', hmove, hcrossed, hplace', hadj, hreach, hdist⟩ :=
      handle_forwards hwf hw haddr hd hC hinst hpacket hstack h.onTheWay h.node hne' h.reachable
    have hk := h.dist
    exact ⟨place', hmove, hcrossed, hplace', adj_mem_upTo hwf hadj.symm, hreach, by omega⟩

end Network

/-- The way depends on the flow of the packet only. -/
theorem travel_congr {hash32 : List (BitVec 8) → BitVec 32} {arbiters : List EcmpArbiter} {stack : Ipv4Stack}
    {pkt pkt' : EcmpPacket} {ipHeader : Ipv4Header} (h : SameFlow ⟨pkt, ipHeader⟩ ⟨pkt', ipHeader⟩) :
    travel links stack hash32 arbiters pkt ipHeader = travel links stack hash32 arbiters pkt' ipHeader := by
  have hhandle : handle links stack hash32 arbiters pkt ipHeader = handle links stack hash32 arbiters pkt' ipHeader := by
    funext place
    unfold handle Ipv4ArbiterRouting.routeOutput Ipv4ArbiterRouting.routeInput Ipv4ArbiterRouting.lookupArbiter
    simp only [h.baseDecide_eq]
  unfold travel
  rw [hhandle]

/-- What becomes of the packets from `source` to an address of `target`, by their time to live. -/
structure Forwards (t : TopologyPtop) (links : Links ns3) (way : Nat → List Place × Except Exc (Option Fate))
    (source target : Int) : Prop where
  /-- the packet crosses the links of a shortest path, is at no node twice, and the target delivers it -/
  arrives : t.graph.Reachable source target → source ≠ target → ∀ timeToLive,
    t.graph.dist source target ≤ timeToLive → ∃ places last fate, way timeToLive = (places, .ok (some fate)) ∧
      places.length = t.graph.dist source target + 1 ∧ places.head? = some (.source source) ∧
      places.getLast? = some last ∧ places.IsChain (Crossed t links) ∧ (places.map Place.nodeId).Nodup ∧
      DeliveredOver links target last fate
  /-- with a shorter time to live, it is dropped where the time is up -/
  expires : t.graph.Reachable source target → source ≠ target → ∀ timeToLive,
    timeToLive < t.graph.dist source target → ∃ places, way timeToLive = (places, .ok none) ∧
      places.length = timeToLive + 1 ∧ places.head? = some (.source source) ∧
      places.IsChain (Crossed t links) ∧ (places.map Place.nodeId).Nodup
  /-- nothing is sent to the node itself, nor to a node out of reach -/
  throws : source = target ∨ ¬ t.graph.Reachable source target → ∀ timeToLive,
    way timeToLive = ([.source source], .error (noCandidates source source target))

/-- **The network delivers**, whatever the hash is. -/
theorem network_forwarding_delivers {config : Config} {all : Bool} {assignment : Option (List Int)}
    (ht : parseTopologyGraph config all assignment = .ok t) (hn : t.numNodes ≤ 40000)
    {stod : Str → Except Exc (Double × Nat)} (hp : parseTopologyLinkProperties t stod s config = .ok p)
    (hlinks : setupLinks t p (setupNodes ns3 t.numNodes) = .ok links)
    (haddr : ns3.UnicastAddresses (2 * t.undirectedEdges.length)) {stack : Ipv4Stack} (hstack : stack.Documented) :
    ∃ arbiters, installArbiters t links = .ok arbiters ∧
      ∀ hash32 pkt ipHeader source target, Addressed links pkt ipHeader source target →
        Forwards t links (fun timeToLive => travel links stack hash32 arbiters pkt ipHeader timeToLive source)
          source target ∧
        ∀ pkt', SameFlow ⟨pkt, ipHeader⟩ ⟨pkt', ipHeader⟩ → ∀ timeToLive,
          travel links stack hash32 arbiters pkt' ipHeader timeToLive source
            = travel links stack hash32 arbiters pkt ipHeader timeToLive source := by
  have hwf := TopologyPtop.wellFormed_of_parse ht
  have hpwf := parseTopologyLinkProperties_wellFormed hwf hp
  have hw : Wired p t.numNodes links t.undirectedEdges := Wired.of_setupLinks hwf hpwf hlinks
  obtain ⟨state, d, hstate, hnonneg, hd, hC⟩ := calculateGlobalState_spec hwf hn
  obtain ⟨arbiters, hrun, hinst⟩ := installArbiters_spec hwf hw haddr.toAddressesOk hstate fun v hv => by
    obtain ⟨row, -, hrow, -⟩ := hC.get v hv v hv
    exact ⟨row, hrow⟩
  refine ⟨arbiters, hrun, fun hash32 pkt ipHeader source target hpacket => ?_⟩
  obtain ⟨k', hk'⟩ := hpacket.source
  have hsource : source ∈ upTo t.numNodes := mem_upTo.mpr (hw.owner_bounds hk')
  have hstart : t.graph.Reachable source target →
      Distance t links source target (t.graph.dist source target) (.source source) :=
    fun hreach => ⟨rfl, hsource, hreach, rfl⟩
  have hrank : ∀ k place, Distance t links source target k place → t.graph.dist place.nodeId target = k :=
    fun _ _ h => h.dist
  refine ⟨?_, fun pkt' hflow ttl => by rw [travel_congr hflow]⟩
  constructor
  case arrives =>
    intro hreach hne ttl hle
    obtain ⟨places, last, fate, hwalk, hlen, hdesc, hlast, hfate⟩ :=
      (ranked hwf hw haddr hd hC hinst hpacket hstack hne).arrives (hstart hreach) hle
    exact ⟨places, last, fate, hwalk, hlen, hdesc.head, hlast, hdesc.linked,
      hdesc.nodup_map (m := fun v => t.graph.dist v target) hrank (by omega), hfate⟩
  case expires =>
    intro hreach hne ttl hlt
    obtain ⟨places, hwalk, hlen, hdesc⟩ :=
      (ranked hwf hw haddr hd hC hinst hpacket hstack hne).expires (hstart hreach) hlt
    exact ⟨places, hwalk, hlen, hdesc.head, hdesc.linked,
      hdesc.nodup_map (m := fun v => t.graph.dist v target) hrank (by omega)⟩
  case throws =>
    intro h ttl
    exact walk_error (handle_error hwf hw haddr hd hC hinst hpacket hnonneg h) ttl

theorem textNs3_unicastAddresses : textNs3.UnicastAddresses 4 :=
  ⟨textNs3_addressesOk (by decide), by decide, by decide⟩

/-- From 10.0.0.1 to 10.0.1.2, a TCP segment, over the node in the middle. -/
theorem network_forwarding_delivers_lineTopology :
    ∃ links arbiters, setupLinks lineTopology lineLinkProperties (setupNodes textNs3 4) = .ok links ∧
      installArbiters lineTopology links = .ok arbiters ∧
      Forwards lineTopology links (fun timeToLive => travel links weakEsStack (fun _ => 7#32) arbiters
        ⟨6, 0, ⟨49153, 1024⟩, ⟨0, 0⟩⟩ ⟨167772161, 167772418⟩ timeToLive 0) 0 2 := by
  obtain ⟨arbiters, hrun, h⟩ := network_forwarding_delivers parseTopologyGraph_lineLinkConfig (by decide)
    parseTopologyLinkProperties_lineLinkConfig rfl textNs3_unicastAddresses weakEsStack_documented
  refine ⟨_, arbiters, rfl, hrun, (h (fun _ => 7#32) _ _ 0 2 ?_).1⟩
  exact ⟨⟨0, _, _, rfl, rfl, rfl⟩, ⟨0, _, _, rfl, rfl, rfl⟩, by decide, ⟨_, rfl⟩⟩

end NetworkForwarding

end BasicSim
