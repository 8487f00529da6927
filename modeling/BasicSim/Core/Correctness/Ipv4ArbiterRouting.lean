import BasicSim.Core.Correctness.ArbiterPtop
import BasicSim.Core.Ipv4ArbiterRouting

/-!
# `Core.Correctness.Ipv4ArbiterRouting` — packets go where the arbiter decides

## Contents
- **The IPv4 stack.** `Ipv4Stack.Documented`: what ns-3 is relied on for.
- **`RouteInput`.** One lemma for each way it can end.
- **The node.** `device_forwarding_realises_decisions`.
-/

namespace BasicSim

open Fallible

/-! ## The IPv4 stack -/

/-- The broadcast address of the subnet of an address, with that many bits for the host. -/
def Ipv4Address.broadcast (ip : Ipv4Address) (hostBits : Nat) : Ipv4Address :=
  Fin.ofNat _ (ip.val / 2 ^ hostBits * 2 ^ hostBits + (2 ^ hostBits - 1))

namespace Node

/-- The node has an interface with this address; the loop-back counts. -/
def HasAddress (node : Node) (ip : Ipv4Address) : Prop := ∃ x ∈ node.interfaces, x.address = ip

instance (node : Node) (ip : Ipv4Address) : Decidable (node.HasAddress ip) :=
  inferInstanceAs (Decidable (∃ x ∈ node.interfaces, x.address = ip))

/-- 255.255.255.255, or the broadcast address of the subnet of an interface: the loop-back has the mask
    255.0.0.0, the others 255.255.255.0. -/
def IsBroadcast (node : Node) (ip : Ipv4Address) : Prop :=
  ip.val = 2 ^ 32 - 1 ∨
    ∃ x ∈ node.interfaces.zipIdx, x.1.address.broadcast (if x.2 = 0 then 24 else 8) = ip

instance (node : Node) (ip : Ipv4Address) : Decidable (node.IsBroadcast ip) :=
  inferInstanceAs (Decidable (_ ∨ ∃ x ∈ node.interfaces.zipIdx, _))

end Node

/-- What the routing relies on: a uni-cast or broadcast destination is accepted for local delivery when
    it is an address of any interface (the weak end-system model, the default), or a broadcast address;
    forwarding is enabled, which is the default too. -/
structure Ipv4Stack.Documented (stack : Ipv4Stack) : Prop where
  destination : ∀ node dest iif, dest.isMulticast = false →
    (stack.isDestinationAddress node dest iif = true ↔ node.HasAddress dest ∨ node.IsBroadcast dest)
  forwarding : ∀ node iif, stack.isForwarding node iif = true

/-! ## `RouteInput` -/

theorem Node.getInterfaceForDevice_nonneg {node : Node} {x : Interface} (h : x ∈ node.interfaces) :
    ¬ node.getInterfaceForDevice x.device < 0 := by
  unfold Node.getInterfaceForDevice
  cases hfind : node.interfaces.findIdx? (fun interface => interface.device = x.device) with
  | some i => exact not_lt.mpr (Int.natCast_nonneg i)
  | none =>
      rw [List.findIdx?_eq_none_iff] at hfind
      have := hfind x h
      simp at this

namespace Ipv4ArbiterRouting

section RouteInput

variable {stack : Ipv4Stack} {node : Node} {baseDecide : Ipv4Header → Except Exc ArbiterResult}
  {ipHeader : Ipv4Header} {idev : DeviceRef}

theorem isLocalMulticast_le {ip : Ipv4Address} (h : ip.isMulticast = false) :
    ip.isLocalMulticast = false := by
  unfold Ipv4Address.isMulticast at h
  unfold Ipv4Address.isLocalMulticast
  rw [decide_eq_false_iff_not] at h ⊢
  omega

/-- The arbiter is consulted. -/
theorem lookupArbiter_eq (hmc : ipHeader.destination.isMulticast = false)
    (hloop : ipHeader.destination.isLoopback = false) :
    lookupArbiter stack node baseDecide ipHeader.destination ipHeader false =
      ([.baseDecide], do routeOf stack node ipHeader.destination (← baseDecide ipHeader)) := by
  unfold lookupArbiter
  rw [if_neg (by rw [isLocalMulticast_le hmc]; decide), if_neg (by decide), if_neg (by rw [hloop]; decide)]

/-- The lookup delivers nothing, -/
theorem localDeliver_not_mem_lookupArbiter {dest : Ipv4Address} {oif : Bool} (iif : Nat) :
    .localDeliver iif ∉ (lookupArbiter stack node baseDecide dest ipHeader oif).1 := by
  unfold lookupArbiter
  split_ifs <;> simp

/-- nor does what comes after it. -/
theorem mem_of_localDeliver_mem_afterLookup {r : List Call × Except Exc (Option Ipv4Route)} {iif : Nat}
    (h : .localDeliver iif ∈ (afterLookup r).1) : .localDeliver iif ∈ r.1 := by
  obtain ⟨calls, e | _ | route⟩ := r
  · exact h
  · exact h
  · simpa [afterLookup] using h

variable (hidev : ¬ node.getInterfaceForDevice idev < 0)

include hidev

theorem routeInput_multicast (hmc : ipHeader.destination.isMulticast = true) :
    routeInput stack node baseDecide ipHeader idev = ([], .error (.abort "Multi-cast not supported.")) := by
  unfold routeInput
  rw [if_neg hidev, if_pos hmc]

variable (hstack : stack.Documented) (hmc : ipHeader.destination.isMulticast = false)

include hstack hmc

/-- Local delivery. -/
theorem routeInput_local
    (hlocal : node.HasAddress ipHeader.destination ∨ node.IsBroadcast ipHeader.destination) :
    routeInput stack node baseDecide ipHeader idev
      = ([.localDeliver (node.getInterfaceForDevice idev).toNat], .ok true) := by
  unfold routeInput
  rw [if_neg hidev]
  simp only [hmc, Bool.false_eq_true, if_false, if_pos ((hstack.destination _ _ _ hmc).mpr hlocal)]

variable (hlocal : ¬ (node.HasAddress ipHeader.destination ∨ node.IsBroadcast ipHeader.destination))

include hlocal

/-- What is left is the lookup. -/
theorem routeInput_eq_lookup : routeInput stack node baseDecide ipHeader idev =
    afterLookup (lookupArbiter stack node baseDecide ipHeader.destination ipHeader false) := by
  unfold routeInput
  rw [if_neg hidev]
  simp only [hmc, Bool.false_eq_true, if_false, if_neg (mt (hstack.destination _ _ _ hmc).mp hlocal),
    hstack.forwarding, Bool.true_eq_false]

theorem localDeliver_not_mem_routeInput (iif : Nat) :
    .localDeliver iif ∉ (routeInput stack node baseDecide ipHeader idev).1 := by
  rw [routeInput_eq_lookup hidev hstack hmc hlocal]
  exact fun h => localDeliver_not_mem_lookupArbiter iif (mem_of_localDeliver_mem_afterLookup h)

theorem routeInput_loopback (hloop : ipHeader.destination.isLoopback = true) :
    routeInput stack node baseDecide ipHeader idev
      = ([], .error (.abort "Loop-back as destination is typically not desired")) := by
  rw [routeInput_eq_lookup hidev hstack hmc hlocal]
  unfold lookupArbiter
  rw [if_neg (by rw [isLocalMulticast_le hmc]; decide), if_neg (by decide), if_pos hloop]
  rfl

variable (hloop : ipHeader.destination.isLoopback = false)

include hloop

theorem routeInput_error {e : Exc} (hdecide : baseDecide ipHeader = .error e) :
    routeInput stack node baseDecide ipHeader idev = ([.baseDecide], .error e) := by
  rw [routeInput_eq_lookup hidev hstack hmc hlocal, lookupArbiter_eq hmc hloop,
    hdecide]
  rfl

theorem routeInput_noRoute (hdecide : baseDecide ipHeader = .ok .noRoute) :
    routeInput stack node baseDecide ipHeader idev = ([.baseDecide], .ok false) := by
  rw [routeInput_eq_lookup hidev hstack hmc hlocal, lookupArbiter_eq hmc hloop,
    hdecide]
  rfl

/-- The packet is forwarded out of the interface that was decided. -/
theorem routeInput_outOf {k : Nat} {hk : k ≠ 0} {x : Interface}
    (hdecide : baseDecide ipHeader = .ok (.outOf k hk)) (hx : node.interfaces[k]? = some x) :
    routeInput stack node baseDecide ipHeader idev =
      ([.baseDecide, .unicastForward ⟨ipHeader.destination,
        stack.sourceAddressSelection node k ipHeader.destination, 0, x.device⟩], .ok true) := by
  have hdevice : node.getNetDevice k = .ok x.device := by
    unfold Node.getNetDevice
    rw [hx]
  have hroute : routeOf stack node ipHeader.destination (.outOf k hk) = .ok (some
      ⟨ipHeader.destination, stack.sourceAddressSelection node k ipHeader.destination, 0, x.device⟩) := by
    unfold routeOf
    rw [if_neg (show (ArbiterResult.outOf k hk).failed ≠ true from Bool.false_ne_true)]
    show (do let outputDevice ← node.getNetDevice k; _) = _
    rw [hdevice]
    rfl
  rw [routeInput_eq_lookup hidev hstack hmc hlocal, lookupArbiter_eq hmc hloop,
    hdecide, ok_bind, hroute]
  rfl

end RouteInput

end Ipv4ArbiterRouting

/-! ## The node -/

section Node

variable {s : Selectors} {ns3 : Ns3 s} {Packet : Type}

/-- The map from a node to an interface is non-zero exactly on the neighbours of `v`, injective on them,
    and gives the interface attached to the link. -/
structure ArbiterPtop.MapsNeighbors (arbiter : ArbiterPtop) (t : TopologyPtop) (links : Links ns3)
    (v : Int) : Prop where
  neighbor : ∀ d, t.IsNeighbor v d → ∃ k, vectorAt arbiter.neighborNodeIdToIfIdx d = .ok k ∧ k ≠ 0 ∧
    IsInterfaceTo links v d k
  other : ∀ d, 0 ≤ d → d < t.numNodes → ¬ t.IsNeighbor v d →
    vectorAt arbiter.neighborNodeIdToIfIdx d = .ok 0
  injective : ∀ d d' k, t.IsNeighbor v d → t.IsNeighbor v d' →
    vectorAt arbiter.neighborNodeIdToIfIdx d = .ok k →
    vectorAt arbiter.neighborNodeIdToIfIdx d' = .ok k → d = d'

/-- `Decide` for every value that `TopologyPtopDecide` returns. -/
structure ArbiterPtop.DecidesInterfaces (arbiter : ArbiterPtop) (t : TopologyPtop)
    (topologyPtopDecide : TopologyPtopDecide Packet) (v : Int) : Prop where
  decides : ∀ src target pkt ipHeader request neighbors d, t.getAdjacencyList v = .ok neighbors →
    topologyPtopDecide src target neighbors pkt ipHeader request = .ok d →
    (∀ k, t.IsNeighbor v d → vectorAt arbiter.neighborNodeIdToIfIdx d = .ok k →
      ∃ hk, arbiter.decide topologyPtopDecide src target pkt ipHeader request = .ok (.outOf k hk)) ∧
    (d = -1 → arbiter.decide topologyPtopDecide src target pkt ipHeader request = .ok .noRoute) ∧
    (¬ t.IsNeighbor v d → d ≠ -1 →
      ∃ e, arbiter.decide topologyPtopDecide src target pkt ipHeader request = .error e)

/-- `BaseDecide` resolves exactly the addresses of the interfaces, to their nodes. -/
structure ArbiterPtop.ResolvesAddresses (arbiter : ArbiterPtop) (links : Links ns3)
    (topologyPtopDecide : TopologyPtopDecide Packet) : Prop where
  resolves : ∀ ip w, arbiter.resolveNodeIdFromIp ip = .ok w ↔ ∃ k, links.network.Owns w k ip
  other : ∀ pkt ipHeader, (∀ w k, ¬ links.network.Owns w k ipHeader.destination) →
    ∃ e, arbiter.baseDecide (arbiter.decide topologyPtopDecide) pkt ipHeader = .error e

/-- The source of a packet at node `v` is node `src`: it asks for its source address, or it has an
    address of an interface of `src`. -/
def SourceNode (links : Links ns3) (v : Int) (ipHeader : Ipv4Header) (src : Int) : Prop :=
  if ipHeader.source = Arbiter.socketRequestSource then src = v
  else ∃ k, links.network.Owns src k ipHeader.source

/-- `RouteInput` at node `v` for a packet that came in over one of its devices. -/
structure RoutesInput (arbiter : ArbiterPtop) (t : TopologyPtop) (links : Links ns3) (stack : Ipv4Stack)
    (topologyPtopDecide : TopologyPtopDecide Packet) (v : Int) (node : Node) (pkt : Packet)
    (ipHeader : Ipv4Header) (result : List Call × Except Exc Bool) : Prop where
  /-- a multi-cast destination is refused -/
  multicast : ipHeader.destination.isMulticast = true → ∃ what, result = ([], .error (.abort what))
  /-- local delivery, exactly for the addresses and the broadcast addresses of the node -/
  localDelivery : ipHeader.destination.isMulticast = false →
    ((∃ iif, .localDeliver iif ∈ result.1) ↔
      node.HasAddress ipHeader.destination ∨ node.IsBroadcast ipHeader.destination)
  localDelivery_once : ∀ iif, .localDeliver iif ∈ result.1 → result = ([.localDeliver iif], .ok true)
  /-- another destination of the loop-back network is refused -/
  loopback : ipHeader.destination.isMulticast = false → ¬ node.HasAddress ipHeader.destination →
    ¬ node.IsBroadcast ipHeader.destination → ipHeader.destination.isLoopback = true →
    ∃ what, result = ([], .error (.abort what))
  /-- the arbiter decides about the address of another node -/
  decided : ipHeader.destination.isMulticast = false → ¬ node.HasAddress ipHeader.destination →
    ¬ node.IsBroadcast ipHeader.destination → ∀ src w k neighbors d,
    SourceNode links v ipHeader src → links.network.Owns w k ipHeader.destination →
    t.getAdjacencyList v = .ok neighbors →
    topologyPtopDecide src w neighbors pkt ipHeader (ipHeader.source == Arbiter.socketRequestSource)
      = .ok d →
    (t.IsNeighbor v d → ∃ route id id' dev', result = ([.baseDecide, .unicastForward route], .ok true) ∧
      route.destination = ipHeader.destination ∧ route.outputDevice = .pointToPoint id ∧
      links.getSendingNetDeviceForLink ⟨v, d⟩ = .ok id ∧ links.network.otherEnd id = some id' ∧
      links.network.netDevices[id']? = some dev' ∧ dev'.nodeId = d) ∧
    (d = -1 → result = ([.baseDecide], .ok false)) ∧
    (¬ t.IsNeighbor v d → d ≠ -1 → ∃ e, result = ([.baseDecide], .error e))
  /-- nobody has the destination -/
  unknown : ipHeader.destination.isMulticast = false → ¬ node.HasAddress ipHeader.destination →
    ¬ node.IsBroadcast ipHeader.destination → ipHeader.destination.isLoopback = false →
    (∀ w k, ¬ links.network.Owns w k ipHeader.destination) → ∃ e, result = ([.baseDecide], .error e)

section Wired

variable {t : TopologyPtop} {links : Links ns3} {p : LinkProperties s} {arbiter : ArbiterPtop}
  {topologyPtopDecide : TopologyPtopDecide Packet} {thisNode : Nat} (hwf : t.WellFormed)
  (hw : Wired p t.numNodes links t.undirectedEdges)
  (haddr : ns3.AddressesOk (2 * t.undirectedEdges.length))

include hw in
/-- The owner of an address is a node. -/
theorem Wired.owner_bounds {w : Int} {k : Nat} {ip : Ipv4Address} (h : links.network.Owns w k ip) :
    0 ≤ w ∧ w < t.numNodes := by
  obtain ⟨node, x, hnode, -⟩ := h
  obtain ⟨h0, hat⟩ := Network.getNode_eq_ok.mp hnode
  have hlt := (List.getElem?_eq_some_iff.mp hat).1
  rw [hw.numNodes] at hlt
  omega

include hw haddr in
theorem Wired.isLoopback_of_owns {w : Int} {k : Nat} {ip : Ipv4Address}
    (h : links.network.Owns w k ip) : ip.isLoopback = false := by
  obtain ⟨id, -, hid, rfl, -⟩ := hw.owns h
  exact decide_eq_false (haddr.not_loopback id hid)

include hwf hw haddr

/-- The source and the target are handed on as nodes. -/
theorem Arbiter.baseDecide_eq {src w : Int} {k : Nat} {ipHeader : Ipv4Header} {pkt : Packet}
    {decide : Int → Int → Packet → Ipv4Header → Bool → Except Exc ArbiterResult}
    (hv : (thisNode : Int) < t.numNodes) (hsrc : SourceNode links thisNode ipHeader src)
    (hdst : links.network.Owns w k ipHeader.destination) :
    (Arbiter.create links.network thisNode).baseDecide decide pkt ipHeader =
      decide src w pkt ipHeader (ipHeader.source == Arbiter.socketRequestSource) := by
  have hlt := hwf.numNodes_lt
  -- an owned address resolves to its node, which survives the narrowing to 32 bits
  have hresolve {w : Int} {k : Nat} {ip : Ipv4Address} (h : links.network.Owns w k ip) :
      (Arbiter.create links.network thisNode).resolveNodeIdFromIp ip = .ok w.toNat ∧
        toInt32 w.toNat = w := by
    obtain ⟨h0, hn⟩ := hw.owner_bounds h
    have hcast : (w.toNat : Int) = w := Int.toNat_of_nonneg h0
    exact ⟨(Arbiter.resolveNodeIdFromIp_eq_ok hw haddr).mpr ⟨k, by rwa [hcast]⟩,
      by rw [hcast]; exact toInt32_of_mem ⟨by omega, by omega⟩⟩
  have hsource : ∃ n : Nat, (Arbiter.create links.network thisNode).sourceNodeId ipHeader.source = .ok n ∧
      toInt32 n = src := by
    unfold SourceNode at hsrc
    unfold Arbiter.sourceNodeId
    split at hsrc
    · next heq =>
        rw [if_pos heq]
        have hid : (Arbiter.create links.network thisNode).nodeId = thisNode :=
          toInt32_of_mem ⟨by omega, by omega⟩
        refine ⟨_, rfl, ?_⟩
        rw [hid, toNat_toUInt32 (by omega) (by omega), hsrc]
        exact toInt32_of_mem ⟨by omega, by omega⟩
    · next hne =>
        rw [if_neg hne]
        obtain ⟨k', hk'⟩ := hsrc
        exact ⟨_, hresolve hk'⟩
  obtain ⟨n, hn, hnsrc⟩ := hsource
  unfold Arbiter.baseDecide
  rw [hn, ok_bind, (hresolve hdst).1, ok_bind, hnsrc, (hresolve hdst).2]

/-- What the constructor makes, as the map of the neighbours. -/
theorem ArbiterPtop.create_mapsNeighbors (hv : (thisNode : Int) < t.numNodes) :
    ∃ arbiter, ArbiterPtop.create t links thisNode = .ok arbiter ∧
      arbiter.toArbiter = Arbiter.create links.network thisNode ∧ arbiter.nodeId = thisNode ∧
      arbiter.topology = t ∧ arbiter.MapsNeighbors t links thisNode := by
  obtain ⟨arbiter, hcreate, hbase, hid, htop, hneighbor, hother⟩ :=
    ArbiterPtop.create_spec hw hwf haddr hv
  refine ⟨arbiter, hcreate, hbase, hid, htop, ?_, ?_, ?_⟩
  · intro d hd
    obtain ⟨k, hk, hif⟩ := hneighbor d (hwf.isNeighbor_iff.mp hd)
    exact ⟨k, hk, hif.ne_zero hw, hif⟩
  · intro d h0 hlt hd
    exact hother d h0 hlt (mt hwf.isNeighbor_iff.mpr hd)
  · intro d d' k hd hd' hk hk'
    obtain ⟨k₁, hk₁, hif⟩ := hneighbor d (hwf.isNeighbor_iff.mp hd)
    obtain ⟨k₂, hk₂, hif'⟩ := hneighbor d' (hwf.isNeighbor_iff.mp hd')
    obtain rfl := Except.ok.inj (hk.symm.trans hk₁)
    obtain rfl := Except.ok.inj (hk'.symm.trans hk₂)
    exact hif.inj hif'

omit hw haddr in
/-- A map of the neighbours makes `Decide` decide for their interfaces. -/
theorem ArbiterPtop.MapsNeighbors.decidesInterfaces (hmaps : arbiter.MapsNeighbors t links thisNode)
    (hid : arbiter.nodeId = thisNode) (htop : arbiter.topology = t) :
    arbiter.DecidesInterfaces t topologyPtopDecide thisNode := by
  refine ⟨?_⟩
  intro src target pkt ipHeader request neighbors d hneighbors hd
  have hadj : arbiter.topology.getAdjacencyList arbiter.nodeId = .ok neighbors := by rw [htop, hid, hneighbors]
  refine ⟨?_, fun hnone => ArbiterPtop.decide_none hadj hd hnone, ?_⟩
  · intro k hk hat
    obtain ⟨k', hk', hne, -⟩ := hmaps.neighbor d hk
    obtain rfl := Except.ok.inj (hat.symm.trans hk')
    obtain ⟨h0, hlt⟩ := hwf.adj_bounds (hwf.isNeighbor_iff.mp hk).symm
    exact ⟨hne, ArbiterPtop.decide_neighbor hadj hd h0 (by rw [htop]; exact hlt) hne hat⟩
  · intro hnot hne
    obtain ⟨what, herror⟩ := ArbiterPtop.decide_other hadj hd hne fun h0 hlt =>
      hmaps.other d h0 (by rwa [htop] at hlt) hnot
    exact ⟨_, herror⟩

omit hwf in
theorem ArbiterPtop.resolvesAddresses (hbase : arbiter.toArbiter = Arbiter.create links.network thisNode) :
    arbiter.ResolvesAddresses links topologyPtopDecide := by
  refine ⟨fun ip w => by rw [hbase]; exact Arbiter.resolveNodeIdFromIp_eq_ok hw haddr,
    ?_⟩
  intro pkt ipHeader hnone
  obtain ⟨e, he⟩ : ∃ e, (Arbiter.create links.network thisNode).resolveNodeIdFromIp ipHeader.destination = .error e :=
    Arbiter.resolveNodeIdFromIp_error hw haddr hnone
  unfold Arbiter.baseDecide
  rw [hbase, he]
  cases (Arbiter.create links.network thisNode).sourceNodeId ipHeader.source with
  | error e' => exact ⟨e', rfl⟩
  | ok src => exact ⟨e, rfl⟩

/-- The routing of a node follows its arbiter. -/
theorem ArbiterPtop.MapsNeighbors.routesInput (hmaps : arbiter.MapsNeighbors t links thisNode)
    (hbase : arbiter.toArbiter = Arbiter.create links.network thisNode) (hid : arbiter.nodeId = thisNode)
    (htop : arbiter.topology = t) (hv : (thisNode : Int) < t.numNodes) {stack : Ipv4Stack}
    (hstack : stack.Documented) {node : Node} (hnode : links.network.getNode thisNode = .ok node)
    {x : Interface} (hx : x ∈ node.interfaces) (pkt : Packet) (ipHeader : Ipv4Header) :
    RoutesInput arbiter t links stack topologyPtopDecide thisNode node pkt ipHeader
      (Ipv4ArbiterRouting.routeInput stack node (arbiter.baseDecide (arbiter.decide topologyPtopDecide) pkt)
        ipHeader x.device) := by
  have hidev := Node.getInterfaceForDevice_nonneg hx
  have hresolves : arbiter.ResolvesAddresses links topologyPtopDecide :=
    ArbiterPtop.resolvesAddresses hw haddr hbase
  constructor
  case multicast => exact fun hmc => ⟨_, Ipv4ArbiterRouting.routeInput_multicast hidev hmc⟩
  case localDelivery =>
    intro hmc
    constructor
    · -- nothing but an own or broadcast address is delivered locally
      rintro ⟨iif, hmem⟩
      by_contra hlocal
      exact Ipv4ArbiterRouting.localDeliver_not_mem_routeInput hidev hstack hmc hlocal iif hmem
    · intro hlocal
      rw [Ipv4ArbiterRouting.routeInput_local hidev hstack hmc hlocal]
      exact ⟨_, List.mem_singleton_self _⟩
  case localDelivery_once =>
    intro iif hmem
    cases hmc : ipHeader.destination.isMulticast with
    | true =>
        rw [Ipv4ArbiterRouting.routeInput_multicast hidev hmc] at hmem
        exact absurd hmem List.not_mem_nil
    | false =>
        by_cases hlocal : node.HasAddress ipHeader.destination ∨ node.IsBroadcast ipHeader.destination
        · rw [Ipv4ArbiterRouting.routeInput_local hidev hstack hmc hlocal] at hmem ⊢
          rw [List.mem_singleton.mp hmem]
        · exact absurd hmem
            (Ipv4ArbiterRouting.localDeliver_not_mem_routeInput hidev hstack hmc hlocal iif)
  case loopback =>
    exact fun hmc hown hbc hloop =>
      ⟨_, Ipv4ArbiterRouting.routeInput_loopback hidev hstack hmc (not_or.mpr ⟨hown, hbc⟩) hloop⟩
  case decided =>
    intro hmc hown hbc src w k neighbors d hsrc hdst hneighbors hd
    have hlocal := not_or.mpr ⟨hown, hbc⟩
    have hloop := hw.isLoopback_of_owns haddr hdst
    -- the addresses of the packet resolve to its two nodes, which are what the arbiter decides on
    have hbaseDecide : arbiter.baseDecide (arbiter.decide topologyPtopDecide) pkt ipHeader =
        arbiter.decide topologyPtopDecide src w pkt ipHeader
          (ipHeader.source == Arbiter.socketRequestSource) := by
      rw [hbase]
      exact Arbiter.baseDecide_eq hwf hw haddr hv hsrc hdst
    obtain ⟨hforward, hnone, hother⟩ := (hmaps.decidesInterfaces hwf hid htop).decides src w pkt ipHeader
      _ neighbors d hneighbors hd
    refine ⟨?_, ?_, ?_⟩
    · -- a neighbor: the device that sends is the near end of the link to it
      intro hk
      obtain ⟨k', hat, -, hif⟩ := hmaps.neighbor d hk
      obtain ⟨hne, hdecide⟩ := hforward k' hk hat
      obtain ⟨node', id, id', dev, dev', hnode', hx', hsend, hdev, -, hother, hdev', hdest⟩ := hif
      obtain rfl := Except.ok.inj (hnode.symm.trans hnode')
      exact ⟨_, id, id', dev', Ipv4ArbiterRouting.routeInput_outOf hidev hstack hmc hlocal hloop
        (hbaseDecide.trans hdecide) hx', rfl, rfl, hsend, hother, hdev', hdest⟩
    · -- the arbiter has no next hop
      intro hd
      exact Ipv4ArbiterRouting.routeInput_noRoute hidev hstack hmc hlocal hloop
        (hbaseDecide.trans (hnone hd))
    · -- what is not a neighbor is refused
      intro hk hne
      obtain ⟨e, he⟩ := hother hk hne
      exact ⟨e, Ipv4ArbiterRouting.routeInput_error hidev hstack hmc hlocal hloop (hbaseDecide.trans he)⟩
  case unknown =>
    intro hmc hown hbc hloop hnone
    obtain ⟨e, he⟩ := hresolves.other pkt ipHeader hnone
    exact ⟨e, Ipv4ArbiterRouting.routeInput_error hidev hstack hmc (not_or.mpr ⟨hown, hbc⟩) hloop he⟩

end Wired

/-- **Device-level forwarding realises the node-level decisions.** -/
theorem device_forwarding_realises_decisions {config : Config} {all : Bool}
    {assignment : Option (List Int)} {t : TopologyPtop}
    (ht : parseTopologyGraph config all assignment = .ok t) {stod : Str → Except Exc (Double × Nat)}
    {p : LinkProperties s} (hp : parseTopologyLinkProperties t stod s config = .ok p) {links : Links ns3}
    (hlinks : setupLinks t p (setupNodes ns3 t.numNodes) = .ok links)
    (haddr : ns3.AddressesOk (2 * t.undirectedEdges.length)) {stack : Ipv4Stack}
    (hstack : stack.Documented) (topologyPtopDecide : TopologyPtopDecide Packet) {thisNode : Nat}
    (hv : (thisNode : Int) < t.numNodes) :
    ∃ arbiter node, ArbiterPtop.create t links thisNode = .ok arbiter ∧
      links.network.getNode thisNode = .ok node ∧
      arbiter.MapsNeighbors t links thisNode ∧
      arbiter.DecidesInterfaces t topologyPtopDecide thisNode ∧
      arbiter.ResolvesAddresses links topologyPtopDecide ∧
      ∀ pkt ipHeader, ∀ x ∈ node.interfaces,
        RoutesInput arbiter t links stack topologyPtopDecide thisNode node pkt ipHeader
          (Ipv4ArbiterRouting.routeInput stack node
            (arbiter.baseDecide (arbiter.decide topologyPtopDecide) pkt) ipHeader x.device) := by
  have hwf := TopologyPtop.wellFormed_of_parse ht
  have hpwf := parseTopologyLinkProperties_wellFormed hwf hp
  have hw : Wired p t.numNodes links t.undirectedEdges := Wired.of_setupLinks hwf hpwf hlinks
  obtain ⟨arbiter, hcreate, hbase, hid, htop, hmaps⟩ := ArbiterPtop.create_mapsNeighbors hwf hw haddr hv
  have hlen : thisNode < links.network.nodes.length := by rw [hw.numNodes]; omega
  have hnode : links.network.getNode thisNode = .ok links.network.nodes[thisNode] :=
    Network.getNode_eq_ok.mpr ⟨Int.natCast_nonneg _, List.getElem?_eq_getElem hlen⟩
  exact ⟨arbiter, _, hcreate, hnode, hmaps, hmaps.decidesInterfaces hwf hid htop,
    ArbiterPtop.resolvesAddresses hw haddr hbase, fun pkt ipHeader x hx =>
      hmaps.routesInput hwf hw haddr hbase hid htop hv hstack hnode hx pkt ipHeader⟩

end Node

/-- A stack that does what is documented. -/
def weakEsStack : Ipv4Stack where
  isDestinationAddress node dest _ := decide (node.HasAddress dest ∨ node.IsBroadcast dest)
  isForwarding _ _ := true
  sourceAddressSelection node ifIdx _ := (node.interfaces[ifIdx]?.map Interface.address).getD 0

theorem weakEsStack_documented : weakEsStack.Documented :=
  ⟨fun _ _ _ _ => decide_eq_true_iff, fun _ _ => rfl⟩

/-- An arbiter that decides for the target itself. -/
def decideTarget : TopologyPtopDecide Unit := fun _ target _ _ _ _ => .ok target

/-- The line with the same properties for all links. -/
def lineLinkConfig : Config :=
  [("link_channel_delay_ns", "10000"), ("link_net_device_data_rate_megabit_per_s", "10"),
    ("link_net_device_queue", "q"), ("link_net_device_receive_error_model", "none"),
    ("link_interface_traffic_control_qdisc", "fq")].foldl
    (fun (config : Config) entry => config.insert entry.1.toList entry.2.toList) lineConfig

def lineLinkProperties : LinkProperties textSelectors where
  linkChannelDelayNsMapping := OrdMap.ofEntries [(⟨0, 1⟩, 10000), (⟨1, 2⟩, 10000)]
  linkNetDeviceDataRateMegabitPerSMapping :=
    OrdMap.ofEntries [(⟨0, 1⟩, .finite 10), (⟨1, 0⟩, .finite 10), (⟨1, 2⟩, .finite 10), (⟨2, 1⟩, .finite 10)]
  linkNetDeviceQueueMapping :=
    OrdMap.ofEntries [(⟨0, 1⟩, "q".toList), (⟨1, 0⟩, "q".toList), (⟨1, 2⟩, "q".toList), (⟨2, 1⟩, "q".toList)]
  linkNetDeviceReceiveErrorModelMapping :=
    OrdMap.ofEntries [(⟨0, 1⟩, (false, "none".toList)), (⟨1, 0⟩, (false, "none".toList)),
      (⟨1, 2⟩, (false, "none".toList)), (⟨2, 1⟩, (false, "none".toList))]
  linkInterfaceTrafficControlQdiscMapping :=
    OrdMap.ofEntries [(⟨0, 1⟩, (true, "fq".toList)), (⟨1, 0⟩, (true, "fq".toList)),
      (⟨1, 2⟩, (true, "fq".toList)), (⟨2, 1⟩, (true, "fq".toList))]

theorem parseTopologyGraph_lineLinkConfig :
    parseTopologyGraph lineLinkConfig true none = .ok lineTopology := by decide +kernel

theorem parseTopologyLinkProperties_lineLinkConfig :
    parseTopologyLinkProperties lineTopology stodInteger textSelectors lineLinkConfig
      = .ok lineLinkProperties := by
  rfl

/-- The addresses of few links are in 10.0.0.0/8. -/
theorem textNs3_addressesOk {n : Nat} (hn : n ≤ 1000) : textNs3.AddressesOk n := by
  have hval : ∀ i < n, (textNs3.assignAddress i).val = 167772160 + 256 * (i / 2) + i % 2 + 1 :=
    fun i hi => Nat.mod_eq_of_lt (by omega)
  refine ⟨?_, ?_⟩
  · intro i j hi hj heq
    have := congrArg Fin.val heq
    rw [hval i hi, hval j hj] at this
    omega
  · intro i hi
    rw [Ipv4Address.inLoopbackNet, hval i hi]
    omega

/-- The node in the middle of the line, with its interfaces 1 and 2. -/
theorem device_forwarding_realises_decisions_lineTopology :
    ∃ links, setupLinks lineTopology lineLinkProperties (setupNodes textNs3 4) = .ok links ∧
      ∃ arbiter node, ArbiterPtop.create lineTopology links 1 = .ok arbiter ∧
        links.network.getNode 1 = .ok node ∧ node.interfaces.length = 3 ∧
        arbiter.neighborNodeIdToIfIdx = [1, 0, 2, 0] ∧
        arbiter.MapsNeighbors lineTopology links 1 ∧
        ∀ pkt ipHeader, ∀ x ∈ node.interfaces,
          RoutesInput arbiter lineTopology links weakEsStack decideTarget 1 node pkt ipHeader
            (Ipv4ArbiterRouting.routeInput weakEsStack node
              (arbiter.baseDecide (arbiter.decide decideTarget) pkt) ipHeader x.device) := by
  have haddr := textNs3_addressesOk (show 4 ≤ 1000 by decide)
  obtain ⟨links, hlinks, hinterfaces, hneighbors⟩ : ∃ links,
      setupLinks lineTopology lineLinkProperties (setupNodes textNs3 4) = .ok links ∧
      (fun node => node.interfaces.length) <$> links.network.getNode 1 = .ok 3 ∧
      ArbiterPtop.neighborNodeIdToIfIdx <$> ArbiterPtop.create lineTopology links 1 = .ok [1, 0, 2, 0] :=
    ⟨_, rfl, rfl, rfl⟩
  obtain ⟨arbiter, node, hcreate, hnode, hmaps, -, -, hroutes⟩ :=
    device_forwarding_realises_decisions parseTopologyGraph_lineLinkConfig
      parseTopologyLinkProperties_lineLinkConfig hlinks haddr weakEsStack_documented decideTarget
      (show ((1 : Nat) : Int) < lineTopology.numNodes by decide)
  refine ⟨links, hlinks, arbiter, node, hcreate, hnode, ?_, ?_, hmaps, hroutes⟩
  · rw [show links.network.getNode 1 = .ok node from hnode] at hinterfaces
    exact Except.ok.inj hinterfaces
  · rw [show ArbiterPtop.create lineTopology links 1 = .ok arbiter from hcreate] at hneighbors
    exact Except.ok.inj hneighbors

/-- 10.0.0.255 and 127.0.0.2 are no addresses of node 0. A packet to the first is delivered locally all the
    same, and a packet to the second is not forwarded. -/
theorem routeInput_broadcast_and_loopback_pairTopology :
    parseTopologyGraph pairLinkConfig true none = .ok pairTopology ∧
    parseTopologyLinkProperties pairTopology stodInteger textSelectors pairLinkConfig
      = .ok pairLinkProperties ∧
    ∃ links arbiter node, setupLinks pairTopology pairLinkProperties (setupNodes textNs3 2) = .ok links ∧
      ArbiterPtop.create pairTopology links 0 = .ok arbiter ∧ links.network.getNode 0 = .ok node ∧
      (.localDeliver 1 ∈ (Ipv4ArbiterRouting.routeInput weakEsStack node
          (arbiter.baseDecide (arbiter.decide decideTarget) ()) ⟨167772162, 167772415⟩
          (.pointToPoint 0)).1 ∧ ¬ node.HasAddress 167772415) ∧
      (Ipv4ArbiterRouting.routeInput weakEsStack node
          (arbiter.baseDecide (arbiter.decide decideTarget) ()) ⟨167772162, 2130706434⟩
          (.pointToPoint 0) = ([], .error (.abort "Loop-back as destination is typically not desired")) ∧
        ¬ node.HasAddress 2130706434) :=
  ⟨parseTopologyGraph_pairLinkConfig, parseTopologyLinkProperties_pairLinkConfig, _, _, _, rfl, rfl, rfl,
    ⟨by decide, by decide⟩, by rfl, by decide⟩

end BasicSim
