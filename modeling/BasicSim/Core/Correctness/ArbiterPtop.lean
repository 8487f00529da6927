import BasicSim.Core.ArbiterPtop
import BasicSim.Core.Correctness.SetupLinks

/-!
# `Core.Correctness.ArbiterPtop` — addresses, neighbours and interfaces

## Contents
- **Addresses.** `AddressesOk` is what ns-3 is relied on for; `resolveNodeIdFromIp_eq_ok`.
- **Interfaces.** `IsInterfaceTo`, `create_spec`: the map from a neighbour to the interface to it.
- **Decisions.** `decide_neighbor`, `decide_none`, `decide_other`.
-/

namespace BasicSim

open Fallible

variable {s : Selectors} {ns3 : Ns3 s}

/-! ## Addresses -/

/-- 127.0.0.0/8, where the loop-back is. -/
def Ipv4Address.inLoopbackNet (ip : Ipv4Address) : Prop := ip.val / 2 ^ 24 = 127

/-- The first `n` addresses that are handed out are distinct, and none is of the loop-back network. -/
structure Ns3.AddressesOk (ns3 : Ns3 s) (n : Nat) : Prop where
  injective : ∀ i j, i < n → j < n → ns3.assignAddress i = ns3.assignAddress j → i = j
  not_loopback : ∀ i, i < n → ¬ (ns3.assignAddress i).inLoopbackNet

/-- There are not more addresses than that. -/
theorem Ns3.AddressesOk.lt {n : Nat} (h : ns3.AddressesOk n) : n < 2 ^ 32 := by
  have hmaps : ∀ i ∈ Finset.range n, (ns3.assignAddress i).val ∈
      (Finset.range (2 ^ 32)).erase (127 * 2 ^ 24) := by
    intro i hi
    refine Finset.mem_erase.mpr ⟨?_, Finset.mem_range.mpr (ns3.assignAddress i).isLt⟩
    intro heq
    refine h.not_loopback i (Finset.mem_range.mp hi) ?_
    unfold Ipv4Address.inLoopbackNet
    omega
  have hcard := Finset.card_le_card_of_injOn (fun i => (ns3.assignAddress i).val) hmaps
    fun i hi j hj heq => h.injective i j (Finset.mem_range.mp hi) (Finset.mem_range.mp hj) (Fin.ext heq)
  have hmem : 127 * 2 ^ 24 ∈ Finset.range (2 ^ 32) := Finset.mem_range.mpr (by omega)
  rw [Finset.card_range, Finset.card_erase_of_mem hmem, Finset.card_range] at hcard
  omega

/-- Interface `k + 1` of node `v` has this address. -/
def Network.Owns (net : Network ns3) (v : Int) (k : Nat) (ip : Ipv4Address) : Prop :=
  ∃ node x, net.getNode v = .ok node ∧ node.interfaces[k + 1]? = some x ∧ x.address = ip

variable {p : LinkProperties s} {n : Int} {links : Links ns3} {done : List Int64Pair}

/-- The owner of an address is the node of the device it was handed out for. -/
theorem Wired.owns {v : Int} {k : Nat} {ip : Ipv4Address} (h : Wired p n links done)
    (hip : links.network.Owns v k ip) : ∃ (id : Nat) (d : NetDevice ns3), id < 2 * done.length ∧
      ip = ns3.assignAddress id ∧ links.network.netDevices[id]? = some d ∧ d.nodeId = v ∧
      d.ifIndex = k + 1 := by
  obtain ⟨node, x, hnode, hx, rfl⟩ := hip
  obtain ⟨id, d, rfl, hd, hv, hk⟩ := (h.node v node hnode).interface k x hx
  exact ⟨id, d, h.numDevices ▸ (List.getElem?_eq_some_iff.mp hd).1, rfl, hd, hv, hk⟩

/-- No two interfaces have the same address. -/
theorem Wired.owner_unique (h : Wired p n links done) (haddr : ns3.AddressesOk (2 * done.length))
    {v v' : Int} {k k' : Nat} {ip : Ipv4Address} (hip : links.network.Owns v k ip)
    (hip' : links.network.Owns v' k' ip) : v = v' ∧ k = k' := by
  obtain ⟨id, d, hlt, heq, hd, hv, hk⟩ := h.owns hip
  obtain ⟨id', d', hlt', heq', hd', hv', hk'⟩ := h.owns hip'
  obtain rfl := haddr.injective id id' hlt hlt' (heq.symm.trans heq')
  obtain rfl := Option.some.inj (hd.symm.trans hd')
  exact ⟨hv.symm.trans hv', by omega⟩

namespace Arbiter

/-- The entries that the constructor inserts, in order. -/
def addressEntries (net : Network ns3) : List (Ipv4Address × Nat) :=
  net.nodes.zipIdx.flatMap fun node => (node.1.interfaces.drop 1).map fun x => (x.address, node.2)

theorem create_ipToNodeId (net : Network ns3) (thisNode : Nat) :
    (create net thisNode).ipToNodeId = OrdMap.ofEntries (addressEntries net) := by
  show net.nodes.zipIdx.foldl addNode ∅ = (addressEntries net).foldl _ ∅
  rw [addressEntries, List.foldl_flatMap]
  congr 1
  funext m node
  rw [addNode, List.foldl_map]

theorem mem_addressEntries {net : Network ns3} {ip : Ipv4Address} {w : Nat} :
    (ip, w) ∈ addressEntries net ↔ ∃ k, net.Owns w k ip := by
  rw [addressEntries, List.mem_flatMap]
  constructor
  · rintro ⟨⟨node, i⟩, hnode, hmem⟩
    rw [List.mk_mem_zipIdx_iff_getElem?] at hnode
    obtain ⟨x, hx, heq⟩ := List.mem_map.mp hmem
    obtain ⟨rfl, rfl⟩ := Prod.mk.inj heq
    obtain ⟨k, hk⟩ := List.mem_iff_getElem?.mp hx
    rw [List.getElem?_drop, Nat.add_comm] at hk
    exact ⟨k, node, x, Network.getNode_eq_ok.mpr ⟨Int.natCast_nonneg _, hnode⟩, hk, rfl⟩
  · rintro ⟨k, node, x, hnode, hx, rfl⟩
    refine ⟨(node, w), List.mk_mem_zipIdx_iff_getElem?.mpr (Network.getNode_eq_ok.mp hnode).2,
      List.mem_map.mpr ⟨x, List.mem_iff_getElem?.mpr ⟨k, ?_⟩, rfl⟩⟩
    rw [List.getElem?_drop, Nat.add_comm, hx]

/-- **An address resolves exactly to the node that owns it.** -/
theorem resolveNodeIdFromIp_eq_ok (h : Wired p n links done)
    (haddr : ns3.AddressesOk (2 * done.length)) {thisNode w : Nat} {ip : Ipv4Address} :
    (create links.network thisNode).resolveNodeIdFromIp ip = .ok w ↔
      ∃ k, links.network.Owns w k ip := by
  have hresolve : (create links.network thisNode).resolveNodeIdFromIp ip = .ok w ↔
      (create links.network thisNode).ipToNodeId.find? ip = some w := by
    unfold resolveNodeIdFromIp
    cases (create links.network thisNode).ipToNodeId.find? ip <;> simp
  rw [hresolve, create_ipToNodeId, ← mem_addressEntries]
  refine ⟨OrdMap.mem_of_find?_ofEntries, fun hmem => ?_⟩
  -- there is an entry for the address, and all its entries name the same node
  have hkey : ip ∈ (OrdMap.ofEntries (addressEntries links.network)).keys := by
    rw [OrdMap.keys_ofEntries, OrdSet.mem_ofList]
    exact List.mem_map.mpr ⟨_, hmem, rfl⟩
  obtain ⟨w', hw'⟩ := Option.isSome_iff_exists.mp (OrdMap.find?_isSome.mpr hkey)
  obtain ⟨k, hk⟩ := mem_addressEntries.mp hmem
  obtain ⟨k', hk'⟩ := mem_addressEntries.mp (OrdMap.mem_of_find?_ofEntries hw')
  rw [hw', Int.ofNat.inj (h.owner_unique haddr hk' hk).1]

theorem resolveNodeIdFromIp_error (h : Wired p n links done)
    (haddr : ns3.AddressesOk (2 * done.length)) {thisNode : Nat} {ip : Ipv4Address}
    (hip : ∀ w k, ¬ links.network.Owns w k ip) :
    ∃ e, (create links.network thisNode).resolveNodeIdFromIp ip = .error e := by
  cases hr : (create links.network thisNode).resolveNodeIdFromIp ip with
  | error e => exact ⟨e, rfl⟩
  | ok w =>
      obtain ⟨k, hk⟩ := (resolveNodeIdFromIp_eq_ok h haddr).mp hr
      exact absurd hk (hip w k)

end Arbiter

/-! ## Interfaces -/

/-- Interface `k` of node `v` is attached to the link to `d`: its device is the sending device of the
    link from `v` to `d`, and the device at the other end is on `d`. -/
def IsInterfaceTo (links : Links ns3) (v d : Int) (k : Nat) : Prop :=
  ∃ (node : Node) (id id' : Nat) (dev dev' : NetDevice ns3),
    links.network.getNode v = .ok node ∧
    node.interfaces[k]? = some ⟨.pointToPoint id, ns3.assignAddress id⟩ ∧
    links.getSendingNetDeviceForLink ⟨v, d⟩ = .ok id ∧
    links.network.netDevices[id]? = some dev ∧ dev.nodeId = v ∧
    links.network.otherEnd id = some id' ∧
    links.network.netDevices[id']? = some dev' ∧ dev'.nodeId = d

/-- The interfaces to different nodes differ. -/
theorem IsInterfaceTo.inj {v d d' : Int} {k : Nat} (h : IsInterfaceTo links v d k)
    (h' : IsInterfaceTo links v d' k) : d = d' := by
  obtain ⟨node, id, id', dev, dev', hnode, hx, -, -, -, hother, hdev', hd⟩ := h
  obtain ⟨node₂, id₂, id₂', dev₂, dev₂', hnode₂, hx₂, -, -, -, hother₂, hdev₂', hd₂⟩ := h'
  obtain rfl := Except.ok.inj (hnode.symm.trans hnode₂)
  have hid : id = id₂ := by
    have := congrArg Interface.device (Option.some.inj (hx.symm.trans hx₂))
    exact DeviceRef.pointToPoint.inj this
  subst hid
  obtain rfl := Option.some.inj (hother.symm.trans hother₂)
  obtain rfl := Option.some.inj (hdev'.symm.trans hdev₂')
  exact hd.symm.trans hd₂

/-- It is not the loop-back. -/
theorem IsInterfaceTo.ne_zero {v d : Int} {k : Nat} (hw : Wired p n links done)
    (h : IsInterfaceTo links v d k) : k ≠ 0 := by
  rintro rfl
  obtain ⟨node, id, -, -, -, hnode, hx, -⟩ := h
  have hloop := (hw.node v node hnode).loopback
  have := congrArg Interface.device (Option.some.inj (hx.symm.trans hloop))
  exact DeviceRef.noConfusion this

/-- Edge `i` joins `v` and `d`, and `k` is what was recorded for the end at `v`. -/
def EdgeInterface (t : TopologyPtop) (idxs : List (Nat × Nat)) (v : Int) (i : Nat) (d : Int) (k : Nat) :
    Prop :=
  ∃ e idx, t.undirectedEdges[i]? = some e ∧ idxs[i]? = some idx ∧
    (e.first = v ∧ e.second = d ∧ k = idx.1 ∨ e.second = v ∧ e.first = d ∧ k = idx.2)

section Interfaces

variable {t : TopologyPtop} {v d : Int} {i : Nat} {k : Nat}

/-- Two nodes are joined by one edge only. -/
theorem EdgeInterface.unique (hwf : t.WellFormed) {idxs : List (Nat × Nat)} {i' k' : Nat}
    (h : EdgeInterface t idxs v i d k) (h' : EdgeInterface t idxs v i' d k') : i = i' := by
  obtain ⟨e, _, he, _, hend⟩ := h
  obtain ⟨e', _, he', _, hend'⟩ := h'
  have hb := hwf.edge_bounds e (List.mem_of_getElem? he)
  have hb' := hwf.edge_bounds e' (List.mem_of_getElem? he')
  have heq : e = e' := by
    obtain ⟨a, b⟩ := e
    obtain ⟨a', b'⟩ := e'
    rcases hend with ⟨rfl, rfl, -⟩ | ⟨rfl, rfl, -⟩ <;> rcases hend' with ⟨rfl, rfl, -⟩ | ⟨rfl, rfl, -⟩
    · rfl
    · exact absurd hb.2.1 (lt_asymm hb'.2.1)
    · exact absurd hb.2.1 (lt_asymm hb'.2.1)
    · rfl
  subst heq
  exact (List.getElem?_inj (List.getElem?_eq_some_iff.mp he).1 hwf.edges_nodup).mp (he.trans he'.symm)

/-- The edge joins neighbours. -/
theorem EdgeInterface.adj (hwf : t.WellFormed) {idxs : List (Nat × Nat)}
    (h : EdgeInterface t idxs v i d k) : t.graph.Adj v d := by
  obtain ⟨⟨a, b⟩, _, he, _, hend⟩ := h
  rw [hwf.adj_iff]
  rcases hend with ⟨rfl, rfl, -⟩ | ⟨rfl, rfl, -⟩
  · exact .inl (List.mem_of_getElem? he)
  · exact .inr (List.mem_of_getElem? he)

variable (hw : Wired p t.numNodes links t.undirectedEdges)

include hw

/-- Every neighbour has such an edge. -/
theorem Wired.exists_edgeInterface (hwf : t.WellFormed) (hadj : t.graph.Adj v d) :
    ∃ i k, EdgeInterface t links.interfaceIdxsForUndirectedEdges v i d k := by
  rcases hwf.adj_iff.mp hadj with he | he
  · obtain ⟨i, hi⟩ := List.mem_iff_getElem?.mp he
    obtain ⟨_, _, _, _, _, ifA, ifB, _, _, _, _, _, _, _, _, hidx⟩ := (hw.link i _ hi).device
    exact ⟨i, ifA, _, _, hi, hidx, .inl ⟨rfl, rfl, rfl⟩⟩
  · obtain ⟨i, hi⟩ := List.mem_iff_getElem?.mp he
    obtain ⟨_, _, _, _, _, ifA, ifB, _, _, _, _, _, _, _, _, hidx⟩ := (hw.link i _ hi).device
    exact ⟨i, ifB, _, _, hi, hidx, .inr ⟨rfl, rfl, rfl⟩⟩

/-- What was recorded for the edge is the interface of the device at that end. -/
theorem Wired.isInterfaceTo
    (h : EdgeInterface t links.interfaceIdxsForUndirectedEdges v i d k) : IsInterfaceTo links v d k := by
  obtain ⟨⟨a, b⟩, idx, he, hidx, hend⟩ := h
  have hlink := hw.link i _ he
  obtain ⟨_, _, _, _, _, ifA, ifB, -, -, -, -, -, hA, hB, hch, hidx'⟩ := hlink.device
  obtain rfl := Option.some.inj (hidx.symm.trans hidx')
  obtain ⟨nodeA, hnodeA, hxA⟩ := hw.interface _ _ hA
  obtain ⟨nodeB, hnodeB, hxB⟩ := hw.interface _ _ hB
  rcases hend with ⟨rfl, rfl, rfl⟩ | ⟨rfl, rfl, rfl⟩
  · exact ⟨nodeA, _, _, _, _, hnodeA, hxA, mapAt_eq_ok.mpr hlink.sending, hA, rfl,
      hlink.otherEnd_first, hB, rfl⟩
  · exact ⟨nodeB, _, _, _, _, hnodeB, hxB, mapAt_eq_ok.mpr hlink.sendingBack, hB, rfl,
      hlink.otherEnd_second, hA, rfl⟩

/-! ### The constructor -/

/-- The entry of `d` after the edges `is`: the interface to it, or 0. -/
def EntryAfter (t : TopologyPtop) (idxs : List (Nat × Nat)) (v : Int) (is : List Int) (d : Int) (k : Nat) :
    Prop :=
  (∃ i ∈ is, EdgeInterface t idxs v i.toNat d k) ∨
    (∀ i ∈ is, ∀ k', ¬ EdgeInterface t idxs v i.toNat d k') ∧ k = 0

omit hw in
theorem vectorModifyAt_const {m : List Nat} {x : Int} (h0 : 0 ≤ x) (hx : x < m.length) (a : Nat) :
    vectorModifyAt m x (fun _ => a) = .ok (m.set x.toNat a) := by
  obtain ⟨b, hb⟩ := vectorAt_of_lt h0 hx
  rw [vectorModifyAt, hb, ok_bind]

omit hw in
/-- Setting the one entry that the edge is for. -/
theorem vectorAt_set_iff {m : List Nat} {x : Int} {a : Nat} {E : Int → Nat → Prop} (h0 : 0 ≤ x)
    (hx : x < m.length) (hE : ∀ d k, E d k ↔ d = x ∧ k = a) (d : Int) (k : Nat) :
    vectorAt (m.set x.toNat a) d = .ok k ↔ E d k ∨ (∀ k', ¬ E d k') ∧ vectorAt m d = .ok k := by
  rw [vectorAt_set h0 hx]
  by_cases hd : d = x
  · simp [hE, hd, eq_comm]
  · simp [hE, hd]

omit hw in
theorem edgeInterface_iff {idxs : List (Nat × Nat)} {e : Int64Pair} {idx : Nat × Nat}
    (he : t.undirectedEdges[i]? = some e) (hidx : idxs[i]? = some idx) :
    EdgeInterface t idxs v i d k ↔
      e.first = v ∧ e.second = d ∧ k = idx.1 ∨ e.second = v ∧ e.first = d ∧ k = idx.2 := by
  constructor
  · rintro ⟨e', idx', he', hidx', h⟩
    obtain rfl := Option.some.inj (he.symm.trans he')
    obtain rfl := Option.some.inj (hidx.symm.trans hidx')
    exact h
  · exact fun h => ⟨e, idx, he, hidx, h⟩

/-- **Step lemma.** One edge: the entry of its other end is set if the node is an end of it. -/
theorem ArbiterPtop.saveInterface_spec (hwf : t.WellFormed) {m : List Nat}
    (hm : (m.length : Int) = t.numNodes) (hi : i < t.undirectedEdges.length) :
    ∃ m', ArbiterPtop.saveInterface t links.interfaceIdxsForUndirectedEdges v m i = .ok m' ∧
      (m'.length : Int) = t.numNodes ∧
      ∀ d k, vectorAt m' d = .ok k ↔
        EdgeInterface t links.interfaceIdxsForUndirectedEdges v i d k ∨
        (∀ k', ¬ EdgeInterface t links.interfaceIdxsForUndirectedEdges v i d k') ∧
          vectorAt m d = .ok k := by
  obtain ⟨e, he⟩ : ∃ e, t.undirectedEdges[i]? = some e := ⟨_, List.getElem?_eq_getElem hi⟩
  obtain ⟨idx, hidx⟩ : ∃ idx, links.interfaceIdxsForUndirectedEdges[i]? = some idx :=
    ⟨_, List.getElem?_eq_getElem (hw.numIdxs.symm ▸ hi)⟩
  obtain ⟨h0, hlt, hn⟩ := hwf.edge_bounds e (List.mem_of_getElem? he)
  have hE := fun d k => edgeInterface_iff (v := v) (d := d) (k := k) he hidx
  have heAt : vectorAt t.undirectedEdges i = .ok e := vectorAt_eq_ok.mpr ⟨Int.natCast_nonneg _, he⟩
  have hidxAt : vectorAt links.interfaceIdxsForUndirectedEdges i = .ok idx :=
    vectorAt_eq_ok.mpr ⟨Int.natCast_nonneg _, hidx⟩
  unfold ArbiterPtop.saveInterface
  rw [heAt, ok_bind]
  split
  · -- the node is the first end of the edge
    next hfirst =>
      rw [hidxAt, ok_bind, vectorModifyAt_const (by omega) (by omega)]
      refine ⟨_, rfl, by rw [List.length_set, hm], vectorAt_set_iff (by omega) (by omega) ?_⟩
      intro d k
      rw [hE]
      have hne : e.second ≠ v := by omega
      simp [hfirst, hne, eq_comm]
  · next hfirst =>
      split
      · -- it is the second end
        next hsecond =>
          rw [hidxAt, ok_bind, vectorModifyAt_const h0 (by omega)]
          refine ⟨_, rfl, by rw [List.length_set, hm], vectorAt_set_iff h0 (by omega) ?_⟩
          intro d k
          rw [hE]
          simp [hfirst, hsecond, eq_comm]
      · next hsecond =>
          refine ⟨m, rfl, hm, ?_⟩
          intro d k
          simp [hE, hfirst, hsecond]

omit hw in
/-- The entry after one more edge: no other edge is for the same node. -/
theorem entryAfter_concat (hwf : t.WellFormed) {idxs : List (Nat × Nat)} {is : List Int} {j : Int}
    (hj : j ∉ is) (hj0 : 0 ≤ j) (his : ∀ i ∈ is, 0 ≤ i) :
    EntryAfter t idxs v (is ++ [j]) d k ↔ EdgeInterface t idxs v j.toNat d k ∨
      (∀ k', ¬ EdgeInterface t idxs v j.toNat d k') ∧ EntryAfter t idxs v is d k := by
  unfold EntryAfter
  simp only [List.mem_append, List.mem_singleton]
  constructor
  · rintro (⟨i, hi | rfl, h⟩ | ⟨hnone, rfl⟩)
    · refine .inr ⟨fun k' h' => hj ?_, .inl ⟨i, hi, h⟩⟩
      have heq := h.unique hwf h'
      have := his i hi
      rwa [show j = i by omega]
    · exact .inl h
    · exact .inr ⟨hnone j (.inr rfl), .inr ⟨fun i hi => hnone i (.inl hi), rfl⟩⟩
  · rintro (h | ⟨hj', ⟨i, hi, h⟩ | ⟨hnone, rfl⟩⟩)
    · exact .inl ⟨j, .inr rfl, h⟩
    · exact .inl ⟨i, .inl hi, h⟩
    · refine .inr ⟨?_, rfl⟩
      intro i hi
      rcases hi with hi | rfl
      · exact hnone i hi
      · exact hj'

/-- **Run lemma.** The map from a node to the interface to it. -/
theorem ArbiterPtop.saveInterfaces_spec (hwf : t.WellFormed) (hlt : t.undirectedEdges.length < 2 ^ 31) :
    ∃ m, ArbiterPtop.saveInterfaces t links.interfaceIdxsForUndirectedEdges v = .ok m ∧
      (m.length : Int) = t.numNodes ∧ ∀ d k, 0 ≤ d → d < t.numNodes → (vectorAt m d = .ok k ↔
        EntryAfter t links.interfaceIdxsForUndirectedEdges v (upTo t.numUndirectedEdges) d k) := by
  refine foldlM_total (fun is m => (m.length : Int) = t.numNodes ∧ ∀ d k, 0 ≤ d → d < t.numNodes →
    (vectorAt m d = .ok k ↔ EntryAfter t links.interfaceIdxsForUndirectedEdges v is d k))
    (fun is i todo m hsplit ⟨hlen, hentries⟩ => ?_) ⟨?_, ?_⟩
  · have hi : i ∈ upTo t.numUndirectedEdges := by rw [hsplit]; simp
    obtain ⟨hi0, hilt⟩ := mem_upTo.mp hi
    rw [hwf.numUndirectedEdges_eq] at hilt
    obtain ⟨m', hsave, hlen', hentries'⟩ :=
      ArbiterPtop.saveInterface_spec (i := i.toNat) (v := v) hw hwf hlen (by omega)
    rw [Int.toNat_of_nonneg hi0] at hsave
    refine ⟨m', ?_, hlen', ?_⟩
    · rw [hsave, ok_bind, int32_of_mem ⟨by omega, by omega⟩, ok_bind]
    · intro d k h0 hn
      have hnodup := nodup_upTo t.numUndirectedEdges
      rw [hsplit, List.nodup_append] at hnodup
      have hpos : ∀ i' ∈ is, 0 ≤ i' := fun i' hi' =>
        (mem_upTo.mp (hsplit ▸ List.mem_append_left _ hi')).1
      rw [hentries', hentries d k h0 hn, entryAfter_concat hwf
        (fun hmem => hnodup.2.2 i hmem i List.mem_cons_self rfl) hi0 hpos]
  · rw [List.length_replicate]
    exact Int.toNat_of_nonneg hwf.numNodes_nonneg
  · intro d k h0 hn
    rw [vectorAt_eq_ok, List.getElem?_replicate, if_pos (by omega)]
    simp [EntryAfter, h0, eq_comm]

/-- **The arbiter of a node.** Its map is non-zero exactly on the neighbours, and the entry of a
    neighbour is the interface attached to the link to it. -/
theorem ArbiterPtop.create_spec (hwf : t.WellFormed)
    (haddr : ns3.AddressesOk (2 * t.undirectedEdges.length)) {thisNode : Nat}
    (hv : (thisNode : Int) < t.numNodes) :
    ∃ arbiter, ArbiterPtop.create t links thisNode = .ok arbiter ∧
      arbiter.toArbiter = Arbiter.create links.network thisNode ∧ arbiter.nodeId = thisNode ∧
      arbiter.topology = t ∧
      (∀ d, t.graph.Adj thisNode d → ∃ k, vectorAt arbiter.neighborNodeIdToIfIdx d = .ok k ∧
        IsInterfaceTo links thisNode d k) ∧
      ∀ d, 0 ≤ d → d < t.numNodes → ¬ t.graph.Adj thisNode d →
        vectorAt arbiter.neighborNodeIdToIfIdx d = .ok 0 := by
  have hsmall := haddr.lt
  have hlt := hwf.numNodes_lt
  have hid : (Arbiter.create links.network thisNode).nodeId = thisNode :=
    toInt32_of_mem ⟨by omega, by omega⟩
  obtain ⟨m, hrun, -, hentries⟩ :=
    ArbiterPtop.saveInterfaces_spec (v := thisNode) hw hwf (by omega)
  refine ⟨⟨Arbiter.create links.network thisNode, t, m⟩, ?_, rfl, hid, rfl, ?_, ?_⟩
  · simp only [ArbiterPtop.create, hid, hrun, ok_bind]
  · intro d hadj
    obtain ⟨i, k, h⟩ := hw.exists_edgeInterface hwf hadj
    obtain ⟨h0, hd⟩ := hwf.adj_bounds hadj.symm
    refine ⟨k, (hentries d k h0 hd).mpr (.inl ⟨i, ?_, by simpa using h⟩), hw.isInterfaceTo h⟩
    obtain ⟨e, -, he, -⟩ := h
    have hi := (List.getElem?_eq_some_iff.mp he).1
    rw [mem_upTo, hwf.numUndirectedEdges_eq]
    omega
  · intro d h0 hd hnadj
    exact (hentries d 0 h0 hd).mpr (.inr ⟨fun i _ k' h => hnadj (h.adj hwf), rfl⟩)

end Interfaces

/-! ## Decisions -/

section Decisions

variable {t : TopologyPtop} {Packet : Type} {topologyPtopDecide : TopologyPtopDecide Packet}
  {arbiter : ArbiterPtop} {src target : Int} {pkt : Packet} {ipHeader : Ipv4Header} {request : Bool}
  {neighbors : OrdSet Int} {d : Int}

theorem ArbiterResult.create_outOf {k : Nat} (hk : k ≠ 0) :
    ArbiterResult.create false k 0 = .ok (.outOf k hk) := by
  unfold ArbiterResult.create
  simp [hk, ArbiterResult.outOf]

theorem ArbiterResult.create_noRoute : ArbiterResult.create true 0 0 = .ok .noRoute := rfl

variable (hneighbors : arbiter.topology.getAdjacencyList arbiter.nodeId = .ok neighbors)
  (hd : topologyPtopDecide src target neighbors pkt ipHeader request = .ok d)

include hneighbors hd

/-- A neighbour is decided: its interface. -/
theorem ArbiterPtop.decide_neighbor (h0 : 0 ≤ d) (hlt : d < arbiter.topology.numNodes) {k : Nat}
    (hk : k ≠ 0) (hat : vectorAt arbiter.neighborNodeIdToIfIdx d = .ok k) :
    arbiter.decide topologyPtopDecide src target pkt ipHeader request = .ok (.outOf k hk) := by
  unfold ArbiterPtop.decide
  rw [hneighbors, ok_bind, hd, ok_bind, if_pos (by omega), throwIf_of_not (by omega), ok_bind, hat,
    ok_bind, throwIf_of_not hk, ok_bind, ArbiterResult.create_outOf hk]

/-- Nothing is decided: no route. -/
theorem ArbiterPtop.decide_none (hnone : d = -1) :
    arbiter.decide topologyPtopDecide src target pkt ipHeader request = .ok .noRoute := by
  subst hnone
  unfold ArbiterPtop.decide
  rw [hneighbors, ok_bind, hd, ok_bind, if_neg (by omega), ArbiterResult.create_noRoute]

/-- Anything else throws. -/
theorem ArbiterPtop.decide_other (hne : d ≠ -1)
    (hat : 0 ≤ d → d < arbiter.topology.numNodes → vectorAt arbiter.neighborNodeIdToIfIdx d = .ok 0) :
    ∃ what, arbiter.decide topologyPtopDecide src target pkt ipHeader request
      = .error (.runtimeError what) := by
  unfold ArbiterPtop.decide
  rw [hneighbors, ok_bind, hd, ok_bind, if_pos hne]
  by_cases hrange : d < 0 ∨ d ≥ arbiter.topology.numNodes
  · rw [throwIf_of hrange]
    exact ⟨_, rfl⟩
  · rw [throwIf_of_not hrange, ok_bind, hat (by omega) (by omega), ok_bind, throwIf_of rfl]
    exact ⟨_, rfl⟩

end Decisions

end BasicSim
