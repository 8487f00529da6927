import BasicSim.Core.Correctness.ExpUtil
import BasicSim.Core.TopologyPtop

/-!
# `Core.Correctness.TopologyGraph` — which topologies are accepted, and what is then built

`GraphSpec` is what a topology configuration spells out, free of strings; `GraphSpec.WellFormed` says
when that is a topology. `ParseTopologyGraph` accepts exactly the configurations that spell out a
well-formed one, and builds the layout of it.

## Contents
- **The abstract topology.** `GraphSpec`, `WrittenIn`, `WellFormed`.
- **The loops.** `createNodes`, the edge items, and the edge loop (`EdgeState.Describes`).
- **The checks.** Each cardinality check stands for the set statement it is meant to be.
- **Acceptance.** `parseTopologyGraph_realises`, `parseTopologyGraph_accepts`.
- **Reordered edges.** The order in which the edges are written is lost
  (`parseTopologyGraph_reordered`).
-/

namespace BasicSim

open Fallible

/-! ## The abstract topology -/

/-- What a topology configuration spells out; lists are in the order they are written. -/
structure GraphSpec where
  numNodes : Int
  numUndirectedEdges : Int
  switches : List Int
  tors : List Int
  servers : List Int
  edges : List Int64Pair

/-- The configuration has the property, with a value that satisfies `P`. -/
def ConfigHas (config : Config) (key : String) (P : Str → Prop) : Prop :=
  ∃ value, config.find? key.toList = some value ∧ P value

/-- The item splits at `-` into exactly two non-negative integers, the ends of the pair. -/
def IsEdgeItem (item : Str) (e : Int64Pair) : Prop :=
  ∃ l r, item.splitOn '-' = [l, r] ∧
    parsePositiveInt64 l = .ok e.first ∧ parsePositiveInt64 r = .ok e.second

/-- The configuration spells out `g`. -/
structure GraphSpec.WrittenIn (g : GraphSpec) (config : Config) : Prop where
  numNodes : ConfigHas config "num_nodes" (ReadAs parsePositiveInt64 · g.numNodes)
  numUndirectedEdges :
    ConfigHas config "num_undirected_edges" (ReadAs parsePositiveInt64 · g.numUndirectedEdges)
  switches : ConfigHas config "switches" (IsSetLiteral (ReadAs parsePositiveInt64) · g.switches)
  tors :
    ConfigHas config "switches_which_are_tors" (IsSetLiteral (ReadAs parsePositiveInt64) · g.tors)
  servers : ConfigHas config "servers" (IsSetLiteral (ReadAs parsePositiveInt64) · g.servers)
  edges : ConfigHas config "undirected_edges" (IsSetLiteral IsEdgeItem · g.edges)

/-- The topology is well formed. -/
structure GraphSpec.WellFormed (g : GraphSpec) : Prop where
  switches_lt : ∀ v ∈ g.switches, v < g.numNodes
  tors_lt : ∀ v ∈ g.tors, v < g.numNodes
  servers_lt : ∀ v ∈ g.servers, v < g.numNodes
  disjoint : ∀ v ∈ g.servers, v ∉ g.switches
  cover : ∀ v, v ∈ g.servers ∨ v ∈ g.switches ↔ 0 ≤ v ∧ v < g.numNodes
  tors_subset : ∀ v ∈ g.tors, v ∈ g.switches
  edges_lt : ∀ e ∈ g.edges, e.first < e.second ∧ e.second < g.numNodes
  edges_length : (g.edges.length : Int) = g.numUndirectedEdges
  servers_tors : ∀ v ∈ g.servers, ∀ e ∈ g.edges,
    (e.first = v → e.second ∈ g.tors) ∧ (e.second = v → e.first ∈ g.tors)

theorem getParamOrFail_eq_ok {config : Config} {key : String} {value : Str} :
    getParamOrFail key.toList config = .ok value ↔ config.find? key.toList = some value := by
  unfold getParamOrFail
  cases config.find? key.toList <;> simp

/-! ## The node loop -/

/-- The node identifiers `0, …, n - 1`. -/
def nodeIds (n : Int) : OrdSet Int := OrdSet.ofList (upTo n)

@[simp] theorem mem_nodeIds {n v : Int} : v ∈ nodeIds n ↔ 0 ≤ v ∧ v < n := by
  rw [nodeIds, OrdSet.mem_ofList, mem_upTo]

theorem size_nodeIds (n : Int) : (nodeIds n).size = n.toNat := by
  rw [nodeIds, OrdSet.size_ofList_eq.mpr (nodup_upTo n), length_upTo]

/-- The node loop returns below `2 ^ 31` nodes, with an empty adjacency set for each. -/
theorem createNodes_of_lt {n : Int} (h : n < 2 ^ 31) :
    createNodes n = .ok (nodeIds n, List.replicate n.toNat ∅) := by
  obtain ⟨⟨ids, adj⟩, hrun, hids, hadj⟩ := foldlM_total
    (f := fun ((allNodeIds, adjacencyList) : OrdSet Int × List (OrdSet Int)) (i : Nat) => do
      let _ ← int32 ((i : Int) + 1)
      .ok (allNodeIds.insert (i : Int), adjacencyList ++ [∅]))
    (fun done st => (∀ v, v ∈ st.1 ↔ v ∈ done.map (fun i : Nat => (i : Int))) ∧
      st.2 = List.replicate done.length ∅)
    (l := List.range n.toNat)
    (fun done i todo st hl hst => by
      have hi : i ∈ List.range n.toNat := by rw [hl]; simp
      rw [List.mem_range] at hi
      refine ⟨(st.1.insert (i : Int), st.2 ++ [∅]), ?_, ?_, ?_⟩
      · show (int32 ((i : Int) + 1) >>= _) = _
        rw [int32_of_mem ⟨by omega, by omega⟩, ok_bind]
      · intro v
        rw [OrdSet.mem_insert, hst.1, List.map_append, List.mem_append, or_comm]
        simp
      · rw [hst.2, List.length_append, List.length_singleton, List.replicate_succ'])
    (s := (∅, [])) ⟨fun v => by simp, rfl⟩
  rw [List.length_range] at hadj
  have heq : ids = nodeIds n := OrdSet.ext_mem fun v => by
    rw [hids, nodeIds, OrdSet.mem_ofList, upTo]
  unfold createNodes
  rw [hrun, ← hadj, heq]

/-- From `2 ^ 31` nodes on the counter of the node loop overflows. -/
theorem createNodes_lt {n : Int} {r : OrdSet Int × List (OrdSet Int)} (h : createNodes n = .ok r) :
    n < 2 ^ 31 := by
  by_contra hn
  have hmem : 2 ^ 31 - 1 ∈ List.range n.toNat := List.mem_range.mpr (by omega)
  obtain ⟨st, st', hstep⟩ := foldlM_step_of_eq_ok h hmem
  obtain ⟨_, hint, _⟩ := bind_eq_ok.mp hstep
  exact absurd (int32_eq_ok.mp hint).1 (by decide)

/-! ## The edge loop -/

/-- An edge item is accepted when it stands for a pair whose ends ascend and exist. -/
theorem parseUndirectedEdge_eq_ok {n : Int} {s : Str} {e : Int64Pair} :
    parseUndirectedEdge n s = .ok e ↔ IsEdgeItem s e ∧ e.first < e.second ∧ e.second < n := by
  unfold parseUndirectedEdge IsEdgeItem
  rw [bind_eq_ok]
  simp only [show "-".toList = ['-'] from rfl, splitStringExpected_two_char]
  constructor
  · rintro ⟨_, ⟨l, r, rfl, hsplit⟩, h⟩
    obtain ⟨a, b, ha, hb, h⟩ := parsePair_eq_ok.mp h
    simp only [throwIf_bind_eq_ok] at h
    obtain ⟨hne, ha', hb', hlt, heq⟩ := h
    cases heq
    exact ⟨⟨l, r, hsplit, ha, hb⟩, by show a < b; omega, not_le.mp hb'⟩
  · rintro ⟨⟨l, r, hsplit, ha, hb⟩, hlt, hn⟩
    refine ⟨_, ⟨l, r, rfl, hsplit⟩, parsePair_eq_ok.mpr ⟨_, _, ha, hb, ?_⟩⟩
    simp only [throwIf_bind_eq_ok]
    exact ⟨by omega, by omega, by omega, by omega, trivial⟩

theorem IsEdgeItem.nonneg {s : Str} {e : Int64Pair} (h : IsEdgeItem s e) :
    0 ≤ e.first ∧ 0 ≤ e.second := by
  obtain ⟨l, r, _, ha, hb⟩ := h
  exact ⟨parsePositiveInt64_nonneg ha, parsePositiveInt64_nonneg hb⟩

/-- The edges of an accepted set literal, item by item. -/
theorem forall₂_parseUndirectedEdge {n : Int} {items : List Str} {edges : List Int64Pair} :
    List.Forall₂ (ReadAs (parseUndirectedEdge n)) items edges ↔
      List.Forall₂ IsEdgeItem items edges ∧ ∀ e ∈ edges, e.first < e.second ∧ e.second < n := by
  constructor
  · intro h
    refine ⟨h.imp fun _ _ h => (parseUndirectedEdge_eq_ok.mp h).1, ?_⟩
    intro e he
    obtain ⟨_, _, hread⟩ := exists_left_of_forall₂ h he
    exact (parseUndirectedEdge_eq_ok.mp hread).2
  · rintro ⟨h, hlt⟩
    induction h with
    | nil => exact .nil
    | cons hhd _ ih =>
        exact .cons (parseUndirectedEdge_eq_ok.mpr ⟨hhd, hlt _ List.mem_cons_self⟩)
          (ih fun e he => hlt e (List.mem_cons_of_mem _ he))

theorem isSetLiteral_parseUndirectedEdge {n : Int} {value : Str} {edges : List Int64Pair} :
    IsSetLiteral (ReadAs (parseUndirectedEdge n)) value edges ↔
      IsSetLiteral IsEdgeItem value edges ∧ ∀ e ∈ edges, e.first < e.second ∧ e.second < n := by
  unfold IsSetLiteral
  simp only [forall₂_parseUndirectedEdge]
  constructor
  · rintro ⟨items, hlit, ⟨hf, hlt⟩, hnd⟩
    exact ⟨⟨items, hlit, hf, hnd⟩, hlt⟩
  · rintro ⟨⟨items, hlit, hf, hnd⟩, hlt⟩
    exact ⟨items, hlit, ⟨hf, hlt⟩, hnd⟩

theorem IsSetLiteral.edge_nonneg {value : Str} {edges : List Int64Pair}
    (h : IsSetLiteral IsEdgeItem value edges) : ∀ e ∈ edges, 0 ≤ e.first ∧ 0 ≤ e.second := by
  obtain ⟨items, _, hf, _⟩ := h
  intro e he
  obtain ⟨_, _, hitem⟩ := exists_left_of_forall₂ hf he
  exact hitem.nonneg

/-- The adjacency sets hold exactly these edges, in both directions. -/
structure AdjacencyOf (n : Int) (adjacencyList : List (OrdSet Int)) (edges : List Int64Pair) : Prop where
  length : adjacencyList.length = n.toNat
  mem : ∀ a s, vectorAt adjacencyList a = .ok s →
    ∀ b, b ∈ s ↔ (⟨a, b⟩ : Int64Pair) ∈ edges ∨ (⟨b, a⟩ : Int64Pair) ∈ edges

theorem adjacencyOf_nil (n : Int) : AdjacencyOf n (List.replicate n.toNat ∅) [] := by
  refine ⟨List.length_replicate, ?_⟩
  intro a s h b
  have hs := List.mem_of_getElem? (vectorAt_eq_ok.mp h).2
  rw [List.eq_of_mem_replicate hs]
  simp

/-- Adding one neighbour to one node's set. -/
theorem mem_modify_insert {adj : List (OrdSet Int)} {x y a b : Int} {s : OrdSet Int} (hx : 0 ≤ x)
    (h : vectorAt (adj.modify x.toNat fun ns => ns.insert y) a = .ok s) :
    ∃ s₀, vectorAt adj a = .ok s₀ ∧ (b ∈ s ↔ b ∈ s₀ ∨ (a = x ∧ b = y)) := by
  obtain ⟨ha, hget⟩ := vectorAt_eq_ok.mp h
  rw [List.getElem?_modify] at hget
  by_cases hxa : x.toNat = a.toNat
  · have hax : a = x := by omega
    simp only [if_pos hxa] at hget
    obtain ⟨s₀, hs₀, rfl⟩ := Option.map_eq_some_iff.mp hget
    refine ⟨s₀, vectorAt_eq_ok.mpr ⟨ha, hs₀⟩, ?_⟩
    rw [OrdSet.mem_insert]
    tauto
  · have hax : a ≠ x := fun h => hxa (by rw [h])
    simp only [if_neg hxa, id_map'] at hget
    exact ⟨s, vectorAt_eq_ok.mpr ⟨ha, hget⟩, by tauto⟩

/-- What one round of the edge loop does when the ends of the edge exist. -/
theorem EdgeState.add_of_lt {st : EdgeState} {e : Int64Pair} {n : Int}
    (hlen : st.adjacencyList.length = n.toNat) (h0 : 0 ≤ e.first ∧ 0 ≤ e.second)
    (hlt : e.first < e.second ∧ e.second < n) :
    st.add e = .ok ⟨st.undirectedEdges ++ [e], st.undirectedEdgesSet.insert e,
      (st.adjacencyList.modify e.first.toNat fun ns => ns.insert e.second).modify e.second.toNat
        fun ns => ns.insert e.first⟩ := by
  unfold EdgeState.add
  rw [vectorModifyAt_of_lt h0.1 (by omega), ok_bind,
    vectorModifyAt_of_lt h0.2 (by rw [List.length_modify]; omega), ok_bind]

/-- **The invariant of the edge loop**: what the state holds after the edges `done`. -/
structure EdgeState.Describes (n : Int) (st : EdgeState) (done : List Int64Pair) : Prop where
  edges : st.undirectedEdges = done
  edgesSet : st.undirectedEdgesSet = OrdSet.ofList done
  adjacency : AdjacencyOf n st.adjacencyList done

/-- **Step lemma.** One round of the edge loop adds the edge. -/
theorem EdgeState.Describes.add {n : Int} {st : EdgeState} {done : List Int64Pair} {e : Int64Pair}
    (h : st.Describes n done) (h0 : 0 ≤ e.first ∧ 0 ≤ e.second)
    (hlt : e.first < e.second ∧ e.second < n) :
    ∃ st', st.add e = .ok st' ∧ st'.Describes n (done ++ [e]) := by
  refine ⟨_, EdgeState.add_of_lt h.adjacency.length h0 hlt, ?_, ?_, ?_, ?_⟩
  · rw [h.edges]
  · rw [h.edgesSet, OrdSet.ofList, OrdSet.ofList, List.foldl_concat]
  · rw [List.length_modify, List.length_modify, h.adjacency.length]
  · intro a s hs b
    obtain ⟨s₁, hs₁, hb₁⟩ := mem_modify_insert h0.2 hs (b := b)
    obtain ⟨s₀, hs₀, hb₀⟩ := mem_modify_insert h0.1 hs₁ (b := b)
    rw [hb₁, hb₀, h.adjacency.mem a s₀ hs₀ b]
    obtain ⟨x, y⟩ := e
    simp only [List.mem_append, List.mem_singleton, Int64Pair.mk.injEq]
    tauto

/-- **Run lemma.** The edge loop succeeds exactly when every item is an accepted edge item, and its
    result then describes the edges. -/
theorem parseUndirectedEdges_eq_ok {n : Int} {stringSet : OrdSet Str} {st : EdgeState}
    (h : parseUndirectedEdges n (List.replicate n.toNat ∅) stringSet = .ok st) :
    ∃ edges, stringSet.toList.mapM (parseUndirectedEdge n) = .ok edges ∧ st.Describes n edges := by
  obtain ⟨edges, hf, hst⟩ := foldlM_inv
    (fun done st => ∃ edges, List.Forall₂ (ReadAs (parseUndirectedEdge n)) done edges ∧
      EdgeState.Describes n st edges)
    (fun done s st st' hst hstep => by
      obtain ⟨edges, hf, hdesc⟩ := hst
      obtain ⟨e, he, hadd⟩ := bind_eq_ok.mp hstep
      obtain ⟨hitem, hlt⟩ := parseUndirectedEdge_eq_ok.mp he
      obtain ⟨st₁, hadd', hst₁⟩ := hdesc.add hitem.nonneg hlt
      rw [hadd] at hadd'
      cases hadd'
      exact ⟨edges ++ [e], forall₂_concat hf he, hst₁⟩)
    ⟨[], .nil, rfl, rfl, adjacencyOf_nil n⟩ h
  exact ⟨edges, mapM_eq_ok.mpr hf, hst⟩

theorem parseUndirectedEdges_of_mapM {n : Int} {stringSet : OrdSet Str} {edges : List Int64Pair}
    (h : stringSet.toList.mapM (parseUndirectedEdge n) = .ok edges) :
    ∃ st, parseUndirectedEdges n (List.replicate n.toNat ∅) stringSet = .ok st := by
  obtain ⟨st, hst, _⟩ := foldlM_total
    (f := fun st s => do EdgeState.add st (← parseUndirectedEdge n s))
    (fun _ st => ∃ done, st.Describes n done) (l := stringSet.toList)
    (fun done s todo st hl hst => by
      obtain ⟨es, hst⟩ := hst
      have hs : s ∈ stringSet.toList := by rw [hl]; simp
      obtain ⟨e, _, he⟩ := exists_right_of_forall₂ (mapM_eq_ok.mp h) hs
      obtain ⟨hitem, hlt⟩ := parseUndirectedEdge_eq_ok.mp he
      obtain ⟨st', hadd, hst'⟩ := hst.add hitem.nonneg hlt
      exact ⟨st', by rw [he, ok_bind, hadd], _, hst'⟩)
    (s := ⟨[], ∅, List.replicate n.toNat ∅⟩) ⟨[], rfl, rfl, adjacencyOf_nil n⟩
  exact ⟨st, hst⟩

/-! ## The checks -/

theorem parseNodeSet_eq_ok {key : String} {config : Config} {n : Int} {s : OrdSet Int} :
    parseNodeSet key config n = .ok s ↔ ∃ written,
      ConfigHas config key (IsSetLiteral (ReadAs parsePositiveInt64) · written) ∧
      (∀ v ∈ written, v < n) ∧ s = OrdSet.ofList written := by
  unfold parseNodeSet ConfigHas
  simp only [bind_eq_ok, getParamOrFail_eq_ok, parseSetPositiveInt64_eq_ok]
  constructor
  · rintro ⟨value, hvalue, s', ⟨written, hlit, rfl⟩, _, hlt, heq⟩
    cases heq
    exact ⟨written, ⟨value, hvalue, hlit⟩,
      fun v hv => allItemsAreLessThan_eq_ok.mp hlt v (OrdSet.mem_ofList.mpr hv), rfl⟩
  · rintro ⟨written, ⟨value, hvalue, hlit⟩, hlt, rfl⟩
    exact ⟨value, hvalue, _, ⟨written, hlit, rfl⟩, (),
      allItemsAreLessThan_eq_ok.mpr fun v hv => hlt v (OrdSet.mem_ofList.mp hv), rfl⟩

/-- The union is as large as the number of nodes exactly when it is all of them, provided that
    nothing outside them is in it. -/
theorem size_union_eq_iff {n : Int} {s t : OrdSet Int} (hs : ∀ v ∈ s, 0 ≤ v ∧ v < n)
    (ht : ∀ v ∈ t, 0 ≤ v ∧ v < n) :
    (s.union t).size = n.toNat ↔ ∀ v, v ∈ s ∨ v ∈ t ↔ 0 ≤ v ∧ v < n := by
  constructor
  · intro hsize v
    have heq : s.union t = nodeIds n := OrdSet.eq_of_subset_of_size_le
      (fun v hv => mem_nodeIds.mpr ((OrdSet.mem_union.mp hv).elim (hs v) (ht v)))
      (by rw [size_nodeIds, hsize])
    rw [← OrdSet.mem_union, heq, mem_nodeIds]
  · intro h
    rw [← size_nodeIds n, OrdSet.ext_mem (s := s.union t) (t := nodeIds n) fun v => by
      rw [OrdSet.mem_union, mem_nodeIds, h v]]

/-- **Each cardinality check is the set statement it stands for.** -/
theorem checkLayout_eq_ok {n m : Int} {switches tors servers : OrdSet Int} {edges : List Int64Pair}
    {edgesSet : OrdSet Int64Pair} (hswitches : ∀ v ∈ switches, 0 ≤ v ∧ v < n)
    (hservers : ∀ v ∈ servers, 0 ≤ v ∧ v < n) :
    checkLayout n m switches tors servers edges edgesSet = .ok () ↔
      edges.length = m.toNat ∧ edges.length = edgesSet.size ∧ (∀ v ∈ servers, v ∉ switches) ∧
      (∀ v, v ∈ servers ∨ v ∈ switches ↔ 0 ≤ v ∧ v < n) ∧ ∀ v ∈ tors, v ∈ switches := by
  unfold checkLayout
  simp only [throwIf_bind_eq_ok, throwIf_eq_ok, not_not]
  rw [directSetIntersection, directSetIntersection, directSetUnion, OrdSet.size_eq_zero,
    size_union_eq_iff hservers hswitches, OrdSet.size_inter_eq_right]
  simp only [OrdSet.mem_inter, not_and]

/-- The server loop passes exactly when every server is adjacent to ToRs only. -/
theorem checkServers_eq_ok {n : Int} {tors servers : OrdSet Int} {adj : List (OrdSet Int)}
    {edges : List Int64Pair} (hadj : AdjacencyOf n adj edges)
    (hservers : ∀ v ∈ servers, 0 ≤ v ∧ v < n) :
    checkServers tors servers adj = .ok () ↔ ∀ v ∈ servers, ∀ e ∈ edges,
      (e.first = v → e.second ∈ tors) ∧ (e.second = v → e.first ∈ tors) := by
  unfold checkServers
  rw [forM_eq_ok]
  refine forall₂_congr ?_
  intro v hv
  obtain ⟨h0, hn⟩ := hservers v hv
  obtain ⟨s, hs⟩ := vectorAt_of_lt h0 (v := adj) (by rw [hadj.length]; omega)
  have hmem := hadj.mem v s hs
  rw [hs, ok_bind, forM_eq_ok]
  simp only [throwIf_eq_ok, not_not]
  constructor
  · intro h e he
    exact ⟨fun hv => h _ ((hmem _).mpr (.inl (by rw [← hv]; exact he))),
      fun hv => h _ ((hmem _).mpr (.inr (by rw [← hv]; exact he)))⟩
  · intro h b hb
    rcases (hmem b).mp hb with he | he
    · exact (h _ he).1 rfl
    · exact (h _ he).2 rfl

/-! ## Acceptance -/

/-- The layout `t` is the one of the topology `g`. -/
structure TopologyPtop.Realises (t : TopologyPtop) (g : GraphSpec) : Prop where
  numNodes : t.numNodes = g.numNodes
  numUndirectedEdges : t.numUndirectedEdges = g.numUndirectedEdges
  switches : t.switches = OrdSet.ofList g.switches
  tors : t.switchesWhichAreTors = OrdSet.ofList g.tors
  servers : t.servers = OrdSet.ofList g.servers
  allNodeIds : t.allNodeIds = nodeIds g.numNodes
  undirectedEdges_sorted : t.undirectedEdges.Pairwise (· < ·)
  undirectedEdges_perm : t.undirectedEdges.Perm g.edges
  undirectedEdgesSet : t.undirectedEdgesSet = OrdSet.ofList g.edges
  adjacency : AdjacencyOf g.numNodes t.adjacencyList g.edges
  hasZeroServers : t.hasZeroServers = decide (t.servers.size = 0)

/-- The adjacency sets are determined by the edges, in whatever order they are listed. -/
theorem AdjacencyOf.unique {n : Int} {adj adj' : List (OrdSet Int)} {edges edges' : List Int64Pair}
    (h : AdjacencyOf n adj edges) (h' : AdjacencyOf n adj' edges') (hperm : edges.Perm edges') :
    adj = adj' := by
  refine List.ext_getElem (by rw [h.length, h'.length]) ?_
  intro i hi hi'
  have hat : ∀ {l : List (OrdSet Int)} (hl : i < l.length), vectorAt l i = .ok l[i] := fun hl =>
    vectorAt_eq_ok.mpr ⟨by omega, by rw [Int.toNat_natCast, List.getElem?_eq_getElem hl]⟩
  apply OrdSet.ext_mem
  intro b
  rw [h.mem i _ (hat hi) b, h'.mem i _ (hat hi') b, hperm.mem_iff, hperm.mem_iff]

/-- The layout is determined by the topology, in whatever order its edges are listed. -/
theorem TopologyPtop.Realises.unique {t t' : TopologyPtop} {g : GraphSpec} {edges : List Int64Pair}
    (h : t.Realises g) (h' : t'.Realises { g with edges := edges }) (hperm : g.edges.Perm edges)
    (hall : t.allNodesAreEndpoints = t'.allNodesAreEndpoints) : t = t' := by
  have hedges : t.undirectedEdges = t'.undirectedEdges := by
    have hset : (⟨t.undirectedEdges, h.undirectedEdges_sorted⟩ : OrdSet Int64Pair)
        = ⟨t'.undirectedEdges, h'.undirectedEdges_sorted⟩ := OrdSet.ext_mem fun e =>
      (h.undirectedEdges_perm.trans (hperm.trans h'.undirectedEdges_perm.symm)).mem_iff
    exact congrArg OrdSet.toList hset
  have hset : t.undirectedEdgesSet = t'.undirectedEdgesSet := by
    rw [h.undirectedEdgesSet, h'.undirectedEdgesSet]
    exact OrdSet.ofList_congr hperm
  have hservers : t.servers = t'.servers := by rw [h.servers, h'.servers]
  have hzero : t.hasZeroServers = t'.hasZeroServers := by
    rw [h.hasZeroServers, h'.hasZeroServers, hservers]
  have hn : t.numNodes = t'.numNodes := by rw [h.numNodes, h'.numNodes]
  have hm : t.numUndirectedEdges = t'.numUndirectedEdges := by
    rw [h.numUndirectedEdges, h'.numUndirectedEdges]
  have hswitches : t.switches = t'.switches := by rw [h.switches, h'.switches]
  have htors : t.switchesWhichAreTors = t'.switchesWhichAreTors := by rw [h.tors, h'.tors]
  have hids : t.allNodeIds = t'.allNodeIds := by rw [h.allNodeIds, h'.allNodeIds]
  have hadj := h.adjacency.unique h'.adjacency hperm
  cases t
  cases t'
  simp_all only

/-- Sorting a list without repetitions puts it in strictly ascending order. -/
theorem pairwise_lt_insertionSort {l : List Int64Pair} (h : l.Nodup) :
    (l.insertionSort (· ≤ ·)).Pairwise (· < ·) := by
  have hnd : (l.insertionSort (· ≤ ·)).Nodup := (List.perm_insertionSort _ l).nodup_iff.mpr h
  exact ((List.pairwise_insertionSort (· ≤ ·) l).and hnd).imp fun h => lt_of_le_of_ne h.1 h.2

/-- What the parsing of the node sets leaves to know about their members. -/
theorem IsSetLiteral.mem_bounds {value : Str} {written : List Int} {n : Int}
    (h : IsSetLiteral (ReadAs parsePositiveInt64) value written) (hlt : ∀ v ∈ written, v < n) :
    ∀ v ∈ OrdSet.ofList written, 0 ≤ v ∧ v < n := fun v hv =>
  ⟨h.nonneg v (OrdSet.mem_ofList.mp hv), hlt v (OrdSet.mem_ofList.mp hv)⟩

/-- **Soundness of acceptance.** What `ParseTopologyGraph` accepts spells out a well-formed topology
    of less than `2 ^ 31` nodes (with an assignment for each node, if there is one), and the layout is
    the one of that topology. -/
theorem parseTopologyGraph_realises {config : Config} {all : Bool} {assignment : Option (List Int)}
    {t : TopologyPtop} (h : parseTopologyGraph config all assignment = .ok t) :
    ∃ g : GraphSpec, g.WrittenIn config ∧ g.WellFormed ∧ g.numNodes < 2 ^ 31 ∧
      (∀ l, assignment = some l → (l.length : Int) = g.numNodes) ∧ t.Realises g ∧
      t.allNodesAreEndpoints = all := by
  unfold parseTopologyGraph at h
  -- every statement of the parser succeeded
  obtain ⟨numNodesValue, hnv, h⟩ := bind_eq_ok.mp h
  obtain ⟨n, hn, h⟩ := bind_eq_ok.mp h
  obtain ⟨numEdgesValue, hmv, h⟩ := bind_eq_ok.mp h
  obtain ⟨m, hm, h⟩ := bind_eq_ok.mp h
  obtain ⟨_, hswitches, h⟩ := bind_eq_ok.mp h
  obtain ⟨_, htors, h⟩ := bind_eq_ok.mp h
  obtain ⟨_, hservers, h⟩ := bind_eq_ok.mp h
  obtain ⟨_, hnodes, h⟩ := bind_eq_ok.mp h
  obtain ⟨edgesValue, hev, h⟩ := bind_eq_ok.mp h
  obtain ⟨stringSet, hset, h⟩ := bind_eq_ok.mp h
  obtain ⟨st, hst, h⟩ := bind_eq_ok.mp h
  obtain ⟨_, hlayout, h⟩ := bind_eq_ok.mp h
  obtain ⟨_, hcheck, h⟩ := bind_eq_ok.mp h
  -- what each success says about the text
  have hn0 : 0 ≤ n := parsePositiveInt64_nonneg hn
  have hm0 : 0 ≤ m := parsePositiveInt64_nonneg hm
  have hlt : n < 2 ^ 31 := createNodes_lt hnodes
  rw [createNodes_of_lt hlt] at hnodes
  cases hnodes
  obtain ⟨switches, ⟨sv, hsv, hslit⟩, hslt, rfl⟩ := parseNodeSet_eq_ok.mp hswitches
  obtain ⟨tors, ⟨tv, htv, htlit⟩, htlt, rfl⟩ := parseNodeSet_eq_ok.mp htors
  obtain ⟨servers, ⟨rv, hrv, hrlit⟩, hrlt, rfl⟩ := parseNodeSet_eq_ok.mp hservers
  obtain ⟨edges, hedges, hdesc⟩ := parseUndirectedEdges_eq_ok hst
  obtain ⟨hlen, hsize, hdisj, hcover, hsub⟩ :=
    (checkLayout_eq_ok (hslit.mem_bounds hslt) (hrlit.mem_bounds hrlt)).mp hlayout
  have hserv := (checkServers_eq_ok hdesc.adjacency (hrlit.mem_bounds hrlt)).mp hcheck
  -- the size of the set of edges is the number of edges, so no edge is written twice
  rw [List.length_insertionSort, hdesc.edges] at hlen hsize
  have hnd : edges.Nodup := OrdSet.size_ofList_eq.mp (by rw [← hdesc.edgesSet, hsize])
  obtain ⟨written, hlit, hperm⟩ := isSetLiteral_of_mapM hset hedges hnd
  obtain ⟨helit, helt⟩ := isSetLiteral_parseUndirectedEdge.mp hlit
  simp only [OrdSet.mem_ofList] at hdisj hcover hsub hserv
  refine ⟨⟨n, m, switches, tors, servers, written⟩,
    ⟨⟨_, getParamOrFail_eq_ok.mp hnv, hn⟩, ⟨_, getParamOrFail_eq_ok.mp hmv, hm⟩, ⟨sv, hsv, hslit⟩,
      ⟨tv, htv, htlit⟩, ⟨rv, hrv, hrlit⟩, ⟨_, getParamOrFail_eq_ok.mp hev, helit⟩⟩,
    ⟨hslt, htlt, hrlt, hdisj, hcover, hsub, helt, ?_, ?_⟩, hlt, ?_, ?_⟩
  · show (written.length : Int) = m
    rw [← hperm.length_eq, hlen]
    omega
  · exact fun v hv e he => hserv v hv e (hperm.mem_iff.mpr he)
  · rintro l rfl
    obtain ⟨hl, _⟩ := throwIf_bind_eq_ok.mp h
    show (l.length : Int) = n
    omega
  · -- an assignment is only checked for its length
    have ht : t = ⟨all, n, m, OrdSet.ofList switches, OrdSet.ofList tors, OrdSet.ofList servers,
        nodeIds n, st.undirectedEdges.insertionSort (· ≤ ·), st.undirectedEdgesSet, st.adjacencyList,
        decide ((OrdSet.ofList servers).size = 0)⟩ := by
      cases assignment with
      | none => exact (Except.ok.inj h).symm
      | some l => exact (Except.ok.inj (throwIf_bind_eq_ok.mp h).2).symm
    subst ht
    refine ⟨⟨rfl, rfl, rfl, rfl, rfl, rfl, ?_, ?_, ?_, ?_, rfl⟩, rfl⟩
    · show (st.undirectedEdges.insertionSort (· ≤ ·)).Pairwise (· < ·)
      rw [hdesc.edges]
      exact pairwise_lt_insertionSort hnd
    · show (st.undirectedEdges.insertionSort (· ≤ ·)).Perm written
      rw [hdesc.edges]
      exact (List.perm_insertionSort _ _).trans hperm
    · exact hdesc.edgesSet.trans (OrdSet.ofList_congr hperm)
    · refine ⟨hdesc.adjacency.length, ?_⟩
      intro a s hs b
      rw [hdesc.adjacency.mem a s hs b, hperm.mem_iff, hperm.mem_iff]

/-- **Completeness of acceptance.** A configuration that spells out a well-formed topology of less than
    `2 ^ 31` nodes is accepted. -/
theorem parseTopologyGraph_accepts {config : Config} {all : Bool} {assignment : Option (List Int)}
    {g : GraphSpec} (hw : g.WrittenIn config) (hwf : g.WellFormed) (hlt : g.numNodes < 2 ^ 31)
    (hass : ∀ l, assignment = some l → (l.length : Int) = g.numNodes) :
    ∃ t, parseTopologyGraph config all assignment = .ok t := by
  obtain ⟨nv, hnv, hn⟩ := hw.numNodes
  obtain ⟨mv, hmv, hm⟩ := hw.numUndirectedEdges
  obtain ⟨sv, hsv, hslit⟩ := hw.switches
  obtain ⟨tv, htv, htlit⟩ := hw.tors
  obtain ⟨rv, hrv, hrlit⟩ := hw.servers
  obtain ⟨ev, hev, helit⟩ := hw.edges
  -- each part that is written is read
  have hswitches : parseNodeSet "switches" config g.numNodes = .ok (OrdSet.ofList g.switches) :=
    parseNodeSet_eq_ok.mpr ⟨_, ⟨sv, hsv, hslit⟩, hwf.switches_lt, rfl⟩
  have htors :
      parseNodeSet "switches_which_are_tors" config g.numNodes = .ok (OrdSet.ofList g.tors) :=
    parseNodeSet_eq_ok.mpr ⟨_, ⟨tv, htv, htlit⟩, hwf.tors_lt, rfl⟩
  have hservers : parseNodeSet "servers" config g.numNodes = .ok (OrdSet.ofList g.servers) :=
    parseNodeSet_eq_ok.mpr ⟨_, ⟨rv, hrv, hrlit⟩, hwf.servers_lt, rfl⟩
  obtain ⟨stringSet, edges, hset, hedges, hperm⟩ :=
    (isSetLiteral_parseUndirectedEdge.mpr ⟨helit, hwf.edges_lt⟩).exists_mapM
  obtain ⟨st, hst⟩ := parseUndirectedEdges_of_mapM hedges
  obtain ⟨edges', hedges', hdesc⟩ := parseUndirectedEdges_eq_ok hst
  rw [hedges] at hedges'
  cases hedges'
  -- and every check passes
  have hlayout : checkLayout g.numNodes g.numUndirectedEdges (OrdSet.ofList g.switches)
      (OrdSet.ofList g.tors) (OrdSet.ofList g.servers)
      (st.undirectedEdges.insertionSort (· ≤ ·)) st.undirectedEdgesSet = .ok () := by
    refine (checkLayout_eq_ok (hslit.mem_bounds hwf.switches_lt)
      (hrlit.mem_bounds hwf.servers_lt)).mpr ?_
    simp only [OrdSet.mem_ofList]
    rw [List.length_insertionSort, hdesc.edges, hdesc.edgesSet,
      OrdSet.size_ofList_eq.mpr (hperm.nodup_iff.mpr helit.nodup)]
    have hlen := hperm.length_eq
    have := hwf.edges_length
    exact ⟨by omega, rfl, hwf.disjoint, hwf.cover, hwf.tors_subset⟩
  have hcheck : checkServers (OrdSet.ofList g.tors) (OrdSet.ofList g.servers) st.adjacencyList
      = .ok () := by
    refine (checkServers_eq_ok hdesc.adjacency (hrlit.mem_bounds hwf.servers_lt)).mpr ?_
    simp only [OrdSet.mem_ofList]
    exact fun v hv e he => hwf.servers_tors v hv e (hperm.mem_iff.mp he)
  -- so that the parser goes through, statement by statement
  unfold parseTopologyGraph
  rw [getParamOrFail_eq_ok.mpr hnv, ok_bind, hn, ok_bind, getParamOrFail_eq_ok.mpr hmv, ok_bind, hm,
    ok_bind, hswitches, ok_bind, htors, ok_bind, hservers, ok_bind, createNodes_of_lt hlt, ok_bind]
  simp only [getParamOrFail_eq_ok.mpr hev, ok_bind, hset, hst, hlayout, hcheck]
  cases assignment with
  | none => exact ⟨_, rfl⟩
  | some l =>
      have hl : ¬ l.length ≠ g.numNodes.toNat := by
        have := hass l rfl
        omega
      simp only [throwIf_of_not hl, ok_bind]
      exact ⟨_, rfl⟩

/-! ## Reordered edges -/

/-- `config'` is `config` with its edges written in another order. -/
structure EdgesReordered (config config' : Config) : Prop where
  others : ∀ key, key ≠ "undirected_edges".toList → config'.find? key = config.find? key
  edges : ∃ edges edges' : List Int64Pair, edges.Perm edges' ∧
    ConfigHas config "undirected_edges" (IsSetLiteral IsEdgeItem · edges) ∧
    ConfigHas config' "undirected_edges" (IsSetLiteral IsEdgeItem · edges')

theorem ConfigHas.of_find? {config config' : Config} {key : String} {P : Str → Prop}
    (h : ConfigHas config key P) (heq : config'.find? key.toList = config.find? key.toList) :
    ConfigHas config' key P := by
  obtain ⟨value, hvalue, hP⟩ := h
  exact ⟨value, heq.trans hvalue, hP⟩

/-- An edge item stands for one pair. -/
theorem rightUnique_isEdgeItem : Relator.RightUnique IsEdgeItem := by
  intro s e e' h h'
  obtain ⟨l, r, hsplit, ha, hb⟩ := h
  obtain ⟨l', r', hsplit', ha', hb'⟩ := h'
  cases hsplit.symm.trans hsplit'
  obtain ⟨a, b⟩ := e
  cases Except.ok.inj (ha.symm.trans ha')
  cases Except.ok.inj (hb.symm.trans hb')
  rfl

theorem ConfigHas.both {config : Config} {key : String} {P Q : Str → Prop}
    (h : ConfigHas config key P) (h' : ConfigHas config key Q) : ∃ value, P value ∧ Q value := by
  obtain ⟨value, hvalue, hP⟩ := h
  obtain ⟨value', hvalue', hQ⟩ := h'
  cases hvalue.symm.trans hvalue'
  exact ⟨value, hP, hQ⟩

/-- A configuration spells out one topology. -/
theorem GraphSpec.WrittenIn.unique {g g' : GraphSpec} {config : Config} (h : g.WrittenIn config)
    (h' : g'.WrittenIn config) : g = g' := by
  obtain ⟨_, hn, hn'⟩ := h.numNodes.both h'.numNodes
  obtain ⟨_, hm, hm'⟩ := h.numUndirectedEdges.both h'.numUndirectedEdges
  obtain ⟨_, hs, hs'⟩ := h.switches.both h'.switches
  obtain ⟨_, ht, ht'⟩ := h.tors.both h'.tors
  obtain ⟨_, hr, hr'⟩ := h.servers.both h'.servers
  obtain ⟨_, he, he'⟩ := h.edges.both h'.edges
  cases g
  cases g'
  cases Except.ok.inj (hn.symm.trans hn')
  cases Except.ok.inj (hm.symm.trans hm')
  cases hs.unique (rightUnique_readAs _) hs'
  cases ht.unique (rightUnique_readAs _) ht'
  cases hr.unique (rightUnique_readAs _) hr'
  cases he.unique rightUnique_isEdgeItem he'
  rfl

/-- The order in which the edges are written has no influence on the layout. -/
theorem parseTopologyGraph_reordered {config config' : Config} {all : Bool}
    {assignment : Option (List Int)} {t : TopologyPtop}
    (h : parseTopologyGraph config all assignment = .ok t) (hre : EdgesReordered config config') :
    parseTopologyGraph config' all assignment = .ok t := by
  obtain ⟨g, hw, hwf, hlt, hass, hr, hall⟩ := parseTopologyGraph_realises h
  obtain ⟨edges, edges', hperm, ⟨value, hvalue, hlit⟩, hedges'⟩ := hre.edges
  obtain ⟨value₀, hvalue₀, hlit₀⟩ := hw.edges
  cases hvalue.symm.trans hvalue₀
  cases hlit₀.unique rightUnique_isEdgeItem hlit
  have hw' : GraphSpec.WrittenIn { g with edges := edges' } config' :=
    ⟨hw.numNodes.of_find? (hre.others _ (by decide)),
      hw.numUndirectedEdges.of_find? (hre.others _ (by decide)),
      hw.switches.of_find? (hre.others _ (by decide)), hw.tors.of_find? (hre.others _ (by decide)),
      hw.servers.of_find? (hre.others _ (by decide)), hedges'⟩
  have hwf' : GraphSpec.WellFormed { g with edges := edges' } :=
    ⟨hwf.switches_lt, hwf.tors_lt, hwf.servers_lt, hwf.disjoint, hwf.cover, hwf.tors_subset,
      fun e he => hwf.edges_lt e (hperm.mem_iff.mpr he),
      by rw [← hwf.edges_length]; exact congrArg Nat.cast hperm.length_eq.symm,
      fun v hv e he => hwf.servers_tors v hv e (hperm.mem_iff.mpr he)⟩
  obtain ⟨t', ht'⟩ : ∃ t', parseTopologyGraph config' all assignment = .ok t' :=
    parseTopologyGraph_accepts hw' hwf' hlt hass
  obtain ⟨g₁, hw₁, _, _, _, hr₁, hall₁⟩ := parseTopologyGraph_realises ht'
  cases hw₁.unique hw'
  rw [ht', hr.unique hr₁ hperm (hall.trans hall₁.symm)]

end BasicSim
