import BasicSim.Core.Correctness.TopologyGraph
import Mathlib.Combinatorics.SimpleGraph.Basic

/-!
# `Core.Correctness.TopologyLayout` — the invariant of an accepted layout

`TopologyPtop.WellFormed` is all that the later modules know about an accepted layout: the strings it
was read from and the checks it passed do not come up again. `TopologyPtop.graph` is its graph.
-/

namespace BasicSim

open Fallible

namespace TopologyPtop

/-! ## The invariant -/

/-- What holds of every accepted layout. -/
structure WellFormed (t : TopologyPtop) : Prop where
  numNodes_nonneg : 0 ≤ t.numNodes
  numNodes_lt : t.numNodes < 2 ^ 31
  mem_allNodeIds : ∀ v, v ∈ t.allNodeIds ↔ 0 ≤ v ∧ v < t.numNodes
  servers_bounds : ∀ v ∈ t.servers, 0 ≤ v ∧ v < t.numNodes
  tors_bounds : ∀ v ∈ t.switchesWhichAreTors, 0 ≤ v ∧ v < t.numNodes
  edges_eq : t.undirectedEdges = t.undirectedEdgesSet.toList
  edge_bounds : ∀ e ∈ t.undirectedEdges, 0 ≤ e.first ∧ e.first < e.second ∧ e.second < t.numNodes
  numUndirectedEdges_eq : t.numUndirectedEdges = t.undirectedEdges.length
  adjacency : AdjacencyOf t.numNodes t.adjacencyList t.undirectedEdges

variable {t : TopologyPtop} {g : GraphSpec} {config : Config}

/-- The layout of a well-formed topology satisfies the invariant. -/
theorem Realises.wellFormed (h : t.Realises g) (hw : g.WrittenIn config) (hwf : g.WellFormed)
    (hlt : g.numNodes < 2 ^ 31) : t.WellFormed := by
  obtain ⟨_, _, hn⟩ := hw.numNodes
  obtain ⟨_, _, hslit⟩ := hw.servers
  obtain ⟨_, _, htlit⟩ := hw.tors
  obtain ⟨_, _, helit⟩ := hw.edges
  -- a sorted list and a set with the same elements are the same
  have hsorted : t.undirectedEdges = t.undirectedEdgesSet.toList := by
    have hset : (⟨t.undirectedEdges, h.undirectedEdges_sorted⟩ : OrdSet Int64Pair)
        = t.undirectedEdgesSet := OrdSet.ext_mem fun e => by
      rw [h.undirectedEdgesSet, OrdSet.mem_ofList, ← h.undirectedEdges_perm.mem_iff]
      exact Iff.rfl
    exact congrArg OrdSet.toList hset
  refine ⟨?_, ?_, ?_, ?_, ?_, hsorted, ?_, ?_, ?_, ?_⟩
  · rw [h.numNodes]; exact parsePositiveInt64_nonneg hn
  · rw [h.numNodes]; exact hlt
  · intro v
    rw [h.allNodeIds, h.numNodes, mem_nodeIds]
  · intro v hv
    rw [h.servers] at hv; rw [h.numNodes]; exact hslit.mem_bounds hwf.servers_lt v hv
  · intro v hv
    rw [h.tors] at hv; rw [h.numNodes]; exact htlit.mem_bounds hwf.tors_lt v hv
  · intro e he
    rw [h.undirectedEdges_perm.mem_iff] at he
    rw [h.numNodes]
    exact ⟨(helit.edge_nonneg e he).1, hwf.edges_lt e he⟩
  · rw [h.numUndirectedEdges, h.undirectedEdges_perm.length_eq, hwf.edges_length]
  · rw [h.numNodes]; exact h.adjacency.length
  · intro a s hs b
    rw [h.adjacency.mem a s hs b, h.undirectedEdges_perm.mem_iff, h.undirectedEdges_perm.mem_iff]

/-- **Every accepted layout satisfies the invariant.** -/
theorem wellFormed_of_parse {all : Bool} {assignment : Option (List Int)}
    (h : parseTopologyGraph config all assignment = .ok t) : t.WellFormed := by
  obtain ⟨g, hw, hwf, hlt, _, hr, _⟩ := parseTopologyGraph_realises h
  exact hr.wellFormed hw hwf hlt

theorem WellFormed.edges_sorted (h : t.WellFormed) : t.undirectedEdges.Pairwise (· < ·) :=
  h.edges_eq ▸ t.undirectedEdgesSet.sorted

theorem WellFormed.edges_nodup (h : t.WellFormed) : t.undirectedEdges.Nodup :=
  h.edges_eq ▸ t.undirectedEdgesSet.nodup

theorem WellFormed.mem_edgesSet (h : t.WellFormed) {e : Int64Pair} :
    e ∈ t.undirectedEdgesSet ↔ e ∈ t.undirectedEdges := by
  rw [h.edges_eq]; exact Iff.rfl

/-! ## The graph -/

/-- The undirected edge graph. -/
def graph (t : TopologyPtop) : SimpleGraph Int :=
  SimpleGraph.fromRel fun a b => (⟨a, b⟩ : Int64Pair) ∈ t.undirectedEdges

theorem WellFormed.adj_iff (h : t.WellFormed) {a b : Int} :
    t.graph.Adj a b ↔
      (⟨a, b⟩ : Int64Pair) ∈ t.undirectedEdges ∨ (⟨b, a⟩ : Int64Pair) ∈ t.undirectedEdges := by
  rw [graph, SimpleGraph.fromRel_adj, and_iff_right_iff_imp]
  rintro (he | he) rfl
  · exact absurd (h.edge_bounds _ he).2.1 (lt_irrefl _)
  · exact absurd (h.edge_bounds _ he).2.1 (lt_irrefl _)

/-- The ends of an edge are nodes. -/
theorem WellFormed.adj_bounds (h : t.WellFormed) {a b : Int} (hab : t.graph.Adj a b) :
    0 ≤ a ∧ a < t.numNodes := by
  rcases h.adj_iff.mp hab with he | he
  · obtain ⟨h0, hlt, hn⟩ := h.edge_bounds _ he
    exact ⟨h0, lt_trans hlt hn⟩
  · obtain ⟨h0, hlt, hn⟩ := h.edge_bounds _ he
    exact ⟨le_trans h0 (le_of_lt hlt), hn⟩

/-- The adjacency set of a node is its neighbourhood. -/
theorem WellFormed.mem_adjacencyList (h : t.WellFormed) {a b : Int} {s : OrdSet Int}
    (hs : t.getAdjacencyList a = .ok s) : b ∈ s ↔ t.graph.Adj a b := by
  rw [h.adj_iff]
  exact h.adjacency.mem a s hs b

/-- Every node has an adjacency set. -/
theorem WellFormed.exists_adjacencyList (h : t.WellFormed) {a : Int} (h0 : 0 ≤ a)
    (ha : a < t.numNodes) : ∃ s, t.getAdjacencyList a = .ok s :=
  vectorAt_of_lt h0 (by rw [h.adjacency.length]; omega)

/-- `b` is in the adjacency set of `a`. -/
def IsNeighbor (t : TopologyPtop) (a b : Int) : Prop := ∃ s, t.getAdjacencyList a = .ok s ∧ b ∈ s

theorem WellFormed.isNeighbor_iff (h : t.WellFormed) {a b : Int} :
    t.IsNeighbor a b ↔ t.graph.Adj a b := by
  constructor
  · rintro ⟨s, hs, hb⟩
    exact (h.mem_adjacencyList hs).mp hb
  · intro hab
    obtain ⟨h0, ha⟩ := h.adj_bounds hab
    obtain ⟨s, hs⟩ := h.exists_adjacencyList h0 ha
    exact ⟨s, hs, (h.mem_adjacencyList hs).mpr hab⟩

/-! ## Links -/

theorem getLinks_eq_flatMap (t : TopologyPtop) :
    t.getLinks = t.undirectedEdges.flatMap fun e => [e, e.swap] := by
  suffices ∀ acc : List Int64Pair, t.undirectedEdges.foldl (fun links e => links ++ [e, e.swap]) acc
      = acc ++ t.undirectedEdges.flatMap fun e => [e, e.swap] from this []
  induction t.undirectedEdges with
  | nil => simp
  | cons e es ih =>
      intro acc
      rw [List.foldl_cons, ih, List.flatMap_cons, List.append_assoc]

/-- The links are both directions of the edges. -/
theorem mem_getLinks {k : Int64Pair} :
    k ∈ t.getLinks ↔ k ∈ t.undirectedEdges ∨ k.swap ∈ t.undirectedEdges := by
  rw [getLinks_eq_flatMap, List.mem_flatMap]
  constructor
  · rintro ⟨e, he, hk⟩
    rw [List.mem_cons, List.mem_singleton] at hk
    rcases hk with rfl | rfl
    · exact .inl he
    · exact .inr he
  · rintro (hk | hk)
    · exact ⟨k, hk, by simp⟩
    · exact ⟨k.swap, hk, by simp⟩

theorem WellFormed.adj_iff_mem_getLinks (h : t.WellFormed) {a b : Int} :
    t.graph.Adj a b ↔ (⟨a, b⟩ : Int64Pair) ∈ t.getLinks := by
  rw [h.adj_iff, mem_getLinks]
  exact Iff.rfl

/-- No link is listed twice: the two directions of an edge differ, and those of different edges too. -/
theorem WellFormed.nodup_getLinks (h : t.WellFormed) : t.getLinks.Nodup := by
  rw [getLinks_eq_flatMap, List.nodup_flatMap]
  constructor
  · intro e he
    have hlt := (h.edge_bounds e he).2.1
    have hne : e ≠ e.swap := fun heq => by
      have := congrArg Int64Pair.first heq
      rw [Int64Pair.swap_first] at this
      omega
    simp [hne]
  · refine h.edges_nodup.imp_of_mem fun {e f} he hf hne => ?_
    have hel := (h.edge_bounds e he).2.1
    have hfl := (h.edge_bounds f hf).2.1
    intro k hk hk'
    rw [List.mem_cons, List.mem_singleton] at hk hk'
    rcases hk with rfl | rfl <;> rcases hk' with h' | h'
    · exact hne h'
    · rw [h', Int64Pair.swap_first, Int64Pair.swap_second] at hel
      omega
    · rw [← h', Int64Pair.swap_first, Int64Pair.swap_second] at hfl
      omega
    · exact hne (by rw [← Int64Pair.swap_swap e, h', Int64Pair.swap_swap])

theorem WellFormed.size_getLinksSet (h : t.WellFormed) :
    t.getLinksSet.size = t.undirectedEdgesSet.size * 2 := by
  rw [getLinksSet, OrdSet.size_ofList_eq.mpr h.nodup_getLinks, OrdSet.size, ← h.edges_eq,
    getLinks_eq_flatMap]
  induction t.undirectedEdges with
  | nil => rfl
  | cons e es ih =>
      rw [List.flatMap_cons, List.length_append, ih, List.length_cons, List.length_cons,
        List.length_cons, List.length_nil]
      omega

theorem mem_getLinksSet {k : Int64Pair} : k ∈ t.getLinksSet ↔ k ∈ t.getLinks := OrdSet.mem_ofList

end TopologyPtop

/-! ## Exactness of `ParseTopologyGraph` -/

/-- **`ParseTopologyGraph` accepts exactly the well-formed topologies and builds a consistent graph.** -/
theorem parseTopologyGraph_exact (config : Config) (all : Bool) (assignment : Option (List Int))
    (hnodes : ∀ value n, config.find? "num_nodes".toList = some value →
      parsePositiveInt64 value = .ok n →
      n < 2 ^ 31 ∧ ∀ l, assignment = some l → (l.length : Int) = n) :
    ((∃ t, parseTopologyGraph config all assignment = .ok t) ↔
      ∃ g : GraphSpec, g.WrittenIn config ∧ g.WellFormed) ∧
    ∀ t, parseTopologyGraph config all assignment = .ok t →
      (∃ g : GraphSpec, g.WrittenIn config ∧ g.WellFormed ∧ t.undirectedEdges.Perm g.edges) ∧
      t.undirectedEdges.Pairwise (· < ·) ∧
      t.undirectedEdges = t.undirectedEdgesSet.toList ∧
      (∀ a b, t.IsNeighbor a b → t.IsNeighbor b a) ∧
      (∀ a, ¬ t.IsNeighbor a a) ∧
      ∀ a b, t.IsNeighbor a b ↔
        (⟨a, b⟩ : Int64Pair) ∈ t.undirectedEdges ∨ (⟨b, a⟩ : Int64Pair) ∈ t.undirectedEdges := by
  refine ⟨⟨?_, ?_⟩, ?_⟩
  · rintro ⟨t, ht⟩
    obtain ⟨g, hw, hwf, _⟩ := parseTopologyGraph_realises ht
    exact ⟨g, hw, hwf⟩
  · rintro ⟨g, hw, hwf⟩
    obtain ⟨value, hvalue, hn⟩ := hw.numNodes
    obtain ⟨hlt, hass⟩ := hnodes value g.numNodes hvalue hn
    exact parseTopologyGraph_accepts hw hwf hlt hass
  · -- what is accepted is a well-formed topology, whose neighbors are those of its graph
    intro t ht
    obtain ⟨g, hw, hwf, hlt, _, hr, _⟩ := parseTopologyGraph_realises ht
    have h := hr.wellFormed hw hwf hlt
    refine ⟨⟨g, hw, hwf, hr.undirectedEdges_perm⟩, h.edges_sorted, h.edges_eq, ?_,
      ?_, fun a b => h.isNeighbor_iff.trans h.adj_iff⟩
    · intro a b hab
      rw [h.isNeighbor_iff] at hab ⊢
      exact hab.symm
    · intro a haa
      rw [h.isNeighbor_iff] at haa
      exact t.graph.irrefl haa

/-- The smallest configuration with a server: node 0, a ToR, and node 1, a server. -/
def pairConfig : Config :=
  [("num_nodes", "2"), ("num_undirected_edges", "1"), ("switches", "set(0)"),
    ("switches_which_are_tors", "set(0)"), ("servers", "set(1)"), ("undirected_edges", "set(0-1)")].foldl
    (fun (config : Config) entry => config.insert entry.1.toList entry.2.toList) ∅

/-- The layout of `pairConfig` with all nodes as endpoints. -/
def pairTopology : TopologyPtop where
  allNodesAreEndpoints := true
  numNodes := 2
  numUndirectedEdges := 1
  switches := OrdSet.ofList [0]
  switchesWhichAreTors := OrdSet.ofList [0]
  servers := OrdSet.ofList [1]
  allNodeIds := OrdSet.ofList [0, 1]
  undirectedEdges := [⟨0, 1⟩]
  undirectedEdgesSet := OrdSet.ofList [⟨0, 1⟩]
  adjacencyList := [OrdSet.ofList [1], OrdSet.ofList [0]]
  hasZeroServers := false

theorem parseTopologyGraph_pairConfig :
    parseTopologyGraph pairConfig true none = .ok pairTopology := by decide

/-- Three switches in a line, and one without links. -/
def lineConfig : Config :=
  [("num_nodes", "4"), ("num_undirected_edges", "2"), ("switches", "set(0,1,2,3)"),
    ("switches_which_are_tors", "set(0,2)"), ("servers", "set()"), ("undirected_edges", "set(0-1,1-2)")].foldl
    (fun (config : Config) entry => config.insert entry.1.toList entry.2.toList) ∅

/-- The layout of `lineConfig` with all nodes as endpoints. -/
def lineTopology : TopologyPtop where
  allNodesAreEndpoints := true
  numNodes := 4
  numUndirectedEdges := 2
  switches := OrdSet.ofList [0, 1, 2, 3]
  switchesWhichAreTors := OrdSet.ofList [0, 2]
  servers := ∅
  allNodeIds := OrdSet.ofList [0, 1, 2, 3]
  undirectedEdges := [⟨0, 1⟩, ⟨1, 2⟩]
  undirectedEdgesSet := OrdSet.ofList [⟨0, 1⟩, ⟨1, 2⟩]
  adjacencyList := [OrdSet.ofList [1], OrdSet.ofList [0, 2], OrdSet.ofList [1], ∅]
  hasZeroServers := true

theorem parseTopologyGraph_lineConfig :
    parseTopologyGraph lineConfig true none = .ok lineTopology := by decide +kernel

theorem adj_lineTopology {a b : Int} : lineTopology.graph.Adj a b ↔
    a = 0 ∧ b = 1 ∨ a = 1 ∧ b = 0 ∨ a = 1 ∧ b = 2 ∨ a = 2 ∧ b = 1 := by
  rw [(TopologyPtop.wellFormed_of_parse parseTopologyGraph_lineConfig).adj_iff]
  simp only [lineTopology, List.mem_cons, List.not_mem_nil, or_false, Int64Pair.mk.injEq]
  omega

theorem parseTopologyGraph_exact_pairConfig :
    (∃ t, parseTopologyGraph pairConfig true none = .ok t) ↔
      ∃ g : GraphSpec, g.WrittenIn pairConfig ∧ g.WellFormed :=
  (parseTopologyGraph_exact pairConfig true none (by
    intro value n hvalue hn
    have hv : value = "2".toList := Option.some.inj (hvalue.symm.trans (by decide))
    have h2 : n = 2 := Except.ok.inj (hn.symm.trans (by rw [hv]; decide))
    rw [h2]
    exact ⟨by decide, fun l hl => nomatch hl⟩)).1

end BasicSim
