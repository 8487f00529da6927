import BasicSim.Core.Correctness.ArbiterEcmp

/-!
# `Core.Correctness.EcmpTables` — the distance table and the candidate lists, exactly

What `CalculateGlobalState` computes, as a function of the topology: the distance table after the triple
loop holds the hop distances and nothing on the way leaves its type or the table; the candidate lists
are the shortest-path next hops in ascending order, and they do not depend on the order in which the
topology file lists the edges.

## Contents
- **The loop as a list of rounds.** `iterations`, `floydWarshall_eq`; before every round the array
  follows a table (`before_round`).
- **The distance table.** `ExactDistances`.
- **The order of the hops.** Strictly sorted edges make strictly sorted lists (`closerHops_sorted`).
- **The candidate lists.** `candidateList`, `IsCandidate`.
-/

namespace BasicSim

open Fallible

namespace ArbiterEcmp

variable {n : Int} {arr : RawArray Int}

/-! ## The loop as a list of rounds -/

/-- One round `(k, i, j)` of the triple loop. -/
structure Round where
  k : Int
  i : Int
  j : Int

/-- The rounds of the triple loop, in order. -/
def iterations (n : Int) : List Round :=
  (upTo n).flatMap fun k => (upTo n).flatMap fun i => (upTo n).map fun j => ⟨k, i, j⟩

/-- What the triple loop does in one round. -/
def relaxRound (n : Int) (dist : RawArray Int) (r : Round) : Except Exc (RawArray Int) :=
  relaxCell n r.k r.i r.j dist

theorem floydWarshall_eq (n : Int) (dist : RawArray Int) :
    floydWarshall n dist = (iterations n).foldlM (relaxRound n) dist := by
  unfold floydWarshall iterations
  simp only [foldlM_flatMap, List.foldlM_map, relaxRound]

theorem mem_iterations {r : Round} :
    r ∈ iterations n ↔ r.k ∈ upTo n ∧ r.i ∈ upTo n ∧ r.j ∈ upTo n := by
  obtain ⟨k, i, j⟩ := r
  unfold iterations
  simp only [List.mem_flatMap, List.mem_map, Round.mk.injEq]
  constructor
  · rintro ⟨k, hk, i, hi, j, hj, rfl, rfl, rfl⟩
    exact ⟨hk, hi, hj⟩
  · rintro ⟨hk, hi, hj⟩
    exact ⟨k, hk, i, hi, j, hj, rfl, rfl, rfl⟩

/-- **Run lemma.** Up to any round, the loop succeeds and the array follows a table. -/
theorem before_round {d : Int → Int → Int} (h : Follows n arr d) {done todo : List Round}
    (hl : iterations n = done ++ todo) :
    ∃ arr', done.foldlM (relaxRound n) arr = .ok arr' ∧ ∃ d', Follows n arr' d' := by
  refine foldlM_total (fun _ arr => ∃ d', Follows n arr d') ?_ ⟨d, h⟩
  intro pre r post arr hd hf
  obtain ⟨d', hf⟩ := hf
  have hr : r ∈ iterations n := by rw [hl, hd]; simp
  obtain ⟨hk, hi, hj⟩ := mem_iterations.mp hr
  obtain ⟨arr', hrun, hf'⟩ := relaxCell_sim hf hk hi hj
  exact ⟨arr', hrun, _, hf'⟩

/-- What one round reads and adds up: all three reads are inside the table, and the sum of the two
    parts of the detour is an `int32_t`. -/
def RoundInRange (n : Int) (arr : RawArray Int) (r : Round) : Prop :=
  ∃ direct toK fromK, arr.read (n * r.i + r.j) = .ok direct ∧ arr.read (n * r.i + r.k) = .ok toK ∧
    arr.read (n * r.k + r.j) = .ok fromK ∧ InInt32 (toK + fromK)

theorem roundInRange {d : Int → Int → Int} (h : Follows n arr d) {r : Round}
    (hr : r ∈ iterations n) : RoundInRange n arr r := by
  obtain ⟨hk, hi, hj⟩ := mem_iterations.mp hr
  have h₁ := h.nonneg r.i r.k
  have h₂ := h.nonneg r.k r.j
  have h₃ : d r.i r.k ≤ 100000000 := h.le_inf r.i r.k
  have h₄ : d r.k r.j ≤ 100000000 := h.le_inf r.k r.j
  exact ⟨_, _, _, h.table.read hi hj rfl, h.table.read hi hk rfl, h.table.read hk hj rfl,
    by omega, by omega⟩

/-! ## The distance table -/

/-- An index of the table, computed in 64 bits. -/
def IndexInRange (n i j : Int) : Prop :=
  InInt64 (n * i) ∧ InInt64 (n * i + j) ∧ 0 ≤ n * i + j ∧ n * i + j < n * n

theorem square_le (hn : 0 ≤ n) (h : n ≤ 40000) : 0 ≤ n * n ∧ n * n ≤ 1600000000 :=
  ⟨mul_nonneg hn hn, by nlinarith⟩

theorem indexInRange (hn : 0 ≤ n) (h : n ≤ 40000) {i j : Int} (hi : i ∈ upTo n) (hj : j ∈ upTo n) :
    IndexInRange n i j := by
  obtain ⟨h0, hlt⟩ := index_bounds hi hj
  obtain ⟨_, hsq⟩ := square_le hn h
  obtain ⟨hj0, _⟩ := mem_upTo.mp hj
  have hni : 0 ≤ n * i := mul_nonneg hn (mem_upTo.mp hi).1
  exact ⟨⟨by omega, by omega⟩, ⟨by omega, by omega⟩, h0, hlt⟩

/-- The array holds the hop distances of the topology, row by row. -/
structure ExactDistances (topology : TopologyPtop) (arr : RawArray Int) : Prop where
  length : (arr.length : Int) = topology.numNodes * topology.numNodes
  connected : ∀ i ∈ upTo topology.numNodes, ∀ j ∈ upTo topology.numNodes,
    topology.graph.Reachable i j →
      arr.read (topology.numNodes * i + j) = .ok (topology.graph.dist i j : Int) ∧
      (topology.graph.dist i j : Int) < topology.numNodes
  unconnected : ∀ i ∈ upTo topology.numNodes, ∀ j ∈ upTo topology.numNodes,
    ¬ topology.graph.Reachable i j → arr.read (topology.numNodes * i + j) = .ok 100000000
  symmetric : ∀ i ∈ upTo topology.numNodes, ∀ j ∈ upTo topology.numNodes,
    arr.read (topology.numNodes * i + j) = arr.read (topology.numNodes * j + i)

theorem exactDistances {topology : TopologyPtop} (hwf : topology.WellFormed) {d : Int → Int → Int}
    (hf : Follows topology.numNodes arr d) (hd : DistanceTable topology d) :
    ExactDistances topology arr := by
  have hread := fun i hi j hj => hf.table.read (i := i) (j := j) hi hj rfl
  refine ⟨hf.table.length, fun i hi j hj hreach => ⟨?_, ?_⟩, ?_, ?_⟩
  · rw [hread i hi j hj, hd.connected i hi j hj hreach]
  · have hlt := FloydWarshall.dist_lt_length (fun _ _ h => adj_mem_upTo hwf h) hi hreach
    rw [length_upTo] at hlt
    omega
  · intro i hi j hj hreach
    rw [hread i hi j hj, hd.unconnected i hi j hj hreach]
    rfl
  · intro i hi j hj
    rw [hread i hi j hj, hread j hj i hi]
    by_cases hreach : topology.graph.Reachable i j
    · rw [hd.connected i hi j hj hreach, hd.connected j hj i hi hreach.symm,
        SimpleGraph.dist_comm]
    · rw [hd.unconnected i hi j hj hreach, hd.unconnected j hj i hi fun h => hreach h.symm]

/-- **The distance computation is exact and never overflows.** -/
theorem calculateGlobalState_distances {config : Config} {all : Bool}
    {assignment : Option (List Int)} {topology : TopologyPtop}
    (hparse : parseTopologyGraph config all assignment = .ok topology)
    (hn : topology.numNodes ≤ 40000) :
    InInt32 (topology.numNodes * topology.numNodes) ∧
    (∀ i ∈ upTo topology.numNodes, ∀ j ∈ upTo topology.numNodes,
      IndexInRange topology.numNodes i j) ∧
    ∃ initial withEdges final,
      initializeDist topology.numNodes
        (newArray Int (toInt32 (topology.numNodes * topology.numNodes))) = .ok initial ∧
      addEdges topology.numNodes topology.undirectedEdges initial = .ok withEdges ∧
      (∀ done r todo, iterations topology.numNodes = done ++ r :: todo →
        ∃ arr, done.foldlM (relaxRound topology.numNodes) withEdges = .ok arr ∧
          RoundInRange topology.numNodes arr r) ∧
      (iterations topology.numNodes).foldlM (relaxRound topology.numNodes) withEdges = .ok final ∧
      floydWarshall topology.numNodes withEdges = .ok final ∧
      ExactDistances topology final ∧
      calculateGlobalState topology = topology.undirectedEdges.foldlM (fun state edge =>
        (upTo topology.numNodes).foldlM (fun state j =>
          addCandidates topology.numNodes final edge j state) state)
        (emptyState topology.numNodes) := by
  have hwf := TopologyPtop.wellFormed_of_parse hparse
  have hn0 := hwf.numNodes_nonneg
  obtain ⟨hsq0, hsq⟩ := square_le hn0 hn
  have hinit := initial_edgeDist hwf
  have hsound := hinit.sound (by decide)
  -- the three phases, each with the table it leaves
  obtain ⟨initial, h₁, ht₁⟩ := initializeDist_spec (table_newArray hn0 hn)
  obtain ⟨withEdges, h₂, ht₂⟩ := addEdges_spec (fun e he => edge_mem_upTo hwf he) ht₁
  obtain ⟨final, d, h₃, hf, hd⟩ := floydWarshall_exact hwf hn ht₂
  refine ⟨⟨by omega, by omega⟩, fun i hi j hj => indexInRange hn0 hn hi hj, initial, withEdges, final,
    h₁, h₂, ?_, by rw [← floydWarshall_eq, h₃], h₃, exactDistances hwf hf hd, ?_⟩
  · intro done r todo hl
    obtain ⟨arr, hrun, d', hf'⟩ := before_round ⟨ht₂, hsound.nonneg, hsound.le_inf⟩ hl
    exact ⟨arr, hrun, roundInRange hf' (by rw [hl]; simp)⟩
  · unfold calculateGlobalState
    simp only [throwIf_of_not (show ¬ topology.numNodes > 40000 by omega), ok_bind, h₁, h₂, h₃]

theorem calculateGlobalState_distances_pairTopology :
    ∃ initial withEdges final, initializeDist 2 (newArray Int 4) = .ok initial ∧
      addEdges 2 [⟨0, 1⟩] initial = .ok withEdges ∧ floydWarshall 2 withEdges = .ok final ∧
      ExactDistances pairTopology final := by
  obtain ⟨_, _, initial, withEdges, final, h₁, h₂, _, _, h₃, hd, _⟩ :=
    calculateGlobalState_distances parseTopologyGraph_pairConfig (by decide)
  exact ⟨initial, withEdges, final, h₁, h₂, h₃, hd⟩

/-! ## The order of the hops -/

section Sorted

variable {d : Int → Int → Int} {c t : Int}

/-- Only one end of an edge is `c`, so an edge adds one hop at most. -/
theorem edgeHops_sorted {e : Int64Pair} (he : e.first < e.second) :
    (edgeHops d c t e).Pairwise (· < ·) := by
  unfold edgeHops closerHop
  by_cases h₁ : c = e.first ∧ d e.first t - 1 = d e.second t
  · rw [if_pos h₁, if_neg fun h => by omega, List.append_nil]
    exact List.pairwise_singleton _ _
  · rw [if_neg h₁, List.nil_append]
    split
    · exact List.pairwise_singleton _ _
    · exact List.Pairwise.nil

/-- The neighbours of `c` below it stand in edges before those to neighbours above it. -/
theorem edgeHops_lt {e e' : Int64Pair} (he : e.first < e.second) (he' : e'.first < e'.second)
    (h : e < e') : ∀ x ∈ edgeHops d c t e, ∀ y ∈ edgeHops d c t e', x < y := by
  intro x hx y hy
  rw [Int64Pair.lt_iff] at h
  simp only [edgeHops, List.mem_append, mem_closerHop] at hx hy
  rcases hx with ⟨rfl, rfl, _⟩ | ⟨rfl, rfl, _⟩
  · rcases hy with ⟨rfl, hc, _⟩ | ⟨rfl, hc, _⟩ <;> omega
  · rcases hy with ⟨rfl, hc, _⟩ | ⟨rfl, hc, _⟩ <;> omega

/-- **Strictly sorted edges make strictly sorted lists.** -/
theorem closerHops_sorted {topology : TopologyPtop} (hwf : topology.WellFormed) :
    (closerHops topology d c t).Pairwise (· < ·) := by
  have hlt := fun e he => (hwf.edge_bounds e he).2.1
  refine List.pairwise_flatMap.mpr ⟨fun e he => edgeHops_sorted (hlt e he), ?_⟩
  exact hwf.edges_sorted.imp_of_mem fun he he' h => edgeHops_lt (hlt _ he) (hlt _ he') h

end Sorted

/-! ## The candidate lists -/

/-- The candidate list at `current` for `destination`. -/
def candidateList (state : GlobalState) (current destination : Int) :
    Except Exc (List (BitVec 32)) := do
  let row ← vectorAt state current
  vectorAt row destination

/-- `hop` is on the candidate list at `current` for `destination`. -/
def IsCandidate (state : GlobalState) (destination current hop : Int) : Prop :=
  ∃ hops, candidateList state current destination = .ok hops ∧ hop ∈ hops.map fun x => (x.toNat : Int)

section Accepted

variable {topology : TopologyPtop} {state : GlobalState} {d : Int → Int → Int}

/-- The neighbours of `a` that are one step closer to `t`. -/
def NextHop (topology : TopologyPtop) (t a b : Int) : Prop :=
  topology.graph.Adj a b ∧ topology.graph.Reachable b t ∧
    topology.graph.dist b t + 1 = topology.graph.dist a t

/-- By the distance table, the hops are the shortest-path next hops. -/
theorem mem_closerHops_iff (hwf : topology.WellFormed) (hd : DistanceTable topology d) {t : Int}
    (ht : t ∈ upTo topology.numNodes) {a b : Int} :
    b ∈ closerHops topology d a t ↔ NextHop topology t a b := by
  rw [mem_closerHops hwf, NextHop]
  refine and_congr_right ?_
  intro hadj
  have ha := adj_mem_upTo hwf hadj
  have hb := adj_mem_upTo hwf hadj.symm
  by_cases hreach : topology.graph.Reachable b t
  · have hda := hd.connected a ha t ht (hadj.reachable.trans hreach)
    have hdb := hd.connected b hb t ht hreach
    constructor
    · intro hcl
      exact ⟨hreach, by omega⟩
    · rintro ⟨_, hsucc⟩
      omega
  · -- both are out of reach, with the same entry
    have hda := hd.unconnected a ha t ht fun h => hreach (hadj.symm.reachable.trans h)
    have hdb := hd.unconnected b hb t ht hreach
    constructor
    · intro hcl
      omega
    · rintro ⟨h, _⟩
      exact absurd h hreach

/-- What is on the candidate lists, as node identifiers. -/
theorem map_toNat_toUInt32 (hwf : topology.WellFormed) (a t : Int) :
    ((closerHops topology d a t).map toUInt32).map (fun x => (x.toNat : Int))
      = closerHops topology d a t := by
  rw [List.map_map]
  refine (List.map_congr_left ?_).trans (List.map_id _)
  intro b hb
  obtain ⟨hadj, _⟩ := (mem_closerHops hwf).mp hb
  obtain ⟨h0, hlt⟩ := hwf.adj_bounds hadj.symm
  have hn := hwf.numNodes_lt
  exact toNat_toUInt32 h0 (by omega)

theorem candidateList_eq
    (hL : Lists topology.numNodes state fun c t => (closerHops topology d c t).map toUInt32)
    {a t : Int} (ha : a ∈ upTo topology.numNodes) (ht : t ∈ upTo topology.numNodes) :
    candidateList state a t = .ok ((closerHops topology d a t).map toUInt32) := by
  obtain ⟨row, hrow, _, hhops⟩ := hL.get a ha
  rw [candidateList, hrow, ok_bind, hhops t ht]

/-- The nodes have candidates, and nothing else does. -/
theorem IsCandidate.mem_upTo
    (hL : Lists topology.numNodes state fun c t => (closerHops topology d c t).map toUInt32)
    {t a b : Int} (h : IsCandidate state t a b) : a ∈ upTo topology.numNodes := by
  obtain ⟨hops, hrun, _⟩ := h
  obtain ⟨row, hrow, _⟩ := bind_eq_ok.mp hrun
  obtain ⟨h0, hget⟩ := vectorAt_eq_ok.mp hrow
  obtain ⟨hlt, _⟩ := List.getElem?_eq_some_iff.mp hget
  rw [hL.length] at hlt
  exact BasicSim.mem_upTo.mpr ⟨h0, by omega⟩

theorem isCandidate_iff (hwf : topology.WellFormed) (hd : DistanceTable topology d)
    (hL : Lists topology.numNodes state fun c t => (closerHops topology d c t).map toUInt32)
    {t : Int} (ht : t ∈ upTo topology.numNodes) {a b : Int} :
    IsCandidate state t a b ↔ NextHop topology t a b := by
  have hiff : ∀ {a}, a ∈ upTo topology.numNodes →
      (IsCandidate state t a b ↔ NextHop topology t a b) := fun {a} ha => by
    rw [IsCandidate, candidateList_eq hL ha ht]
    simp only [Except.ok.injEq, exists_eq_left', map_toNat_toUInt32 hwf,
      mem_closerHops_iff hwf hd ht]
  constructor
  · intro h
    exact (hiff (h.mem_upTo hL)).mp h
  · intro h
    exact (hiff (adj_mem_upTo hwf h.1)).mpr h

/-- A next hop exists, unless the destination is reached or out of reach. -/
theorem exists_nextHop_iff {a t : Int} :
    (∃ b, NextHop topology t a b) ↔ a ≠ t ∧ topology.graph.Reachable a t := by
  constructor
  · rintro ⟨b, hadj, hreach, hsucc⟩
    refine ⟨?_, hadj.reachable.trans hreach⟩
    intro h
    rw [h, SimpleGraph.dist_self] at hsucc
    omega
  · rintro ⟨hne, hreach⟩
    exact FloydWarshall.exists_adj_dist_succ hreach hne

end Accepted

/-- **The candidate lists are exactly the shortest-path next hops.** -/
theorem candidate_lists_exact {config : Config} {all : Bool} {assignment : Option (List Int)}
    {topology : TopologyPtop} (hparse : parseTopologyGraph config all assignment = .ok topology)
    (hn : topology.numNodes ≤ 40000) :
    ∃ state, calculateGlobalState topology = .ok state ∧
      (∀ a ∈ upTo topology.numNodes, ∀ t ∈ upTo topology.numNodes,
        ∃ hops, candidateList state a t = .ok hops ∧
          (hops.map fun x => (x.toNat : Int)).Pairwise (· < ·) ∧
          (∀ b, b ∈ (hops.map fun x => (x.toNat : Int)) ↔
            topology.graph.Adj a b ∧ topology.graph.Reachable b t ∧
              topology.graph.dist b t + 1 = topology.graph.dist a t) ∧
          (hops = [] ↔ a = t ∨ ¬ topology.graph.Reachable a t)) ∧
      (∀ s ∈ upTo topology.numNodes, ∀ t ∈ upTo topology.numNodes, ∀ path : List Int,
        path.head? = some s → path.getLast? = some t →
        (path.IsChain (IsCandidate state t) ↔
          path.IsChain topology.graph.Adj ∧ path.length = topology.graph.dist s t + 1)) ∧
      ∀ config', EdgesReordered config config' →
        ∃ topology', parseTopologyGraph config' all assignment = .ok topology' ∧
          calculateGlobalState topology' = .ok state := by
  have hwf := TopologyPtop.wellFormed_of_parse hparse
  obtain ⟨state, d, hstate, _, hd, hL⟩ := calculateGlobalState_lists hwf hn
  refine ⟨state, hstate, ?_, ?_,
    fun config' hre => ⟨topology, parseTopologyGraph_reordered hparse hre, hstate⟩⟩
  · -- the lists hold the closer hops in ascending order
    intro a ha t ht
    have hmem := fun b => mem_closerHops_iff hwf hd ht (a := a) (b := b)
    refine ⟨_, candidateList_eq hL ha ht, ?_, ?_, ?_⟩
    · rw [map_toNat_toUInt32 hwf]
      exact closerHops_sorted hwf
    · intro b
      rw [map_toNat_toUInt32 hwf]
      exact hmem b
    · rw [List.map_eq_nil_iff, List.eq_nil_iff_forall_not_mem]
      simp only [hmem, ← not_exists, exists_nextHop_iff]
      tauto
  · -- and a path of candidates is one that gets closer at every hop
    intro s hs t ht path hfirst hlast
    rw [List.IsChain.iff fun a b => isCandidate_iff hwf hd hL ht]
    exact FloydWarshall.isChain_closer_iff hfirst hlast

theorem candidate_lists_exact_pairTopology :
    ∃ state, calculateGlobalState pairTopology = .ok state ∧ ∃ hops,
      candidateList state 0 1 = .ok hops ∧
      ∀ b, b ∈ (hops.map fun x => (x.toNat : Int)) ↔ pairTopology.graph.Adj 0 b ∧
        pairTopology.graph.Reachable b 1 ∧
        pairTopology.graph.dist b 1 + 1 = pairTopology.graph.dist 0 1 := by
  obtain ⟨state, hstate, h, _⟩ := candidate_lists_exact parseTopologyGraph_pairConfig (by decide)
  obtain ⟨hops, hrun, _, hmem, _⟩ := h 0 (by decide) 1 (by decide)
  exact ⟨state, hstate, hops, hrun, hmem⟩

end ArbiterEcmp

end BasicSim
