import BasicSim.Core.ArbiterEcmp
import BasicSim.Core.Correctness.TopologyLayout
import BasicSim.Lib.FloydWarshall
import Mathlib.Tactic.Linarith

/-!
# `Core.Correctness.ArbiterEcmp` — forwarding delivers over shortest paths

The flat array of the source follows the table of `FloydWarshall`, step by step; the candidate lists
then hold exactly the neighbours that are one hop closer, and a run that moves to any of them at every
node gets one hop closer each time.

## Contents
- **The distance array.** `Table` reads the array as a table; initialisation, edges and the triple loop
  keep it (`floydWarshall_sim`), so it ends with the hop distances (`DistanceTable`).
- **The candidate lists.** `Lists` and the edge loop (`calculateGlobalState_lists`); without their order
  the lists are `Candidates` (`calculateGlobalState_spec`).
- **The run.** One decision (`decideAt_closer`, `decideAt_none`), then `forward_shortest`.
-/

namespace BasicSim

open Fallible

namespace ArbiterEcmp

/-! ## The distance array -/

/-- The `n * n` array holds the table `d`, row by row. -/
structure Table (n : Int) (arr : RawArray Int) (d : Int → Int → Option Int) : Prop where
  length : (arr.length : Int) = n * n
  get : ∀ i ∈ upTo n, ∀ j ∈ upTo n, arr[(n * i + j).toNat]? = some (d i j)

variable {n : Int} {arr : RawArray Int} {d : Int → Int → Option Int}

theorem index_bounds {i j : Int} (hi : i ∈ upTo n) (hj : j ∈ upTo n) :
    0 ≤ n * i + j ∧ n * i + j < n * n := by
  rw [mem_upTo] at hi hj
  constructor
  · have := mul_nonneg (a := n) (b := i) (by omega) hi.1
    omega
  · have : n * i + n ≤ n * n := by nlinarith
    omega

/-- Different cells have different indices. -/
theorem index_inj {i j a b : Int} (hj : j ∈ upTo n) (hb : b ∈ upTo n)
    (h : n * i + j = n * a + b) : i = a ∧ j = b := by
  rw [mem_upTo] at hj hb
  have hjb : j = b := by
    have := congrArg (· % n) h
    simp only [Int.mul_add_emod_self_left] at this
    rwa [Int.emod_eq_of_lt hj.1 hj.2, Int.emod_eq_of_lt hb.1 hb.2] at this
  refine ⟨?_, hjb⟩
  have hn : n ≠ 0 := by omega
  exact mul_left_cancel₀ hn (by omega)

theorem Table.congr {d' : Int → Int → Option Int} (h : Table n arr d)
    (hd : ∀ i ∈ upTo n, ∀ j ∈ upTo n, d i j = d' i j) : Table n arr d' :=
  ⟨h.length, fun i hi j hj => by rw [h.get i hi j hj, hd i hi j hj]⟩

theorem table_newArray (hn : 0 ≤ n) (h : n ≤ 40000) :
    Table n (newArray Int (toInt32 (n * n))) fun _ _ => none := by
  have hsq : n * n ≤ 40000 * 40000 := by nlinarith
  have h0 : 0 ≤ n * n := mul_nonneg hn hn
  rw [toInt32_of_mem ⟨by omega, by omega⟩]
  refine ⟨by rw [newArray, List.length_replicate]; omega, ?_⟩
  intro i hi j hj
  have := index_bounds hi hj
  rw [newArray, List.getElem?_replicate, if_pos (by omega)]

theorem Table.read {i j x : Int} (h : Table n arr d) (hi : i ∈ upTo n) (hj : j ∈ upTo n)
    (hx : d i j = some x) : arr.read (n * i + j) = .ok x :=
  RawArray.read_of_getElem? (index_bounds hi hj).1 (by rw [h.get i hi j hj, hx])

theorem Table.write {i j : Int} (h : Table n arr d) (hi : i ∈ upTo n) (hj : j ∈ upTo n) (x : Int) :
    ∃ arr', arr.write (n * i + j) x = .ok arr' ∧ Table n arr' (FloydWarshall.set d i j (some x)) := by
  obtain ⟨h0, hlt⟩ := index_bounds hi hj
  refine ⟨_, RawArray.write_of_lt h0 (by rw [h.length]; exact hlt) x, ?_, ?_⟩
  · rw [List.length_set, h.length]
  · intro a ha b hb
    unfold FloydWarshall.set
    split_ifs with hab
    · obtain ⟨rfl, rfl⟩ := hab
      exact List.getElem?_set_self (by have := h.length; omega)
    · have := index_bounds ha hb
      have hne : (n * i + j).toNat ≠ (n * a + b).toNat := fun heq => by
        obtain ⟨rfl, rfl⟩ := index_inj hj hb (i := i) (a := a) (by omega)
        exact hab ⟨rfl, rfl⟩
      rw [List.getElem?_set_ne hne, h.get a ha b hb]

/-- 0 to itself and infinite to all others. -/
def baseDist (i j : Int) : Int := if i = j then 0 else infiniteDistance

theorem initializeDist_spec (h : Table n arr fun _ _ => none) :
    ∃ arr', initializeDist n arr = .ok arr' ∧ Table n arr' fun i j => some (baseDist i j) := by
  unfold initializeDist
  -- the rows that are done hold their values, the others are untouched
  obtain ⟨arr', hrun, ht⟩ := foldlM_total
    (f := fun dist i => (upTo n).foldlM (fun (dist : RawArray Int) j =>
      dist.write (n * i + j) (if i = j then 0 else infiniteDistance)) dist)
    (fun rows arr => Table n arr fun i j => if i ∈ rows then some (baseDist i j) else none)
    (l := upTo n)
    (fun rows i todo arr hl harr => by
      have hi : i ∈ upTo n := by rw [hl]; simp
      obtain ⟨arr', hrun, ht⟩ := foldlM_total
        (f := fun (dist : RawArray Int) j =>
          dist.write (n * i + j) (if i = j then 0 else infiniteDistance))
        (fun cells arr => Table n arr fun a b =>
          if a ∈ rows ∨ (a = i ∧ b ∈ cells) then some (baseDist a b) else none)
        (l := upTo n)
        (fun cells j todo arr hl harr => by
          have hj : j ∈ upTo n := by rw [hl]; simp
          obtain ⟨arr', hw, ht⟩ := harr.write hi hj (if i = j then 0 else infiniteDistance)
          refine ⟨arr', hw, ht.congr ?_⟩
          intro a _ b _
          unfold FloydWarshall.set
          by_cases hab : a = i ∧ b = j
          · obtain ⟨rfl, rfl⟩ := hab
            simp [baseDist]
          · rw [if_neg hab]
            refine if_congr ?_ rfl rfl
            rw [List.mem_append, List.mem_singleton]
            tauto)
        (s := arr) (harr.congr fun a _ b _ => if_congr (by simp) rfl rfl)
      refine ⟨arr', hrun, ht.congr fun a _ b hb => if_congr ?_ rfl rfl⟩
      rw [List.mem_append, List.mem_singleton]
      tauto)
    (s := arr) (h.congr fun _ _ _ _ => by simp)
  exact ⟨arr', hrun, ht.congr fun i hi j _ => if_pos hi⟩

/-- The table after the edges were written. -/
def edgeDist (edges : List Int64Pair) (i j : Int) : Int :=
  if (⟨i, j⟩ : Int64Pair) ∈ edges ∨ (⟨j, i⟩ : Int64Pair) ∈ edges then 1 else baseDist i j

theorem addEdges_spec {edges : List Int64Pair}
    (hedges : ∀ e ∈ edges, e.first ∈ upTo n ∧ e.second ∈ upTo n)
    (h : Table n arr fun i j => some (baseDist i j)) :
    ∃ arr', addEdges n edges arr = .ok arr' ∧ Table n arr' fun i j => some (edgeDist edges i j) := by
  refine foldlM_total (fun done arr => Table n arr fun i j => some (edgeDist done i j))
    ?_ (h.congr fun i _ j _ => by simp [edgeDist])
  intro done e todo arr hl harr
  obtain ⟨hfirst, hsecond⟩ := hedges e (by rw [hl]; simp)
  obtain ⟨arr₁, hw₁, ht₁⟩ := harr.write hfirst hsecond 1
  obtain ⟨arr₂, hw₂, ht₂⟩ := ht₁.write hsecond hfirst 1
  refine ⟨arr₂, by rw [hw₁, ok_bind, hw₂], ht₂.congr ?_⟩
  intro a _ b _
  obtain ⟨x, y⟩ := e
  unfold FloydWarshall.set edgeDist
  simp only [List.mem_append, List.mem_singleton, Int64Pair.mk.injEq]
  by_cases h₁ : a = y ∧ b = x
  · rw [if_pos h₁, if_pos (by tauto)]
  · by_cases h₂ : a = x ∧ b = y
    · rw [if_neg h₁, if_pos h₂, if_pos (by tauto)]
    · rw [if_neg h₁, if_neg h₂]
      exact congrArg some (if_congr (by tauto) rfl rfl)

/-! ## The triple loop -/

/-- The array follows the pure table, whose entries lie between 0 and the sentinel. -/
structure Follows (n : Int) (arr : RawArray Int) (d : Int → Int → Int) : Prop where
  table : Table n arr fun i j => some (d i j)
  nonneg : ∀ i j, 0 ≤ d i j
  le_inf : ∀ i j, d i j ≤ infiniteDistance

/-- **Step lemma.** One round of the innermost loop is one relaxation; the sum does not overflow. -/
theorem relaxCell_sim {d : Int → Int → Int} (h : Follows n arr d) {k i j : Int} (hk : k ∈ upTo n)
    (hi : i ∈ upTo n) (hj : j ∈ upTo n) :
    ∃ arr', relaxCell n k i j arr = .ok arr' ∧ Follows n arr' (FloydWarshall.relax d k i j) := by
  have hik := h.nonneg i k
  have hkj := h.nonneg k j
  have hik' : d i k ≤ 100000000 := h.le_inf i k
  have hkj' : d k j ≤ 100000000 := h.le_inf k j
  -- two distances of at most 10^8 add up without overflow
  have hsum : int32 (d i k + d k j) = .ok (d i k + d k j) := int32_of_mem ⟨by omega, by omega⟩
  have hle := fun a b => (FloydWarshall.relax_le d k i j a b).trans (h.le_inf a b)
  unfold relaxCell
  rw [h.table.read hi hj rfl, ok_bind, h.table.read hi hk rfl, ok_bind, h.table.read hk hj rfl,
    ok_bind, hsum, ok_bind]
  by_cases hlt : d i k + d k j < d i j
  · obtain ⟨arr', hw, ht⟩ := h.table.write hi hj (d i k + d k j)
    refine ⟨arr', by rw [if_pos hlt, hw], ht.congr ?_, ?_, hle⟩
    · intro a _ b _
      unfold FloydWarshall.relax
      rw [if_pos hlt]
      unfold FloydWarshall.set
      split_ifs <;> rfl
    · intro a b
      unfold FloydWarshall.relax
      rw [if_pos hlt]
      unfold FloydWarshall.set
      split_ifs
      · omega
      · exact h.nonneg a b
  · refine ⟨arr, if_neg hlt, ?_⟩
    unfold FloydWarshall.relax
    rwa [if_neg hlt]

/-- **Run lemma.** The triple loop follows the library's. -/
theorem floydWarshall_sim {d : Int → Int → Int} (h : Follows n arr d) :
    ∃ arr', floydWarshall n arr = .ok arr' ∧ Follows n arr' (FloydWarshall.run (upTo n) d) := by
  refine foldlM_sim (Follows n) (l := upTo n) ?_ h
  intro arr d k hk h
  refine foldlM_sim (Follows n) (l := upTo n) ?_ h
  intro arr d i hi h
  refine foldlM_sim (Follows n) (l := upTo n) ?_ h
  intro arr d j hj h
  exact relaxCell_sim h hk hi hj

/-- The table holds the hop distances of the topology, with the sentinel between unconnected nodes. -/
structure DistanceTable (topology : TopologyPtop) (d : Int → Int → Int) : Prop where
  connected : ∀ i ∈ upTo topology.numNodes, ∀ j ∈ upTo topology.numNodes,
    topology.graph.Reachable i j → d i j = topology.graph.dist i j
  unconnected : ∀ i ∈ upTo topology.numNodes, ∀ j ∈ upTo topology.numNodes,
    ¬ topology.graph.Reachable i j → d i j = infiniteDistance

section Accepted

variable {topology : TopologyPtop}

theorem edge_mem_upTo (hwf : topology.WellFormed) {e : Int64Pair}
    (he : e ∈ topology.undirectedEdges) :
    e.first ∈ upTo topology.numNodes ∧ e.second ∈ upTo topology.numNodes := by
  obtain ⟨h0, hlt, hn⟩ := hwf.edge_bounds e he
  exact ⟨mem_upTo.mpr ⟨h0, by omega⟩, mem_upTo.mpr ⟨by omega, hn⟩⟩

theorem adj_mem_upTo (hwf : topology.WellFormed) {i j : Int} (h : topology.graph.Adj i j) :
    i ∈ upTo topology.numNodes := mem_upTo.mpr (hwf.adj_bounds h)

/-- The table that the triple loop starts from. -/
theorem initial_edgeDist (hwf : topology.WellFormed) :
    FloydWarshall.Initial topology.graph infiniteDistance (edgeDist topology.undirectedEdges) := by
  have hadj := fun i j => hwf.adj_iff (a := i) (b := j)
  refine ⟨?_, fun i j h => if_pos ((hadj i j).mp h), ?_⟩
  · intro i
    have hself : ¬ topology.graph.Adj i i := topology.graph.irrefl
    rw [hadj] at hself
    rw [edgeDist, if_neg hself, baseDist, if_pos rfl]
  · intro i j hne h
    rw [hadj] at h
    rw [edgeDist, if_neg h, baseDist, if_neg hne]

/-- The array at the end of the triple loop holds the hop distances. -/
theorem floydWarshall_exact (hwf : topology.WellFormed) (hn : topology.numNodes ≤ 40000)
    (h : Table topology.numNodes arr fun i j => some (edgeDist topology.undirectedEdges i j)) :
    ∃ arr' d, floydWarshall topology.numNodes arr = .ok arr' ∧ Follows topology.numNodes arr' d ∧
      DistanceTable topology d := by
  have hinit := initial_edgeDist hwf
  have hsound := hinit.sound (by decide)
  obtain ⟨arr', hrun, hf⟩ := floydWarshall_sim ⟨h, hsound.nonneg, hsound.le_inf⟩
  refine ⟨arr', _, hrun, hf, ?_, ?_⟩
  · intro i hi j hj hreach
    have hlt : topology.graph.dist i j < (upTo topology.numNodes).length :=
      FloydWarshall.dist_lt_length (fun _ _ h => adj_mem_upTo hwf h) hi hreach
    rw [length_upTo] at hlt
    exact (FloydWarshall.run_exact hinit (by decide) (fun _ _ h => adj_mem_upTo hwf h) hi hj).1 hreach
      (by unfold infiniteDistance; omega)
  · intro i hi j hj hreach
    exact (FloydWarshall.run_exact hinit (by decide) (fun _ _ h => adj_mem_upTo hwf h) hi hj).2 hreach

end Accepted

/-! ## The candidate lists -/

/-- The state has a list for every pair of nodes, and `C` says which hops are on it. -/
structure Candidates (n : Int) (state : GlobalState) (C : Int → Int → BitVec 32 → Prop) : Prop where
  length : state.length = n.toNat
  get : ∀ c ∈ upTo n, ∀ t ∈ upTo n, ∃ row hops, vectorAt state c = .ok row ∧ row.length = n.toNat ∧
    vectorAt row t = .ok hops ∧ ∀ x, x ∈ hops ↔ C c t x

/-- The state has a row for every node, and `L` says what the lists on it are, in order. -/
structure Lists (n : Int) (state : GlobalState) (L : Int → Int → List (BitVec 32)) : Prop where
  length : state.length = n.toNat
  get : ∀ c ∈ upTo n, ∃ row, vectorAt state c = .ok row ∧ row.length = n.toNat ∧
    ∀ t ∈ upTo n, vectorAt row t = .ok (L c t)

variable {state : GlobalState} {L : Int → Int → List (BitVec 32)}

theorem Lists.congr {L' : Int → Int → List (BitVec 32)} (h : Lists n state L)
    (hL : ∀ c ∈ upTo n, ∀ t ∈ upTo n, L c t = L' c t) : Lists n state L' :=
  ⟨h.length, fun c hc => by
    obtain ⟨row, hrow, hlen, hhops⟩ := h.get c hc
    exact ⟨row, hrow, hlen, fun t ht => by rw [hhops t ht, hL c hc t ht]⟩⟩

/-- Forgetting the order. -/
theorem Lists.candidates {C : Int → Int → BitVec 32 → Prop} (h : Lists n state L)
    (hC : ∀ c ∈ upTo n, ∀ t ∈ upTo n, ∀ x, x ∈ L c t ↔ C c t x) : Candidates n state C :=
  ⟨h.length, fun c hc t ht => by
    obtain ⟨row, hrow, hlen, hhops⟩ := h.get c hc
    exact ⟨row, L c t, hrow, hlen, hhops t ht, hC c hc t ht⟩⟩

theorem foldl_push_const {α : Type} (x : α) (l : List Int) (acc : List α) :
    l.foldl (fun acc _ => acc ++ [x]) acc = acc ++ List.replicate l.length x := by
  induction l generalizing acc with
  | nil => simp
  | cons a l ih =>
      rw [List.foldl_cons, ih, List.length_cons, List.replicate_succ, List.append_assoc,
        List.singleton_append]

theorem lists_emptyState (n : Int) : Lists n (emptyState n) fun _ _ => [] := by
  have hstate : emptyState n = List.replicate n.toNat (List.replicate n.toNat []) := by
    unfold emptyState
    rw [foldl_push_const, foldl_push_const, length_upTo, List.nil_append, List.nil_append]
  have hat : ∀ {α : Type} (x : α) (i : Int), i ∈ upTo n →
      vectorAt (List.replicate n.toNat x) i = .ok x := fun x i hi => by
    rw [mem_upTo] at hi
    refine vectorAt_eq_ok.mpr ⟨hi.1, ?_⟩
    rw [List.getElem?_replicate, if_pos (by omega)]
  rw [hstate]
  exact ⟨List.length_replicate, fun c hc => ⟨_, hat _ c hc, List.length_replicate, hat _⟩⟩

/-- Pushing a hop puts it at the end of that one list. -/
theorem Lists.push (h : Lists n state L) {current destination : Int} (hc : current ∈ upTo n)
    (ht : destination ∈ upTo n) (hop : Int) :
    ∃ state', pushCandidate state current destination hop = .ok state' ∧
      Lists n state' fun c t =>
        if c = current ∧ t = destination then L c t ++ [toUInt32 hop] else L c t := by
  obtain ⟨row, hrow, hlen, hhops⟩ := h.get current hc
  have hcl : current < state.length := by have := mem_upTo.mp hc; have := h.length; omega
  have htl : destination < row.length := by have := mem_upTo.mp ht; omega
  have hrow' : vectorModifyAt row destination (fun hops => hops ++ [toUInt32 hop])
      = .ok (row.set destination.toNat (L current destination ++ [toUInt32 hop])) :=
    vectorModifyAt_eq_ok.mpr ⟨_, hhops destination ht, rfl⟩
  refine ⟨_, by rw [pushCandidate, hrow, ok_bind, hrow', ok_bind], ?_, ?_⟩
  · rw [List.length_set, h.length]
  · intro c hc'
    rw [vectorAt_set (mem_upTo.mp hc).1 hcl]
    by_cases hcc : c = current
    · subst hcc
      rw [if_pos rfl]
      refine ⟨_, rfl, by rw [List.length_set, hlen], ?_⟩
      intro t ht'
      rw [vectorAt_set (mem_upTo.mp ht).1 htl]
      by_cases htt : t = destination
      · subst htt
        rw [if_pos rfl, if_pos ⟨rfl, rfl⟩]
      · rw [if_neg htt, if_neg fun h => htt h.2, hhops t ht']
    · obtain ⟨row₀, hrow₀, hlen₀, hhops₀⟩ := h.get c hc'
      rw [if_neg hcc]
      refine ⟨row₀, hrow₀, hlen₀, ?_⟩
      intro t ht'
      rw [if_neg fun h => hcc h.1, hhops₀ t ht']

/-- What the check of `current → hop` adds for `(c, t)`: the hop, if the table says that it is one step
    closer. -/
def closerHop (d : Int → Int → Int) (c t current hop : Int) : List Int :=
  if c = current ∧ d current t - 1 = d hop t then [hop] else []

/-- One check pushes the hop exactly when the table says that it is one step closer. -/
theorem addCandidate_spec {d : Int → Int → Int} (hf : Follows n arr d) {current hop j : Int}
    (hc : current ∈ upTo n) (hh : hop ∈ upTo n) (hj : j ∈ upTo n) (h : Lists n state L) :
    ∃ state', addCandidate n arr current hop j state = .ok state' ∧ Lists n state' fun c t =>
      if t = j then L c t ++ (closerHop d c t current hop).map toUInt32 else L c t := by
  have h0 := hf.nonneg current j
  have h1 : d current j ≤ 100000000 := hf.le_inf current j
  have hminus : int32 (d current j - 1) = .ok (d current j - 1) := int32_of_mem ⟨by omega, by omega⟩
  unfold addCandidate closerHop
  rw [mul_comm current, mul_comm hop, hf.table.read hc hj rfl, ok_bind, hminus, ok_bind,
    hf.table.read hh hj rfl, ok_bind]
  by_cases hcl : d current j - 1 = d hop j
  · obtain ⟨state', hp, hL⟩ := h.push hc hj hop
    refine ⟨state', by rw [if_pos hcl, hp], hL.congr ?_⟩
    intro c _ t _
    by_cases ht : t = j
    · subst ht
      by_cases hcc : c = current
      · rw [if_pos ⟨hcc, rfl⟩, if_pos rfl, if_pos ⟨hcc, hcl⟩, List.map_singleton]
      · rw [if_neg fun h => hcc h.1, if_pos rfl, if_neg fun h => hcc h.1, List.map_nil,
          List.append_nil]
    · rw [if_neg fun h => ht h.2, if_neg ht]
  · refine ⟨state, if_neg hcl, h.congr ?_⟩
    intro c _ t _
    by_cases ht : t = j
    · subst ht
      rw [if_pos rfl, if_neg fun h => hcl h.2, List.map_nil, List.append_nil]
    · rw [if_neg ht]

/-- What both checks of an edge add for `(c, t)`. -/
def edgeHops (d : Int → Int → Int) (c t : Int) (e : Int64Pair) : List Int :=
  closerHop d c t e.first e.second ++ closerHop d c t e.second e.first

/-- **Step lemma.** The two checks push what the edge adds for one destination. -/
theorem addCandidates_spec {d : Int → Int → Int} (hf : Follows n arr d) {e : Int64Pair} {j : Int}
    (hfirst : e.first ∈ upTo n) (hsecond : e.second ∈ upTo n) (hj : j ∈ upTo n)
    (h : Lists n state L) :
    ∃ state', addCandidates n arr e j state = .ok state' ∧ Lists n state' fun c t =>
      if t = j then L c t ++ (edgeHops d c t e).map toUInt32 else L c t := by
  obtain ⟨state₁, h₁, hL₁⟩ := addCandidate_spec hf hfirst hsecond hj h
  obtain ⟨state₂, h₂, hL₂⟩ := addCandidate_spec hf hsecond hfirst hj hL₁
  refine ⟨state₂, by rw [addCandidates, h₁, ok_bind, h₂], hL₂.congr ?_⟩
  intro c _ t _
  by_cases ht : t = j
  · simp only [if_pos ht, edgeHops, List.map_append, List.append_assoc]
  · simp only [if_neg ht]

/-- **Run lemma.** The edge loop puts on the lists what the edges add, in the order of the edges. -/
theorem lists_spec {d : Int → Int → Int} (hf : Follows n arr d) {edges : List Int64Pair}
    (hedges : ∀ e ∈ edges, e.first ∈ upTo n ∧ e.second ∈ upTo n) :
    ∃ state, edges.foldlM (fun state edge =>
        (upTo n).foldlM (fun state j => addCandidates n arr edge j state) state) (emptyState n)
        = .ok state ∧
      Lists n state fun c t => (edges.flatMap (edgeHops d c t)).map toUInt32 := by
  refine foldlM_total
    (fun done state => Lists n state fun c t => (done.flatMap (edgeHops d c t)).map toUInt32)
    ?_ (lists_emptyState n)
  intro done e todo state hl hstate
  obtain ⟨hfirst, hsecond⟩ := hedges e (by rw [hl]; simp)
  obtain ⟨state', hrun, hL⟩ := foldlM_total
    (f := fun state j => addCandidates n arr e j state)
    (fun js state => Lists n state fun c t =>
      if t ∈ js then (done.flatMap (edgeHops d c t)).map toUInt32 ++ (edgeHops d c t e).map toUInt32
      else (done.flatMap (edgeHops d c t)).map toUInt32)
    (l := upTo n)
    (fun js j todo state hl hstate => by
      obtain ⟨state', hadd, hL⟩ :=
        addCandidates_spec hf hfirst hsecond (by rw [hl]; simp : j ∈ upTo n) hstate
      -- every destination comes once
      have hj : j ∉ js := fun hmem => by
        have hnd := nodup_upTo n
        rw [hl] at hnd
        exact (List.nodup_append.mp hnd).2.2 j hmem j List.mem_cons_self rfl
      refine ⟨state', hadd, hL.congr ?_⟩
      intro c _ t _
      by_cases ht : t = j
      · subst ht
        rw [if_pos rfl, if_neg hj, if_pos (by simp)]
      · rw [if_neg ht]
        refine if_congr ?_ rfl rfl
        rw [List.mem_append, List.mem_singleton, or_iff_left ht])
    (hstate.congr fun c _ t _ => (if_neg List.not_mem_nil).symm)
  refine ⟨state', hrun, hL.congr ?_⟩
  intro c _ t ht
  rw [if_pos ht, List.flatMap_append, List.flatMap_singleton, List.map_append]

theorem mem_closerHop {d : Int → Int → Int} {c t current hop b : Int} :
    b ∈ closerHop d c t current hop ↔ b = hop ∧ c = current ∧ d current t - 1 = d hop t := by
  unfold closerHop
  split
  · rename_i h; simp [h]
  · rename_i h; simp [h]

section Accepted

variable {topology : TopologyPtop}

/-- The list for `(c, t)` holds exactly the neighbours of `c` that are one step closer to `t`. -/
def Closer (topology : TopologyPtop) (d : Int → Int → Int) (c t : Int) (x : BitVec 32) : Prop :=
  ∃ b, topology.graph.Adj c b ∧ x = toUInt32 b ∧ d c t - 1 = d b t

/-- The hops that the edges of the topology add for `(c, t)`. -/
def closerHops (topology : TopologyPtop) (d : Int → Int → Int) (c t : Int) : List Int :=
  topology.undirectedEdges.flatMap (edgeHops d c t)

theorem mem_closerHops (hwf : topology.WellFormed) {d : Int → Int → Int} {c t b : Int} :
    b ∈ closerHops topology d c t ↔ topology.graph.Adj c b ∧ d c t - 1 = d b t := by
  simp only [closerHops, edgeHops, List.mem_flatMap, List.mem_append, mem_closerHop, hwf.adj_iff]
  constructor
  · rintro ⟨⟨a, b⟩, he, ⟨rfl, rfl, hcl⟩ | ⟨rfl, rfl, hcl⟩⟩
    · exact ⟨.inl he, hcl⟩
    · exact ⟨.inr he, hcl⟩
  · rintro ⟨he | he, hcl⟩
    · exact ⟨_, he, .inl ⟨rfl, rfl, hcl⟩⟩
    · exact ⟨_, he, .inr ⟨rfl, rfl, hcl⟩⟩

/-- **`CalculateGlobalState` succeeds**, and its candidate lists are what the edges add, in the order of
    the edges. -/
theorem calculateGlobalState_lists (hwf : topology.WellFormed) (hn : topology.numNodes ≤ 40000) :
    ∃ state d, calculateGlobalState topology = .ok state ∧ (∀ i j, 0 ≤ d i j) ∧
      DistanceTable topology d ∧
      Lists topology.numNodes state fun c t => (closerHops topology d c t).map toUInt32 := by
  have hedges := fun e he => edge_mem_upTo hwf (e := e) he
  obtain ⟨arr₁, h₁, ht₁⟩ := initializeDist_spec (table_newArray hwf.numNodes_nonneg hn)
  obtain ⟨arr₂, h₂, ht₂⟩ := addEdges_spec hedges ht₁
  obtain ⟨arr₃, d, h₃, hf, hd⟩ := floydWarshall_exact hwf hn ht₂
  obtain ⟨state, h₄, hL⟩ := lists_spec hf hedges
  refine ⟨state, d, ?_, hf.nonneg, hd, hL⟩
  unfold calculateGlobalState
  simp only [throwIf_of_not (show ¬ topology.numNodes > 40000 by omega), ok_bind, h₁, h₂, h₃, h₄]

/-- **The candidate lists are exact.** -/
theorem calculateGlobalState_spec (hwf : topology.WellFormed) (hn : topology.numNodes ≤ 40000) :
    ∃ state d, calculateGlobalState topology = .ok state ∧ (∀ i j, 0 ≤ d i j) ∧
      DistanceTable topology d ∧
      Candidates topology.numNodes state fun c t x => t ∈ upTo topology.numNodes ∧
        Closer topology d c t x := by
  obtain ⟨state, d, hrun, hnonneg, hd, hL⟩ := calculateGlobalState_lists hwf hn
  refine ⟨state, d, hrun, hnonneg, hd, hL.candidates ?_⟩
  intro c _ t ht x
  simp only [List.mem_map, mem_closerHops hwf, Closer]
  constructor
  · rintro ⟨b, ⟨hadj, hcl⟩, rfl⟩
    exact ⟨ht, b, hadj, rfl, hcl⟩
  · rintro ⟨_, b, hadj, rfl, hcl⟩
    exact ⟨b, ⟨hadj, hcl⟩, rfl⟩

/-! ## The run -/

variable {d : Int → Int → Int}

/-- What a decision is made on: the list for the current node and the destination. -/
theorem decideAt_eq {C : Int → Int → BitVec 32 → Prop} (hC : Candidates n state C) {c t : Int}
    (hc : c ∈ upTo n) (ht : t ∈ upTo n) (source : Int) (hash : BitVec 32) :
    (∃ x, C c t x ∧ decideAt state c source t hash = .ok x.toInt) ∨
      (∀ x, ¬ C c t x) ∧ decideAt state c source t hash = .error (noCandidates c source t) := by
  obtain ⟨row, hops, hrow, _, hhops, hmem⟩ := hC.get c hc t ht
  unfold decideAt topologyPtopDecide
  rw [hrow, ok_bind, hhops, ok_bind]
  cases hops with
  | nil => exact .inr ⟨fun x hx => List.not_mem_nil ((hmem x).mpr hx), rfl⟩
  | cons hop rest =>
      left
      have hlt : hash.toNat % (hop :: rest).length < (hop :: rest).length :=
        Nat.mod_lt _ (Nat.succ_pos _)
      refine ⟨(hop :: rest)[hash.toNat % (hop :: rest).length], (hmem _).mp (List.getElem_mem _), ?_⟩
      have hat : vectorAt (hop :: rest) ((hash.toNat % (hop :: rest).length : Nat) : Int)
          = .ok ((hop :: rest)[hash.toNat % (hop :: rest).length]) :=
        vectorAt_eq_ok.mpr ⟨by omega, List.getElem?_eq_getElem hlt⟩
      have hpos : ¬ (hop :: rest).length = 0 := Nat.succ_ne_zero _
      simp only [throwIf_of_not hpos, ok_bind, hat]

/-- At a node that is connected to the destination, every hash leads one hop closer. -/
theorem decideAt_closer (hwf : topology.WellFormed) (hd : DistanceTable topology d)
    (hC : Candidates topology.numNodes state fun c t x => t ∈ upTo topology.numNodes ∧
      Closer topology d c t x)
    {c t : Int} (hc : c ∈ upTo topology.numNodes) (ht : t ∈ upTo topology.numNodes) (hne : c ≠ t)
    (hreach : topology.graph.Reachable c t) (source : Int) (hash : BitVec 32) :
    ∃ b, decideAt state c source t hash = .ok b ∧ topology.graph.Adj c b ∧
      topology.graph.Reachable b t ∧ topology.graph.dist b t + 1 = topology.graph.dist c t := by
  have hdc := hd.connected c hc t ht hreach
  rcases decideAt_eq hC hc ht source hash with ⟨x, ⟨_, b, hadj, rfl, hcl⟩, hrun⟩ | ⟨hnone, _⟩
  · have hb : b ∈ upTo topology.numNodes := adj_mem_upTo hwf hadj.symm
    have hreach' : topology.graph.Reachable b t := hadj.symm.reachable.trans hreach
    have hdb := hd.connected b hb t ht hreach'
    obtain ⟨h0, hlt⟩ := mem_upTo.mp hb
    have hnodes := hwf.numNodes_lt
    rw [toInt_toUInt32 h0 (by omega)] at hrun
    exact ⟨b, hrun, hadj, hreach', by omega⟩
  · -- a closer neighbour exists, so the list is not empty
    obtain ⟨b, hadj, hreach', hsucc⟩ := FloydWarshall.exists_adj_dist_succ hreach hne
    have hb : b ∈ upTo topology.numNodes := adj_mem_upTo hwf hadj.symm
    have hdb := hd.connected b hb t ht hreach'
    exact absurd ⟨ht, b, hadj, rfl, by omega⟩ (hnone (toUInt32 b))

/-- At the destination, and where it is out of reach, there is no candidate. -/
theorem decideAt_none (hwf : topology.WellFormed) (hd : DistanceTable topology d)
    (hnonneg : ∀ i j, 0 ≤ d i j)
    (hC : Candidates topology.numNodes state fun c t x => t ∈ upTo topology.numNodes ∧
      Closer topology d c t x)
    {c t : Int} (hc : c ∈ upTo topology.numNodes) (ht : t ∈ upTo topology.numNodes)
    (h : c = t ∨ ¬ topology.graph.Reachable c t) (source : Int) (hash : BitVec 32) :
    decideAt state c source t hash = .error (noCandidates c source t) := by
  rcases decideAt_eq hC hc ht source hash with ⟨x, ⟨_, b, hadj, _, hcl⟩, _⟩ | ⟨_, hrun⟩
  · exfalso
    have hb : b ∈ upTo topology.numNodes := adj_mem_upTo hwf hadj.symm
    rcases h with rfl | hreach
    · have hself := hd.connected c hc c hc (SimpleGraph.Reachable.refl c)
      rw [SimpleGraph.dist_self] at hself
      have := hnonneg b c
      omega
    · have hc' := hd.unconnected c hc t ht hreach
      have hb' := hd.unconnected b hb t ht fun hbt => hreach (hadj.reachable.trans hbt)
      omega
  · exact hrun

/-- **Run lemma.** From a node at distance `k`, the packet arrives after `k` moves, along edges, and is
    never further away than at the start. -/
theorem forward_spec (hwf : topology.WellFormed) (hd : DistanceTable topology d)
    (hC : Candidates topology.numNodes state fun c t x => t ∈ upTo topology.numNodes ∧
      Closer topology d c t x)
    {Packet : Type} (hash : Int → Packet → BitVec 32) (pkt : Packet) (source : Int) {t : Int}
    (ht : t ∈ upTo topology.numNodes) (k : Nat) :
    ∀ c ∈ upTo topology.numNodes, topology.graph.Reachable c t → topology.graph.dist c t = k →
      ∃ path, forward state hash pkt source t k c = .ok path ∧ path.length = k + 1 ∧
        path.head? = some c ∧ path.getLast? = some t ∧ path.IsChain topology.graph.Adj ∧
        path.Nodup ∧ ∀ v ∈ path, topology.graph.dist v t ≤ k := by
  induction k with
  | zero =>
      intro c _ hreach hdist
      have hct : c = t := hreach.dist_eq_zero_iff.mp hdist
      subst hct
      refine ⟨[c], rfl, rfl, rfl, rfl, List.isChain_singleton _, List.nodup_singleton _, ?_⟩
      intro v hv
      rw [List.mem_singleton.mp hv, hdist]
  | succ k ih =>
      intro c hc hreach hdist
      have hne : c ≠ t := fun h => by rw [h, SimpleGraph.dist_self] at hdist; omega
      -- the first hop is closer, so the rest of the way is the induction hypothesis
      obtain ⟨b, hdec, hadj, hreach', hsucc⟩ :=
        decideAt_closer hwf hd hC hc ht hne hreach source (hash c pkt)
      obtain ⟨path, hrun, hlen, hhead, hlast, hchain, hnd, hle⟩ :=
        ih b (adj_mem_upTo hwf hadj.symm) hreach' (by omega)
      refine ⟨c :: path, ?_, by rw [List.length_cons, hlen], rfl, ?_, ?_, ?_, ?_⟩
      · rw [forward, hdec, ok_bind, hrun, ok_bind]
      · rw [List.getLast?_cons, hlast, Option.getD_some]
      · cases path with
        | nil => cases hhead
        | cons p path =>
            cases hhead
            exact List.isChain_cons_cons.mpr ⟨hadj, hchain⟩
      · -- every later node is closer than `c`
        refine List.nodup_cons.mpr ⟨?_, hnd⟩
        intro hmem
        have := hle c hmem
        omega
      · intro v hv
        rcases List.mem_cons.mp hv with rfl | hv
        · exact le_of_eq hdist
        · exact (hle v hv).trans (Nat.le_succ k)

end Accepted

/-- **ECMP forwarding delivers over shortest paths.** -/
theorem forward_shortest {config : Config} {all : Bool} {assignment : Option (List Int)}
    {topology : TopologyPtop} (hparse : parseTopologyGraph config all assignment = .ok topology)
    (hn : topology.numNodes ≤ 40000) :
    ∃ state, calculateGlobalState topology = .ok state ∧
      ∀ {Packet : Type} (hash : Int → Packet → BitVec 32) (pkt : Packet),
      ∀ s ∈ upTo topology.numNodes, ∀ t ∈ upTo topology.numNodes, s ≠ t →
        (topology.graph.Reachable s t →
          ∃ path, forward state hash pkt s t (topology.graph.dist s t) s = .ok path ∧
            path.length = topology.graph.dist s t + 1 ∧
            path.head? = some s ∧ path.getLast? = some t ∧
            path.IsChain topology.graph.Adj ∧ path.Nodup) ∧
        (¬ topology.graph.Reachable s t →
          decideAt state s s t (hash s pkt) = .error (noCandidates s s t)) ∧
        decideAt state t s t (hash t pkt) = .error (noCandidates t s t) := by
  have hwf := TopologyPtop.wellFormed_of_parse hparse
  obtain ⟨state, d, hstate, hnonneg, hd, hC⟩ := calculateGlobalState_spec hwf hn
  refine ⟨state, hstate, fun hash pkt s hs t ht hne => ⟨?_, ?_, ?_⟩⟩
  · intro hreach
    obtain ⟨path, hrun, hlen, hhead, hlast, hchain, hnd, _⟩ :=
      forward_spec hwf hd hC hash pkt s ht _ s hs hreach rfl
    exact ⟨path, hrun, hlen, hhead, hlast, hchain, hnd⟩
  · intro hreach
    exact decideAt_none hwf hd hnonneg hC hs ht (.inr hreach) s _
  · exact decideAt_none hwf hd hnonneg hC ht ht (.inl rfl) s _

theorem reachable_lineTopology : lineTopology.graph.Reachable 0 2 := by
  have h₁ : lineTopology.graph.Adj 0 1 := adj_lineTopology.mpr (by decide)
  have h₂ : lineTopology.graph.Adj 1 2 := adj_lineTopology.mpr (by decide)
  exact h₁.reachable.trans h₂.reachable

theorem dist_lineTopology : lineTopology.graph.dist 0 2 = 2 := by
  obtain ⟨walk, hlength⟩ : ∃ walk : lineTopology.graph.Walk 0 2, walk.length = 2 :=
    ⟨.cons (adj_lineTopology.mpr (by decide) : lineTopology.graph.Adj 0 1)
      (.cons (adj_lineTopology.mpr (by decide) : lineTopology.graph.Adj 1 2) .nil), rfl⟩
  have hle := SimpleGraph.dist_le walk
  have hzero : lineTopology.graph.dist 0 2 ≠ 0 := fun h => by
    exact absurd (reachable_lineTopology.dist_eq_zero_iff.mp h) (by decide)
  have hone : lineTopology.graph.dist 0 2 ≠ 1 := fun h => by
    have := adj_lineTopology.mp (SimpleGraph.dist_eq_one_iff_adj.mp h)
    omega
  omega

theorem not_reachable_lineTopology : ¬ lineTopology.graph.Reachable 0 3 := by
  rintro ⟨walk⟩
  cases walk.reverse with
  | cons h _ =>
      have := adj_lineTopology.mp h
      omega

/-- From 0 there is one path to 2, and none to 3. -/
theorem forward_shortest_lineTopology :
    ∃ state, calculateGlobalState lineTopology = .ok state ∧
      forward state (fun _ (_ : Unit) => 7#32) () 0 2 2 0 = .ok [0, 1, 2] ∧
      decideAt state 0 0 3 7#32 = .error (noCandidates 0 0 3) ∧
      decideAt state 2 0 2 7#32 = .error (noCandidates 2 0 2) := by
  obtain ⟨state, hstate, h⟩ := forward_shortest parseTopologyGraph_lineConfig (by decide)
  have h := h (fun _ (_ : Unit) => 7#32) () 0 (by decide)
  obtain ⟨path, hpath, hlength, hhead, hlast, hchain, -⟩ :=
    (h 2 (by decide) (by decide)).1 reachable_lineTopology
  rw [dist_lineTopology] at hpath hlength
  obtain ⟨x, y, z, rfl⟩ := List.length_eq_three.mp hlength
  obtain rfl := Option.some.inj hhead
  obtain rfl := Option.some.inj hlast
  have hxy := adj_lineTopology.mp (List.isChain_cons_cons.mp hchain).1
  obtain rfl : y = 1 := by omega
  exact ⟨state, hstate, hpath, (h 3 (by decide) (by decide)).2.1 not_reachable_lineTopology,
    (h 2 (by decide) (by decide)).2.2⟩

end ArbiterEcmp

end BasicSim
