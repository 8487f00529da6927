import Mathlib.Combinatorics.SimpleGraph.Metric

/-!
# `Lib.FloydWarshall` — in-place Floyd-Warshall for hop distances

A table `d : V → V → Int` of candidate distances with a sentinel `inf` for "not reached", relaxed in
place: every step reads the table as the previous step left it. Nothing here knows how the table is
stored or which loops drive it.

## Contents
- **`Via G S l i j`**: a walk of length `l` whose inner vertices lie in `S`; `Via.insert` cuts it at a
  newly admitted vertex.
- **`relax`**: one step. It keeps `Sound` (a finite entry is the length of a walk) and every upper
  bound, and it only lowers entries; so the order within a round does not matter.
- **`run_exact`**: after all rounds, a finite distance is the distance and the rest is `inf`.
- **Hop distance**: a neighbour one step closer always exists (`exists_adj_dist_succ`), and moving to
  such a neighbour at every vertex makes exactly the shortest paths (`isChain_closer_iff`).
-/

namespace FloydWarshall

variable {V : Type} {G : SimpleGraph V}

/-! ## Walks through a set -/

/-- There is a walk of length `l` from `i` to `j` all of whose inner vertices are in `S`. -/
inductive Via (G : SimpleGraph V) (S : V → Prop) : Nat → V → V → Prop where
  | nil (i : V) : Via G S 0 i i
  | edge {i j : V} (h : G.Adj i j) : Via G S 1 i j
  | cons {i m j : V} {l : Nat} (h : G.Adj i m) (hm : S m) (rest : Via G S l m j) :
      Via G S (l + 1) i j

theorem Via.mono {S T : V → Prop} (hST : ∀ v, S v → T v) {l : Nat} {i j : V} (h : Via G S l i j) :
    Via G T l i j := by
  induction h with
  | nil i => exact .nil i
  | edge h => exact .edge h
  | cons h hm _ ih => exact .cons h (hST _ hm) ih

/-- **Cutting at a new vertex.** A walk through `S` and `k` either avoids `k` inside, or visits it, and
    then the part before the first and the part after the last visit avoid it. -/
theorem Via.insert {S : V → Prop} {k : V} {l : Nat} {i j : V}
    (h : Via G (fun v => S v ∨ v = k) l i j) :
    Via G S l i j ∨ ∃ l₁ l₂, Via G S l₁ i k ∧ Via G S l₂ k j ∧ l₁ + l₂ ≤ l := by
  induction h with
  | nil i => exact .inl (.nil i)
  | edge h => exact .inl (.edge h)
  | @cons i m j l h hm _ ih =>
      rcases ih with hrest | ⟨l₁, l₂, h₁, h₂, hle⟩
      · rcases hm with hm | rfl
        · exact .inl (.cons h hm hrest)
        · exact .inr ⟨1, l, .edge h, hrest, by omega⟩
      · rcases hm with hm | rfl
        · exact .inr ⟨l₁ + 1, l₂, .cons h hm h₁, h₂, by omega⟩
        · exact .inr ⟨1, l₂, .edge h, h₂, by omega⟩

/-- Every walk goes through the set of all vertices that have a neighbour. -/
theorem via_of_walk {S : V → Prop} (hS : ∀ i j, G.Adj i j → S i) {i j : V} (p : G.Walk i j) :
    Via G S p.length i j := by
  induction p with
  | nil => exact .nil _
  | cons h p ih => exact .cons h (hS _ _ h.symm) ih

/-! ## Tables -/

/-- A table all of whose entries lie between 0 and the sentinel, and whose smaller entries are the
    lengths of walks. -/
structure Sound (G : SimpleGraph V) (inf : Int) (d : V → V → Int) : Prop where
  nonneg : ∀ i j, 0 ≤ d i j
  le_inf : ∀ i j, d i j ≤ inf
  walk : ∀ i j, d i j < inf → ∃ p : G.Walk i j, (p.length : Int) = d i j

/-- Every walk through `S` between vertices of `vs` bounds the entry from above. -/
def Upper (G : SimpleGraph V) (vs : List V) (S : V → Prop) (d : V → V → Int) : Prop :=
  ∀ i ∈ vs, ∀ j ∈ vs, ∀ l, Via G S l i j → d i j ≤ l

/-- The table before the first round. -/
structure Initial (G : SimpleGraph V) (inf : Int) (d : V → V → Int) : Prop where
  self : ∀ i, d i i = 0
  edge : ∀ i j, G.Adj i j → d i j = 1
  other : ∀ i j, i ≠ j → ¬ G.Adj i j → d i j = inf

theorem Initial.sound {inf : Int} {d : V → V → Int} (h : Initial G inf d)
    (hinf : 1 ≤ inf) : Sound G inf d := by
  have hcases : ∀ i j, (i = j ∧ d i j = 0) ∨ (G.Adj i j ∧ d i j = 1) ∨ d i j = inf := by
    intro i j
    by_cases hij : i = j
    · subst hij; exact .inl ⟨rfl, h.self i⟩
    · by_cases ha : G.Adj i j
      · exact .inr (.inl ⟨ha, h.edge i j ha⟩)
      · exact .inr (.inr (h.other i j hij ha))
  refine ⟨?_, ?_, ?_⟩
  · intro i j
    rcases hcases i j with ⟨_, h⟩ | ⟨_, h⟩ | h <;> omega
  · intro i j
    rcases hcases i j with ⟨_, h⟩ | ⟨_, h⟩ | h <;> omega
  · intro i j hlt
    rcases hcases i j with ⟨rfl, h⟩ | ⟨ha, h⟩ | h
    · exact ⟨.nil, by simp [h]⟩
    · exact ⟨.cons ha .nil, by simp [h]⟩
    · omega

theorem Initial.upper {inf : Int} {vs : List V} {d : V → V → Int} (h : Initial G inf d) :
    Upper G vs (fun _ => False) d := by
  intro i _ j _ l hl
  cases hl with
  | nil => rw [h.self]; rfl
  | edge ha => rw [h.edge i j ha]; rfl
  | cons _ hm _ => exact hm.elim

/-! ## One step -/

section Relax

variable [DecidableEq V]

/-- Overwrite one entry. -/
def set {α : Type} (d : V → V → α) (i j : V) (x : α) : V → V → α :=
  fun a b => if a = i ∧ b = j then x else d a b

@[simp] theorem set_self {α : Type} (d : V → V → α) (i j : V) (x : α) : set d i j x i j = x :=
  if_pos ⟨rfl, rfl⟩

/-- One step of the algorithm. -/
def relax (d : V → V → Int) (k i j : V) : V → V → Int :=
  if d i k + d k j < d i j then set d i j (d i k + d k j) else d

theorem relax_le (d : V → V → Int) (k i j a b : V) : relax d k i j a b ≤ d a b := by
  unfold relax
  split_ifs with h
  · unfold set
    split_ifs with hab
    · obtain ⟨rfl, rfl⟩ := hab
      exact le_of_lt h
    · exact le_refl _
  · exact le_refl _

/-- The step makes the detour over `k` an upper bound of the entry. -/
theorem relax_self_le (d : V → V → Int) (k i j : V) : relax d k i j i j ≤ d i k + d k j := by
  unfold relax
  split_ifs with h
  · rw [set_self]
  · exact not_lt.mp h

/-- **Step lemma (soundness).** A relaxed entry is the length of the two walks put together. -/
theorem Sound.relax {inf : Int} {d : V → V → Int} (h : Sound G inf d) (k i j : V) :
    Sound G inf (relax d k i j) := by
  refine ⟨?_, fun a b => (relax_le d k i j a b).trans (h.le_inf a b), ?_⟩
  · intro a b
    unfold FloydWarshall.relax
    split_ifs
    · unfold set
      split_ifs
      · exact add_nonneg (h.nonneg i k) (h.nonneg k j)
      · exact h.nonneg a b
    · exact h.nonneg a b
  · intro a b hab
    unfold FloydWarshall.relax at hab ⊢
    split_ifs at hab ⊢ with hlt
    · unfold set at hab ⊢
      split_ifs at hab ⊢ with he
      · obtain ⟨rfl, rfl⟩ := he
        have h₁ := h.nonneg a k
        have h₂ := h.nonneg k b
        obtain ⟨p, hp⟩ := h.walk a k (by omega)
        obtain ⟨q, hq⟩ := h.walk k b (by omega)
        exact ⟨p.append q, by rw [SimpleGraph.Walk.length_append]; omega⟩
      · exact h.walk a b hab
    · exact h.walk a b hab

theorem Upper.relax {vs : List V} {S : V → Prop} {d : V → V → Int} (h : Upper G vs S d) (k i j : V) :
    Upper G vs S (relax d k i j) := fun a ha b hb l hl =>
  (relax_le d k i j a b).trans (h a ha b hb l hl)

/-! ## The rounds -/

/-- The innermost loop: one row of the table. -/
def relaxRow (vs : List V) (k i : V) (d : V → V → Int) : V → V → Int :=
  vs.foldl (fun d j => relax d k i j) d

/-- One round: every row, with detours over `k`. -/
def round (vs : List V) (k : V) (d : V → V → Int) : V → V → Int :=
  vs.foldl (fun d i => relaxRow vs k i d) d

/-- All rounds. -/
def run (vs : List V) (d : V → V → Int) : V → V → Int := vs.foldl (fun d k => round vs k d) d

/-- What holds while a round for `k` is under way: the old upper bounds, and on the entries that were
    visited the new ones too. -/
structure Progress (G : SimpleGraph V) (inf : Int) (vs : List V) (S : V → Prop) (k : V)
    (visited : V → V → Prop) (d : V → V → Int) : Prop where
  sound : Sound G inf d
  upper : Upper G vs S d
  new : ∀ i ∈ vs, ∀ j ∈ vs, visited i j → ∀ l₁ l₂, Via G S l₁ i k → Via G S l₂ k j → d i j ≤ l₁ + l₂

variable {inf : Int} {vs : List V} {S : V → Prop} {k : V}

/-- **Step lemma (round).** Relaxing an entry visits it. -/
theorem Progress.relax {visited : V → V → Prop} {d : V → V → Int}
    (h : Progress G inf vs S k visited d) (hk : k ∈ vs) (i j : V) :
    Progress G inf vs S k (fun a b => visited a b ∨ (a = i ∧ b = j)) (relax d k i j) := by
  refine ⟨h.sound.relax k i j, h.upper.relax k i j, ?_⟩
  intro a ha b hb hv l₁ l₂ h₁ h₂
  rcases hv with hv | ⟨rfl, rfl⟩
  · exact (relax_le d k i j a b).trans (h.new a ha b hb hv l₁ l₂ h₁ h₂)
  · have hik := h.upper a ha k hk l₁ h₁
    have hkj := h.upper k hk b hb l₂ h₂
    exact (relax_self_le d k a b).trans (by omega)

theorem Progress.relaxRow {visited : V → V → Prop} {d : V → V → Int}
    (h : Progress G inf vs S k visited d) (hk : k ∈ vs) (i : V) (js : List V) :
    Progress G inf vs S k (fun a b => visited a b ∨ (a = i ∧ b ∈ js))
      (js.foldl (fun d j => FloydWarshall.relax d k i j) d) := by
  induction js using List.reverseRecOn with
  | nil => exact ⟨h.sound, h.upper, fun a ha b hb hv => h.new a ha b hb (by simpa using hv)⟩
  | append_singleton js j ih =>
      rw [List.foldl_concat]
      obtain ⟨hs, hu, hn⟩ := ih.relax hk i j
      refine ⟨hs, hu, fun a ha b hb hv => hn a ha b hb ?_⟩
      rw [List.mem_append, List.mem_singleton] at hv
      tauto

theorem Progress.round {d : V → V → Int} (h : Progress G inf vs S k (fun _ _ => False) d)
    (hk : k ∈ vs) (is : List V) :
    Progress G inf vs S k (fun a b => a ∈ is ∧ b ∈ vs)
      (is.foldl (fun d i => FloydWarshall.relaxRow vs k i d) d) := by
  induction is using List.reverseRecOn with
  | nil => exact ⟨h.sound, h.upper, fun a ha b hb hv => absurd hv.1 List.not_mem_nil⟩
  | append_singleton is i ih =>
      rw [List.foldl_concat]
      obtain ⟨hs, hu, hn⟩ := ih.relaxRow hk i vs
      refine ⟨hs, hu, fun a ha b hb hv => hn a ha b hb ?_⟩
      rw [List.mem_append, List.mem_singleton] at hv
      tauto

/-- **Round lemma.** After the round for `k`, walks may go through `k` as well. -/
theorem upper_round {d : V → V → Int} (hs : Sound G inf d) (hu : Upper G vs S d) (hk : k ∈ vs) :
    Sound G inf (round vs k d) ∧ Upper G vs (fun v => S v ∨ v = k) (round vs k d) := by
  obtain ⟨hs', hu', hn⟩ :=
    Progress.round (k := k) ⟨hs, hu, fun _ _ _ _ hv => absurd hv not_false⟩ hk vs
  refine ⟨hs', ?_⟩
  intro i hi j hj l hl
  rcases hl.insert with hl | ⟨l₁, l₂, h₁, h₂, hle⟩
  · exact hu' i hi j hj l hl
  · have := hn i hi j hj ⟨hi, hj⟩ l₁ l₂ h₁ h₂
    show round vs k d i j ≤ l
    unfold FloydWarshall.round
    omega

/-- **Run lemma.** After the rounds for `ks`, walks may go through all of `ks`. -/
theorem upper_run {d : V → V → Int} (hs : Sound G inf d) (hu : Upper G vs (fun _ => False) d)
    (ks : List V) (hks : ∀ k ∈ ks, k ∈ vs) :
    Sound G inf (ks.foldl (fun d k => round vs k d) d) ∧
      Upper G vs (· ∈ ks) (ks.foldl (fun d k => round vs k d) d) := by
  induction ks using List.reverseRecOn with
  | nil => exact ⟨hs, fun i hi j hj l hl => hu i hi j hj l (hl.mono fun v hv => nomatch hv)⟩
  | append_singleton ks k ih =>
      obtain ⟨hs', hu'⟩ := ih fun k hk => hks k (List.mem_append_left _ hk)
      rw [List.foldl_concat]
      obtain ⟨hs'', hu''⟩ := upper_round hs' hu' (hks k (by simp))
      exact ⟨hs'', fun i hi j hj l hl => hu'' i hi j hj l (hl.mono fun v hv => by
        rwa [List.mem_append, List.mem_singleton] at hv)⟩

/-- **Floyd-Warshall computes the hop distances**: over the vertices `vs`, which include every vertex
    that has a neighbour, the entry of a connected pair is its distance (if that is below the
    sentinel) and the entry of any other pair is the sentinel. -/
theorem run_exact {d : V → V → Int} (h : Initial G inf d) (hinf : 1 ≤ inf)
    (hvs : ∀ i j, G.Adj i j → i ∈ vs) {i j : V} (hi : i ∈ vs) (hj : j ∈ vs) :
    (G.Reachable i j → (G.dist i j : Int) < inf → run vs d i j = G.dist i j) ∧
      (¬ G.Reachable i j → run vs d i j = inf) := by
  obtain ⟨hs, hu⟩ := upper_run (h.sound hinf) h.upper vs fun _ hk => hk
  constructor
  · intro hreach hlt
    obtain ⟨p, hp⟩ := hreach.exists_walk_length_eq_dist
    have hle : run vs d i j ≤ G.dist i j := hp ▸ hu i hi j hj _ (via_of_walk hvs p)
    obtain ⟨q, hq⟩ := hs.walk i j (lt_of_le_of_lt hle hlt)
    have hge : G.dist i j ≤ q.length := SimpleGraph.dist_le q
    have hq' : (q.length : Int) = run vs d i j := hq
    omega
  · intro hreach
    refine le_antisymm (hs.le_inf i j) (not_lt.mp ?_)
    intro hlt
    obtain ⟨p, _⟩ := hs.walk i j hlt
    exact hreach p.reachable

end Relax

/-! ## Hop distance -/

/-- A connected pair of distinct vertices has a neighbour of the first that is one step closer. -/
theorem exists_adj_dist_succ {u w : V} (h : G.Reachable u w) (hne : u ≠ w) :
    ∃ v, G.Adj u v ∧ G.Reachable v w ∧ G.dist v w + 1 = G.dist u w := by
  obtain ⟨p, hp⟩ := h.exists_walk_length_eq_dist
  cases p with
  | nil => exact absurd rfl hne
  | @cons _ v _ huv q =>
      refine ⟨v, huv, q.reachable, ?_⟩
      obtain ⟨r, hr⟩ := q.reachable.exists_walk_length_eq_dist
      have h₁ : G.dist v w ≤ q.length := SimpleGraph.dist_le q
      have h₂ : G.dist u w ≤ (SimpleGraph.Walk.cons huv r).length := SimpleGraph.dist_le _
      rw [SimpleGraph.Walk.length_cons] at hp h₂
      omega

/-- The distance is less than the number of vertices that have a neighbour. -/
theorem dist_lt_length {vs : List V} (hvs : ∀ i j, G.Adj i j → i ∈ vs) {u w : V} (hu : u ∈ vs)
    (h : G.Reachable u w) : G.dist u w < vs.length := by
  obtain ⟨p, hpath, hp⟩ := h.exists_path_of_dist
  have hsub : ∀ x ∈ p.support, x ∈ vs := by
    clear hp hpath
    induction p with
    | nil => simpa using hu
    | cons hadj q ih =>
        intro x hx
        rw [SimpleGraph.Walk.support_cons, List.mem_cons] at hx
        rcases hx with rfl | hx
        · exact hu
        · exact ih (hvs _ _ hadj.symm) q.reachable x hx
  have hlen := (hpath.support_nodup.subperm hsub).length_le
  rw [SimpleGraph.Walk.length_support] at hlen
  omega

theorem dist_le_succ {u v w : V} (huv : G.Adj u v) (h : G.Reachable v w) :
    G.dist u w ≤ G.dist v w + 1 := by
  obtain ⟨p, hp⟩ := h.exists_walk_length_eq_dist
  have hle : G.dist u w ≤ (SimpleGraph.Walk.cons huv p).length := SimpleGraph.dist_le _
  rwa [SimpleGraph.Walk.length_cons, hp] at hle

/-- The ends of a chain of neighbours are connected, and no further apart than the chain is long. -/
theorem dist_lt_length_of_isChain {u w : V} {path : List V} (h : path.IsChain G.Adj)
    (hu : path.head? = some u) (hw : path.getLast? = some w) :
    G.Reachable u w ∧ G.dist u w < path.length := by
  induction path generalizing u with
  | nil => simp at hu
  | cons a rest ih =>
      have hau : a = u := Option.some.inj hu
      subst hau
      cases rest with
      | nil =>
          have haw : a = w := Option.some.inj hw
          subst haw
          exact ⟨SimpleGraph.Reachable.refl a, by simp⟩
      | cons b rest =>
          obtain ⟨hab, hchain⟩ := List.isChain_cons_cons.mp h
          obtain ⟨hreach, hlt⟩ := ih hchain rfl (by rwa [List.getLast?_cons_cons] at hw)
          have hle := dist_le_succ hab hreach
          exact ⟨hab.reachable.trans hreach, by rw [List.length_cons]; omega⟩

/-- **The paths that get closer with every move are the shortest paths.** -/
theorem isChain_closer_iff {u w : V} {path : List V} (hu : path.head? = some u)
    (hw : path.getLast? = some w) :
    path.IsChain (fun a b => G.Adj a b ∧ G.Reachable b w ∧ G.dist b w + 1 = G.dist a w) ↔
      path.IsChain G.Adj ∧ path.length = G.dist u w + 1 := by
  induction path generalizing u with
  | nil => simp at hu
  | cons a rest ih =>
      have hau : a = u := Option.some.inj hu
      subst hau
      cases rest with
      | nil =>
          have haw : a = w := Option.some.inj hw
          subst haw
          simp [SimpleGraph.dist_self]
      | cons b rest =>
          have hw' : (b :: rest).getLast? = some w := by rwa [List.getLast?_cons_cons] at hw
          have hcons : (a :: b :: rest).length = (b :: rest).length + 1 := rfl
          rw [List.isChain_cons_cons, ih rfl hw', List.isChain_cons_cons, hcons]
          constructor
          · rintro ⟨⟨hab, _, hsucc⟩, hchain, hlen⟩
            exact ⟨⟨hab, hchain⟩, by omega⟩
          · rintro ⟨⟨hab, hchain⟩, hlen⟩
            -- the rest is long enough for `b`, and `b` is at most one step closer than `a`
            obtain ⟨hreach, hlt⟩ := dist_lt_length_of_isChain hchain rfl hw'
            have hle := dist_le_succ hab hreach
            exact ⟨⟨hab, hreach, by omega⟩, hchain, by omega⟩

end FloydWarshall
