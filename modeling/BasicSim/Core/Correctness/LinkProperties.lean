import BasicSim.Core.Correctness.TopologyLayout
import BasicSim.Core.LinkProperties

/-!
# `Core.Correctness.LinkProperties` — the link property mappings are total and exact

## Contents
- **Map literals.** `parseMapString_eq_ok`.
- **Edge maps.** `IsEdgeMap` says when a value gives a text to each of a set of keys; the two edge map
  parsers accept exactly such values (`parseUndirectedEdgeMap_eq_ok`, `parseDirectedEdgeMap_eq_ok`).
- **The mappings.** `IsMappingOf`: total on the keys, with the values that the property gives;
  `convertEdgeMap_accepts`, `parseTopologyLinkProperties_wellFormed`.
-/

namespace BasicSim

open Fallible

/-! ## Map literals -/

/-- The piece splits at `:` into a key and a value. -/
def IsMapEntry (piece : Str) (entry : Str × Str) : Prop :=
  ∃ l r, piece.splitOn ':' = [l, r] ∧ entry = (trim l, trim r)

/-- `value` is a `map(...)` literal with these entries. -/
def IsMapLiteral (value : Str) (entries : List (Str × Str)) : Prop :=
  ∃ inside, value = "map(".toList ++ inside ++ [')'] ∧
    if trim inside = [] then entries = []
    else List.Forall₂ IsMapEntry (inside.splitOn ',') entries

theorem parseMapEntry_eq_ok {piece : Str} {entry : Str × Str} :
    parseMapEntry piece = .ok entry ↔ IsMapEntry piece entry := by
  unfold parseMapEntry IsMapEntry
  rw [bind_eq_ok, show (":".toList : Str) = [':'] from rfl]
  simp only [splitStringExpected_two_char]
  constructor
  · rintro ⟨_, ⟨l, r, rfl, hsplit⟩, h⟩
    cases h
    exact ⟨l, r, hsplit, rfl⟩
  · rintro ⟨l, r, hsplit, rfl⟩
    exact ⟨_, ⟨l, r, rfl, hsplit⟩, rfl⟩

/-- The loop of `parse_map_string` reads every piece and checks that the keys are pairwise different. -/
theorem mapLoop_eq_ok {pieces : List Str} {r : List (Str × Str) × OrdSet Str} :
    pieces.foldlM (fun (x : List (Str × Str) × OrdSet Str) s => do
        let entry ← parseMapEntry s
        throwIf ((x.1 ++ [entry]).length ≠ (x.2.insert entry.1).size) <|
          .invalidArgument ("Duplicate key: " ++ String.ofList entry.1)
        .ok (x.1 ++ [entry], x.2.insert entry.1)) ([], ∅) = .ok r ↔
      ∃ entries, List.Forall₂ IsMapEntry pieces entries ∧ (entries.map Prod.fst).Nodup ∧
        r = (entries, OrdSet.ofList (entries.map Prod.fst)) := by
  refine foldlM_reads (R := IsMapEntry) (fun entries => (entries.map Prod.fst).Nodup)
    (fun entries => (entries, OrdSet.ofList (entries.map Prod.fst))) List.nodup_nil
    ?_ ?_
  · intro bs bs' h
    rw [List.map_append] at h
    exact (List.nodup_append.mp h).1
  · intro done piece s' _
    rw [bind_eq_ok]
    refine exists_congr ?_
    intro entry
    rw [parseMapEntry_eq_ok, throwIf_bind_eq_ok, not_not, Except.ok.injEq, ← OrdSet.ofList_concat,
      ← List.map_singleton (f := Prod.fst), ← List.map_append,
      ← @List.length_map _ _ (done ++ [entry]) Prod.fst, eq_comm (a := List.length _),
      OrdSet.size_ofList_eq, eq_comm (a := s')]

/-- **`parse_map_string` accepts exactly the map literals with pairwise different keys.** -/
theorem parseMapString_eq_ok {value : Str} {entries : List (Str × Str)} :
    parseMapString value = .ok entries ↔
      IsMapLiteral value entries ∧ (entries.map Prod.fst).Nodup := by
  unfold parseMapString IsMapLiteral
  rw [bind_eq_ok, ← exists_and_right]
  refine exists_congr ?_
  intro inside
  rw [onlyInside_eq_ok (by decide), and_assoc]
  refine and_congr_right ?_
  intro _
  by_cases h : trim inside = []
  · rw [if_pos h, if_pos h, Except.ok.injEq]
    constructor
    · rintro rfl; exact ⟨rfl, List.nodup_nil⟩
    · rintro ⟨rfl, _⟩; rfl
  · rw [if_neg h, if_neg h, show (",".toList : Str) = [','] from rfl, splitString_singleton, ok_bind,
      bind_eq_ok]
    constructor
    · rintro ⟨_, hloop, hr⟩
      obtain ⟨entries', hf, hnd, rfl⟩ := mapLoop_eq_ok.mp hloop
      cases hr
      exact ⟨hf, hnd⟩
    · rintro ⟨hf, hnd⟩
      exact ⟨_, mapLoop_eq_ok.mpr ⟨entries, hf, hnd, rfl⟩, rfl⟩

/-! ## Edge maps -/

/-- `value` is a map literal whose keys stand, by `KeyOf`, for exactly the keys `Required`, each once;
    `keyed` has the keys with their texts. -/
structure IsEdgeMap (KeyOf : Str → Int64Pair → Prop) (Required : Int64Pair → Prop) (value : Str)
    (keyed : List (Int64Pair × Str)) : Prop where
  /-- no entry is malformed -/
  literal : ∃ entries, IsMapLiteral value entries ∧
    List.Forall₂ (fun entry kv => KeyOf entry.1 kv.1 ∧ kv.2 = entry.2) entries keyed
  /-- no key is a duplicate of another -/
  nodup : (keyed.map Prod.fst).Nodup
  /-- no key is unknown -/
  known : ∀ kv ∈ keyed, Required kv.1
  /-- no key is missing -/
  complete : ∀ k, Required k → k ∈ keyed.map Prod.fst

theorem IsEdgeMap.mem_keys {KeyOf : Str → Int64Pair → Prop} {Required : Int64Pair → Prop}
    {value : Str} {keyed : List (Int64Pair × Str)} (h : IsEdgeMap KeyOf Required value keyed)
    (k : Int64Pair) : k ∈ (OrdMap.ofEntries keyed).keys ↔ Required k := by
  rw [OrdMap.keys_ofEntries, OrdSet.mem_ofList]
  refine ⟨?_, h.complete k⟩
  intro hk
  obtain ⟨kv, hkv, rfl⟩ := List.mem_map.mp hk
  exact h.known kv hkv

/-- The loop of the edge map parsers. -/
theorem edgeMapLoop_eq_ok {parseKey : Str → Except Exc Int64Pair} {known : Int64Pair → Bool}
    {duplicateText unknownText : String} {entries : List (Str × Str)} {r : OrdMap Int64Pair Str} :
    entries.foldlM (fun (result : OrdMap Int64Pair Str) p => do
        let key ← parseKey p.1
        throwIf ((result.find? key).isSome = true) <|
          .runtimeError (duplicateText ++ String.ofList p.1)
        throwIf (known key = false) <| .runtimeError (unknownText ++ String.ofList p.1)
        .ok (result.insert key p.2)) ∅ = .ok r ↔
      ∃ keyed : List (Int64Pair × Str),
        List.Forall₂ (fun entry kv => parseKey entry.1 = .ok kv.1 ∧ kv.2 = entry.2) entries keyed ∧
        ((keyed.map Prod.fst).Nodup ∧ ∀ kv ∈ keyed, known kv.1 = true) ∧
        r = OrdMap.ofEntries keyed := by
  refine foldlM_reads (R := fun (entry : Str × Str) (kv : Int64Pair × Str) =>
      parseKey entry.1 = .ok kv.1 ∧ kv.2 = entry.2)
    (fun keyed => (keyed.map Prod.fst).Nodup ∧ ∀ kv ∈ keyed, known kv.1 = true) OrdMap.ofEntries
    ⟨List.nodup_nil, fun _ h => nomatch h⟩ ?_ ?_
  · intro bs bs' h
    rw [List.map_append] at h
    exact ⟨(List.nodup_append.mp h.1).1, fun kv hkv => h.2 kv (List.mem_append_left _ hkv)⟩
  · intro done entry s' hdone
    -- the two checks of the loop body keep the entries good
    have hgood : ∀ key, (((done ++ [(key, entry.2)]).map Prod.fst).Nodup ∧
        ∀ kv ∈ done ++ [(key, entry.2)], known kv.1 = true) ↔
        (¬ ((OrdMap.ofEntries done).find? key).isSome = true ∧ ¬ known key = false) := fun key => by
      rw [OrdMap.nodup_concat_iff, List.forall_mem_append, List.forall_mem_singleton, Bool.not_eq_false]
      constructor
      · rintro ⟨⟨_, hnew⟩, _, hknown⟩
        exact ⟨hnew, hknown⟩
      · rintro ⟨hnew, hknown⟩
        exact ⟨⟨hdone.1, hnew⟩, hdone.2, hknown⟩
    rw [bind_eq_ok]
    simp only [throwIf_bind_eq_ok]
    constructor
    · rintro ⟨key, hkey, hdup, hknown, h⟩
      cases h
      exact ⟨(key, entry.2), ⟨hkey, rfl⟩, (hgood key).mpr ⟨hdup, hknown⟩,
        (OrdMap.ofEntries_concat done (key, entry.2)).symm⟩
    · rintro ⟨⟨key, _⟩, ⟨hkey, rfl⟩, hg, rfl⟩
      obtain ⟨hdup, hknown⟩ := (hgood key).mp hg
      exact ⟨key, hkey, hdup, hknown, by rw [OrdMap.ofEntries_concat]⟩

/-- **What the edge map parsers accept.** `links` is the set of the keys that are known, and `numKeys`
    its size; so the comparison of the sizes is the test that no key is missing. -/
theorem parseEdgeMap_eq_ok {parseKey : Str → Except Exc Int64Pair} {known : Int64Pair → Bool}
    {numKeys : Nat} {duplicateText unknownText missingText : String} {value : Str}
    {result : OrdMap Int64Pair Str} {links : OrdSet Int64Pair}
    (hknown : ∀ k, (∃ s, parseKey s = .ok k) → (known k = true ↔ k ∈ links))
    (hsize : links.size = numKeys) :
    parseEdgeMap parseKey known numKeys duplicateText unknownText missingText value = .ok result ↔
      ∃ keyed, IsEdgeMap (fun s k => parseKey s = .ok k) (· ∈ links) value keyed ∧
        result = OrdMap.ofEntries keyed := by
  unfold parseEdgeMap
  rw [bind_eq_ok]
  simp only [parseMapString_eq_ok, bind_eq_ok (x := List.foldlM _ _ _), edgeMapLoop_eq_ok,
    throwIf_bind_eq_ok, not_not, Except.ok.injEq]
  constructor
  · rintro ⟨entries, ⟨hlit, _⟩, r, ⟨keyed, hf, ⟨hnd, hk⟩, rfl⟩, hnum, rfl⟩
    have hlinks : ∀ kv ∈ keyed, kv.1 ∈ links := fun kv hkv => by
      obtain ⟨entry, _, hread, _⟩ := exists_left_of_forall₂ hf hkv
      exact (hknown kv.1 ⟨_, hread⟩).mp (hk kv hkv)
    refine ⟨keyed, ⟨⟨entries, hlit, hf⟩, hnd, hlinks, ?_⟩, rfl⟩
    intro k hkl
    have heq : OrdSet.ofList (keyed.map Prod.fst) = links := by
      refine OrdSet.eq_of_subset_of_size_le ?_ ?_
      · intro k hk
        obtain ⟨kv, hkv, rfl⟩ := List.mem_map.mp (OrdSet.mem_ofList.mp hk)
        exact hlinks kv hkv
      · rw [hsize, hnum, ← OrdMap.size_keys, OrdMap.keys_ofEntries]
    exact OrdSet.mem_ofList.mp (heq ▸ hkl)
  · rintro ⟨keyed, h, rfl⟩
    obtain ⟨entries, hlit, hf⟩ := h.literal
    -- different keys are written as different texts
    have htexts : (entries.map Prod.fst).Nodup := by
      have hread : List.Forall₂ (ReadAs parseKey) (entries.map Prod.fst) (keyed.map Prod.fst) := by
        rw [List.forall₂_map_left_iff, List.forall₂_map_right_iff]
        exact hf.imp fun _ _ hr => hr.1
      exact nodup_of_forall₂ hread h.nodup
    refine ⟨entries, ⟨hlit, htexts⟩, _, ⟨keyed, hf, ⟨h.nodup, ?_⟩, rfl⟩, ?_, rfl⟩
    · intro kv hkv
      obtain ⟨entry, _, hread, _⟩ := exists_left_of_forall₂ hf hkv
      exact (hknown kv.1 ⟨_, hread⟩).mpr (h.known kv hkv)
    · rw [← hsize, ← OrdMap.size_keys]
      exact congrArg OrdSet.size (OrdSet.ext_mem fun k => ((h.mem_keys k).symm))

/-! ## Keys -/

theorem parseUndirectedEdgeKey_eq_ok {s : Str} {k : Int64Pair} :
    parseUndirectedEdgeKey s = .ok k ↔ IsEdgeItem s k ∧ k.first ≤ k.second := by
  unfold parseUndirectedEdgeKey IsEdgeItem
  rw [bind_eq_ok, show ("-".toList : Str) = ['-'] from rfl]
  simp only [splitStringExpected_two_char]
  constructor
  · rintro ⟨_, ⟨l, r, rfl, hsplit⟩, h⟩
    obtain ⟨a, b, ha, hb, h⟩ := parsePair_eq_ok.mp h
    obtain ⟨hle, heq⟩ := throwIf_bind_eq_ok.mp h
    cases heq
    exact ⟨⟨l, r, hsplit, ha, hb⟩, not_lt.mp hle⟩
  · rintro ⟨⟨l, r, hsplit, ha, hb⟩, hle⟩
    exact ⟨_, ⟨l, r, rfl, hsplit⟩,
      parsePair_eq_ok.mpr ⟨_, _, ha, hb, throwIf_bind_eq_ok.mpr ⟨not_lt.mpr hle, rfl⟩⟩⟩

/-- The key is written `a->b` with non-negative integers `a` and `b`. -/
def IsLinkItem (s : Str) (k : Int64Pair) : Prop :=
  ∃ l r, s = l ++ "->".toList ++ r ∧
    parsePositiveInt64 l = .ok k.first ∧ parsePositiveInt64 r = .ok k.second

theorem parseDirectedEdgeKey_eq_ok {s : Str} {k : Int64Pair} :
    parseDirectedEdgeKey s = .ok k ↔ IsLinkItem s k := by
  unfold parseDirectedEdgeKey IsLinkItem
  rw [bind_eq_ok]
  simp only [splitStringExpected_two (d := "->".toList) (by decide)]
  constructor
  · rintro ⟨_, ⟨l, r, rfl, _, hs, _⟩, h⟩
    obtain ⟨a, b, ha, hb, h⟩ := parsePair_eq_ok.mp h
    cases h
    exact ⟨l, r, hs, ha, hb⟩
  · rintro ⟨l, r, rfl, ha, hb⟩
    -- a numeral holds no `>`, so the arrow in the middle is the only one
    have hl := parseInt64_no_gt (parsePositiveInt64_eq_ok.mp ha).1
    have hr := parseInt64_no_gt (parsePositiveInt64_eq_ok.mp hb).1
    exact ⟨[l, r], ⟨l, r, rfl, find_arrow hl, rfl, fun h => hr (h.subset (by decide))⟩,
      parsePair_eq_ok.mpr ⟨_, _, ha, hb, rfl⟩⟩

/-- The test for a known directed edge is membership in the links. -/
theorem undirectedEdgeOf_mem {t : TopologyPtop} (hwf : t.WellFormed) (k : Int64Pair) :
    undirectedEdgeOf k ∈ t.undirectedEdgesSet ↔ k ∈ t.getLinksSet := by
  have hasc : ∀ {e : Int64Pair}, e ∈ t.undirectedEdges → e.first < e.second :=
    fun he => (hwf.edge_bounds _ he).2.1
  rw [hwf.mem_edgesSet, TopologyPtop.mem_getLinksSet, TopologyPtop.mem_getLinks]
  obtain ⟨a, b⟩ := k
  unfold undirectedEdgeOf Int64Pair.swap
  rcases lt_trichotomy a b with hlt | heq | hgt
  · rw [if_pos hlt, if_pos hlt]
    exact ⟨.inl, fun h => h.resolve_right fun he => absurd (hasc he) (lt_asymm hlt)⟩
  · subst heq
    simp
  · rw [if_neg (lt_asymm hgt), if_neg (lt_asymm hgt)]
    exact ⟨.inr, fun h => h.resolve_left fun he => absurd (hasc he) (lt_asymm hgt)⟩

section Accepted

variable {t : TopologyPtop} {value : Str}

/-- The value is an edge map of the undirected edges. -/
def IsUndirectedEdgeMap (t : TopologyPtop) (value : Str) (keyed : List (Int64Pair × Str)) : Prop :=
  IsEdgeMap (fun s k => IsEdgeItem s k ∧ k.first ≤ k.second) (· ∈ t.undirectedEdges) value keyed

/-- The value is an edge map of the links. -/
def IsDirectedEdgeMap (t : TopologyPtop) (value : Str) (keyed : List (Int64Pair × Str)) : Prop :=
  IsEdgeMap IsLinkItem (· ∈ t.getLinks) value keyed

theorem IsEdgeMap.congr {K K' : Str → Int64Pair → Prop} {R R' : Int64Pair → Prop}
    {keyed : List (Int64Pair × Str)} (h : IsEdgeMap K R value keyed) (hK : ∀ s k, K s k ↔ K' s k)
    (hR : ∀ k, R k ↔ R' k) : IsEdgeMap K' R' value keyed := by
  obtain ⟨entries, hlit, hf⟩ := h.literal
  exact ⟨⟨entries, hlit, hf.imp fun _ _ hr => ⟨(hK _ _).mp hr.1, hr.2⟩⟩, h.nodup,
    fun kv hkv => (hR _).mp (h.known kv hkv), fun k hk => h.complete k ((hR k).mpr hk)⟩

/-- **`ParseUndirectedEdgeMap` accepts exactly the edge maps of the undirected edges.** -/
theorem parseUndirectedEdgeMap_eq_ok (hwf : t.WellFormed) {result : OrdMap Int64Pair Str} :
    parseUndirectedEdgeMap t value = .ok result ↔
      ∃ keyed, IsUndirectedEdgeMap t value keyed ∧ result = OrdMap.ofEntries keyed := by
  unfold parseUndirectedEdgeMap
  have hknown : ∀ k, (∃ s, parseUndirectedEdgeKey s = .ok k) →
      (decide (k ∈ t.undirectedEdgesSet) = true ↔ k ∈ t.undirectedEdgesSet) := fun _ _ => decide_eq_true_iff
  rw [parseEdgeMap_eq_ok hknown rfl]
  refine exists_congr fun keyed => and_congr_left ?_
  intro _
  exact ⟨fun h => h.congr (fun _ _ => parseUndirectedEdgeKey_eq_ok) fun _ => hwf.mem_edgesSet,
    fun h => h.congr (fun _ _ => parseUndirectedEdgeKey_eq_ok.symm) fun _ => hwf.mem_edgesSet.symm⟩

/-- **`ParseDirectedEdgeMap` accepts exactly the edge maps of the links.** -/
theorem parseDirectedEdgeMap_eq_ok (hwf : t.WellFormed) {result : OrdMap Int64Pair Str} :
    parseDirectedEdgeMap t value = .ok result ↔
      ∃ keyed, IsDirectedEdgeMap t value keyed ∧ result = OrdMap.ofEntries keyed := by
  unfold parseDirectedEdgeMap
  have hknown : ∀ k, (∃ s, parseDirectedEdgeKey s = .ok k) →
      (decide (undirectedEdgeOf k ∈ t.undirectedEdgesSet) = true ↔ k ∈ t.getLinksSet) :=
    fun k _ => decide_eq_true_iff.trans (undirectedEdgeOf_mem hwf k)
  rw [parseEdgeMap_eq_ok hknown hwf.size_getLinksSet]
  refine exists_congr fun keyed => and_congr_left ?_
  intro _
  exact ⟨fun h => h.congr (fun _ _ => parseDirectedEdgeKey_eq_ok) fun _ => TopologyPtop.mem_getLinksSet,
    fun h => h.congr (fun _ _ => parseDirectedEdgeKey_eq_ok.symm)
      fun _ => TopologyPtop.mem_getLinksSet.symm⟩

/-! ## The mappings -/

/-- Converting an edge map goes through its entries. -/
theorem convertEdgeMap_eq_ok {V : Type} {parse : Str → Except Exc V} {edgeMapping : OrdMap Int64Pair Str}
    {mapping : OrdMap Int64Pair V} :
    convertEdgeMap parse edgeMapping = .ok mapping ↔ ∃ vals, List.Forall₂ (fun (entry : Int64Pair × Str)
      (kv : Int64Pair × V) => kv.1 = entry.1 ∧ parse entry.2 = .ok kv.2) edgeMapping.entries vals ∧
      mapping = OrdMap.ofEntries vals := by
  have hloop := foldlM_reads (l := edgeMapping.entries) (r := mapping)
    (f := fun (mapping : OrdMap Int64Pair V) (entry : Int64Pair × Str) => do
      let v ← parse entry.2
      .ok (mapping.insert entry.1 v))
    (R := fun (entry : Int64Pair × Str) (kv : Int64Pair × V) => kv.1 = entry.1 ∧ parse entry.2 = .ok kv.2)
    (fun _ => True) OrdMap.ofEntries trivial (fun _ _ _ => trivial) (fun done entry s' _ => by
      rw [bind_eq_ok]
      constructor
      · rintro ⟨v, hv, h⟩
        cases h
        exact ⟨(entry.1, v), ⟨rfl, hv⟩, trivial, (OrdMap.ofEntries_concat done (entry.1, v)).symm⟩
      · rintro ⟨⟨_, v⟩, ⟨rfl, hv⟩, _, rfl⟩
        exact ⟨v, hv, by rw [OrdMap.ofEntries_concat]⟩)
  simp only [true_and] at hloop
  exact hloop

/-- A converted edge map has the keys of the edge map, and their converted texts. -/
theorem convertEdgeMap_spec {V : Type} {parse : Str → Except Exc V} {edgeMapping : OrdMap Int64Pair Str}
    {mapping : OrdMap Int64Pair V} (h : convertEdgeMap parse edgeMapping = .ok mapping) :
    mapping.keys = edgeMapping.keys ∧ ∀ k v, mapping.find? k = some v →
      ∃ text, edgeMapping.find? k = some text ∧ parse text = .ok v := by
  have hnd : (edgeMapping.entries.map Prod.fst).Nodup := edgeMapping.keys.nodup
  obtain ⟨vals, hf, rfl⟩ := convertEdgeMap_eq_ok.mp h
  have hkeys : vals.map Prod.fst = edgeMapping.entries.map Prod.fst :=
    (map_eq_map_of_forall₂ (fun _ _ hr => hr.1.symm) hf).symm
  refine ⟨?_, ?_⟩
  · refine OrdSet.ext_mem ?_
    intro k
    rw [OrdMap.keys_ofEntries, hkeys, OrdSet.mem_ofList]
    exact Iff.rfl
  · intro k v hkv
    rw [OrdMap.find?_ofEntries (by rw [hkeys]; exact hnd)] at hkv
    obtain ⟨entry, hentry, hk, hv⟩ := exists_left_of_forall₂ hf hkv
    exact ⟨entry.2, OrdMap.find?_eq_some.mpr (by rw [show k = entry.1 from hk]; exact hentry), hv⟩

/-- An edge map is converted if its texts can be read. -/
theorem convertEdgeMap_accepts {V : Type} {parse : Str → Except Exc V} {keyed : List (Int64Pair × Str)}
    (hnodup : (keyed.map Prod.fst).Nodup) :
    (∃ mapping, convertEdgeMap parse (OrdMap.ofEntries keyed) = .ok mapping) ↔
      ∀ kv ∈ keyed, ∃ v, parse kv.2 = .ok v := by
  have hentries : ∀ kv, kv ∈ (OrdMap.ofEntries keyed).entries ↔ kv ∈ keyed := fun kv =>
    OrdMap.find?_eq_some.symm.trans (OrdMap.find?_ofEntries hnodup)
  simp only [convertEdgeMap_eq_ok, ← hentries]
  constructor
  · rintro ⟨_, vals, hf, -⟩ kv hkv
    obtain ⟨_, -, -, hv⟩ := exists_right_of_forall₂ hf hkv
    exact ⟨_, hv⟩
  · intro h
    have hread : ∀ entry ∈ (OrdMap.ofEntries keyed).entries,
        ∃ kv : Int64Pair × V, kv.1 = entry.1 ∧ parse entry.2 = .ok kv.2 := by
      intro entry hentry
      obtain ⟨v, hv⟩ := h entry hentry
      exact ⟨(entry.1, v), rfl, hv⟩
    obtain ⟨vals, hf⟩ := exists_forall₂_iff.mpr hread
    exact ⟨_, vals, hf, rfl⟩

/-- Giving every link the global value fills the links with what it is read as. -/
theorem globalLinkMapping_eq_fill {V : Type} (hwf : t.WellFormed) (hne : t.undirectedEdges ≠ [])
    (readValue : Except Exc V) :
    globalLinkMapping t readValue = OrdMap.fill t.getLinks <$> readValue := by
  unfold globalLinkMapping
  rw [← hwf.edges_eq, foldlM_read_same hne]
  refine congrArg (· <$> readValue) (funext fun w => ?_)
  rw [TopologyPtop.getLinks_eq_flatMap, OrdMap.fill, List.foldl_flatMap]
  rfl

/-- The global value is given to every link. -/
theorem globalLinkMapping_spec {V : Type} (hwf : t.WellFormed) {readValue : Except Exc V}
    {mapping : OrdMap Int64Pair V} (h : globalLinkMapping t readValue = .ok mapping) :
    (∀ k, k ∈ mapping.keys ↔ k ∈ t.getLinks) ∧
      ∀ k v, mapping.find? k = some v → readValue = .ok v := by
  by_cases hne : t.undirectedEdges = []
  · -- without edges nothing is read
    unfold globalLinkMapping at h
    rw [← hwf.edges_eq, hne] at h
    cases h
    constructor
    · intro k
      rw [TopologyPtop.mem_getLinks, hne]
      simp
    · intro k v hkv
      rw [OrdMap.find?_empty] at hkv
      cases hkv
  · rw [globalLinkMapping_eq_fill hwf hne] at h
    obtain ⟨w, hw, rfl⟩ := map_eq_ok.mp h
    exact ⟨fun k => OrdMap.mem_keys_fill, fun k v hkv => OrdMap.eq_of_find?_fill hkv ▸ hw⟩

/-- By the value of a property, the key `k` is given `v`: it is the global value, or the text of the
    key in the edge map is read as `v`. -/
def Gives {V : Type} (IsMap : List (Int64Pair × Str) → Prop) (parse : Str → Except Exc V) (value : Str)
    (k : Int64Pair) (v : V) : Prop :=
  if isMapping value = false then parse value = .ok v
  else ∃ keyed, IsMap keyed ∧ ∃ text, (k, text) ∈ keyed ∧ parse text = .ok v

theorem Gives.exists_text {V : Type} {IsMap : List (Int64Pair × Str) → Prop} {parse : Str → Except Exc V} {value : Str}
    {k : Int64Pair} {v : V} (h : Gives IsMap parse value k v) : ∃ text, parse text = .ok v := by
  unfold Gives at h
  split at h
  · exact ⟨value, h⟩
  · obtain ⟨_, _, text, _, htext⟩ := h
    exact ⟨text, htext⟩

/-- The mapping is total on the keys and gives each what the value of the property says. -/
structure IsMappingOf {V : Type} (Keys : Int64Pair → Prop) (IsMap : List (Int64Pair × Str) → Prop)
    (parse : Str → Except Exc V) (value : Str) (mapping : OrdMap Int64Pair V) : Prop where
  keys : ∀ k, k ∈ mapping.keys ↔ Keys k
  values : ∀ k v, mapping.find? k = some v → Gives IsMap parse value k v

/-- A total mapping has a value at every key. -/
theorem IsMappingOf.exists_find? {V : Type} {Keys : Int64Pair → Prop}
    {IsMap : List (Int64Pair × Str) → Prop} {parse : Str → Except Exc V} {mapping : OrdMap Int64Pair V}
    (h : IsMappingOf Keys IsMap parse value mapping) {k : Int64Pair} (hk : Keys k) :
    ∃ v, mapping.find? k = some v :=
  Option.isSome_iff_exists.mp (OrdMap.find?_isSome.mpr ((h.keys k).mpr hk))

/-- The branch of an edge map. -/
theorem isMappingOf_convertEdgeMap {V : Type} {KeyOf : Str → Int64Pair → Prop}
    {Keys : Int64Pair → Prop} {parse : Str → Except Exc V} {keyed : List (Int64Pair × Str)}
    {mapping : OrdMap Int64Pair V} (hm : isMapping value ≠ false)
    (hkeyed : IsEdgeMap KeyOf Keys value keyed)
    (h : convertEdgeMap parse (OrdMap.ofEntries keyed) = .ok mapping) :
    IsMappingOf Keys (IsEdgeMap KeyOf Keys value) parse value mapping := by
  obtain ⟨hkeys, hvals⟩ := convertEdgeMap_spec h
  refine ⟨fun k => by rw [hkeys]; exact hkeyed.mem_keys k, ?_⟩
  intro k v hkv
  obtain ⟨text, htext, hv⟩ := hvals k v hkv
  rw [Gives, if_neg hm]
  exact ⟨keyed, hkeyed, text, (OrdMap.find?_ofEntries hkeyed.nodup).mp htext, hv⟩

/-- The branch of a mapping of the directed edges. -/
theorem isMappingOf_parseDirectedEdgeMap {V : Type} (hwf : t.WellFormed) {parse : Str → Except Exc V}
    {mapping : OrdMap Int64Pair V} (hm : isMapping value ≠ false)
    (h : (parseDirectedEdgeMap t value >>= convertEdgeMap parse) = .ok mapping) :
    IsMappingOf (· ∈ t.getLinks) (IsDirectedEdgeMap t value) parse value mapping := by
  obtain ⟨edgeMapping, hmap, h⟩ := bind_eq_ok.mp h
  obtain ⟨keyed, hkeyed, rfl⟩ := (parseDirectedEdgeMap_eq_ok hwf).mp hmap
  exact isMappingOf_convertEdgeMap hm hkeyed h

/-- The branch of a global value. -/
theorem isMappingOf_globalLinkMapping {V : Type} (hwf : t.WellFormed) {parse : Str → Except Exc V}
    {readValue : Except Exc V} {mapping : OrdMap Int64Pair V} (hm : isMapping value = false)
    (hread : ∀ v, readValue = .ok v → parse value = .ok v)
    (h : globalLinkMapping t readValue = .ok mapping) :
    IsMappingOf (· ∈ t.getLinks) (IsDirectedEdgeMap t value) parse value mapping := by
  obtain ⟨hkeys, hvals⟩ := globalLinkMapping_spec hwf h
  exact ⟨hkeys, fun k v hkv => by rw [Gives, if_pos hm]; exact hread v (hvals k v hkv)⟩

/-- What a property of the directed edges is. -/
def IsLinkMapping {V : Type} (t : TopologyPtop) (config : Config) (parameter : String)
    (parse : Str → Except Exc V) (mapping : OrdMap Int64Pair V) : Prop :=
  ConfigHas config parameter fun value =>
    IsMappingOf (· ∈ t.getLinks) (IsDirectedEdgeMap t value) parse value mapping

variable {config : Config}

theorem parseLinkProperty_spec {V : Type} (hwf : t.WellFormed) {parameter : String}
    {parse : Str → Except Exc V} {mapping : OrdMap Int64Pair V}
    (h : parseLinkProperty t parameter parse config = .ok mapping) :
    IsLinkMapping t config parameter parse mapping := by
  unfold parseLinkProperty at h
  obtain ⟨value, hvalue, h⟩ := bind_eq_ok.mp h
  refine ⟨value, getParamOrFail_eq_ok.mp hvalue, ?_⟩
  split at h
  · next hm => exact isMappingOf_globalLinkMapping hwf hm (fun _ hv => hv) h
  · next hm => exact isMappingOf_parseDirectedEdgeMap hwf hm h

theorem parseDataRateProperty_spec (hwf : t.WellFormed) {stod : Str → Except Exc (Double × Nat)}
    {mapping : OrdMap Int64Pair Double}
    (h : parseLinkNetDeviceDataRateMegabitPerSecProperty t stod config = .ok mapping) :
    IsLinkMapping t config "link_net_device_data_rate_megabit_per_s" (parsePositiveDouble stod)
      mapping := by
  unfold parseLinkNetDeviceDataRateMegabitPerSecProperty at h
  obtain ⟨value, hvalue, h⟩ := bind_eq_ok.mp h
  refine ⟨value, getParamOrFail_eq_ok.mp hvalue, ?_⟩
  split at h
  · next hm =>
      obtain ⟨rate, hrate, h⟩ := bind_eq_ok.mp h
      exact isMappingOf_globalLinkMapping hwf hm (fun v hv => hrate.trans hv) h
  · next hm => exact isMappingOf_parseDirectedEdgeMap hwf hm h

theorem parseQueueProperty_spec (hwf : t.WellFormed) {s : Selectors}
    {mapping : OrdMap Int64Pair s.ObjectFactory}
    (h : parseLinkNetDeviceQueueProperty t s config = .ok mapping) :
    IsLinkMapping t config "link_net_device_queue" s.parseQueueValue mapping := by
  unfold parseLinkNetDeviceQueueProperty at h
  obtain ⟨value, hvalue, h⟩ := bind_eq_ok.mp h
  refine ⟨value, getParamOrFail_eq_ok.mp hvalue, ?_⟩
  split at h
  · next hm =>
      obtain ⟨_, hglobal, h⟩ := bind_eq_ok.mp h
      obtain ⟨_, _, h⟩ := bind_eq_ok.mp h
      cases h
      exact isMappingOf_globalLinkMapping hwf hm (fun _ hv => hv) hglobal
  · next hm => exact isMappingOf_parseDirectedEdgeMap hwf hm h

/-- The channel delay is a property of the undirected edges. -/
def IsDelayMapping (t : TopologyPtop) (config : Config) (mapping : OrdMap Int64Pair Int) : Prop :=
  ConfigHas config "link_channel_delay_ns" fun value =>
    IsMappingOf (· ∈ t.undirectedEdges) (IsUndirectedEdgeMap t value) parsePositiveInt64 value mapping

theorem parseDelayProperty_spec (hwf : t.WellFormed) {mapping : OrdMap Int64Pair Int}
    (h : parseLinkChannelDelayNsProperty t config = .ok mapping) : IsDelayMapping t config mapping := by
  unfold parseLinkChannelDelayNsProperty at h
  obtain ⟨value, hvalue, h⟩ := bind_eq_ok.mp h
  refine ⟨value, getParamOrFail_eq_ok.mp hvalue, ?_⟩
  split at h
  · next hm =>
      obtain ⟨delay, hdelay, h⟩ := bind_eq_ok.mp h
      cases h
      have hfill : t.undirectedEdgesSet.toList.foldl (fun mapping p => mapping.insert p delay)
          (∅ : OrdMap Int64Pair Int) = OrdMap.fill t.undirectedEdges delay := by
        rw [OrdMap.fill, hwf.edges_eq]
      rw [hfill]
      refine ⟨fun k => OrdMap.mem_keys_fill, ?_⟩
      intro k v hkv
      obtain rfl := OrdMap.eq_of_find?_fill hkv
      rw [Gives, if_pos hm]
      exact hdelay
  · next hm =>
      obtain ⟨edgeMapping, hmap, h⟩ := bind_eq_ok.mp h
      obtain ⟨keyed, hkeyed, rfl⟩ := (parseUndirectedEdgeMap_eq_ok hwf).mp hmap
      exact isMappingOf_convertEdgeMap hm hkeyed h

/-- **The five mappings are total and exact.** -/
structure LinkProperties.WellFormed {s : Selectors} (t : TopologyPtop)
    (stod : Str → Except Exc (Double × Nat)) (config : Config) (p : LinkProperties s) : Prop where
  delay : IsDelayMapping t config p.linkChannelDelayNsMapping
  dataRate : IsLinkMapping t config "link_net_device_data_rate_megabit_per_s"
    (parsePositiveDouble stod) p.linkNetDeviceDataRateMegabitPerSMapping
  queue : IsLinkMapping t config "link_net_device_queue" s.parseQueueValue p.linkNetDeviceQueueMapping
  receiveErrorModel : IsLinkMapping t config "link_net_device_receive_error_model"
    s.parseReceiveErrorModelValue p.linkNetDeviceReceiveErrorModelMapping
  tcQdisc : IsLinkMapping t config "link_interface_traffic_control_qdisc" s.parseTcQdiscValue
    p.linkInterfaceTrafficControlQdiscMapping

theorem parseTopologyLinkProperties_wellFormed (hwf : t.WellFormed)
    {stod : Str → Except Exc (Double × Nat)} {s : Selectors} {p : LinkProperties s}
    (h : parseTopologyLinkProperties t stod s config = .ok p) : p.WellFormed t stod config := by
  unfold parseTopologyLinkProperties at h
  obtain ⟨_, hdelay, h⟩ := bind_eq_ok.mp h
  obtain ⟨_, hrate, h⟩ := bind_eq_ok.mp h
  obtain ⟨_, hqueue, h⟩ := bind_eq_ok.mp h
  obtain ⟨_, herror, h⟩ := bind_eq_ok.mp h
  obtain ⟨_, hqdisc, h⟩ := bind_eq_ok.mp h
  cases h
  exact ⟨parseDelayProperty_spec hwf hdelay, parseDataRateProperty_spec hwf hrate,
    parseQueueProperty_spec hwf hqueue, parseLinkProperty_spec hwf herror,
    parseLinkProperty_spec hwf hqdisc⟩

end Accepted

end BasicSim
