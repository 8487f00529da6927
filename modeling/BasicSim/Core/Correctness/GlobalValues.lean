import BasicSim.Core.Correctness.Literals
import BasicSim.Core.Correctness.SetupLinks

/-!
# `Core.Correctness.GlobalValues` — a global link property value means the same as spelling it out

A link property is one global value, or a map literal with a value for every edge. The two are read by different
loops: the one goes through the edges of the topology, the other through the entries of the edge map. Both read
the same text over and over and give the result to every key, so they come to `OrdMap.fill`.

## Contents
- **Spelling out.** `GivesAll`, and that every rendering of it is one (`givesAll_undirected`, `givesAll_directed`).
- **Filling.** `convertEdgeMap_of_givesAll`, beside `globalLinkMapping_eq_fill`.
- **Main result.** `MeansSpellingOut`, `GlobalValueMeansSpellingOut`, `global_value_means_spelling_out`.
-/

namespace BasicSim

open Fallible Padding

/-! ## Spelling out -/

/-- The edge map gives `v` to every key. -/
def GivesAll (IsMap : List (Int64Pair × Str) → Prop) (v : Str) : Prop :=
  ∃ keyed, IsMap keyed ∧ ∀ kv ∈ keyed, kv.2 = v

/-- The key of a map literal that stands for the edge, with the dash or arrow between the node identifiers. -/
def keyText (dash : String) (e : Int64Pair) : Str := toStr e.first ++ dash.toList ++ toStr e.second

/-- The map literal that gives `v` to these edges, as they are listed. -/
def RendersGlobal (dash : String) (listed : List Int64Pair) (v literal : Str) : Prop :=
  Renders RendersEntry "map(".toList (listed.map fun e => (keyText dash e, v)) literal

section Spelling

variable {t : TopologyPtop} {v literal : Str}

theorem isMapping_of_isMapLiteral {entries : List (Str × Str)} (h : IsMapLiteral literal entries) :
    isMapping literal = true := by
  obtain ⟨inside, rfl, -⟩ := h
  have htrim : trim ("map(".toList ++ inside ++ [')']) = "map(".toList ++ inside ++ [')'] :=
    strip_eq_self_iff.mpr (isStripped_cons_concat (a := 'm') (by decide) (by decide) ("ap(".toList ++ inside))
  rw [isMapping, htrim, startsWith_eq_true]
  exact ⟨'(' :: (inside ++ [')']), rfl⟩

/-- A rendered map literal with these keys is an edge map of the edges that the keys stand for. -/
theorem givesAll_of_renders {KeyOf : Str → Int64Pair → Prop} {Required : Int64Pair → Prop} {dash : String}
    {listed : List Int64Pair} (hv : IsPlain [',', ':'] v) (h : RendersGlobal dash listed v literal)
    (hplain : ∀ e ∈ listed, IsPlain [',', ':'] (keyText dash e)) (hkey : ∀ e ∈ listed, KeyOf (keyText dash e) e)
    (hnodup : listed.Nodup) (hmem : ∀ e, e ∈ listed ↔ Required e) :
    GivesAll (IsEdgeMap KeyOf Required literal) v := by
  have hfst : (listed.map fun e => (e, v)).map Prod.fst = listed := by
    rw [List.map_map]
    exact List.map_id _
  refine ⟨listed.map fun e => (e, v), ⟨⟨_, h.isMapLiteral ?_, ?_⟩, ?_, ?_, ?_⟩, ?_⟩
  · intro entry hentry
    obtain ⟨e, he, rfl⟩ := List.mem_map.mp hentry
    exact ⟨hplain e he, hv⟩
  · rw [List.forall₂_map_left_iff, List.forall₂_map_right_iff, List.forall₂_same]
    exact fun e he => ⟨hkey e he, rfl⟩
  · rw [hfst]
    exact hnodup
  · intro kv hkv
    obtain ⟨e, he, rfl⟩ := List.mem_map.mp hkv
    exact (hmem e).mp he
  · intro e he
    rw [hfst]
    exact (hmem e).mpr he
  · intro kv hkv
    obtain ⟨e, _, rfl⟩ := List.mem_map.mp hkv
    rfl

/-- The characters of a key are digits and those of the dash. -/
theorem mem_keyText {dash : String} {a b : Nat} {c : Char} (h : c ∈ keyText dash ⟨a, b⟩) :
    c.isDigit = true ∨ c ∈ dash.toList := by
  rw [keyText, List.mem_append, List.mem_append] at h
  rcases h with (h | h) | h
  · exact .inl (isDigit_of_mem_toStr h)
  · exact .inr h
  · exact .inl (isDigit_of_mem_toStr h)

theorem isPlain_keyText {dash : String} (hdash : ∀ c ∈ dash.toList, isWhitespace c = false ∧ c ≠ ',' ∧ c ≠ ':')
    (a b : Nat) : IsPlain [',', ':'] (keyText dash ⟨a, b⟩) := by
  constructor
  · refine trim_eq_self ?_
    intro c hc
    rcases mem_keyText hc with hdigit | hmem
    · exact isWhitespace_of_isDigit hdigit
    · exact (hdash c hmem).1
  · intro c hc hmem
    rw [List.mem_cons, List.mem_singleton] at hc
    rcases mem_keyText hmem with hdigit | hmem
    · rcases hc with rfl | rfl <;> exact absurd hdigit (by decide)
    · exact hc.elim (hdash c hmem).2.1 (hdash c hmem).2.2

/-- `a-b` stands for the edge. -/
theorem isEdgeItem_keyText {a b : Nat} (ha : a < 2 ^ 63) (hb : b < 2 ^ 63) :
    IsEdgeItem (keyText "-" ⟨a, b⟩) ⟨a, b⟩ := by
  refine ⟨toStr a, toStr b, ?_, parsePositiveInt64_toStr ha, parsePositiveInt64_toStr hb⟩
  have hsplit : keyText "-" ⟨a, b⟩ = toStr a ++ '-' :: toStr b := by
    rw [keyText, List.append_assoc]
    rfl
  rw [hsplit, List.splitOn_append_cons_self_of_not_mem (not_mem_toStr (by decide) a),
    List.splitOn_eq_singleton (not_mem_toStr (by decide) b)]

/-- `a->b` stands for the link. -/
theorem isLinkItem_keyText {a b : Nat} (ha : a < 2 ^ 63) (hb : b < 2 ^ 63) :
    IsLinkItem (keyText "->" ⟨a, b⟩) ⟨a, b⟩ :=
  ⟨toStr a, toStr b, rfl, parsePositiveInt64_toStr ha, parsePositiveInt64_toStr hb⟩

/-- The ends of a link are small natural numbers. -/
theorem exists_nat_of_mem_getLinks (hwf : t.WellFormed) {e : Int64Pair} (he : e ∈ t.getLinks) :
    ∃ a b : Nat, e = ⟨a, b⟩ ∧ a < 2 ^ 63 ∧ b < 2 ^ 63 := by
  obtain ⟨x, y⟩ := e
  have hx := hwf.adj_bounds (hwf.adj_iff_mem_getLinks.mpr he)
  have hy := hwf.adj_bounds (hwf.adj_iff_mem_getLinks.mpr he).symm
  have hlt := hwf.numNodes_lt
  lift x to Nat using hx.1
  lift y to Nat using hy.1
  exact ⟨x, y, rfl, by omega, by omega⟩

/-- The literal `map(a-b: v, ...)`, in any order, gives `v` to every undirected edge. -/
theorem givesAll_undirected (hwf : t.WellFormed) (hv : IsPlain [',', ':'] v) {listed : List Int64Pair}
    (hlisted : listed.Perm t.undirectedEdges) (h : RendersGlobal "-" listed v literal) :
    GivesAll (IsUndirectedEdgeMap t literal) v := by
  have hlink : ∀ e ∈ listed, e ∈ t.getLinks := fun e he =>
    TopologyPtop.mem_getLinks.mpr (.inl (hlisted.mem_iff.mp he))
  refine givesAll_of_renders hv h ?_ ?_ (hlisted.nodup_iff.mpr hwf.edges_nodup) fun e => hlisted.mem_iff
  · intro e he
    obtain ⟨a, b, rfl, -, -⟩ := exists_nat_of_mem_getLinks hwf (hlink e he)
    exact isPlain_keyText (by simp [isWhitespace]) a b
  · intro e he
    have hle := (hwf.edge_bounds e (hlisted.mem_iff.mp he)).2.1
    obtain ⟨a, b, rfl, ha, hb⟩ := exists_nat_of_mem_getLinks hwf (hlink e he)
    exact ⟨isEdgeItem_keyText ha hb, le_of_lt hle⟩

/-- The literal `map(a->b: v, ...)`, in any order, gives `v` to both directions of every edge. -/
theorem givesAll_directed (hwf : t.WellFormed) (hv : IsPlain [',', ':'] v) {listed : List Int64Pair}
    (hlisted : listed.Perm t.getLinks) (h : RendersGlobal "->" listed v literal) :
    GivesAll (IsDirectedEdgeMap t literal) v := by
  refine givesAll_of_renders hv h ?_ ?_ (hlisted.nodup_iff.mpr hwf.nodup_getLinks) fun e => hlisted.mem_iff
  · intro e he
    obtain ⟨a, b, rfl, -, -⟩ := exists_nat_of_mem_getLinks hwf (hlisted.mem_iff.mp he)
    exact isPlain_keyText (by simp [isWhitespace]) a b
  · intro e he
    obtain ⟨a, b, rfl, ha, hb⟩ := exists_nat_of_mem_getLinks hwf (hlisted.mem_iff.mp he)
    exact isLinkItem_keyText ha hb

end Spelling

/-! ## Filling -/

section Filling

variable {V : Type} {t : TopologyPtop} {v literal : Str} {parse : Str → Except Exc V}

/-- Converting an edge map that gives `v` to every key fills the keys with what `v` is read as. -/
theorem convertEdgeMap_of_givesAll {KeyOf : Str → Int64Pair → Prop} {Required : Int64Pair → Prop}
    {keyed : List (Int64Pair × Str)} {keys : List Int64Pair} (h : IsEdgeMap KeyOf Required literal keyed)
    (hv : ∀ kv ∈ keyed, kv.2 = v) (hkeys : ∀ k, k ∈ keys ↔ Required k) (hne : keys ≠ []) :
    convertEdgeMap parse (OrdMap.ofEntries keyed) = OrdMap.fill keys <$> parse v := by
  have htext : ∀ e ∈ (OrdMap.ofEntries keyed).entries, e = (e.1, v) := by
    intro e he
    have hmem : e ∈ keyed := OrdMap.mem_of_find?_ofEntries (OrdMap.find?_eq_some.mpr he)
    rw [← hv e hmem]
  have hentries : (OrdMap.ofEntries keyed).entries = (OrdMap.ofEntries keyed).keys.toList.map fun k => (k, v) := by
    show _ = ((OrdMap.ofEntries keyed).entries.map Prod.fst).map _
    rw [List.map_map]
    conv_lhs => rw [← List.map_id (OrdMap.ofEntries keyed).entries]
    exact List.map_congr_left htext
  have hmem : ∀ k, k ∈ (OrdMap.ofEntries keyed).keys.toList ↔ k ∈ keys := fun k =>
    (h.mem_keys k).trans (hkeys k).symm
  have hne' : (OrdMap.ofEntries keyed).keys.toList ≠ [] := by
    obtain ⟨k, hk⟩ := List.exists_mem_of_ne_nil keys hne
    exact List.ne_nil_of_mem ((hmem k).mpr hk)
  unfold convertEdgeMap
  rw [hentries, List.foldlM_map]
  dsimp only
  rw [foldlM_read_same hne']
  exact congrArg (· <$> parse v) (funext fun w => OrdMap.fill_congr hmem w)

end Filling

/-! ## Main result -/

/-- Setting the parameter to `v` is as good as setting it to a literal that spells `v` out: the property is parsed
    to the same mapping, or fails in the same way. -/
def MeansSpellingOut {V : Type} (parameter : String) (v : Str) (SpellsOut : Str → Prop)
    (parseProperty : Config → Except Exc (OrdMap Int64Pair V)) : Prop :=
  ∀ config config' literal, config.find? parameter.toList = some v → config'.find? parameter.toList = some literal →
    SpellsOut literal → parseProperty config = parseProperty config'

section Properties

variable {t : TopologyPtop} {v : Str} {V : Type}

theorem isMapping_eq_false (hv : IsPlain [',', ':'] v) (hmap : ¬ "map".toList <+: v) : isMapping v = false := by
  rw [isMapping, hv.trimmed, ← Bool.not_eq_true, startsWith_eq_true]
  exact hmap

/-- A property whose two branches give the value to the same keys. -/
theorem meansSpellingOut_of_branches {parameter : String} {SpellsOut : Str → Prop}
    {parseProperty : Config → Except Exc (OrdMap Int64Pair V)} {mapBranch : Str → Except Exc (OrdMap Int64Pair V)}
    {result : Except Exc (OrdMap Int64Pair V)} (globalBranch : Str → Except Exc (OrdMap Int64Pair V))
    (hparse : ∀ config value, config.find? parameter.toList = some value →
      parseProperty config = if isMapping value = false then globalBranch value else mapBranch value)
    (hmap : isMapping v = false) (hglobal : globalBranch v = result)
    (hliteral : ∀ literal, SpellsOut literal → isMapping literal = true ∧ mapBranch literal = result) :
    MeansSpellingOut parameter v SpellsOut parseProperty := by
  intro config config' literal hconfig hconfig' hspells
  obtain ⟨hmapping, hbranch⟩ := hliteral literal hspells
  rw [hparse config v hconfig, hparse config' literal hconfig', if_pos hmap, hmapping,
    if_neg (by decide), hglobal, hbranch]

/-- The branch of a map literal, for the undirected edges. -/
theorem undirectedBranch_eq_fill (hwf : t.WellFormed) (hne : t.undirectedEdges ≠ []) (parse : Str → Except Exc V)
    (literal : Str) (h : GivesAll (IsUndirectedEdgeMap t literal) v) :
    isMapping literal = true ∧
      (parseUndirectedEdgeMap t literal >>= convertEdgeMap parse) = OrdMap.fill t.undirectedEdges <$> parse v := by
  obtain ⟨keyed, hkeyed, hv⟩ := h
  obtain ⟨entries, hlit, -⟩ := hkeyed.literal
  refine ⟨isMapping_of_isMapLiteral hlit, ?_⟩
  rw [(parseUndirectedEdgeMap_eq_ok hwf).mpr ⟨keyed, hkeyed, rfl⟩, ok_bind]
  exact convertEdgeMap_of_givesAll hkeyed hv (fun _ => Iff.rfl) hne

/-- The branch of a map literal, for the directed edges. -/
theorem directedBranch_eq_fill (hwf : t.WellFormed) (hne : t.undirectedEdges ≠ []) (parse : Str → Except Exc V)
    (literal : Str) (h : GivesAll (IsDirectedEdgeMap t literal) v) :
    isMapping literal = true ∧
      (parseDirectedEdgeMap t literal >>= convertEdgeMap parse) = OrdMap.fill t.getLinks <$> parse v := by
  obtain ⟨keyed, hkeyed, hv⟩ := h
  obtain ⟨entries, hlit, -⟩ := hkeyed.literal
  have hlinks : t.getLinks ≠ [] := by
    obtain ⟨e, he⟩ := List.exists_mem_of_ne_nil _ hne
    exact List.ne_nil_of_mem (TopologyPtop.mem_getLinks.mpr (.inl he))
  refine ⟨isMapping_of_isMapLiteral hlit, ?_⟩
  rw [(parseDirectedEdgeMap_eq_ok hwf).mpr ⟨keyed, hkeyed, rfl⟩, ok_bind]
  exact convertEdgeMap_of_givesAll hkeyed hv (fun _ => Iff.rfl) hlinks

theorem delay_meansSpellingOut (hwf : t.WellFormed) (hne : t.undirectedEdges ≠ []) (hmap : isMapping v = false) :
    MeansSpellingOut "link_channel_delay_ns" v (fun literal => GivesAll (IsUndirectedEdgeMap t literal) v)
      (parseLinkChannelDelayNsProperty t) := by
  refine meansSpellingOut_of_branches (fun value => parsePositiveInt64 value >>= fun delay =>
      .ok (t.undirectedEdgesSet.toList.foldl (fun mapping p => mapping.insert p delay) ∅)) ?_ hmap ?_
    (undirectedBranch_eq_fill hwf hne parsePositiveInt64)
  · intro config value hvalue
    unfold parseLinkChannelDelayNsProperty
    rw [getParamOrFail_eq_ok.mpr hvalue, ok_bind]
  · rw [← hwf.edges_eq]
    cases parsePositiveInt64 v <;> rfl

theorem dataRate_meansSpellingOut (hwf : t.WellFormed) (hne : t.undirectedEdges ≠ []) (hmap : isMapping v = false)
    (stod : Str → Except Exc (Double × Nat)) :
    MeansSpellingOut "link_net_device_data_rate_megabit_per_s" v
      (fun literal => GivesAll (IsDirectedEdgeMap t literal) v)
      (parseLinkNetDeviceDataRateMegabitPerSecProperty t stod) := by
  refine meansSpellingOut_of_branches
    (fun value => parsePositiveDouble stod value >>= fun rate => globalLinkMapping t (.ok rate)) ?_ hmap ?_
    (directedBranch_eq_fill hwf hne (parsePositiveDouble stod))
  · intro config value hvalue
    unfold parseLinkNetDeviceDataRateMegabitPerSecProperty
    rw [getParamOrFail_eq_ok.mpr hvalue, ok_bind]
  · cases parsePositiveDouble stod v with
    | error e => rfl
    | ok rate => rw [ok_bind, globalLinkMapping_eq_fill hwf hne]

/-- The value is read once more at the end, with the same result. -/
theorem queue_meansSpellingOut (hwf : t.WellFormed) (hne : t.undirectedEdges ≠ []) (hmap : isMapping v = false)
    (s : Selectors) :
    MeansSpellingOut "link_net_device_queue" v (fun literal => GivesAll (IsDirectedEdgeMap t literal) v)
      (parseLinkNetDeviceQueueProperty t s) := by
  refine meansSpellingOut_of_branches (fun value => globalLinkMapping t (s.parseQueueValue value) >>= fun mapping =>
      s.parseQueueValue value >>= fun _ => .ok mapping) ?_ hmap ?_
    (directedBranch_eq_fill hwf hne s.parseQueueValue)
  · intro config value hvalue
    unfold parseLinkNetDeviceQueueProperty
    rw [getParamOrFail_eq_ok.mpr hvalue, ok_bind]
  · rw [globalLinkMapping_eq_fill hwf hne]
    cases s.parseQueueValue v <;> rfl

theorem parseLinkProperty_meansSpellingOut (hwf : t.WellFormed) (hne : t.undirectedEdges ≠ [])
    (hmap : isMapping v = false) (parameter : String) (parse : Str → Except Exc V) :
    MeansSpellingOut parameter v (fun literal => GivesAll (IsDirectedEdgeMap t literal) v)
      (parseLinkProperty t parameter parse) := by
  refine meansSpellingOut_of_branches (fun value => globalLinkMapping t (parse value)) ?_ hmap
    (globalLinkMapping_eq_fill hwf hne (parse v)) (directedBranch_eq_fill hwf hne parse)
  intro config value hvalue
  unfold parseLinkProperty
  rw [getParamOrFail_eq_ok.mpr hvalue, ok_bind]

end Properties

/-- For each of the five properties, the value `v` means the same as a map literal that gives `v` to every
    undirected edge (the channel delay), or to both directions of every edge (the others). Such a literal may list
    them in any order. -/
structure GlobalValueMeansSpellingOut (t : TopologyPtop) (stod : Str → Except Exc (Double × Nat)) (s : Selectors)
    (v : Str) : Prop where
  undirected : ∀ listed literal, listed.Perm t.undirectedEdges → RendersGlobal "-" listed v literal →
    GivesAll (IsUndirectedEdgeMap t literal) v
  directed : ∀ listed literal, listed.Perm t.getLinks → RendersGlobal "->" listed v literal →
    GivesAll (IsDirectedEdgeMap t literal) v
  delay : MeansSpellingOut "link_channel_delay_ns" v (fun literal => GivesAll (IsUndirectedEdgeMap t literal) v)
    (parseLinkChannelDelayNsProperty t)
  dataRate : MeansSpellingOut "link_net_device_data_rate_megabit_per_s" v
    (fun literal => GivesAll (IsDirectedEdgeMap t literal) v)
    (parseLinkNetDeviceDataRateMegabitPerSecProperty t stod)
  queue : MeansSpellingOut "link_net_device_queue" v (fun literal => GivesAll (IsDirectedEdgeMap t literal) v)
    (parseLinkNetDeviceQueueProperty t s)
  receiveErrorModel : MeansSpellingOut "link_net_device_receive_error_model" v
    (fun literal => GivesAll (IsDirectedEdgeMap t literal) v) (parseLinkNetDeviceReceiveErrorModelProperty t s)
  tcQdisc : MeansSpellingOut "link_interface_traffic_control_qdisc" v
    (fun literal => GivesAll (IsDirectedEdgeMap t literal) v) (parseLinkInterfaceTrafficControlQdiscProperty t s)

/-- **A global link property value means the same as spelling it out per edge.** -/
theorem global_value_means_spelling_out {config : Config} {all : Bool} {assignment : Option (List Int)}
    {t : TopologyPtop} (h : parseTopologyGraph config all assignment = .ok t) (hne : t.undirectedEdges ≠ [])
    (stod : Str → Except Exc (Double × Nat)) (s : Selectors) {v : Str} (hv : IsPlain [',', ':'] v)
    (hmap : ¬ "map".toList <+: v) : GlobalValueMeansSpellingOut t stod s v := by
  have hwf := TopologyPtop.wellFormed_of_parse h
  have hmap' := isMapping_eq_false hv hmap
  constructor
  · exact fun listed literal => givesAll_undirected hwf hv
  · exact fun listed literal => givesAll_directed hwf hv
  · exact delay_meansSpellingOut hwf hne hmap'
  · exact dataRate_meansSpellingOut hwf hne hmap' stod
  · exact queue_meansSpellingOut hwf hne hmap' s
  · exact parseLinkProperty_meansSpellingOut hwf hne hmap' _ s.parseReceiveErrorModelValue
  · exact parseLinkProperty_meansSpellingOut hwf hne hmap' _ s.parseTcQdiscValue

/-- A queue for both directions of the edge, spelled out. -/
def pairQueueLiteral : Str := "map(1->0: q, 0->1 : q )".toList

theorem global_value_means_spelling_out_pairTopology :
    parseLinkNetDeviceQueueProperty pairTopology textSelectors
        (OrdMap.ofEntries [("link_net_device_queue".toList, "q".toList)]) =
      parseLinkNetDeviceQueueProperty pairTopology textSelectors
        (OrdMap.ofEntries [("link_net_device_queue".toList, pairQueueLiteral)]) := by
  have hv : IsPlain [',', ':'] "q".toList := ⟨by decide, by simp⟩
  have hmeans := global_value_means_spelling_out parseTopologyGraph_pairConfig (by decide) stodInteger textSelectors
    hv (by decide)
  refine hmeans.queue _ _ _ rfl rfl (hmeans.directed [⟨1, 0⟩, ⟨0, 1⟩] pairQueueLiteral (by decide) ?_)
  refine ⟨"1->0: q, 0->1 : q ".toList, ["1->0: q".toList, " 0->1 : q ".toList], by decide, ?_, ?_, by decide⟩
  · refine .cons ⟨"1->0".toList, " q".toList, ?_, ?_, by decide⟩
      (.cons ⟨" 0->1 ".toList, " q ".toList, ?_, ?_, by decide⟩ .nil)
    · exact ⟨[], [], by decide, by decide, by decide⟩
    · exact ⟨[' '], [], by decide, by decide, by decide⟩
    · exact ⟨[' '], [' '], by decide, by decide, by decide⟩
    · exact ⟨[' '], [' '], by decide, by decide, by decide⟩
  · intro h
    cases h

end BasicSim
