import BasicSim.Core.Correctness.ConfigFiles
import BasicSim.Core.Correctness.DefaultSelectors
import BasicSim.Core.Correctness.SetupLinks

/-!
# `Core.Correctness.TopologyFiles` — a topology file is read as the topology that it spells out

`IsTopologyConfig` says what a topology file must have: no property but those of a topology, a well-formed graph, and
values for the links in the forms of the default selectors. The constructor of `TopologyPtop` takes exactly such files,
and builds the graph, with the values that the file has for each link.

## Contents
- **Properties of the links.** `IsReadable` says which values a property may have; the five parsers take exactly
  these.
- **What is written.** `IsTopologyConfig`, `LinksAsWritten`.
- **Main result.** `readTopologyConfig_eq_ok`, `topology_files_are_read`.
-/

namespace BasicSim

open Fallible Padding

/-! ## Properties of the links -/

/-- The value of a property is one text that can be read, or a map of such texts. One text is read only if it is
    `needed`. -/
def IsReadable (needed : Prop) (IsMap : List (Int64Pair × Str) → Prop) (Readable : Str → Prop) (value : Str) :
    Prop :=
  if isMapping value = false then needed → Readable value
  else ∃ keyed, IsMap keyed ∧ ∀ kv ∈ keyed, Readable kv.2

theorem IsReadable.congr {needed needed' : Prop} {IsMap IsMap' : List (Int64Pair × Str) → Prop}
    {Readable Readable' : Str → Prop} {value : Str} (hneeded : needed ↔ needed')
    (hmap : ∀ keyed, IsMap keyed ↔ IsMap' keyed) (hread : ∀ text, Readable text ↔ Readable' text) :
    IsReadable needed IsMap Readable value ↔ IsReadable needed' IsMap' Readable' value := by
  unfold IsReadable
  simp only [hneeded, hmap, hread]

section Accepts

variable {V : Type} {t : TopologyPtop} {config : Config} {parse : Str → Except Exc V}

/-- What a property of the links is parsed by. -/
theorem linkProperty_accepts {parameter : String} {needed : Prop} {IsMap : Str → List (Int64Pair × Str) → Prop}
    {globalBranch : Str → Except Exc (OrdMap Int64Pair V)} {parseMap : Str → Except Exc (OrdMap Int64Pair Str)}
    (hglobal : ∀ value, (∃ mapping, globalBranch value = .ok mapping) ↔ (needed → ∃ v, parse value = .ok v))
    (hmap : ∀ value result, parseMap value = .ok result ↔ ∃ keyed, IsMap value keyed ∧ result = OrdMap.ofEntries keyed)
    (hnodup : ∀ value keyed, IsMap value keyed → (keyed.map Prod.fst).Nodup) :
    (∃ mapping, (do
      let value ← getParamOrFail parameter.toList config
      if isMapping value = false then globalBranch value
      else do
        let edgeMapping ← parseMap value
        convertEdgeMap parse edgeMapping) = .ok mapping) ↔
    ConfigHas config parameter fun value =>
      IsReadable needed (IsMap value) (fun text => ∃ v, parse text = .ok v) value := by
  simp only [bind_eq_ok (x := getParamOrFail _ _), getParamOrFail_eq_ok]
  unfold ConfigHas
  rw [exists_comm]
  refine exists_congr fun value => ?_
  rw [exists_and_left]
  refine and_congr_right fun _ => ?_
  unfold IsReadable
  by_cases hm : isMapping value = false
  · simp only [if_pos hm]
    exact hglobal value
  · simp only [if_neg hm, bind_eq_ok, hmap]
    constructor
    · rintro ⟨mapping, _, ⟨keyed, hkeyed, rfl⟩, h⟩
      exact ⟨keyed, hkeyed, (convertEdgeMap_accepts (hnodup value keyed hkeyed)).mp ⟨mapping, h⟩⟩
    · rintro ⟨keyed, hkeyed, h⟩
      obtain ⟨mapping, hmapping⟩ := (convertEdgeMap_accepts (hnodup value keyed hkeyed)).mpr h
      exact ⟨mapping, _, ⟨keyed, hkeyed, rfl⟩, hmapping⟩

/-- Without edges the global value is not read. -/
theorem globalLinkMapping_accepts (hwf : t.WellFormed) (readValue : Except Exc V) :
    (∃ mapping, globalLinkMapping t readValue = .ok mapping) ↔ (t.undirectedEdges ≠ [] → ∃ v, readValue = .ok v) := by
  by_cases hne : t.undirectedEdges = []
  · refine iff_of_true ⟨∅, ?_⟩ fun h => absurd hne h
    unfold globalLinkMapping
    rw [← hwf.edges_eq, hne]
    rfl
  · rw [globalLinkMapping_eq_fill hwf hne]
    cases readValue <;> simp [hne]

theorem globalLinkMapping_ok (hwf : t.WellFormed) (v : V) : ∃ mapping, globalLinkMapping t (.ok v) = .ok mapping :=
  (globalLinkMapping_accepts hwf (.ok v)).mpr fun _ => ⟨v, rfl⟩

theorem delay_accepts (hwf : t.WellFormed) :
    (∃ mapping, parseLinkChannelDelayNsProperty t config = .ok mapping) ↔
      ConfigHas config "link_channel_delay_ns" fun value =>
        IsReadable True (IsUndirectedEdgeMap t value) (fun text => ∃ v, parsePositiveInt64 text = .ok v) value := by
  refine linkProperty_accepts (fun value => ?_) (fun value _ => parseUndirectedEdgeMap_eq_ok hwf) fun _ _ h => h.nodup
  cases parsePositiveInt64 value <;> simp

theorem dataRate_accepts (hwf : t.WellFormed) {stod : Str → Except Exc (Double × Nat)} :
    (∃ mapping, parseLinkNetDeviceDataRateMegabitPerSecProperty t stod config = .ok mapping) ↔
      ConfigHas config "link_net_device_data_rate_megabit_per_s" fun value =>
        IsReadable True (IsDirectedEdgeMap t value) (fun text => ∃ v, parsePositiveDouble stod text = .ok v) value := by
  refine linkProperty_accepts (fun value => ?_) (fun value _ => parseDirectedEdgeMap_eq_ok hwf) fun _ _ h => h.nodup
  cases parsePositiveDouble stod value with
  | error e => simp
  | ok rate => simpa using globalLinkMapping_ok hwf rate

/-- The value is read once more at the end, so also when there are no edges. -/
theorem queue_accepts (hwf : t.WellFormed) {s : Selectors} :
    (∃ mapping, parseLinkNetDeviceQueueProperty t s config = .ok mapping) ↔
      ConfigHas config "link_net_device_queue" fun value =>
        IsReadable True (IsDirectedEdgeMap t value) (fun text => ∃ v, s.parseQueueValue text = .ok v) value := by
  refine linkProperty_accepts (fun value => ?_) (fun value _ => parseDirectedEdgeMap_eq_ok hwf) fun _ _ h => h.nodup
  cases s.parseQueueValue value with
  | error e => simp [bind_eq_ok]
  | ok factory => simpa [bind_eq_ok] using globalLinkMapping_ok hwf factory

theorem parseLinkProperty_accepts (hwf : t.WellFormed) {parameter : String} :
    (∃ mapping, parseLinkProperty t parameter parse config = .ok mapping) ↔
      ConfigHas config parameter fun value =>
        IsReadable (t.undirectedEdges ≠ []) (IsDirectedEdgeMap t value) (fun text => ∃ v, parse text = .ok v) value :=
  linkProperty_accepts (fun value => globalLinkMapping_accepts hwf (parse value))
    (fun _ _ => parseDirectedEdgeMap_eq_ok hwf) fun _ _ h => h.nodup

end Accepts

/-! ## What is written -/

/-- `true` or `1`, `false` or `0`. -/
def IsBoolean (text : Str) (b : Bool) : Prop :=
  trim text ∈ (if b = true then ["true".toList, "1".toList] else ["false".toList, "0".toList])

theorem parseBoolean_eq_ok {text : Str} {b : Bool} : parseBoolean text = .ok b ↔ IsBoolean text b := by
  unfold parseBoolean IsBoolean
  dsimp only
  by_cases htrue : trim text = "true".toList ∨ trim text = "1".toList
  · rw [if_pos htrue]
    cases b with
    | true => simpa using htrue
    | false => rcases htrue with h | h <;> simp [h]
  · rw [if_neg htrue]
    cases b with
    | true =>
        refine iff_of_false ?_ (by simpa using htrue)
        split <;> simp
    | false => simp [or_iff_not_imp_left]

/-- The links are the two directions of the edges. -/
def GraphSpec.IsLink (g : GraphSpec) (link : Int64Pair) : Prop := link ∈ g.edges ∨ link.swap ∈ g.edges

/-- The value is an edge map of the edges. -/
def GraphSpec.IsMapOfEdges (g : GraphSpec) (value : Str) (keyed : List (Int64Pair × Str)) : Prop :=
  IsEdgeMap (fun s k => IsEdgeItem s k ∧ k.first ≤ k.second) (· ∈ g.edges) value keyed

/-- The value is an edge map of the links. -/
def GraphSpec.IsMapOfLinks (g : GraphSpec) (value : Str) (keyed : List (Int64Pair × Str)) : Prop :=
  IsEdgeMap IsLinkItem g.IsLink value keyed

/-- A number from zero on, but for NaN. -/
def IsPositiveRate (stod : Str → Except Exc (Double × Nat)) (text : Str) (rate : Double) : Prop :=
  IsDouble stod text rate ∧ (rate = .nan ∨ rate.IsPositive)

/-- By the property, `k` has a text that says so: the one of the property, or that of `k` in the map. -/
def IsGivenIn (config : Config) (parameter : String) (IsMap : Str → List (Int64Pair × Str) → Prop) (k : Int64Pair)
    (Says : Str → Prop) : Prop :=
  ConfigHas config parameter fun value => ∃ text, Says text ∧
    if isMapping value = false then text = value else ∃ keyed, IsMap value keyed ∧ (k, text) ∈ keyed

section Written

variable (ns3 : Ns3Factories) (stod : Str → Except Exc (Double × Nat)) (config : Config) (g : GraphSpec)

/-- Each of the five properties has a value, in the forms in which it is read. -/
structure SpellsOutLinks : Prop where
  delay : ConfigHas config "link_channel_delay_ns" fun value =>
    IsReadable True (g.IsMapOfEdges value) (fun text => ∃ delayNs, IsPositiveNumeral text delayNs) value
  dataRate : ConfigHas config "link_net_device_data_rate_megabit_per_s" fun value =>
    IsReadable True (g.IsMapOfLinks value) (fun text => ∃ rate, IsPositiveRate stod text rate) value
  queue : ConfigHas config "link_net_device_queue" fun value =>
    IsReadable True (g.IsMapOfLinks value) (fun text => ∃ factory, IsQueueValue ns3 text factory) value
  receiveErrorModel : ConfigHas config "link_net_device_receive_error_model" fun value =>
    IsReadable (g.edges ≠ []) (g.IsMapOfLinks value)
      (fun text => ∃ model, IsReceiveErrorModelValue stod text model) value
  tcQdisc : ConfigHas config "link_interface_traffic_control_qdisc" fun value =>
    IsReadable (g.edges ≠ []) (g.IsMapOfLinks value) (fun text => ∃ helper, IsTcQdiscValue ns3 stod text helper) value

/-- The configuration is that of the topology `g`. -/
structure IsTopologyConfig (assignment : Option (List Int)) (allNodesAreEndpoints : Bool) : Prop where
  properties : ∀ e ∈ config.entries, e.1 ∈ topologyProperties
  endpoints : IsBoolean (getParamOrDefault "all_nodes_are_endpoints".toList "false".toList config) allNodesAreEndpoints
  written : g.WrittenIn config
  wellFormed : g.WellFormed
  /-- the nodes are counted by an `int` -/
  numNodes_lt : g.numNodes < 2 ^ 31
  /-- every node is assigned to a system, where they are -/
  assigned : ∀ l, assignment = some l → (l.length : Int) = g.numNodes
  links : SpellsOutLinks ns3 stod config g

/-- The edges and links have the values that are written for them. -/
structure LinksAsWritten (p : LinkProperties (defaultSelectors ns3 stod)) : Prop where
  delay : ∀ e ∈ g.edges, ∃ delayNs, p.linkChannelDelayNsMapping.find? e = some delayNs ∧
    IsGivenIn config "link_channel_delay_ns" g.IsMapOfEdges e (IsPositiveNumeral · delayNs)
  dataRate : ∀ link, g.IsLink link → ∃ rate, p.linkNetDeviceDataRateMegabitPerSMapping.find? link = some rate ∧
    IsGivenIn config "link_net_device_data_rate_megabit_per_s" g.IsMapOfLinks link (IsPositiveRate stod · rate)
  queue : ∀ link, g.IsLink link → ∃ factory, p.linkNetDeviceQueueMapping.find? link = some factory ∧
    IsGivenIn config "link_net_device_queue" g.IsMapOfLinks link (IsQueueValue ns3 · factory)
  receiveErrorModel : ∀ link, g.IsLink link →
    ∃ model, p.linkNetDeviceReceiveErrorModelMapping.find? link = some model ∧
    IsGivenIn config "link_net_device_receive_error_model" g.IsMapOfLinks link (IsReceiveErrorModelValue stod · model)
  tcQdisc : ∀ link, g.IsLink link → ∃ helper, p.linkInterfaceTrafficControlQdiscMapping.find? link = some helper ∧
    IsGivenIn config "link_interface_traffic_control_qdisc" g.IsMapOfLinks link (IsTcQdiscValue ns3 stod · helper)

end Written

section Layout

variable {t : TopologyPtop} {g : GraphSpec} {value : Str} {keyed : List (Int64Pair × Str)}

theorem TopologyPtop.Realises.mem_edges (h : t.Realises g) {e : Int64Pair} : e ∈ t.undirectedEdges ↔ e ∈ g.edges :=
  h.undirectedEdges_perm.mem_iff

theorem TopologyPtop.Realises.mem_links (h : t.Realises g) {link : Int64Pair} : link ∈ t.getLinks ↔ g.IsLink link := by
  rw [TopologyPtop.mem_getLinks, h.mem_edges, h.mem_edges, GraphSpec.IsLink]

theorem TopologyPtop.Realises.edges_ne_nil (h : t.Realises g) : t.undirectedEdges ≠ [] ↔ g.edges ≠ [] := by
  rw [ne_eq, ← List.length_eq_zero_iff, h.undirectedEdges_perm.length_eq, List.length_eq_zero_iff]

theorem TopologyPtop.Realises.isMapOfEdges (h : t.Realises g) :
    IsUndirectedEdgeMap t value keyed ↔ g.IsMapOfEdges value keyed :=
  ⟨fun hm => hm.congr (fun _ _ => Iff.rfl) fun _ => h.mem_edges,
    fun hm => hm.congr (fun _ _ => Iff.rfl) fun _ => h.mem_edges.symm⟩

theorem TopologyPtop.Realises.isMapOfLinks (h : t.Realises g) :
    IsDirectedEdgeMap t value keyed ↔ g.IsMapOfLinks value keyed :=
  ⟨fun hm => hm.congr (fun _ _ => Iff.rfl) fun _ => h.mem_links,
    fun hm => hm.congr (fun _ _ => Iff.rfl) fun _ => h.mem_links.symm⟩

end Layout

section Links

variable {ns3 : Ns3Factories} {stod : Str → Except Exc (Double × Nat)} {config : Config} {g : GraphSpec}
  {t : TopologyPtop}

/-- The properties are parsed one after the other. -/
theorem exists_linkProperties_iff {s : Selectors} : (∃ p, parseTopologyLinkProperties t stod s config = .ok p) ↔
    (∃ delay, parseLinkChannelDelayNsProperty t config = .ok delay) ∧
    (∃ dataRate, parseLinkNetDeviceDataRateMegabitPerSecProperty t stod config = .ok dataRate) ∧
    (∃ queue, parseLinkNetDeviceQueueProperty t s config = .ok queue) ∧
    (∃ model, parseLinkNetDeviceReceiveErrorModelProperty t s config = .ok model) ∧
    ∃ helper, parseLinkInterfaceTrafficControlQdiscProperty t s config = .ok helper := by
  unfold parseTopologyLinkProperties
  constructor
  · rintro ⟨p, h⟩
    obtain ⟨delay, hdelay, h⟩ := bind_eq_ok.mp h
    obtain ⟨rate, hrate, h⟩ := bind_eq_ok.mp h
    obtain ⟨queue, hqueue, h⟩ := bind_eq_ok.mp h
    obtain ⟨model, hmodel, h⟩ := bind_eq_ok.mp h
    obtain ⟨helper, hhelper, -⟩ := bind_eq_ok.mp h
    exact ⟨⟨_, hdelay⟩, ⟨_, hrate⟩, ⟨_, hqueue⟩, ⟨_, hmodel⟩, ⟨_, hhelper⟩⟩
  · rintro ⟨⟨delay, hdelay⟩, ⟨rate, hrate⟩, ⟨queue, hqueue⟩, ⟨model, hmodel⟩, ⟨helper, hhelper⟩⟩
    rw [hdelay, ok_bind, hrate, ok_bind, hqueue, ok_bind, hmodel, ok_bind, hhelper, ok_bind]
    exact ⟨_, rfl⟩

/-- A property in the words of the topology. -/
theorem configHas_isReadable_congr {V : Type} {parameter : String} {needed needed' : Prop}
    {IsMap IsMap' : Str → List (Int64Pair × Str) → Prop} {parse : Str → Except Exc V} {Says : Str → V → Prop}
    (hneeded : needed ↔ needed') (hmap : ∀ value keyed, IsMap value keyed ↔ IsMap' value keyed)
    (hread : ∀ text v, parse text = .ok v ↔ Says text v) :
    (ConfigHas config parameter fun value =>
        IsReadable needed (IsMap value) (fun text => ∃ v, parse text = .ok v) value) ↔
      ConfigHas config parameter fun value => IsReadable needed' (IsMap' value) (fun text => ∃ v, Says text v) value :=
  exists_congr fun value => and_congr_right fun _ =>
    IsReadable.congr hneeded (hmap value) fun text => exists_congr fun v => hread text v

theorem linkProperties_accepts (hwf : t.WellFormed) (hr : t.Realises g) :
    (∃ p, parseTopologyLinkProperties t stod (defaultSelectors ns3 stod) config = .ok p) ↔
      SpellsOutLinks ns3 stod config g := by
  have hedges : ∀ value keyed, IsUndirectedEdgeMap t value keyed ↔ g.IsMapOfEdges value keyed :=
    fun _ _ => hr.isMapOfEdges
  have hlinks : ∀ value keyed, IsDirectedEdgeMap t value keyed ↔ g.IsMapOfLinks value keyed :=
    fun _ _ => hr.isMapOfLinks
  have hdelay : (∃ delay, parseLinkChannelDelayNsProperty t config = .ok delay) ↔ _ :=
    (delay_accepts hwf).trans <| configHas_isReadable_congr Iff.rfl hedges fun _ _ => parsePositiveInt64_eq_ok_iff
  have hrate : (∃ rate, parseLinkNetDeviceDataRateMegabitPerSecProperty t stod config = .ok rate) ↔ _ :=
    (dataRate_accepts hwf).trans <| configHas_isReadable_congr Iff.rfl hlinks fun _ _ => parsePositiveDouble_eq_ok
  have hqueue : (∃ queue, parseLinkNetDeviceQueueProperty t (defaultSelectors ns3 stod) config = .ok queue) ↔ _ :=
    (queue_accepts hwf).trans <| configHas_isReadable_congr Iff.rfl hlinks fun _ _ => parseQueueValue_eq_ok
  have hmodel : (∃ model, parseLinkNetDeviceReceiveErrorModelProperty t (defaultSelectors ns3 stod) config
      = .ok model) ↔ _ :=
    (parseLinkProperty_accepts hwf).trans <| configHas_isReadable_congr hr.edges_ne_nil hlinks
      fun _ _ => parseErrorModelValue_eq_ok
  have hhelper : (∃ helper, parseLinkInterfaceTrafficControlQdiscProperty t (defaultSelectors ns3 stod) config
      = .ok helper) ↔ _ :=
    (parseLinkProperty_accepts hwf).trans <| configHas_isReadable_congr hr.edges_ne_nil hlinks
      fun _ _ => parseTcQdiscValue_eq_ok
  rw [exists_linkProperties_iff]
  constructor
  · rintro ⟨h₁, h₂, h₃, h₄, h₅⟩
    exact ⟨hdelay.mp h₁, hrate.mp h₂, hqueue.mp h₃, hmodel.mp h₄, hhelper.mp h₅⟩
  · rintro ⟨h₁, h₂, h₃, h₄, h₅⟩
    exact ⟨hdelay.mpr h₁, hrate.mpr h₂, hqueue.mpr h₃, hmodel.mpr h₄, hhelper.mpr h₅⟩

/-- What a total mapping says of a key is written. -/
theorem isGivenIn_of_isMappingOf {V : Type} {parameter : String} {Keys : Int64Pair → Prop}
    {IsMap IsMap' : Str → List (Int64Pair × Str) → Prop} {parse : Str → Except Exc V} {Says : Str → V → Prop}
    {mapping : OrdMap Int64Pair V}
    (h : ConfigHas config parameter fun value => IsMappingOf Keys (IsMap value) parse value mapping)
    (hmap : ∀ value keyed, IsMap value keyed → IsMap' value keyed) (hread : ∀ text v, parse text = .ok v → Says text v)
    {k : Int64Pair} (hk : Keys k) :
    ∃ v, mapping.find? k = some v ∧ IsGivenIn config parameter IsMap' k (Says · v) := by
  obtain ⟨value, hvalue, hmapping⟩ := h
  obtain ⟨v, hv⟩ := hmapping.exists_find? hk
  refine ⟨v, hv, value, hvalue, ?_⟩
  have hgives := hmapping.values k v hv
  unfold Gives at hgives
  by_cases hm : isMapping value = false
  · rw [if_pos hm] at hgives
    exact ⟨value, hread value v hgives, by rw [if_pos hm]⟩
  · rw [if_neg hm] at hgives
    obtain ⟨keyed, hkeyed, text, htext, hparse⟩ := hgives
    exact ⟨text, hread text v hparse, by rw [if_neg hm]; exact ⟨keyed, hmap value keyed hkeyed, htext⟩⟩

theorem linksAsWritten (hr : t.Realises g) {p : LinkProperties (defaultSelectors ns3 stod)}
    (h : p.WellFormed t stod config) : LinksAsWritten ns3 stod config g p where
  delay _ he := isGivenIn_of_isMappingOf h.delay (fun _ _ => hr.isMapOfEdges.mp)
    (fun _ _ => parsePositiveInt64_eq_ok_iff.mp) (hr.mem_edges.mpr he)
  dataRate _ hlink := isGivenIn_of_isMappingOf h.dataRate (fun _ _ => hr.isMapOfLinks.mp)
    (fun _ _ => parsePositiveDouble_eq_ok.mp) (hr.mem_links.mpr hlink)
  queue _ hlink := isGivenIn_of_isMappingOf h.queue (fun _ _ => hr.isMapOfLinks.mp)
    (fun _ _ => parseQueueValue_eq_ok.mp) (hr.mem_links.mpr hlink)
  receiveErrorModel _ hlink := isGivenIn_of_isMappingOf h.receiveErrorModel (fun _ _ => hr.isMapOfLinks.mp)
    (fun _ _ => parseErrorModelValue_eq_ok.mp) (hr.mem_links.mpr hlink)
  tcQdisc _ hlink := isGivenIn_of_isMappingOf h.tcQdisc (fun _ _ => hr.isMapOfLinks.mp)
    (fun _ _ => parseTcQdiscValue_eq_ok.mp) (hr.mem_links.mpr hlink)

end Links

/-! ## Main result -/

/-- **`ReadTopologyConfig` takes the files that have no other properties.** -/
theorem readTopologyConfig_eq_ok {filename : Str} {file : File} {config : Config} {allNodesAreEndpoints : Bool} :
    readTopologyConfig filename file = .ok (config, allNodesAreEndpoints) ↔
      readConfig filename file = .ok config ∧ (∀ e ∈ config.entries, e.1 ∈ topologyProperties) ∧
      IsBoolean (getParamOrDefault "all_nodes_are_endpoints".toList "false".toList config) allNodesAreEndpoints := by
  unfold readTopologyConfig
  rw [bind_eq_ok]
  constructor
  · rintro ⟨config', hread, h⟩
    obtain ⟨_, hkeys, h⟩ := bind_eq_ok.mp h
    obtain ⟨all, hall, h⟩ := bind_eq_ok.mp h
    cases h
    exact ⟨hread, fun e he => not_not.mp (throwIf_eq_ok.mp (forM_eq_ok.mp hkeys e he)), parseBoolean_eq_ok.mp hall⟩
  · rintro ⟨hread, hkeys, hall⟩
    refine ⟨config, hread, bind_eq_ok.mpr ⟨(), ?_, bind_eq_ok.mpr ⟨_, parseBoolean_eq_ok.mpr hall, rfl⟩⟩⟩
    exact forM_eq_ok.mpr fun e he => throwIf_eq_ok.mpr (not_not.mpr (hkeys e he))

section Reading

variable {ns3 : Ns3Factories} {stod : Str → Except Exc (Double × Nat)} {filename : Str} {file : File} {config : Config}
  {assignment : Option (List Int)} {t : TopologyPtop} {p : LinkProperties (defaultSelectors ns3 stod)}

/-- The rest of the constructor, once the configuration is read. -/
theorem readTopology_eq_ok (hread : readConfig filename file = .ok config) :
    readTopology ns3 stod filename file assignment = .ok (t, p) ↔
      ∃ all, readTopologyConfig filename file = .ok (config, all) ∧ parseTopologyGraph config all assignment = .ok t ∧
        parseTopologyLinkProperties t stod (defaultSelectors ns3 stod) config = .ok p := by
  unfold readTopology
  constructor
  · intro h
    obtain ⟨⟨config', all⟩, hconfig', h⟩ := bind_eq_ok.mp h
    obtain ⟨t', ht, h⟩ := bind_eq_ok.mp h
    obtain ⟨p', hp, h⟩ := bind_eq_ok.mp h
    cases h
    obtain rfl := Except.ok.inj ((readTopologyConfig_eq_ok.mp hconfig').1.symm.trans hread)
    exact ⟨all, hconfig', ht, hp⟩
  · rintro ⟨all, hconfig', ht, hp⟩
    exact bind_eq_ok.mpr ⟨_, hconfig', bind_eq_ok.mpr ⟨t, ht, bind_eq_ok.mpr ⟨p, hp, rfl⟩⟩⟩

/-- What is built is what is written. -/
theorem readTopology_realises (hread : readConfig filename file = .ok config)
    (h : readTopology ns3 stod filename file assignment = .ok (t, p)) :
    ∃ g, IsTopologyConfig ns3 stod config g assignment t.allNodesAreEndpoints ∧ t.Realises g ∧
      LinksAsWritten ns3 stod config g p := by
  obtain ⟨all, hconfig', ht, hp⟩ := (readTopology_eq_ok hread).mp h
  obtain ⟨-, hkeys, hall⟩ := readTopologyConfig_eq_ok.mp hconfig'
  obtain ⟨g, hw, hwf, hlt, hass, hr, rfl⟩ := parseTopologyGraph_realises ht
  have htwf := hr.wellFormed hw hwf hlt
  have hlinks := (linkProperties_accepts htwf hr).mp ⟨p, hp⟩
  exact ⟨g, ⟨hkeys, hall, hw, hwf, hlt, hass, hlinks⟩, hr,
    linksAsWritten hr (parseTopologyLinkProperties_wellFormed htwf hp)⟩

/-- What is written can be built. -/
theorem IsTopologyConfig.reads {g : GraphSpec} {all : Bool} (hg : IsTopologyConfig ns3 stod config g assignment all)
    (hread : readConfig filename file = .ok config) :
    ∃ topology, readTopology ns3 stod filename file assignment = .ok topology := by
  have hconfig' := readTopologyConfig_eq_ok.mpr ⟨hread, hg.properties, hg.endpoints⟩
  obtain ⟨t, ht⟩ := parseTopologyGraph_accepts hg.written hg.wellFormed hg.numNodes_lt hg.assigned
  -- the graph that is parsed is the one that is written
  obtain ⟨g', hw', hwf', hlt', -, hr, -⟩ := parseTopologyGraph_realises ht
  obtain rfl := hw'.unique hg.written
  obtain ⟨p, hp⟩ := (linkProperties_accepts (hr.wellFormed hw' hwf' hlt') hr).mpr hg.links
  exact ⟨(t, p), (readTopology_eq_ok hread).mpr ⟨all, hconfig', ht, hp⟩⟩

end Reading

/-- **A topology file is read as the topology that it spells out.** -/
theorem topology_files_are_read (ns3 : Ns3Factories) (stod : Str → Except Exc (Double × Nat)) {filename text : Str}
    {config : Config} (hconfig : ∀ e ∈ config.entries, IsKey e.1 ∧ IsValue e.2) (hrenders : RendersConfig config text)
    (assignment : Option (List Int)) :
    ((∃ topology, readTopology ns3 stod filename (.content text) assignment = .ok topology) ↔
      ∃ g allNodesAreEndpoints, IsTopologyConfig ns3 stod config g assignment allNodesAreEndpoints) ∧
    ∀ t p, readTopology ns3 stod filename (.content text) assignment = .ok (t, p) →
      ∃ g, IsTopologyConfig ns3 stod config g assignment t.allNodesAreEndpoints ∧ t.Realises g ∧
        LinksAsWritten ns3 stod config g p := by
  have hread : readConfig filename (.content text) = .ok config := readConfig_of_renders hconfig hrenders
  refine ⟨⟨?_, ?_⟩, fun t p => readTopology_realises hread⟩
  · rintro ⟨⟨t, p⟩, h⟩
    obtain ⟨g, hg, -⟩ := readTopology_realises hread h
    exact ⟨g, _, hg⟩
  · rintro ⟨g, all, hg⟩
    exact hg.reads hread

/-- The two nodes, all of them endpoints. -/
def endpointsConfig : Config := defaultLinkConfig.insert "all_nodes_are_endpoints".toList "1".toList

/-- The configuration below a comment. -/
def endpointsFile : Str :=
  unlines ("# Two nodes".toList :: endpointsConfig.entries.map fun e => e.1 ++ '=' :: e.2)

theorem isKey_isValue_endpointsConfig : ∀ e ∈ endpointsConfig.entries, IsKey e.1 ∧ IsValue e.2 := by
  have hplain : ∀ e ∈ endpointsConfig.entries, (trim e.1 = e.1 ∧ '=' ∉ e.1 ∧ '\n' ∉ e.1 ∧ e.1.head? ≠ some '#') ∧
      trim e.2 = e.2 ∧ '=' ∉ e.2 ∧ '\n' ∉ e.2 ∧ e.2.head? ≠ some '"' := by decide +kernel
  intro e he
  obtain ⟨⟨htrim, hequals, hnewline, hcomment⟩, htrim', hequals', hnewline', hquote⟩ := hplain e he
  refine ⟨⟨⟨htrim, by simp [hequals, hnewline]⟩, hcomment⟩, ⟨htrim', by simp [hequals', hnewline']⟩, ?_⟩
  rintro ⟨inside, hquoted⟩
  rw [hquoted] at hquote
  exact hquote rfl

theorem rendersConfig_endpointsFile : RendersConfig endpointsConfig endpointsFile := by
  refine ⟨none :: endpointsConfig.entries.map some, _, ?_, .cons (.comment _) ?_, ?_, .inl rfl⟩
  · rw [List.reduceOption_cons_of_none, List.reduceOption, List.filterMap_map]
    exact .of_eq List.filterMap_some
  · rw [List.forall₂_map_left_iff, List.forall₂_map_right_iff, List.forall₂_same]
    exact fun e _ => .setting (isPadded_self _ e.1) (.inl (isPadded_self _ e.2))
  · decide +kernel

theorem parseTopologyGraph_endpointsConfig :
    parseTopologyGraph endpointsConfig true none = .ok pairTopology := by decide +kernel

theorem parseTopologyLinkProperties_endpointsConfig :
    parseTopologyLinkProperties pairTopology stodInteger (defaultSelectors typedFactories stodInteger)
      endpointsConfig = .ok defaultLinkProperties := by rfl

theorem topology_files_are_read_endpointsFile :
    (∃ g allNodesAreEndpoints,
      IsTopologyConfig typedFactories stodInteger endpointsConfig g none allNodesAreEndpoints) ∧
    ∃ g, IsTopologyConfig typedFactories stodInteger endpointsConfig g none true ∧ pairTopology.Realises g ∧
      LinksAsWritten typedFactories stodInteger endpointsConfig g defaultLinkProperties := by
  have hconfig : readConfig [] (.content endpointsFile) = .ok endpointsConfig :=
    readConfig_of_renders isKey_isValue_endpointsConfig rendersConfig_endpointsFile
  have hread : readTopology typedFactories stodInteger [] (.content endpointsFile) none
      = .ok (pairTopology, defaultLinkProperties) :=
    (readTopology_eq_ok hconfig).mpr ⟨true,
      readTopologyConfig_eq_ok.mpr ⟨hconfig, by decide +kernel, parseBoolean_eq_ok.mp (by decide)⟩,
      parseTopologyGraph_endpointsConfig, parseTopologyLinkProperties_endpointsConfig⟩
  obtain ⟨hiff, hbuilt⟩ := topology_files_are_read typedFactories stodInteger isKey_isValue_endpointsConfig
    rendersConfig_endpointsFile none
  exact ⟨hiff.mp ⟨_, hread⟩, hbuilt _ _ hread⟩

end BasicSim
