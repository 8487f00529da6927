import BasicSim.Core.Correctness.BasicSimulation
import BasicSim.Core.LinkTracking
import BasicSim.Lib.Sharing

/-!
# `Core.Correctness.LinkTracking` — the systems share the links that are tracked

In a distributed run a link is tracked by the system of its first node. The loop is treated once, for any
tracker; each tracking is then the loop after reading parameters that are the same on every system.

## Contents
- **The loop.** `trackLinks_undistributed` and `trackLinks_part`.
- **The trackings.** `TrackingShared` of the three.
-/

namespace BasicSim

open Fallible Sharing

/-! ## The loop -/

section Loop

variable {sim : BasicSimulation} {Tracker : Type} {createTracker : Int64Pair → Except Exc Tracker}

/-- The trackers of links, one for each in order. -/
def TrackersOf (createTracker : Int64Pair → Except Exc Tracker) (links : List Int64Pair)
    (trackers : List (Int64Pair × Tracker)) : Prop :=
  List.Forall₂ (fun p row => row.1 = p ∧ createTracker p = .ok row.2) links trackers

/-- A system that is responsible for all links has a tracker for each. -/
theorem trackLinks_undistributed {links : OrdSet Int64Pair} {trackers : List (Int64Pair × Tracker)}
    (hresponsible : ∀ p, sim.isResponsibleFor p = .ok true)
    (h : trackLinks sim createTracker links = .ok trackers) :
    TrackersOf createTracker links.toList trackers := by
  refine foldlM_inv (fun done trackers => TrackersOf createTracker done trackers) ?_ .nil h
  intro done p before after hbefore hstep
  obtain ⟨_, hresp, hstep⟩ := bind_eq_ok.mp hstep
  rw [hresponsible] at hresp
  cases hresp
  obtain ⟨tracker, htracker, hstep⟩ := bind_eq_ok.mp hstep
  cases hstep
  exact forall₂_concat hbefore ⟨rfl, htracker⟩

/-- A system that is responsible for some of the links has their trackers. -/
theorem trackLinks_part {links : OrdSet Int64Pair} {trackers : List (Int64Pair × Tracker)}
    {owner : Int64Pair → Nat} {s : Nat} (h : TrackersOf createTracker links.toList trackers)
    (hresponsible : ∀ p ∈ links.toList, sim.isResponsibleFor p.first = .ok (decide (owner p = s))) :
    trackLinks sim createTracker links = .ok (part (fun row => owner row.1) trackers s) := by
  suffices ∀ before, links.toList.foldlM (trackLink sim createTracker) before
      = .ok (before ++ part (fun row => owner row.1) trackers s) from this []
  generalize links.toList = todo at h hresponsible
  induction h with
  | nil => exact fun before => congrArg Except.ok (List.append_nil before).symm
  | @cons p row todo rows hrow _ ih =>
      intro before
      obtain ⟨rfl, htracker⟩ := hrow
      rw [List.foldlM_cons, trackLink, hresponsible _ List.mem_cons_self, ok_bind]
      by_cases howner : owner row.1 = s
      · rw [if_pos (decide_eq_true howner), htracker, ok_bind, ok_bind,
          ih fun p hp => hresponsible p (List.mem_cons_of_mem _ hp), part,
          part, List.filter_cons_of_pos (by simpa using howner), List.append_assoc]
        rfl
      · rw [if_neg (by simpa using howner), ok_bind, ih fun p hp => hresponsible p (List.mem_cons_of_mem _ hp),
          part, part, List.filter_cons_of_neg (by simpa using howner)]

/-- The trackers are in the order of their links. -/
theorem TrackersOf.pairwise_lt {links : OrdSet Int64Pair} {trackers : List (Int64Pair × Tracker)}
    (h : TrackersOf createTracker links.toList trackers) : trackers.Pairwise fun a b => a.1 < b.1 := by
  have heq : links.toList = trackers.map Prod.fst := eq_map_of_forall₂ (fun _ _ hrow => hrow.1.symm) h
  rw [← List.pairwise_map, ← heq]
  exact links.sorted

end Loop

/-! ## The trackings -/

section Trackings

variable {runDir : Str} {files : Str → File} {k : Nat} {sim : Nat → BasicSimulation} {base : BasicSimulation}
  {topologyConfig : Config} {all : Bool} {topology : TopologyPtop} {Tracker : Type}

/-- **The systems share a tracking.** If it is enabled for links of the topology, each system has the trackers
    of the links that start at its nodes. -/
def TrackingShared (k : Nat) (sim : Nat → BasicSimulation) (base : BasicSimulation) (topology : TopologyPtop)
    (tracking : BasicSimulation → Except Exc (List (Int64Pair × Tracker))) : Prop :=
  ∀ trackers, tracking base = .ok trackers → (∀ row ∈ trackers, row.1 ∈ topology.getLinksSet) →
    ∃ parts, (∀ s < k, tracking (sim s) = .ok (parts s)) ∧
      Shared (fun row => (sim 0).systemOf row.1.first) Prod.fst k parts trackers

theorem TopologyPtop.WellFormed.link_bounds (hwf : topology.WellFormed) {p : Int64Pair}
    (h : p ∈ topology.getLinksSet) : 0 ≤ p.first ∧ p.first < topology.numNodes := by
  rw [TopologyPtop.mem_getLinksSet, TopologyPtop.mem_getLinks] at h
  rcases h with h | h
  · have := hwf.edge_bounds _ h
    omega
  · have := hwf.edge_bounds _ h
    rw [Int64Pair.swap_first, Int64Pair.swap_second] at this
    omega

/-- The loop is shared. -/
theorem trackLinks_shared (h : Systems runDir files k sim) (hbase : IsUndistributed base (sim 0))
    (htopology : parseTopologyGraph topologyConfig all (some (sim 0).distributedNodeSystemIdAssignment)
      = .ok topology) (createTracker : Int64Pair → Except Exc Tracker) (links : OrdSet Int64Pair) :
    TrackingShared k sim base topology fun sim => trackLinks sim createTracker links := by
  intro trackers htrackers hlinks
  have hwf := TopologyPtop.wellFormed_of_parse htopology
  have hall := trackLinks_undistributed hbase.isResponsibleFor htrackers
  refine ⟨part (fun row => (sim 0).systemOf row.1.first) trackers, ?_, ?_⟩
  · intro s hs
    refine @trackLinks_part _ _ _ _ _ (fun p => (sim 0).systemOf p.first) _ hall ?_
    intro p hp
    obtain ⟨row, hrow, rfl, -⟩ := exists_right_of_forall₂ hall hp
    obtain ⟨h0, hlt⟩ := hwf.link_bounds (hlinks row hrow)
    exact h.isResponsibleFor htopology hs h0 hlt
  · refine shared_of_parts hall.pairwise_lt ?_ fun _ _ => rfl
    intro row hrow
    obtain ⟨h0, hlt⟩ := hwf.link_bounds (hlinks row hrow)
    exact (h.vectorAt_assignment htopology h0 hlt).2

/-- A tracking that is disabled is shared. -/
theorem trackingShared_nil : TrackingShared k sim base topology
    fun _ => (.ok [] : Except Exc (List (Int64Pair × Tracker))) := by
  rintro _ ⟨⟩ -
  exact ⟨fun _ => [], fun _ _ => rfl, shared_of_parts .nil (fun _ h => (nomatch h)) fun _ _ => rfl⟩

/-- Reading something that is the same on every system comes before a tracking that is shared. -/
theorem TrackingShared.bind {V : Type} {read : BasicSimulation → Except Exc V}
    {tracking : V → BasicSimulation → Except Exc (List (Int64Pair × Tracker))}
    (hread : ∀ s < k, read (sim s) = read base)
    (h : ∀ v, TrackingShared k sim base topology (tracking v)) :
    TrackingShared k sim base topology fun sim => read sim >>= fun v => tracking v sim := by
  intro trackers htrackers hlinks
  obtain ⟨v, hv, htrackers⟩ := bind_eq_ok.mp htrackers
  obtain ⟨parts, hparts, hshared⟩ := h v trackers htrackers hlinks
  refine ⟨parts, ?_, hshared⟩
  intro s hs
  show read (sim s) >>= (fun v => tracking v (sim s)) = _
  rw [hread s hs, hv, ok_bind]
  exact hparts s hs

/-- The systems and the run that is not distributed read the same parameters. -/
theorem Systems.undistributed (h : Systems runDir files k sim) (hbase : IsUndistributed base (sim 0)) {s : Nat}
    (hs : s < k) : IsUndistributed base (sim s) := by
  rw [h.sim_eq hs]
  exact hbase.system s

/-- **The three trackings are shared.** -/
theorem linkTrackings_shared (h : Systems runDir files k sim) (hbase : IsUndistributed base (sim 0))
    (htopology : parseTopologyGraph topologyConfig all (some (sim 0).distributedNodeSystemIdAssignment)
      = .ok topology) {s : Selectors} {ns3 : Ns3 s} (links : Links ns3) :
    TrackingShared k sim base topology (ptopLinkNetDeviceUtilizationTracking topology links) ∧
      TrackingShared k sim base topology (ptopLinkNetDeviceQueueTracking topology links) ∧
      TrackingShared k sim base topology (ptopLinkInterfaceTcQdiscQueueTracking topology links) := by
  -- systems differ from the undistributed run in no parameter but those of the distribution
  have hdefault : ∀ s < k, ∀ key default, key ∉ distributionParameters →
      getParamOrDefault key default (sim s).config = getParamOrDefault key default base.config :=
    fun s hs _ _ hkey => (h.undistributed hbase hs).getParamOrDefault hkey
  have henabled : ∀ key, key.toList ∉ distributionParameters → ∀ s < k,
      enabledLinks (sim s) topology key = enabledLinks base topology key := by
    intro key hkey s hs
    unfold enabledLinks
    rw [hdefault s hs _ _ hkey]
  have hloop : ∀ {Tracker : Type} (createTracker : Int64Pair → Except Exc Tracker) links,
      TrackingShared k sim base topology fun sim => trackLinks sim createTracker links :=
    fun createTracker links => trackLinks_shared h hbase htopology createTracker links
  refine ⟨.bind (fun s hs => by rw [hdefault s hs _ _ (by decide)]) ?_,
    .bind (fun s hs => by rw [hdefault s hs _ _ (by decide)]) ?_,
    .bind (fun s hs => by rw [hdefault s hs _ _ (by decide)]) ?_⟩
  · intro enabled
    cases enabled with
    | false => exact trackingShared_nil
    | true =>
        refine .bind (fun s hs => (h.undistributed hbase hs).getParamOrFail (by decide)) ?_
        intro _
        exact .bind (fun _ _ => rfl) fun _ => .bind (henabled _ (by decide)) fun _ => hloop _ _
  · intro enabled
    cases enabled with
    | false => exact trackingShared_nil
    | true => exact .bind (henabled _ (by decide)) fun _ => hloop _ _
  · intro enabled
    cases enabled with
    | false => exact trackingShared_nil
    | true => exact .bind (henabled _ (by decide)) fun _ => hloop _ _

end Trackings

end BasicSim
