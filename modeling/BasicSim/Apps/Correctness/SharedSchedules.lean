import BasicSim.Apps.Correctness.BurstServers
import BasicSim.Core.Correctness.LinkTracking

/-!
# `Apps.Correctness.SharedSchedules` — the systems share the schedules

In a distributed run every system reads the whole schedule and keeps the entries that start at its nodes. Its
servers are on the endpoints among its nodes, and the bursts are registered where their node is.

## Contents
- **Reading.** The systems read what the run that is not distributed reads; where there are servers
  (`EntriesHaveServers`).
- **Creation.** The schedulers of a system, from the ones of the run that is not distributed.
- **Registration.** `registrations`, `map_fst_incoming`.
-/

namespace BasicSim

open Fallible Sharing

variable {runDir : Str} {files : Str → File} {k : Nat} {sim : Nat → BasicSimulation} {base : BasicSimulation}
  {topologyConfig : Config} {all : Bool} {topology : TopologyPtop} {Fields App : Type}

/-! ## Reading -/

section Reading

variable {s : Nat} {complete : List (ScheduleEntry Fields)}

theorem IsUndistributed.readConfiguredSchedule {sim : BasicSimulation} (h : IsUndistributed base sim)
    {key : String} {read : Str → File → Except Exc (List (ScheduleEntry Fields))}
    (hkey : key.toList ∉ distributionParameters) :
    readConfiguredSchedule sim files key read = BasicSim.readConfiguredSchedule base files key read := by
  unfold BasicSim.readConfiguredSchedule
  rw [h.getParamOrFail hkey, h.runDir]

theorem IsUndistributed.parseLoggingIds {sim : BasicSimulation} (h : IsUndistributed base sim)
    {key kind : String} {scheduleSize : Nat} (hkey : key.toList ∉ distributionParameters) :
    parseLoggingIds sim key kind scheduleSize = BasicSim.parseLoggingIds base key kind scheduleSize := by
  unfold BasicSim.parseLoggingIds
  rw [h.getParamOrDefault hkey]

theorem IsUndistributed.filterSchedule (h : IsUndistributed base (sim 0)) :
    filterSchedule base complete = .ok complete := if_neg (by rw [h.enableDistributed]; decide)

theorem IsUndistributed.serverNodes (h : IsUndistributed base (sim 0)) :
    serverNodes base topology = .ok topology.getEndpoints.toList := by
  unfold BasicSim.serverNodes
  rw [filterLoop_of (q := fun _ => true) fun v _ => h.isResponsibleFor v, List.filter_true]

/-- The system of the first node of an entry. -/
def fromSystem (sim : BasicSimulation) (entry : ScheduleEntry Fields) : Nat := sim.systemOf entry.fromNodeId

/-- The system of the second node of an entry. -/
def toSystem (sim : BasicSimulation) (entry : ScheduleEntry Fields) : Nat := sim.systemOf entry.toNodeId

section Assigned

variable (h : Systems runDir files k sim)
  (htopology : parseTopologyGraph topologyConfig all (some (sim 0).distributedNodeSystemIdAssignment)
    = .ok topology)

include h htopology

/-- The nodes of the entries belong to one of the systems. -/
theorem Systems.system_lt {v : Int} (hv : v ∈ topology.getEndpoints) : (sim 0).systemOf v < k := by
  obtain ⟨h0, hlt⟩ := (TopologyPtop.wellFormed_of_parse htopology).endpoint_bounds hv
  exact (h.vectorAt_assignment htopology h0 hlt).2

/-- A system keeps the entries that start at its nodes. -/
theorem Systems.filterSchedule (hs : s < k) (hnames : EntriesNameEndpoints topology complete) :
    filterSchedule (sim s) complete = .ok (part (fromSystem (sim 0)) complete s) := by
  unfold BasicSim.filterSchedule
  rw [if_pos (by rw [h.sim_eq hs]; exact h.distributed)]
  refine filterLoop_of ?_
  intro entry hentry
  obtain ⟨h0, hlt⟩ := (TopologyPtop.wellFormed_of_parse htopology).endpoint_bounds (hnames entry hentry).1
  exact h.isNodeAssignedToThisSystem htopology hs h0 hlt

/-- A system has servers on its endpoints. -/
theorem Systems.serverNodes (hs : s < k) :
    serverNodes (sim s) topology = .ok (part (sim 0).systemOf topology.getEndpoints.toList s) := by
  refine filterLoop_of ?_
  intro v hv
  obtain ⟨h0, hlt⟩ := (TopologyPtop.wellFormed_of_parse htopology).endpoint_bounds hv
  exact h.isResponsibleFor htopology hs h0 hlt

end Assigned

/-! ### Where the servers are -/

/-- The nodes of the entries have a server. -/
def EntriesHaveServers (schedule : List (ScheduleEntry Fields)) (hasServer : Int → Prop) : Prop :=
  ∀ e ∈ schedule, hasServer e.fromNodeId ∧ hasServer e.toNodeId

/-- **The nodes of an accepted schedule have servers** exactly when they are endpoints. -/
theorem IsUndistributed.entriesHaveServers_iff (hbase : IsUndistributed base (sim 0))
    (hparse : parseTopologyGraph topologyConfig all none = .ok topology) {format : ScheduleFormat Fields} {endTime : Int}
    {filename : Str} {file : File} (h : readSchedule format topology endTime filename file = .ok complete) :
    EntriesHaveServers complete (fun v => ∃ servers, BasicSim.serverNodes base topology = .ok servers ∧ v ∈ servers) ↔
      (topology.allNodesAreEndpoints = false ∨ LinesNameNodes file topology.numNodes) := by
  rw [← entriesNameEndpoints_iff (TopologyPtop.wellFormed_of_parse hparse) h, hbase.serverNodes]
  simp only [Except.ok.injEq, exists_eq_left']
  exact Iff.rfl

/-- The same for the servers of all systems. -/
theorem Systems.entriesHaveServers_iff (h : Systems runDir files k sim)
    (htopology : parseTopologyGraph topologyConfig all (some (sim 0).distributedNodeSystemIdAssignment)
      = .ok topology) {format : ScheduleFormat Fields} {endTime : Int} {filename : Str} {file : File}
    (hread : readSchedule format topology endTime filename file = .ok complete) :
    EntriesHaveServers complete
        (fun v => ∃ s < k, ∃ servers, BasicSim.serverNodes (sim s) topology = .ok servers ∧ v ∈ servers) ↔
      (topology.allNodesAreEndpoints = false ∨ LinesNameNodes file topology.numNodes) := by
  rw [← entriesNameEndpoints_iff (TopologyPtop.wellFormed_of_parse htopology) hread]
  have hserver : ∀ v, (∃ s < k, ∃ servers, BasicSim.serverNodes (sim s) topology = .ok servers ∧ v ∈ servers) ↔
      v ∈ topology.getEndpoints := by
    intro v
    constructor
    · rintro ⟨s, hs, servers, hservers, hv⟩
      rw [h.serverNodes htopology hs] at hservers
      cases hservers
      exact (mem_part.mp hv).1
    · intro hv
      have hs := h.system_lt htopology hv
      exact ⟨_, hs, _, h.serverNodes htopology hs, mem_part.mpr ⟨hv, rfl⟩⟩
  simp only [EntriesHaveServers, EntriesNameEndpoints, hserver]

end Reading

/-! ## Creation -/

section Creation

/-- The scheduler of a system: it has its part of the schedule. -/
def Scheduler.onSystem (sim : BasicSimulation) (s₀ : Scheduler Fields App) (s : Nat) : Scheduler Fields App :=
  { s₀ with schedule := part (fromSystem sim) s₀.schedule s }

theorem IsUndistributed.disabled {sim : BasicSimulation} (h : IsUndistributed base sim) :
    (Scheduler.disabled sim : Scheduler Fields App) = Scheduler.disabled base := by
  unfold Scheduler.disabled
  rw [h.logsDir]

variable {s : Nat} (h : Systems runDir files k sim) (hbase : IsUndistributed base (sim 0))
  (htopology : parseTopologyGraph topologyConfig all (some (sim 0).distributedNodeSystemIdAssignment)
    = .ok topology)

include h hbase htopology

theorem createTcpFlowScheduler_onSystem {s₀ : TcpFlowScheduler} {servers₀ : List Int}
    (hcreated : createTcpFlowScheduler base topology files = .ok (s₀, servers₀))
    (hnames : EntriesNameEndpoints topology s₀.schedule) (hs : s < k) :
    ∃ servers, createTcpFlowScheduler (sim s) topology files = .ok (s₀.onSystem (sim 0) s, servers) := by
  have hsim := h.undistributed hbase hs
  obtain ⟨enabled, henabled, hcreated⟩ := bind_eq_ok.mp hcreated
  unfold createTcpFlowScheduler
  rw [hsim.getParamOrDefault (by decide), henabled, ok_bind]
  split at hcreated
  · next hdisabled =>
      cases hcreated
      rw [if_pos hdisabled, hsim.disabled]
      exact ⟨_, rfl⟩
  · next hdisabled =>
      obtain ⟨complete, hread, hcreated⟩ := bind_eq_ok.mp hcreated
      obtain ⟨ids, hids, hcreated⟩ := bind_eq_ok.mp hcreated
      rw [hbase.filterSchedule, ok_bind, hbase.serverNodes, ok_bind] at hcreated
      cases hcreated
      rw [if_neg hdisabled, hsim.readConfiguredSchedule (by decide), ← hsim.simulationEndTimeNs, hread, ok_bind,
        hsim.parseLoggingIds (by decide), hids, ok_bind, h.filterSchedule htopology hs hnames, ok_bind,
        h.serverNodes htopology hs, ok_bind, hsim.logsDir]
      exact ⟨_, rfl⟩

theorem createUdpPingScheduler_onSystem {s₀ : UdpPingScheduler} {servers₀ : List Int}
    (hcreated : createUdpPingScheduler base topology files = .ok (s₀, servers₀))
    (hnames : EntriesNameEndpoints topology s₀.schedule) (hs : s < k) :
    ∃ servers, createUdpPingScheduler (sim s) topology files = .ok (s₀.onSystem (sim 0) s, servers) := by
  have hsim := h.undistributed hbase hs
  obtain ⟨enabled, henabled, hcreated⟩ := bind_eq_ok.mp hcreated
  unfold createUdpPingScheduler
  rw [hsim.getParamOrDefault (by decide), henabled, ok_bind]
  split at hcreated
  · next hdisabled =>
      cases hcreated
      rw [if_pos hdisabled, hsim.disabled]
      exact ⟨_, rfl⟩
  · next hdisabled =>
      obtain ⟨complete, hread, hcreated⟩ := bind_eq_ok.mp hcreated
      rw [hbase.filterSchedule, ok_bind, hbase.serverNodes, ok_bind] at hcreated
      cases hcreated
      rw [if_neg hdisabled, hsim.readConfiguredSchedule (by decide), ← hsim.simulationEndTimeNs, hread, ok_bind,
        h.filterSchedule htopology hs hnames, ok_bind, h.serverNodes htopology hs, ok_bind, hsim.logsDir]
      exact ⟨_, rfl⟩

/-- The burst scheduler of a system: its servers know the bursts to its endpoints. -/
def UdpBurstScheduler.onSystem (sim : BasicSimulation) (topology : TopologyPtop) (s₀ : UdpBurstScheduler)
    (s : Nat) : UdpBurstScheduler :=
  let endpoints := if s₀.enabled = true then part sim.systemOf topology.getEndpoints.toList s else []
  { toScheduler := s₀.toScheduler.onSystem sim s
    servers := endpoints.map (serverOf s₀.schedule s₀.enableLoggingForIds)
    responsibleForIncomingBursts := incomingOf s₀.schedule endpoints 0 }

theorem createUdpBurstScheduler_onSystem {stod : Str → Except Exc (Double × Nat)} {s₀ : UdpBurstScheduler}
    (hcreated : createUdpBurstScheduler base topology files stod = .ok s₀)
    (hnames : EntriesNameEndpoints topology s₀.schedule) (hs : s < k) :
    createUdpBurstScheduler (sim s) topology files stod = .ok (s₀.onSystem (sim 0) topology s) := by
  have hsim := h.undistributed hbase hs
  obtain ⟨enabled, henabled, hcreated⟩ := bind_eq_ok.mp hcreated
  unfold createUdpBurstScheduler
  rw [hsim.getParamOrDefault (by decide), henabled, ok_bind]
  split at hcreated
  · next hdisabled =>
      cases hcreated
      rw [if_pos hdisabled, hsim.disabled]
      rfl
  · next hdisabled =>
      obtain ⟨complete, hread, hcreated⟩ := bind_eq_ok.mp hcreated
      obtain ⟨ids, hids, hcreated⟩ := bind_eq_ok.mp hcreated
      rw [hbase.serverNodes, ok_bind, foldl_installBurstServer, hbase.filterSchedule] at hcreated
      cases hcreated
      rw [if_neg hdisabled, hsim.readConfiguredSchedule (by decide), ← hsim.simulationEndTimeNs, hread, ok_bind,
        hsim.parseLoggingIds (by decide), hids, ok_bind, h.serverNodes htopology hs, ok_bind,
        foldl_installBurstServer]
      dsimp only
      rw [h.filterSchedule htopology hs hnames, ok_bind, hsim.logsDir]
      rfl

end Creation

/-! ## Registration -/

section Registration

variable {complete : List UdpBurstInfo} {loggingIds : OrdSet Int} {endpoints : List Int}

/-- The nodes of the servers at which a burst is registered, once for each registration. -/
def registrations (servers : List UdpBurstServer) (id : Int) : List Int :=
  servers.flatMap fun server => (server.incomingBursts.filter fun burst => burst = id).map fun _ => server.nodeId

/-- At one server a burst is registered once, if it is for its node. -/
theorem filter_incomingBursts (hids : complete.Pairwise fun e e' => e.id < e'.id) {entry : UdpBurstInfo}
    (hentry : entry ∈ complete) (endpoint : Int) :
    ((serverOf complete loggingIds endpoint).incomingBursts.filter fun burst => burst = entry.id)
      = if entry.toNodeId = endpoint then [entry.id] else [] := by
  rw [serverOf_incomingBursts]
  have hnodup : (complete.map ScheduleEntry.id).Nodup := List.pairwise_map.mpr (hids.imp fun h => ne_of_lt h)
  have hnodup' : ((burstsTo complete endpoint).map ScheduleEntry.id).Nodup :=
    hnodup.sublist (List.filter_sublist.map ScheduleEntry.id)
  split
  · next hto =>
      have hcount := List.count_eq_one_of_mem hnodup'
        (List.mem_map_of_mem (f := ScheduleEntry.id) (mem_burstsTo.mpr ⟨hentry, hto⟩))
      have hfilter := List.filter_eq (l := (burstsTo complete endpoint).map ScheduleEntry.id) entry.id
      rw [hcount, List.replicate_one] at hfilter
      exact hfilter
  · next hto =>
      refine List.filter_eq_nil_iff.mpr fun id hid heq => hto ?_
      obtain ⟨other, hother, rfl⟩ := List.mem_map.mp hid
      obtain ⟨hother, hendpoint⟩ := mem_burstsTo.mp hother
      rw [← List.inj_on_of_nodup_map hnodup hother hentry (of_decide_eq_true heq)]
      exact hendpoint

/-- **Every burst is registered once, at the server of its node**, if there is one. -/
theorem registrations_serverOf (hids : complete.Pairwise fun e e' => e.id < e'.id) (hnodup : endpoints.Nodup)
    {entry : UdpBurstInfo} (hentry : entry ∈ complete) :
    registrations (endpoints.map (serverOf complete loggingIds)) entry.id
      = if entry.toNodeId ∈ endpoints then [entry.toNodeId] else [] := by
  have heach : registrations (endpoints.map (serverOf complete loggingIds)) entry.id
      = endpoints.filter fun endpoint => endpoint = entry.toNodeId := by
    unfold registrations
    rw [List.flatMap_map]
    induction endpoints with
    | nil => rfl
    | cons endpoint endpoints ih =>
        rw [List.flatMap_cons, filter_incomingBursts hids hentry, serverOf_nodeId,
          ih (List.nodup_cons.mp hnodup).2]
        by_cases hto : entry.toNodeId = endpoint
        · rw [if_pos hto, List.filter_cons_of_pos (by simpa using hto.symm)]
          rfl
        · rw [if_neg hto, List.filter_cons_of_neg (by simpa using Ne.symm hto)]
          rfl
  rw [heach]
  split
  · next hmem =>
      have hfilter := List.filter_eq (l := endpoints) entry.toNodeId
      rw [List.count_eq_one_of_mem hnodup hmem, List.replicate_one] at hfilter
      exact hfilter
  · next hmem =>
      exact List.filter_eq_nil_iff.mpr fun endpoint hendpoint heq =>
        hmem (of_decide_eq_true heq ▸ hendpoint)

/-- What a scheduler remembers of the incoming bursts, in the order that it is written. -/
theorem map_fst_incoming (hids : complete.Pairwise fun e e' => e.id < e'.id) (hnodup : endpoints.Nodup) :
    ((incomingOf complete endpoints 0).insertionSort fun a b => a.1.id ≤ b.1.id).map Prod.fst
      = complete.filter fun entry => entry.toNodeId ∈ endpoints := by
  have hfst : (incomingOf complete endpoints 0).map Prod.fst
      = endpoints.flatMap (part ScheduleEntry.toNodeId complete) := by
    unfold incomingOf
    generalize 0 = idx
    induction endpoints generalizing idx with
    | nil => rfl
    | cons endpoint endpoints ih =>
        rw [List.zipIdx_cons, List.flatMap_cons, List.map_append, ih (List.nodup_cons.mp hnodup).2,
          List.flatMap_cons, List.map_map]
        exact congrArg (· ++ _) (List.map_id _)
  have hperm : (((incomingOf complete endpoints 0).insertionSort fun a b => a.1.id ≤ b.1.id).map Prod.fst).Perm
      (complete.filter fun entry => entry.toNodeId ∈ endpoints) := by
    refine ((List.perm_insertionSort _ _).map Prod.fst).trans ?_
    rw [hfst]
    exact flatMap_part_perm hnodup complete
  have hnodup' : (complete.map ScheduleEntry.id).Nodup := List.pairwise_map.mpr (hids.imp fun h => ne_of_lt h)
  refine @List.Perm.eq_of_pairwise _ (fun e e' : UdpBurstInfo => e.id ≤ e'.id) _ _ ?_ ?_ ?_ hperm
  · intro e e' he he' hle hge
    have hmem : e ∈ complete := (List.mem_filter.mp (hperm.mem_iff.mp he)).1
    exact List.inj_on_of_nodup_map hnodup' hmem (List.mem_filter.mp he').1 (le_antisymm hle hge)
  · rw [List.pairwise_map]
    exact List.pairwise_insertionSort (fun a b : UdpBurstInfo × Nat => a.1.id ≤ b.1.id) _
  · exact (hids.sublist List.filter_sublist).imp fun h => le_of_lt h

end Registration

end BasicSim
