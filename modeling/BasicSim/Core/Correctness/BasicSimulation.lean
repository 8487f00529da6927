import BasicSim.Core.BasicSimulation
import BasicSim.Core.Correctness.TopologyLayout

/-!
# `Core.Correctness.BasicSimulation` — the systems of a distributed run

The systems of a distributed run read the same configuration, and differ in their number only. Of every node
they agree which one of them is responsible for it.

## Contents
- **Systems.** `Systems`, their common configuration, and what the check of the assignment has found out.
- **Responsibility.** `systemOf`, `Systems.isResponsibleFor`.
- **The run that is not distributed.** `IsUndistributed`.
-/

namespace BasicSim

open Fallible

/-! ## Systems -/

section Systems

variable {runDir : Str} {files : Str → File} {k : Nat}

/-- The `k` systems of a distributed run, created from the same directory. -/
structure Systems (runDir : Str) (files : Str → File) (k : Nat) (sim : Nat → BasicSimulation) : Prop where
  pos : 0 < k
  created : ∀ s < k, BasicSimulation.create runDir files ⟨s, k⟩ = .ok (sim s)
  distributed : (sim 0).enableDistributed = true

/-- Another system is created with another number, and nothing else. -/
theorem create_of_system {s s' : Nat} {sim : BasicSimulation}
    (h : BasicSimulation.create runDir files ⟨s, k⟩ = .ok sim) (hdistributed : sim.enableDistributed = true) :
    BasicSimulation.create runDir files ⟨s', k⟩ = .ok { sim with systemId := s' } := by
  obtain ⟨config, hconfig, h⟩ := bind_eq_ok.mp h
  obtain ⟨endText, hendText, h⟩ := bind_eq_ok.mp h
  obtain ⟨endTime, hend, h⟩ := bind_eq_ok.mp h
  obtain ⟨seedText, hseedText, h⟩ := bind_eq_ok.mp h
  obtain ⟨seed, hseed, h⟩ := bind_eq_ok.mp h
  obtain ⟨distributed, hflag, h⟩ := bind_eq_ok.mp h
  unfold BasicSimulation.create
  dsimp only
  rw [hconfig, ok_bind, hendText, ok_bind, hend, ok_bind, hseedText, ok_bind, hseed, ok_bind, hflag, ok_bind]
  split at h
  · next htrue =>
      obtain ⟨assignment, hassignment, h⟩ := bind_eq_ok.mp h
      cases h
      rw [if_pos htrue, show BasicSimulation.configureDistributed config ⟨s', k⟩ = .ok assignment
        from hassignment]
      rfl
  · cases h
    cases hdistributed

/-- What is known of the assignment once it is checked. -/
structure Checked (k : Nat) (sim : BasicSimulation) : Prop where
  systemsCount : sim.systemsCount = k
  bounds : ∀ a ∈ sim.distributedNodeSystemIdAssignment, 0 ≤ a ∧ a < k

theorem checkAssignment_bounds {assignment counter : List Int}
    (h : BasicSimulation.checkAssignment k assignment = .ok counter) : ∀ a ∈ assignment, 0 ≤ a ∧ a < k := by
  obtain ⟨counter', hloop, h⟩ := bind_eq_ok.mp h
  obtain ⟨hlength, -⟩ := throwIf_bind_eq_ok.mp h
  rw [List.take_of_length_le (by omega)] at hloop
  intro a ha
  obtain ⟨i, hi, rfl⟩ := List.mem_iff_getElem.mp ha
  have hmem : (assignment[i], i) ∈ assignment.zipIdx := by
    rw [List.mem_zipIdx_iff_getElem?]
    exact List.getElem?_eq_getElem hi
  obtain ⟨_, _, hstep⟩ := foldlM_step_of_eq_ok hloop hmem
  obtain ⟨hvalid, -⟩ := throwIf_bind_eq_ok.mp hstep
  dsimp only at hvalid
  omega

theorem checked_of_create {s : Nat} {sim : BasicSimulation}
    (h : BasicSimulation.create runDir files ⟨s, k⟩ = .ok sim) (hdistributed : sim.enableDistributed = true) :
    Checked k sim := by
  obtain ⟨config, -, h⟩ := bind_eq_ok.mp h
  obtain ⟨_, -, h⟩ := bind_eq_ok.mp h
  obtain ⟨_, -, h⟩ := bind_eq_ok.mp h
  obtain ⟨_, -, h⟩ := bind_eq_ok.mp h
  obtain ⟨_, -, h⟩ := bind_eq_ok.mp h
  obtain ⟨_, -, h⟩ := bind_eq_ok.mp h
  split at h
  · obtain ⟨assignment, hassignment, h⟩ := bind_eq_ok.mp h
    cases h
    refine ⟨rfl, ?_⟩
    obtain ⟨_, -, hassignment⟩ := bind_eq_ok.mp hassignment
    obtain ⟨_, -, hassignment⟩ := bind_eq_ok.mp hassignment
    obtain ⟨_, -, hassignment⟩ := bind_eq_ok.mp hassignment
    obtain ⟨_, -, hassignment⟩ := bind_eq_ok.mp hassignment
    obtain ⟨-, hassignment⟩ := throwIf_bind_eq_ok.mp hassignment
    obtain ⟨_, -, hassignment⟩ := bind_eq_ok.mp hassignment
    obtain ⟨_, -, hassignment⟩ := bind_eq_ok.mp hassignment
    obtain ⟨_, hcheck, hassignment⟩ := bind_eq_ok.mp hassignment
    cases hassignment
    exact checkAssignment_bounds hcheck
  · cases h
    cases hdistributed

variable {sim : Nat → BasicSimulation}

theorem Systems.sim_eq (h : Systems runDir files k sim) {s : Nat} (hs : s < k) :
    sim s = { sim 0 with systemId := s } :=
  Except.ok.inj ((h.created s hs).symm.trans (create_of_system (h.created 0 h.pos) h.distributed))

theorem Systems.checked (h : Systems runDir files k sim) : Checked k (sim 0) :=
  checked_of_create (h.created 0 h.pos) h.distributed

end Systems

/-! ## Responsibility -/

namespace BasicSimulation

/-- The system that a node is assigned to. -/
def systemOf (sim : BasicSimulation) (nodeId : Int) : Nat :=
  ((sim.distributedNodeSystemIdAssignment[nodeId.toNat]?).getD 0).toNat

end BasicSimulation

section Responsibility

variable {runDir : Str} {files : Str → File} {k s : Nat} {sim : Nat → BasicSimulation} {topologyConfig : Config}
  {all : Bool} {topology : TopologyPtop}

/-- An accepted topology has as many nodes as there are assignments. -/
theorem length_assignment {assignment : List Int}
    (h : parseTopologyGraph topologyConfig all (some assignment) = .ok topology) :
    (assignment.length : Int) = topology.numNodes := by
  obtain ⟨g, -, -, -, hassignment, hrealises, -⟩ := parseTopologyGraph_realises h
  rw [hassignment assignment rfl, hrealises.numNodes]

/-- The topology is the same when the run is not distributed. -/
theorem parseTopologyGraph_undistributed {assignment : List Int}
    (h : parseTopologyGraph topologyConfig all (some assignment) = .ok topology) :
    parseTopologyGraph topologyConfig all none = .ok topology := by
  unfold parseTopologyGraph at h ⊢
  obtain ⟨_, hnumNodes, h⟩ := bind_eq_ok.mp h
  obtain ⟨_, hnumNodes', h⟩ := bind_eq_ok.mp h
  obtain ⟨_, hnumEdges, h⟩ := bind_eq_ok.mp h
  obtain ⟨_, hnumEdges', h⟩ := bind_eq_ok.mp h
  obtain ⟨_, hswitches, h⟩ := bind_eq_ok.mp h
  obtain ⟨_, htors, h⟩ := bind_eq_ok.mp h
  obtain ⟨_, hservers, h⟩ := bind_eq_ok.mp h
  obtain ⟨⟨_, _⟩, hnodes, h⟩ := bind_eq_ok.mp h
  obtain ⟨_, hedges, h⟩ := bind_eq_ok.mp h
  obtain ⟨_, hset, h⟩ := bind_eq_ok.mp h
  obtain ⟨_, hstate, h⟩ := bind_eq_ok.mp h
  obtain ⟨_, hlayout, h⟩ := bind_eq_ok.mp h
  obtain ⟨_, hcheck, h⟩ := bind_eq_ok.mp h
  obtain ⟨-, h⟩ := throwIf_bind_eq_ok.mp h
  rw [hnumNodes, ok_bind, hnumNodes', ok_bind, hnumEdges, ok_bind, hnumEdges', ok_bind, hswitches, ok_bind,
    htors, ok_bind, hservers, ok_bind, hnodes, ok_bind]
  dsimp only
  rw [hedges, ok_bind, hset, ok_bind, hstate, ok_bind, hlayout, ok_bind, hcheck, ok_bind]
  exact h

theorem Systems.vectorAt_assignment (h : Systems runDir files k sim)
    (htopology : parseTopologyGraph topologyConfig all (some (sim 0).distributedNodeSystemIdAssignment)
      = .ok topology) {v : Int} (h0 : 0 ≤ v) (hv : v < topology.numNodes) :
    vectorAt (sim 0).distributedNodeSystemIdAssignment v = .ok ((sim 0).systemOf v : Int) ∧
      (sim 0).systemOf v < k := by
  have hlength := length_assignment htopology
  obtain ⟨a, ha⟩ := vectorAt_of_lt h0 (v := (sim 0).distributedNodeSystemIdAssignment) (by omega)
  have hget := (vectorAt_eq_ok.mp ha).2
  obtain ⟨hnonneg, hlt⟩ := h.checked.bounds a (List.mem_of_getElem? hget)
  have hsystem : (sim 0).systemOf v = a.toNat := by rw [BasicSimulation.systemOf, hget]; rfl
  rw [hsystem, ha]
  exact ⟨by rw [Int.toNat_of_nonneg hnonneg], by omega⟩

/-- **Each system knows which nodes are its own.** -/
theorem Systems.isNodeAssignedToThisSystem (h : Systems runDir files k sim)
    (htopology : parseTopologyGraph topologyConfig all (some (sim 0).distributedNodeSystemIdAssignment)
      = .ok topology) (hs : s < k) {v : Int} (h0 : 0 ≤ v) (hv : v < topology.numNodes) :
    (sim s).isNodeAssignedToThisSystem v = .ok (decide ((sim 0).systemOf v = s)) := by
  rw [h.sim_eq hs]
  unfold BasicSimulation.isNodeAssignedToThisSystem
  dsimp only
  rw [throwIf_of_not (by rw [h.distributed]; decide), ok_bind, (h.vectorAt_assignment htopology h0 hv).1,
    ok_bind]
  simp only [Int.natCast_inj]

theorem Systems.isResponsibleFor (h : Systems runDir files k sim)
    (htopology : parseTopologyGraph topologyConfig all (some (sim 0).distributedNodeSystemIdAssignment)
      = .ok topology) (hs : s < k) {v : Int} (h0 : 0 ≤ v) (hv : v < topology.numNodes) :
    (sim s).isResponsibleFor v = .ok (decide ((sim 0).systemOf v = s)) := by
  unfold BasicSimulation.isResponsibleFor
  rw [if_neg (by rw [h.sim_eq hs]; simpa using h.distributed),
    h.isNodeAssignedToThisSystem htopology hs h0 hv]

end Responsibility

/-! ## The run that is not distributed -/

section Undistributed

/-- What only `configureDistributed` reads. -/
def distributionParameters : List Str :=
  ["enable_distributed".toList, "distributed_simulator_implementation_type".toList,
    "distributed_systems_count".toList, "distributed_node_system_id_assignment".toList]

/-- `base` is the run of the same directory with the same parameters, but not distributed. -/
structure IsUndistributed (base sim : BasicSimulation) : Prop where
  enableDistributed : base.enableDistributed = false
  runDir : base.runDir = sim.runDir
  simulationEndTimeNs : base.simulationEndTimeNs = sim.simulationEndTimeNs
  config : ∀ key, key ∉ distributionParameters → base.config.find? key = sim.config.find? key

variable {base sim : BasicSimulation}

theorem IsUndistributed.system (h : IsUndistributed base sim) (s : Nat) :
    IsUndistributed base { sim with systemId := s } :=
  ⟨h.enableDistributed, h.runDir, h.simulationEndTimeNs, h.config⟩

theorem IsUndistributed.getParamOrDefault (h : IsUndistributed base sim) {key default : Str}
    (hkey : key ∉ distributionParameters) :
    getParamOrDefault key default sim.config = BasicSim.getParamOrDefault key default base.config := by
  unfold BasicSim.getParamOrDefault
  rw [h.config key hkey]

theorem IsUndistributed.getParamOrFail (h : IsUndistributed base sim) {key : Str}
    (hkey : key ∉ distributionParameters) :
    getParamOrFail key sim.config = BasicSim.getParamOrFail key base.config := by
  unfold BasicSim.getParamOrFail
  rw [h.config key hkey]

theorem IsUndistributed.logsDir (h : IsUndistributed base sim) : sim.logsDir = base.logsDir := by
  unfold BasicSimulation.logsDir
  rw [h.runDir]

theorem IsUndistributed.isResponsibleFor (h : IsUndistributed base sim) (v : Int) :
    base.isResponsibleFor v = .ok true := if_pos h.enableDistributed

end Undistributed

end BasicSim
