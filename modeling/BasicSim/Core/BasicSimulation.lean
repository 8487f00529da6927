import BasicSim.Core.ExpUtil

/-!
# `Core.BasicSimulation` — the configuration of a run (`model/core/basic-simulation.cc`)

Reading the configuration, and which nodes belong to this system. What MPI answers is an argument. The seed,
the time stamps and the progress output do not matter to anything that is modelled.
-/

namespace BasicSim

open Fallible

/-- What `MpiInterface` answers: the number of this system, and how many there are. -/
structure MpiInterface where
  systemId : Nat
  size : Nat

structure BasicSimulation where
  runDir : Str
  config : Config
  simulationEndTimeNs : Int
  enableDistributed : Bool
  distributedNodeSystemIdAssignment : List Int
  systemId : Nat
  systemsCount : Nat
deriving DecidableEq

namespace BasicSimulation

/-- One round of the check of the assignment: the system must exist, and has one more node. -/
def countNode (systemsCount : Nat) (systemIdCounter : List Int) (item : Int × Nat) :
    Except Exc (List Int) := do
  throwIf (item.1 < 0 ∨ systemsCount ≤ item.1) <| .invalidArgument <|
    "Node " ++ toString (toInt32 item.2) ++ " is assigned to an invalid system id " ++ toString item.1
      ++ " (k=" ++ toString systemsCount ++ ")"
  let count ← int32 ((← vectorAt systemIdCounter item.1) + 1)
  .ok (systemIdCounter.set item.1.toNat count)

/-- The loop that checks the assignment. Its counter is a `uint32_t`. -/
def checkAssignment (systemsCount : Nat) (assignment : List Int) : Except Exc (List Int) := do
  let systemIdCounter ← (assignment.take (2 ^ 32)).zipIdx.foldlM (countNode systemsCount)
    (List.replicate systemsCount 0)
  throwIf (2 ^ 32 ≤ assignment.length) <| .undefined "the loop over the assignment goes on"
  .ok systemIdCounter

/-- The type of the simulator implementation must be known. -/
def checkImplementationType (implementationType : Str) : Except Exc Unit :=
  throwIf (implementationType ≠ "nullmsg".toList ∧ implementationType ≠ "default".toList) <|
    .runtimeError ("Unknown distributed simulator implementation type: "
      ++ String.ofList implementationType)

/-- The distributed part of `ConfigureSimulation`: the assignment of nodes to systems. -/
def configureDistributed (config : Config) (mpi : MpiInterface) : Except Exc (List Int) := do
  checkImplementationType
    (← getParamOrFail "distributed_simulator_implementation_type".toList config)
  let configSystemsCount ←
    parsePositiveInt64 (← getParamOrFail "distributed_systems_count".toList config)
  throwIf (mpi.size ≠ (toUInt32 configSystemsCount).toNat) <| .runtimeError <|
    "Systems count in configuration (" ++ toString (toUInt32 configSystemsCount).toNat
      ++ ") does not match up with MPI systems count (" ++ toString mpi.size ++ ")"
  let assignment ← parseListPositiveInt64
    (← getParamOrFail "distributed_node_system_id_assignment".toList config)
  let _ ← checkAssignment mpi.size assignment
  .ok assignment

/-- `ReadConfig` and `ConfigureSimulation`. -/
def create (runDir : Str) (files : Str → File) (mpi : MpiInterface) : Except Exc BasicSimulation := do
  let filename := runDir ++ "/config_ns3.properties".toList
  let config ← readConfig filename (files filename)
  let simulationEndTimeNs ←
    parsePositiveInt64 (← getParamOrFail "simulation_end_time_ns".toList config)
  let _ ← parsePositiveInt64 (← getParamOrFail "simulation_seed".toList config)
  let enableDistributed ←
    parseBoolean (getParamOrDefault "enable_distributed".toList "false".toList config)
  if enableDistributed = true then do
    let assignment ← configureDistributed config mpi
    .ok ⟨runDir, config, simulationEndTimeNs, true, assignment, mpi.systemId, mpi.size⟩
  else .ok ⟨runDir, config, simulationEndTimeNs, false, [], 0, 1⟩

variable (sim : BasicSimulation)

def logsDir : Str := sim.runDir ++ "/logs_ns3".toList

def isNodeAssignedToThisSystem (nodeId : Int) : Except Exc Bool := do
  throwIf (sim.enableDistributed = false) <| .runtimeError
    "Distributed mode is not enabled, as such this check should not need to be done"
  let systemId ← vectorAt sim.distributedNodeSystemIdAssignment nodeId
  .ok (decide (systemId = sim.systemId))

/-- `!m_enable_distributed || IsNodeAssignedToThisSystem(nodeId)`, which guards what a system does for a
    node. -/
def isResponsibleFor (nodeId : Int) : Except Exc Bool :=
  if sim.enableDistributed = false then .ok true else sim.isNodeAssignedToThisSystem nodeId

end BasicSimulation

end BasicSim
