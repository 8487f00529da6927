import BasicSim.Core.Correctness.LinkTracking
import BasicSim.Core.Correctness.ReadOuts
import BasicSim.Core.QueueResults

/-!
# `Core.Correctness.QueueResults` — the logs of queues tell how full they were

Each of the two files has, link by link, the run-length encoding of what the queue of the link reported.

## Contents
- **Tracked links.** `trackLinks_pairwise`: they are in ascending order, and there is no other order to sort them to.
- **A queue.** `LoggedQueue`, its logs, and what they tell (`Tracked.read`).
- **All links.** `queueResults_tell`.
-/

namespace BasicSim

open Fallible RunLength StepFunction

/-! ## Tracked links -/

section TrackedLinks

variable {sim : BasicSimulation} {Tracker : Type} {createTracker : Int64Pair → Except Exc Tracker}

/-- A system tracks some of the links, in their order. -/
theorem trackLinks_sublist {links : OrdSet Int64Pair} {trackers : List (Int64Pair × Tracker)}
    (h : trackLinks sim createTracker links = .ok trackers) : (trackers.map Prod.fst).Sublist links.toList := by
  refine foldlM_inv (fun done trackers => (trackers.map Prod.fst).Sublist done) ?_ (List.Sublist.refl _) h
  intro done p before after hbefore hstep
  obtain ⟨responsible, -, hstep⟩ := bind_eq_ok.mp hstep
  split at hstep
  · obtain ⟨tracker, -, hstep⟩ := bind_eq_ok.mp hstep
    cases hstep
    rw [List.map_append]
    exact hbefore.append (List.Sublist.refl _)
  · cases hstep
    exact hbefore.trans (List.sublist_append_left _ _)

theorem trackLinks_pairwise {links : OrdSet Int64Pair} {trackers : List (Int64Pair × Tracker)}
    (h : trackLinks sim createTracker links = .ok trackers) : trackers.Pairwise fun a b => a.1 < b.1 :=
  List.pairwise_map.mp (links.sorted.sublist (trackLinks_sublist h))

/-- Sorting links that are in order. -/
theorem ascendingByDirectedLink_eq {trackers : List (Int64Pair × Tracker)}
    (h : trackers.Pairwise fun a b => a.1 < b.1) : ascendingByDirectedLink trackers = trackers :=
  List.Pairwise.insertionSort_eq (h.imp fun hlt => le_of_lt hlt)

end TrackedLinks

/-! ## A queue -/

/-- A tracked link, with the logs of its queue. -/
structure LoggedQueue (Tracked : Type) where
  link : Int64Pair
  tracked : Tracked
  pkt : List (Run Int Int)
  byte : List (Run Int Int)

variable {Queue : Type}

def LoggedQueue.row (q : LoggedQueue Queue) : Int64Pair × Queue := (q.link, q.tracked)

/-- **The logs tell how full the queue was** until the end, by what it reported. -/
structure LoggedQueue.Tells (events : Queue → List (Int × QueueEvent)) (endNs : Int) (q : LoggedQueue Queue) :
    Prop where
  pkt : Encodes (lastUpdate (updatesOf QueueEvent.numPackets? (events q.tracked))) endNs 0 q.pkt
  byte : Encodes (lastUpdate (updatesOf QueueEvent.numBytes? (events q.tracked))) endNs 0 q.byte

section Queue

variable {events : List (Int × QueueEvent)} {ups : List (Int × Int)} {endNs : Int}

theorem Holds.finalizeOrThrow {h : LogUpdateHelper Int} (hh : Holds h ((0, 0) :: ups))
    (hasc : AscendingFrom 0 ((0, 0) :: ups)) (hend : 0 ≤ endNs) (hpast : ∀ w ∈ (0, 0) :: ups, w.1 ≤ endNs) :
    ∃ runs h', h.finalizeOrThrow endNs = .ok (runs, h') ∧ Encodes (lastUpdate ((0, 0) :: ups)) endNs 0 runs := by
  obtain ⟨runs, h', hwhole, hfinalize, -⟩ := hh.1.finalize hasc hend hpast
  refine ⟨runs, h', ?_, hwhole.encodes (0, 0) rfl⟩
  rw [LogUpdateHelper.finalizeOrThrow, hfinalize, if_pos hh.2]

/-- A tracker is read out. -/
theorem Tracked.read {s : QueueLogs} (h : Tracked s events) (hasc : AscendingFrom 0 events) (hend : 0 ≤ endNs)
    (hpast : ∀ e ∈ events, e.1 ≤ endNs) : ∃ pkt byte s' s'', s.finalizePkt endNs = .ok (pkt, s') ∧
      s'.finalizeByte endNs = .ok (byte, s'') ∧
      Encodes (lastUpdate (updatesOf QueueEvent.numPackets? events)) endNs 0 pkt ∧
      Encodes (lastUpdate (updatesOf QueueEvent.numBytes? events)) endNs 0 byte := by
  obtain ⟨pkt, hp, hpkt, hencodesPkt⟩ :=
    h.pkt.finalizeOrThrow (ascendingFrom_updatesOf hasc) hend (updatesOf_le hend hpast)
  obtain ⟨byte, hb, hbyte, hencodesByte⟩ :=
    h.byte.finalizeOrThrow (ascendingFrom_updatesOf hasc) hend (updatesOf_le hend hpast)
  refine ⟨pkt, byte, { s with pkt := hp }, ⟨hp, hb⟩, ?_, ?_, hencodesPkt, hencodesByte⟩
  · rw [QueueLogs.finalizePkt, hpkt, ok_bind]
  · rw [QueueLogs.finalizeByte, hbyte, ok_bind]

end Queue

/-! ## All links -/

/-- The lines of the two files. -/
def queueResultsOf (queues : List (LoggedQueue Queue)) : QueueResults where
  pktLines := queues.flatMap fun q => queueLines q.link q.pkt
  byteLines := queues.flatMap fun q => queueLines q.link q.byte

section Links

variable {events : Queue → List (Int × QueueEvent)} {endNs : Int} {tracked : List (Int64Pair × Queue)}
  {trackers : List (Int64Pair × QueueLogs)}

/-- The loop over the trackers. -/
theorem writeQueueTrackers_spec
    (h : List.Forall₂ (fun row p => p.1 = row.1 ∧ Tracked p.2 (events row.2)) tracked trackers) (hend : 0 ≤ endNs)
    (hevents : ∀ row ∈ tracked, AscendingFrom 0 (events row.2) ∧ ∀ e ∈ events row.2, e.1 ≤ endNs)
    (results : QueueResults) : ∃ queues : List (LoggedQueue Queue), queues.map LoggedQueue.row = tracked ∧
      (∀ q ∈ queues, q.Tells events endNs) ∧
      trackers.foldlM (writeQueueTracker QueueLogs.finalizePkt QueueLogs.finalizeByte endNs) results
        = .ok ⟨results.pktLines ++ (queueResultsOf queues).pktLines,
            results.byteLines ++ (queueResultsOf queues).byteLines⟩ := by
  induction h generalizing results with
  | nil =>
      refine ⟨[], rfl, (fun _ h => nomatch h), ?_⟩
      rw [queueResultsOf, List.flatMap_nil, List.flatMap_nil, List.append_nil, List.append_nil]
      rfl
  | @cons row p tracked trackers hrow _ ih =>
      obtain ⟨⟨hasc, hpast⟩, hevents⟩ := List.forall_mem_cons.mp hevents
      obtain ⟨hlink, htracked⟩ := hrow
      obtain ⟨pkt, byte, s', s'', hpkt, hbyte, hpktTells, hbyteTells⟩ := htracked.read hasc hend hpast
      have hwrite : writeQueueTracker QueueLogs.finalizePkt QueueLogs.finalizeByte endNs results p
          = .ok ⟨results.pktLines ++ queueLines row.1 pkt, results.byteLines ++ queueLines row.1 byte⟩ := by
        simp only [writeQueueTracker, hpkt, hbyte, hlink, ok_bind]
      obtain ⟨queues, hrows, htells, hloop⟩ := ih hevents
        ⟨results.pktLines ++ queueLines row.1 pkt, results.byteLines ++ queueLines row.1 byte⟩
      refine ⟨⟨row.1, row.2, pkt, byte⟩ :: queues, ?_, List.forall_mem_cons.mpr ⟨⟨hpktTells, hbyteTells⟩, htells⟩, ?_⟩
      · rw [List.map_cons, hrows, LoggedQueue.row]
      · rw [List.foldlM_cons, hwrite, ok_bind, hloop]
        simp only [queueResultsOf, List.flatMap_cons, List.append_assoc]

/-- The trackers of links after the callbacks. -/
theorem queueTrackersOf_spec
    (hevents : ∀ row ∈ tracked, AscendingFrom 0 (events row.2) ∧ ∀ e ∈ events row.2, e.1 ≤ endNs) :
    ∃ trackers, queueTrackersOf QueueTracker.run events tracked = .ok trackers ∧
      List.Forall₂ (fun row p => p.1 = row.1 ∧ Tracked p.2 (events row.2)) tracked trackers := by
  refine mapM_total fun row hrow => ?_
  obtain ⟨s, hrun, hs⟩ := queueTracker_run_spec (hevents row hrow).1
  exact ⟨(row.1, s), by rw [hrun, ok_bind], rfl, hs⟩

/-- **The files tell how full the queues were.** -/
theorem queueResults_tell (hsorted : tracked.Pairwise fun a b => a.1 < b.1) (hend : 0 ≤ endNs)
    (hevents : ∀ row ∈ tracked, AscendingFrom 0 (events row.2) ∧ ∀ e ∈ events row.2, e.1 ≤ endNs) :
    ∃ trackers queues, queueTrackersOf QueueTracker.run events tracked = .ok trackers ∧
      queues.map LoggedQueue.row = tracked ∧ (∀ q ∈ queues, q.Tells events endNs) ∧
      writeLinkNetDeviceQueueResults endNs trackers = .ok (queueResultsOf queues) := by
  obtain ⟨trackers, hrun, htrackers⟩ := queueTrackersOf_spec hevents
  obtain ⟨queues, hrows, htells, hwrite⟩ := writeQueueTrackers_spec htrackers hend hevents ⟨[], []⟩
  refine ⟨trackers, queues, hrun, hrows, htells, ?_⟩
  -- the trackers are in the order of their links
  have hlinks : tracked.map Prod.fst = trackers.map Prod.fst :=
    map_eq_map_of_forall₂ (fun _ _ h => h.1.symm) htrackers
  have hsorted' : trackers.Pairwise fun a b => a.1 < b.1 := by
    rw [← List.pairwise_map, ← hlinks]
    exact List.pairwise_map.mpr hsorted
  unfold writeLinkNetDeviceQueueResults
  rw [ascendingByDirectedLink_eq hsorted']
  exact hwrite

/-- The trackers of queueing disciplines do the same. -/
theorem qdiscQueueTrackers_eq {QueueDisc : Type} (events : Nat × QueueDisc → List (Int × QueueEvent))
    (tracked : List (Int64Pair × Nat × QueueDisc)) :
    qdiscQueueTrackers events tracked = queueTrackersOf QueueTracker.run events tracked := rfl

theorem writeLinkInterfaceTcQdiscQueueResults_eq :
    writeLinkInterfaceTcQdiscQueueResults = writeLinkNetDeviceQueueResults := rfl

end Links

end BasicSim
