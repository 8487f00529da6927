import BasicSim.Core.Correctness.LinkLookups
import BasicSim.Core.Correctness.Numerals
import BasicSim.Core.Correctness.QueueResults
import BasicSim.Core.Correctness.UtilizationResults
import BasicSim.Lib.Grouping
import BasicSim.Tools.Plotting

/-!
# `Tools.Correctness.LinkPlots` — the plots of a link show what happened on it

A tool selects the lines of a link from a file of all links, and checks that their intervals come one after the other.
What the simulation writes always passes this check.

## Contents
- **The loop.** `ConsecutiveFrom`, and `linkIntervals_eq_ok`: what it takes for a link to be plotted.
- **Queues.** `QueuePlotsTell`, and `queue_plots_tell` for both kinds of queues.
- **Utilization.** `utilization_plots_tell`.
-/

namespace BasicSim

open Fallible RunLength StepFunction Grouping

/-! ## The loop -/

/-- The intervals of the lines come one after the other, from a time on. -/
def ConsecutiveFrom : Int → List LinkRow → Prop
  | _, [] => True
  | startNs, row :: rows => row.startNs = startNs ∧ ConsecutiveFrom row.endNs rows

def LinkRow.link (row : LinkRow) : Int64Pair := ⟨row.fromNodeId, row.toNodeId⟩

/-- The lines of a link. -/
def ofLink (link : Int64Pair) (rows : List LinkRow) : List LinkRow := rows.filter fun row => row.link = link

section Loop

variable {what : String} {check : LinkRow → Except PlotError Unit} {fromNodeId toNodeId : Int} {rows : List LinkRow}

/-- What is kept of a line of the link. -/
def LinkPlot.extend (st : LinkPlot) (row : LinkRow) : LinkPlot := ⟨row.endNs, true, st.intervals ++ [row]⟩

/-- **The loop** goes over the lines of the link, which must be consecutive and pass the other check. -/
theorem addRows_eq_ok (rows : List LinkRow) (st st' : LinkPlot) :
    rows.foldlM (LinkPlot.addRow what check fromNodeId toNodeId) st = .ok st' ↔
      ConsecutiveFrom st.expectedNextStartNs (ofLink ⟨fromNodeId, toNodeId⟩ rows) ∧
      (∀ row ∈ ofLink ⟨fromNodeId, toNodeId⟩ rows, check row = .ok ()) ∧
      st' = (ofLink ⟨fromNodeId, toNodeId⟩ rows).foldl LinkPlot.extend st := by
  induction rows generalizing st with
  | nil =>
      refine ⟨fun h => ⟨trivial, fun _ h => (nomatch h), (Except.ok.inj h).symm⟩, ?_⟩
      rintro ⟨-, -, rfl⟩
      rfl
  | cons row rows ih =>
      rw [List.foldlM_cons]
      by_cases hlink : row.fromNodeId = fromNodeId ∧ row.toNodeId = toNodeId
      · have hsel : ofLink ⟨fromNodeId, toNodeId⟩ (row :: rows) = row :: ofLink ⟨fromNodeId, toNodeId⟩ rows := by
          simp [ofLink, LinkRow.link, hlink]
        rw [hsel, LinkPlot.addRow, if_pos hlink, List.forall_mem_cons, List.foldl_cons, ConsecutiveFrom, bind_assoc]
        by_cases hstart : row.startNs = st.expectedNextStartNs
        · rw [throwIf_of_not (not_not.mpr hstart), ok_bind]
          cases hcheck : check row with
          | error e => simp
          | ok u => simpa [hstart, LinkPlot.extend] using ih (st.extend row)
        · rw [throwIf_of hstart, error_bind]
          simp [hstart]
      · have hsel : ofLink ⟨fromNodeId, toNodeId⟩ (row :: rows) = ofLink ⟨fromNodeId, toNodeId⟩ rows := by
          rw [ofLink, ofLink, List.filter_cons_of_neg (by simpa [LinkRow.link] using hlink)]
        rw [hsel, LinkPlot.addRow, if_neg hlink, ok_bind]
        exact ih st

theorem foldl_extend (rows : List LinkRow) (st : LinkPlot) :
    (rows.foldl LinkPlot.extend st).intervals = st.intervals ++ rows ∧
      ((rows.foldl LinkPlot.extend st).matched = false ↔ st.matched = false ∧ rows = []) := by
  induction rows generalizing st with
  | nil => simp
  | cons row rows ih =>
      obtain ⟨hintervals, hmatched⟩ := ih (st.extend row)
      rw [List.foldl_cons, hintervals, hmatched]
      simp [LinkPlot.extend]

/-- **What it takes for a link to be plotted.** -/
theorem linkIntervals_eq_ok {intervals : List LinkRow} :
    linkIntervals what check fromNodeId toNodeId rows = .ok intervals ↔
      intervals = ofLink ⟨fromNodeId, toNodeId⟩ rows ∧ intervals ≠ [] ∧ ConsecutiveFrom 0 intervals ∧
        ∀ row ∈ intervals, check row = .ok () := by
  obtain ⟨hintervals, hmatched⟩ := foldl_extend (ofLink ⟨fromNodeId, toNodeId⟩ rows) ⟨0, false, []⟩
  unfold linkIntervals
  constructor
  · intro h
    obtain ⟨st, hloop, h⟩ := bind_eq_ok.mp h
    obtain ⟨hconsecutive, hcheck, rfl⟩ := (addRows_eq_ok rows _ _).mp hloop
    obtain ⟨hmatch, h⟩ := throwIf_bind_eq_ok.mp h
    obtain rfl : ofLink ⟨fromNodeId, toNodeId⟩ rows = intervals := hintervals.symm.trans (Except.ok.inj h)
    exact ⟨rfl, fun hnil => hmatch (hmatched.mpr ⟨rfl, hnil⟩), hconsecutive, hcheck⟩
  · rintro ⟨rfl, hne, hconsecutive, hcheck⟩
    rw [(addRows_eq_ok rows _ _).mpr ⟨hconsecutive, hcheck, rfl⟩, ok_bind,
      throwIf_of_not fun hfalse => hne (hmatched.mp hfalse).2, ok_bind, hintervals]
    rfl

/-- A link without lines. -/
theorem linkIntervals_of_nil (h : ofLink ⟨fromNodeId, toNodeId⟩ rows = []) :
    linkIntervals what check fromNodeId toNodeId rows = .error (.valueError
      ("No entries found link " ++ toString fromNodeId ++ " -> " ++ toString toNodeId)) := by
  have hloop : rows.foldlM (LinkPlot.addRow what check fromNodeId toNodeId) ⟨0, false, []⟩ = .ok ⟨0, false, []⟩ := by
    rw [addRows_eq_ok, h]
    exact ⟨trivial, fun _ hrow => (nomatch hrow), rfl⟩
  rw [linkIntervals, hloop, ok_bind, throwIf_of rfl, error_bind]

end Loop

/-! ## Queues -/

def QueueLine.row (line : QueueLine) : LinkRow :=
  ⟨line.fromNodeId, line.toNodeId, line.startNs, line.endNs, line.amount⟩

/-- Node identifiers that are not changed when they are written as `int`. -/
def Int64Pair.FitsInt (p : Int64Pair) : Prop := InInt32 p.first ∧ InInt32 p.second

/-- The lines of a link, one for each run of a log. -/
def linkRows (p : Int64Pair) (log : List (Run Int Int)) : List LinkRow :=
  log.map fun x => ⟨p.first, p.second, x.left, x.right, x.value⟩

section Queues

variable {Queue : Type} {queues : List (LoggedQueue Queue)} {log : LoggedQueue Queue → List (Run Int Int)}

theorem consecutiveFrom_linkRows {f : Int → Option Int} {a b : Int} {l : List (Run Int Int)} (p : Int64Pair)
    (h : Encodes f b a l) : ConsecutiveFrom a (linkRows p l) := by
  induction h with
  | nil => exact trivial
  | cons _ _ _ _ ih => exact ⟨rfl, ih⟩

theorem queueLines_row {p : Int64Pair} (hfits : p.FitsInt) (l : List (Run Int Int)) :
    (queueLines p l).map QueueLine.row = linkRows p l := by
  rw [queueLines, linkRows, List.map_map]
  refine List.map_congr_left fun x _ => ?_
  simp [QueueLine.row, toInt32_of_mem hfits.1, toInt32_of_mem hfits.2]

/-- The lines of all links as the tools read them. -/
theorem flatMap_queueLines_row (hfits : ∀ q ∈ queues, q.link.FitsInt) :
    (queues.flatMap fun q => queueLines q.link (log q)).map QueueLine.row
      = queues.flatMap fun q => linkRows q.link (log q) := by
  rw [List.map_flatMap]
  exact List.flatMap_congr fun q hq => queueLines_row (hfits q hq) _

theorem link_of_mem_linkRows {p : Int64Pair} {l : List (Run Int Int)} : ∀ row ∈ linkRows p l, row.link = p :=
  List.forall_mem_map.mpr fun _ _ => rfl

/-- The tools find the lines of a link. -/
theorem ofLink_linkRows (hnodup : (queues.map LoggedQueue.link).Nodup) {q : LoggedQueue Queue} (hq : q ∈ queues) :
    ofLink q.link (queues.flatMap fun q => linkRows q.link (log q)) = linkRows q.link (log q) :=
  filter_rows hnodup (fun _ _ => link_of_mem_linkRows) hq

theorem ofLink_linkRows_of_not_mem {link : Int64Pair} (h : link ∉ queues.map LoggedQueue.link) :
    ofLink link (queues.flatMap fun q => linkRows q.link (log q)) = [] :=
  filter_rows_of_not_mem (fun _ _ => link_of_mem_linkRows) h

/-- The error for a link that has no lines. -/
def noEntriesFound (link : Int64Pair) : PlotError :=
  .valueError ("No entries found link " ++ toString link.first ++ " -> " ++ toString link.second)

/-- **What the plots of queues show**: for a tracked link, the packets and the bytes that its queue reported, from the
    start to the end; and there is a plot for no other link. -/
structure QueuePlotsTell (plot : Int → Int → List LinkRow → List LinkRow → Except PlotError (List LinkRow × List LinkRow))
    (events : Queue → List (Int × QueueEvent)) (endNs : Int) (tracked : List (Int64Pair × Queue))
    (files : QueueResults) : Prop where
  shown : 0 < endNs → ∀ row ∈ tracked, ∃ pkt byte,
    Encodes (lastUpdate (updatesOf QueueEvent.numPackets? (events row.2))) endNs 0 pkt ∧
    Encodes (lastUpdate (updatesOf QueueEvent.numBytes? (events row.2))) endNs 0 byte ∧
    plot row.1.first row.1.second (files.pktLines.map QueueLine.row) (files.byteLines.map QueueLine.row)
      = .ok (linkRows row.1 pkt, linkRows row.1 byte)
  missing : ∀ link, (endNs = 0 ∨ link ∉ tracked.map Prod.fst) →
    plot link.first link.second (files.pktLines.map QueueLine.row) (files.byteLines.map QueueLine.row)
      = .error (noEntriesFound link)

variable {events : Queue → List (Int × QueueEvent)} {endNs : Int} {tracked : List (Int64Pair × Queue)}

/-- An encoding up to a later end is plotted. -/
theorem linkIntervals_linkRows {what : String} {rows : List LinkRow} {f : Int → Option Int} {link : Int64Pair}
    {l : List (Run Int Int)} (hrows : ofLink link rows = linkRows link l) (h : Encodes f endNs 0 l) (hend : 0 < endNs) :
    linkIntervals what (fun _ => .ok ()) link.first link.second rows = .ok (linkRows link l) := by
  refine linkIntervals_eq_ok.mpr ⟨hrows.symm, ?_, consecutiveFrom_linkRows link h, fun _ _ => rfl⟩
  intro hnil
  rw [linkRows, List.map_eq_nil_iff, h.eq_nil_iff] at hnil
  omega

/-- The files are plotted as they should. -/
theorem queuePlotsTell_of_tells (hrows : queues.map LoggedQueue.row = tracked)
    (hsorted : tracked.Pairwise fun a b => a.1 < b.1) (hfits : ∀ row ∈ tracked, row.1.FitsInt)
    (htells : ∀ q ∈ queues, q.Tells events endNs) :
    QueuePlotsTell plotLinkNetDeviceQueue events endNs tracked (queueResultsOf queues) := by
  subst hrows
  have hlinks : (queues.map LoggedQueue.row).map Prod.fst = queues.map LoggedQueue.link := by
    rw [List.map_map]
    rfl
  have hnodup : (queues.map LoggedQueue.link).Nodup := by
    rw [← hlinks]
    exact List.pairwise_map.mpr (hsorted.imp fun h => ne_of_lt h)
  have hfits' : ∀ q ∈ queues, q.link.FitsInt := fun q hq => hfits q.row (List.mem_map_of_mem hq)
  have hpkt : (queueResultsOf queues).pktLines.map QueueLine.row = queues.flatMap fun q => linkRows q.link q.pkt :=
    flatMap_queueLines_row hfits'
  have hbyte : (queueResultsOf queues).byteLines.map QueueLine.row = queues.flatMap fun q => linkRows q.link q.byte :=
    flatMap_queueLines_row hfits'
  constructor
  case shown =>
    intro hend
    refine List.forall_mem_map.mpr fun q hq => ⟨q.pkt, q.byte, (htells q hq).pkt, (htells q hq).byte, ?_⟩
    rw [hpkt, hbyte, plotLinkNetDeviceQueue]
    show (do
      let pkt ← linkIntervals "Queue packets intervals" _ q.link.first q.link.second _
      let byte ← linkIntervals "Queue byte intervals" _ q.link.first q.link.second _
      .ok (pkt, byte)) = _
    rw [linkIntervals_linkRows (ofLink_linkRows hnodup hq) (htells q hq).pkt hend, ok_bind,
      linkIntervals_linkRows (ofLink_linkRows hnodup hq) (htells q hq).byte hend, ok_bind]
    rfl
  case missing =>
    intro link hmissing
    rw [hpkt, plotLinkNetDeviceQueue, linkIntervals_of_nil, error_bind]
    · rfl
    · rcases hmissing with rfl | hmissing
      · -- at the start there is nothing to write
        have hnil : ∀ q ∈ queues, linkRows q.link q.pkt = [] := fun q hq => by
          rw [linkRows, List.map_eq_nil_iff, (htells q hq).pkt.eq_nil_iff]
        rw [List.flatMap_eq_nil_iff.mpr hnil]
        rfl
      · exact ofLink_linkRows_of_not_mem (hlinks ▸ hmissing)

end Queues

section Trackings

variable {s : Selectors} {ns3 : Ns3 s} {topology : TopologyPtop} {links : Links ns3} {sim : BasicSimulation}

theorem netDeviceQueueTracking_pairwise {tracked : List (Int64Pair × Nat)}
    (h : ptopLinkNetDeviceQueueTracking topology links sim = .ok tracked) : tracked.Pairwise fun a b => a.1 < b.1 := by
  obtain ⟨enabled, -, h⟩ := bind_eq_ok.mp h
  cases enabled with
  | false =>
      rw [if_pos rfl] at h
      cases h
      exact .nil
  | true =>
      obtain ⟨enabledSet, -, h⟩ := bind_eq_ok.mp h
      exact trackLinks_pairwise h

theorem tcQdiscQueueTracking_pairwise {tracked : List (Int64Pair × Nat × s.TrafficControlHelper)}
    (h : ptopLinkInterfaceTcQdiscQueueTracking topology links sim = .ok tracked) :
    tracked.Pairwise fun a b => a.1 < b.1 := by
  obtain ⟨enabled, -, h⟩ := bind_eq_ok.mp h
  cases enabled with
  | false =>
      rw [if_pos rfl] at h
      cases h
      exact .nil
  | true =>
      obtain ⟨enabledSet, -, h⟩ := bind_eq_ok.mp h
      exact trackLinks_pairwise h

/-- The tracked links are written as they are, and what their queues report comes in order until the end. -/
structure QueuesReport {Queue : Type} (events : Queue → List (Int × QueueEvent)) (endNs : Int)
    (tracked : List (Int64Pair × Queue)) : Prop where
  fits : ∀ row ∈ tracked, row.1.FitsInt
  ascending : ∀ row ∈ tracked, AscendingFrom 0 (events row.2)
  until_end : ∀ row ∈ tracked, ∀ e ∈ events row.2, e.1 ≤ endNs

/-- **The plots of queues show the queues**, for any links that are tracked and any callbacks of their queues: the files
    are written, and each tracked link has a plot of the packets and of the bytes that were in its queue. -/
theorem queue_plots_tell {endNs : Int} (hend : 0 ≤ endNs) :
    (∀ (events : Nat → List (Int × QueueEvent)) (tracked : List (Int64Pair × Nat)),
      ptopLinkNetDeviceQueueTracking topology links sim = .ok tracked → QueuesReport events endNs tracked →
      ∃ trackers files, queueTrackers events tracked = .ok trackers ∧
        writeLinkNetDeviceQueueResults endNs trackers = .ok files ∧
        QueuePlotsTell plotLinkNetDeviceQueue events endNs tracked files) ∧
    ∀ (events : Nat × s.TrafficControlHelper → List (Int × QueueEvent))
      (tracked : List (Int64Pair × Nat × s.TrafficControlHelper)),
      ptopLinkInterfaceTcQdiscQueueTracking topology links sim = .ok tracked → QueuesReport events endNs tracked →
      ∃ trackers files, qdiscQueueTrackers events tracked = .ok trackers ∧
        writeLinkInterfaceTcQdiscQueueResults endNs trackers = .ok files ∧
        QueuePlotsTell plotLinkInterfaceTcQdiscQueue events endNs tracked files := by
  have hall : ∀ {Queue : Type} (events : Queue → List (Int × QueueEvent)) (tracked : List (Int64Pair × Queue)),
      (tracked.Pairwise fun a b => a.1 < b.1) → QueuesReport events endNs tracked →
      ∃ trackers files, queueTrackersOf QueueTracker.run events tracked = .ok trackers ∧
        writeLinkNetDeviceQueueResults endNs trackers = .ok files ∧
        QueuePlotsTell plotLinkNetDeviceQueue events endNs tracked files := by
    intro Queue events tracked hsorted hreport
    obtain ⟨trackers, queues, htrackers, hrows, htells, hwrite⟩ := queueResults_tell hsorted hend
      fun row hrow => ⟨hreport.ascending row hrow, hreport.until_end row hrow⟩
    exact ⟨trackers, _, htrackers, hwrite, queuePlotsTell_of_tells hrows hsorted hreport.fits htells⟩
  constructor
  · exact fun events tracked htracked => hall events tracked (netDeviceQueueTracking_pairwise htracked)
  · intro events tracked htracked
    rw [qdiscQueueTrackers_eq, writeLinkInterfaceTcQdiscQueueResults_eq]
    exact hall events tracked (tcQdiscQueueTracking_pairwise htracked)

end Trackings

/-- A simulation that tracks the link from 0 to 1. -/
def trackingSim : BasicSimulation where
  runDir := "run".toList
  config := [("enable_link_net_device_queue_tracking", "true"),
    ("link_net_device_queue_tracking_enable_for_links", "set(0->1)"),
    ("enable_link_interface_tc_qdisc_queue_tracking", "true"),
    ("link_interface_tc_qdisc_queue_tracking_enable_for_links", "set(0->1)"),
    ("enable_link_net_device_utilization_tracking", "true"),
    ("link_net_device_utilization_tracking_interval_ns", "10"),
    ("link_net_device_utilization_tracking_enable_for_links", "set(0->1)")].foldl
    (fun (config : Config) entry => config.insert entry.1.toList entry.2.toList) ∅
  simulationEndTimeNs := 25
  enableDistributed := false
  distributedNodeSystemIdAssignment := []
  systemId := 0
  systemsCount := 1

/-- A packet of 1500 bytes is in the queue from 2 to 7. -/
def onePacket {Queue : Type} (_ : Queue) : List (Int × QueueEvent) :=
  [(2, .packetsInQueue 1), (2, .bytesInQueue 1500), (7, .packetsInQueue 0), (7, .bytesInQueue 0)]

theorem queuesReport_onePacket {Queue : Type} (queue : Queue) : QueuesReport onePacket 25 [(⟨0, 1⟩, queue)] where
  fits := by simp [Int64Pair.FitsInt, InInt32]
  ascending := fun _ _ => ⟨by simp [onePacket], by simp [onePacket]⟩
  until_end := by simp [onePacket]

theorem queue_plots_tell_pairTopology :
    ∃ links, setupLinks pairTopology pairLinkProperties (setupNodes textNs3 2) = .ok links ∧
      ptopLinkNetDeviceQueueTracking pairTopology links trackingSim = .ok [(⟨0, 1⟩, 0)] ∧
      ptopLinkInterfaceTcQdiscQueueTracking pairTopology links trackingSim = .ok [(⟨0, 1⟩, 0, "fq".toList)] ∧
      (∃ trackers files, queueTrackers onePacket [(⟨0, 1⟩, 0)] = .ok trackers ∧
        writeLinkNetDeviceQueueResults 25 trackers = .ok files ∧
        QueuePlotsTell plotLinkNetDeviceQueue onePacket 25 [(⟨0, 1⟩, 0)] files) ∧
      ∃ trackers files, qdiscQueueTrackers onePacket [(⟨0, 1⟩, 0, "fq".toList)] = .ok trackers ∧
        writeLinkInterfaceTcQdiscQueueResults 25 trackers = .ok files ∧
        QueuePlotsTell plotLinkInterfaceTcQdiscQueue onePacket 25 [(⟨0, 1⟩, 0, "fq".toList)] files := by
  obtain ⟨links, hlinks, hdevices, hdiscs⟩ : ∃ links,
      setupLinks pairTopology pairLinkProperties (setupNodes textNs3 2) = .ok links ∧
      ptopLinkNetDeviceQueueTracking pairTopology links trackingSim = .ok [(⟨0, 1⟩, 0)] ∧
      ptopLinkInterfaceTcQdiscQueueTracking pairTopology links trackingSim = .ok [(⟨0, 1⟩, 0, "fq".toList)] :=
    ⟨_, rfl, by decide +kernel, by decide +kernel⟩
  have htell := @queue_plots_tell _ _ pairTopology links trackingSim 25 (by decide)
  exact ⟨links, hlinks, hdevices, hdiscs, htell.1 onePacket _ hdevices (queuesReport_onePacket 0),
    htell.2 onePacket _ hdiscs (queuesReport_onePacket _)⟩

/-! ## Utilization -/

def UtilizationLine.row (line : UtilizationLine) : LinkRow :=
  ⟨line.fromNodeId, line.toNodeId, line.startNs, line.endNs, line.busyNs⟩

/-- The lines of a link, one for each interval. -/
def utilizationRows (p : Int64Pair) (intervals : List UtilizationInterval) : List LinkRow :=
  intervals.map fun x => ⟨p.first, p.second, x.startNs, x.endNs, x.busyNs⟩

section Consecutive

variable {startNs endNs : Int} {rows : List LinkRow}

theorem consecutiveFrom_of_isChain (hhead : ∀ row ∈ rows.head?, row.startNs = startNs)
    (hchain : rows.IsChain fun x y => x.endNs = y.startNs) : ConsecutiveFrom startNs rows := by
  induction rows generalizing startNs with
  | nil => exact trivial
  | cons row rows ih =>
      refine ⟨hhead row rfl, ih (fun next hnext => ?_) hchain.tail⟩
      exact (hchain.rel_head? hnext).symm

/-- Times that are measured in consecutive intervals add up. -/
theorem sum_onTime (on : Int → Bool) (h : ConsecutiveFrom startNs rows) (hle : ∀ row ∈ rows, row.startNs ≤ row.endNs)
    (hon : ∀ row ∈ rows, row.amount = onTime on row.startNs row.endNs)
    (hlast : ∀ row ∈ rows.getLast?, row.endNs = endNs) (hne : rows ≠ []) :
    startNs ≤ endNs ∧ (rows.map LinkRow.amount).sum = onTime on startNs endNs := by
  induction rows generalizing startNs with
  | nil => exact absurd rfl hne
  | cons row rows ih =>
      obtain ⟨rfl, h⟩ := h
      obtain ⟨hle₁, hle⟩ := List.forall_mem_cons.mp hle
      obtain ⟨hon₁, hon⟩ := List.forall_mem_cons.mp hon
      rw [List.map_cons, List.sum_cons, hon₁]
      by_cases hnil : rows = []
      · subst hnil
        obtain rfl := hlast row rfl
        exact ⟨hle₁, by simp⟩
      · have hlast' : ∀ row ∈ rows.getLast?, row.endNs = endNs := by
          intro last hmem
          refine hlast last ?_
          rwa [List.getLast?_cons_of_ne_nil hnil]
        obtain ⟨hle', hsum⟩ := ih h hle hon hlast' hnil
        exact ⟨hle₁.trans hle', by rw [hsum, onTime_add on hle₁ hle']⟩

/-- Contiguous intervals that are not empty cover some time. -/
theorem start_lt_end_of_isChain {block : List UtilizationInterval} {x y : UtilizationInterval}
    (hchain : block.IsChain fun x y => x.endNs = y.startNs) (hlt : ∀ x ∈ block, x.startNs < x.endNs)
    (hx : block.head? = some x) (hy : block.getLast? = some y) : x.startNs < y.endNs := by
  induction block generalizing x with
  | nil => exact nomatch hx
  | cons z block ih =>
      obtain rfl := Option.some.inj hx
      obtain ⟨hlt₁, hlt⟩ := List.forall_mem_cons.mp hlt
      cases hblock : block.head? with
      | none =>
          rw [List.head?_eq_none_iff.mp hblock] at hy
          obtain rfl := Option.some.inj hy
          exact hlt₁
      | some w =>
          have hne : block ≠ [] := by
            rintro rfl
            exact nomatch hblock
          rw [List.getLast?_cons_of_ne_nil hne] at hy
          have hrest := ih hchain.tail hlt hblock hy
          have htouch := hchain.rel_head? hblock
          omega

end Consecutive

section Utilization

open NetDeviceUtilizationTracker

variable {intervals : List UtilizationInterval} {on : Int → Bool} {intervalNs endNs : Int} {differs : DifferenceTest}
  {link : Int64Pair} {written : LinkUtilization}

theorem utilizationLine_row (hfits : link.FitsInt) (startNs endNs busyNs : Int) :
    (utilizationLine link startNs endNs busyNs).row = ⟨link.first, link.second, startNs, endNs, busyNs⟩ := by
  simp [utilizationLine, UtilizationLine.row, toInt32_of_mem hfits.1, toInt32_of_mem hfits.2]

theorem NetDeviceUtilizationTracker.IsUtilization.start_lt_end (h : IsUtilization on intervalNs endNs intervals)
    (hI : 1 ≤ intervalNs) : ∀ x ∈ intervals, x.startNs < x.endNs := by
  intro x hx
  obtain ⟨k, hk⟩ := List.mem_iff_getElem?.mp hx
  obtain ⟨hstart, hend⟩ := h.interval k x hk
  -- an interval that is there starts before the end
  have hlt : (k : ℚ) < (endNs : ℚ) / intervalNs := by
    have hlength := List.getElem?_eq_some_iff.mp hk |>.1
    have hceil := h.length
    refine lt_of_not_ge fun hge => ?_
    have := Int.ceil_le.mpr (by exact_mod_cast hge : (endNs : ℚ) / intervalNs ≤ ((k : Int) : ℚ))
    omega
  rw [lt_div_iff₀ (by exact_mod_cast (by omega : 0 < intervalNs))] at hlt
  have hlt' : k * intervalNs < endNs := by exact_mod_cast hlt
  rw [hstart, hend, lt_min_iff]
  constructor
  · nlinarith
  · exact hlt'

theorem NetDeviceUtilizationTracker.IsUtilization.last_end (h : IsUtilization on intervalNs endNs intervals)
    (hI : 1 ≤ intervalNs) : ∀ x ∈ intervals.getLast?, x.endNs = endNs := by
  intro x hx
  rw [List.getLast?_eq_getElem?] at hx
  obtain ⟨-, hend⟩ := h.interval _ x hx
  have hpos := List.getElem?_eq_some_iff.mp hx |>.1
  have hceil : (endNs : ℚ) / intervalNs ≤ (intervals.length : Int) := by
    rw [h.length]
    exact Int.le_ceil _
  rw [div_le_iff₀ (by exact_mod_cast (by omega : 0 < intervalNs))] at hceil
  have hle : endNs ≤ intervals.length * intervalNs := by exact_mod_cast hceil
  rw [hend, Nat.cast_sub (by omega), Nat.cast_one, sub_add_cancel, min_eq_right hle]

theorem NetDeviceUtilizationTracker.IsUtilization.ne_nil (h : IsUtilization on intervalNs endNs intervals)
    (hend : 0 < endNs) : intervals ≠ [] := by
  obtain ⟨x, hx, -⟩ := (h.covers 0).mp ⟨le_rfl, hend⟩
  exact List.ne_nil_of_mem hx

/-- The lines of a link are consecutive. -/
theorem consecutiveFrom_utilizationRows (h : IsUtilizationLog intervals) (link : Int64Pair) :
    ConsecutiveFrom 0 (utilizationRows link intervals) := by
  refine consecutiveFrom_of_isChain (fun row hrow => ?_) ?_
  · rw [utilizationRows, List.head?_map] at hrow
    obtain ⟨x, hx, rfl⟩ := Option.map_eq_some_iff.mp hrow
    exact h.head x hx
  · exact List.isChain_map _ |>.mpr h.contiguous

theorem IsCompression.lines_row (h : IsCompression differs link intervals written) (hfits : link.FitsInt) :
    written.lines.map UtilizationLine.row = utilizationRows link intervals := by
  rw [h.lines, List.map_map]
  exact List.map_congr_left fun x _ => utilizationLine_row hfits _ _ _

/-- The compressed lines of a link are consecutive, and none of them is empty. -/
theorem IsCompression.compressedLines_row (h : IsCompression differs link intervals written)
    (hlog : IsUtilizationLog intervals) (hlt : ∀ x ∈ intervals, x.startNs < x.endNs) :
    ConsecutiveFrom 0 (written.compressedLines.map UtilizationLine.row) ∧
      ∀ line ∈ written.compressedLines, line.startNs < line.endNs := by
  constructor
  · refine consecutiveFrom_of_isChain (fun row hrow => ?_) ?_
    · obtain ⟨first, hfirst, hzero⟩ := h.first
      rw [List.head?_map, hfirst] at hrow
      obtain rfl := Option.some.inj hrow
      exact hzero
    · exact List.isChain_map _ |>.mpr h.contiguous
  · intro line hline
    obtain ⟨blocks, hcut, hlines⟩ := h.blocks
    obtain ⟨block, hblock, hof⟩ := exists_left_of_forall₂ hlines hline
    obtain ⟨x, hx, hstart⟩ := hof.start
    obtain ⟨y, hy, hend⟩ := hof.end_
    -- a block is a part of the intervals
    have hpart : block <:+: intervals := hcut.flatten ▸ List.infix_of_mem_flatten hblock
    have hchain : block.IsChain fun x y => x.endNs = y.startNs := by
      obtain ⟨before, after, heq⟩ := hpart
      have hcontiguous := hlog.contiguous
      rw [← heq] at hcontiguous
      exact hcontiguous.left_of_append.right_of_append
    rw [hstart, hend]
    exact start_lt_end_of_isChain hchain (fun x hx => hlt x (hpart.subset hx)) hx hy

/-- The busy time of a link, in both of its files. -/
theorem IsCompression.busySum (h : IsCompression differs link intervals written)
    (hlog : IsUtilizationLog intervals) (hutil : IsUtilization on intervalNs endNs intervals) (hfits : link.FitsInt)
    (hI : 1 ≤ intervalNs) (hend : 0 < endNs) :
    (written.compressedLines.map UtilizationLine.busyNs).sum = onTime on 0 endNs := by
  have hlast : ∀ row ∈ (utilizationRows link intervals).getLast?, row.endNs = endNs := by
    intro row hrow
    rw [utilizationRows, List.getLast?_map] at hrow
    obtain ⟨x, hx, rfl⟩ := Option.map_eq_some_iff.mp hrow
    exact hutil.last_end hI x hx
  obtain ⟨-, hsum⟩ := sum_onTime on (consecutiveFrom_utilizationRows hlog link)
    (List.forall_mem_map.mpr fun x hx => le_of_lt (hutil.start_lt_end hI x hx))
    (List.forall_mem_map.mpr hutil.busy) hlast
    (by rw [utilizationRows, ne_eq, List.map_eq_nil_iff]; exact hutil.ne_nil hend)
  rw [h.busy_compressed, ← h.busy_lines, ← hsum, ← h.lines_row hfits, List.map_map]
  rfl

end Utilization

section UtilizationTracking

open NetDeviceUtilizationTracker

variable {s : Selectors} {ns3 : Ns3 s} {topology : TopologyPtop} {links : Links ns3} {sim : BasicSimulation}
  {intervalNs endNs : Int} {events : Nat → List (Int × Bool)}
  {tracked : List (Int64Pair × Nat × NetDeviceUtilizationTracker)} {written : List LinkUtilization}

/-- The trackers are new, and in the order of their links. -/
theorem utilizationTracking_spec (hinterval : (getParamOrFail
      "link_net_device_utilization_tracking_interval_ns".toList sim.config >>= parseGeqOneInt64) = .ok intervalNs)
    (h : ptopLinkNetDeviceUtilizationTracking topology links sim = .ok tracked) :
    (tracked.Pairwise fun a b => a.1 < b.1) ∧ ∀ row ∈ tracked, row.2.2 = create intervalNs := by
  obtain ⟨enabled, -, h⟩ := bind_eq_ok.mp h
  cases enabled with
  | false =>
      rw [if_pos rfl] at h
      cases h
      exact ⟨.nil, fun _ h => (nomatch h)⟩
  | true =>
      rw [if_neg (by decide), ← bind_assoc, hinterval, ok_bind] at h
      obtain ⟨enabledSet, -, h⟩ := bind_eq_ok.mp h
      refine ⟨trackLinks_pairwise h, foldlM_inv (fun _ trackers => ∀ row ∈ trackers, row.2.2 = create intervalNs)
        ?_ (fun _ h => absurd h List.not_mem_nil) h⟩
      intro _ p before after hbefore hstep
      obtain ⟨responsible, -, hstep⟩ := bind_eq_ok.mp hstep
      split at hstep
      · obtain ⟨tracker, htracker, hstep⟩ := bind_eq_ok.mp hstep
        obtain ⟨netDevice, -, htracker⟩ := bind_eq_ok.mp htracker
        cases htracker
        cases hstep
        exact List.forall_mem_append.mpr ⟨hbefore, List.forall_mem_singleton.mpr rfl⟩
      · cases hstep
        exact hbefore

/-- The devices begin and end to transmit in turns, until the end, and the last interval ends within 64 bits. -/
structure DevicesReport (events : Nat → List (Int × Bool)) (intervalNs endNs : Int)
    (tracked : List (Int64Pair × Nat × NetDeviceUtilizationTracker)) : Prop where
  fits : ∀ row ∈ tracked, row.1.FitsInt
  ascending : ∀ row ∈ tracked, AscendingFrom 0 (events row.2.1)
  alternating : ∀ row ∈ tracked, IsAlternating (events row.2.1)
  until_end : ∀ row ∈ tracked, ∀ e ∈ events row.2.1, e.1 ≤ endNs
  interval_fits : InInt64 ((endNs / intervalNs + 1) * intervalNs)

/-- The trackers of links after the callbacks. -/
theorem utilizationTrackers_spec (hI : 1 ≤ intervalNs) (hI64 : intervalNs < 2 ^ 63) (hend : 0 ≤ endNs)
    (hnew : ∀ row ∈ tracked, row.2.2 = create intervalNs) (h : DevicesReport events intervalNs endNs tracked) :
    ∃ trackers, utilizationTrackers events tracked = .ok trackers ∧
      List.Forall₂ (fun row p => p.1 = row.1 ∧ ∃ intervals, p.2.finalizeUtilization endNs = .ok intervals ∧
        IsUtilization (isOn (events row.2.1)) intervalNs endNs intervals) tracked trackers := by
  have hfit := (inInt64_endOfInterval_iff hI hend).mp h.interval_fits
  refine mapM_total fun row hrow => ?_
  have hasc := h.ascending row hrow
  have hlast := h.until_end row hrow
  rcases callbacks_spec hI hI64 hasc (explains_isOn hasc (h.alternating row hrow)) hlast with
    ⟨s, hs, htracks, hprev, hstate⟩ | ⟨-, -, hover, -⟩
  · have hspec := finalizeUtilization_spec htracks hI (hprev ▸ lastTime_le hend hlast) fun τ hτ _ => by
      have hon : isOn (events row.2.1 ++ []) τ = lastState (events row.2.1) :=
        isOn_of_between (hprev ▸ hτ) fun _ hw => absurd hw List.not_mem_nil
      rw [hstate, ← hon, List.append_nil]
    rw [if_pos hfit] at hspec
    exact ⟨(row.1, s), by rw [hnew row hrow, hs, ok_bind], rfl, hspec⟩
  · omega

/-- What is written for a link. -/
def WrittenFor (events : Nat → List (Int × Bool)) (intervalNs endNs : Int) (differs : Int64Pair → DifferenceTest)
    (row : Int64Pair × Nat × NetDeviceUtilizationTracker) (w : LinkUtilization) : Prop :=
  ∃ intervals, IsUtilization (isOn (events row.2.1)) intervalNs endNs intervals ∧
    IsCompression (differs row.1) row.1 intervals w

/-- The files are written link by link. -/
theorem writeUtilizationResults_spec (differs : Int64Pair → DifferenceTest) (hI : 1 ≤ intervalNs)
    (hI64 : intervalNs < 2 ^ 63) (hend : 0 < endNs) (hend64 : endNs < 2 ^ 63)
    (hsorted : tracked.Pairwise fun a b => a.1 < b.1) (hnew : ∀ row ∈ tracked, row.2.2 = create intervalNs)
    (h : DevicesReport events intervalNs endNs tracked) :
    ∃ trackers written, utilizationTrackers events tracked = .ok trackers ∧
      writeUtilizationResults differs endNs trackers = .ok written ∧
      List.Forall₂ (WrittenFor events intervalNs endNs differs) tracked written := by
  obtain ⟨trackers, hrun, htrackers⟩ := utilizationTrackers_spec hI hI64 (le_of_lt hend) hnew h
  have hlinks : tracked.map Prod.fst = trackers.map Prod.fst :=
    map_eq_map_of_forall₂ (fun _ _ h => h.1.symm) htrackers
  have hsort : sortTrackers trackers = trackers := by
    refine ascendingByDirectedLink_eq ?_
    rw [← List.pairwise_map, ← hlinks]
    exact List.pairwise_map.mpr hsorted
  -- each tracker has a log that can be written
  obtain ⟨written, hwrite, hwritten⟩ := writeUtilizationResults_compressed differs endNs fun p hp => by
    obtain ⟨row, -, -, intervals, hfinalize, hutil⟩ := exists_left_of_forall₂ htrackers hp
    exact ⟨intervals, hfinalize, hutil.ne_nil hend, hutil.isUtilizationLog hend64⟩
  rw [hsort] at hwritten
  refine ⟨trackers, written, hrun, hwrite, forall₂_trans ?_ htrackers hwritten⟩
  rintro row p w ⟨hlink, intervals, hfinalize, hutil⟩ ⟨intervals', hfinalize', hcompression⟩
  rw [hfinalize, Except.ok.injEq] at hfinalize'
  subst hfinalize'
  exact ⟨intervals, hutil, hlink ▸ hcompression⟩

/-- **What the plots of utilization show**: for a tracked link, its busy time in each interval from the start to the
    end. The compressed lines could be plotted as well, with the same busy time in all. There is a plot for no other
    link. -/
structure UtilizationPlotsTell (events : Nat → List (Int × Bool)) (intervalNs endNs : Int)
    (tracked : List (Int64Pair × Nat × NetDeviceUtilizationTracker)) (written : List LinkUtilization) : Prop where
  shown : ∀ row ∈ tracked, ∃ intervals, IsUtilization (isOn (events row.2.1)) intervalNs endNs intervals ∧
    plotLinkNetDeviceUtilization row.1.first row.1.second
      ((written.flatMap LinkUtilization.lines).map UtilizationLine.row) = .ok (utilizationRows row.1 intervals)
  compressed : ∀ row ∈ tracked, ∃ rows, plotLinkNetDeviceUtilization row.1.first row.1.second
      ((written.flatMap LinkUtilization.compressedLines).map UtilizationLine.row) = .ok rows ∧
    (rows.map LinkRow.amount).sum = onTime (isOn (events row.2.1)) 0 endNs
  missing : ∀ link, link ∉ tracked.map Prod.fst → plotLinkNetDeviceUtilization link.first link.second
    ((written.flatMap LinkUtilization.lines).map UtilizationLine.row) = .error (noEntriesFound link)

/-- A link is plotted from the lines of all links. -/
theorem plotLinkNetDeviceUtilization_of {rows linkRows : List LinkRow} {link : Int64Pair}
    (hrows : ofLink link rows = linkRows) (hne : linkRows ≠ []) (hconsecutive : ConsecutiveFrom 0 linkRows)
    (hlt : ∀ row ∈ linkRows, row.startNs < row.endNs) :
    plotLinkNetDeviceUtilization link.first link.second rows = .ok linkRows := by
  refine linkIntervals_eq_ok.mpr ⟨hrows.symm, hne, hconsecutive, fun row hrow => ?_⟩
  have := hlt row hrow
  exact throwIf_of_not (by omega)

/-- All lines of a link say so. -/
theorem WrittenFor.link {differs : Int64Pair → DifferenceTest} {row : Int64Pair × Nat × NetDeviceUtilizationTracker}
    {w : LinkUtilization} (hfits : row.1.FitsInt) (h : WrittenFor events intervalNs endNs differs row w) :
    (∀ line ∈ w.lines, line.row.link = row.1) ∧ ∀ line ∈ w.compressedLines, line.row.link = row.1 := by
  obtain ⟨intervals, -, hcompression⟩ := h
  constructor
  · intro line hline
    rw [hcompression.lines] at hline
    obtain ⟨x, -, rfl⟩ := List.mem_map.mp hline
    rw [utilizationLine_row hfits]
    rfl
  · intro line hline
    obtain ⟨blocks, -, hlines⟩ := hcompression.blocks
    obtain ⟨block, -, hof⟩ := exists_left_of_forall₂ hlines hline
    rw [UtilizationLine.row, LinkRow.link, hof.fromNodeId, hof.toNodeId, toInt32_of_mem hfits.1, toInt32_of_mem hfits.2]

/-- The files are plotted as they should. -/
theorem utilizationPlotsTell_of_written {differs : Int64Pair → DifferenceTest} (hI : 1 ≤ intervalNs) (hend : 0 < endNs)
    (hend64 : endNs < 2 ^ 63) (hsorted : tracked.Pairwise fun a b => a.1 < b.1) (hfits : ∀ row ∈ tracked, row.1.FitsInt)
    (hwritten : List.Forall₂ (WrittenFor events intervalNs endNs differs) tracked written) :
    UtilizationPlotsTell events intervalNs endNs tracked written := by
  have hnodup : (tracked.map Prod.fst).Nodup := List.pairwise_map.mpr (hsorted.imp fun h => ne_of_lt h)
  -- what is written, with the link that it is for
  have hrelated : List.Forall₂ (fun row w => row ∈ tracked ∧ WrittenFor events intervalNs endNs differs row w)
      tracked written := (List.forall₂_and_left _ _).mpr ⟨fun _ hrow => hrow, hwritten⟩
  have hlines : ∀ row w, row ∈ tracked ∧ WrittenFor events intervalNs endNs differs row w →
      ∀ r ∈ w.lines.map UtilizationLine.row, r.link = row.1 := fun row w ⟨hrow, hw⟩ =>
    List.forall_mem_map.mpr (hw.link (hfits row hrow)).1
  have hcompressedLines : ∀ row w, row ∈ tracked ∧ WrittenFor events intervalNs endNs differs row w →
      ∀ r ∈ w.compressedLines.map UtilizationLine.row, r.link = row.1 := fun row w ⟨hrow, hw⟩ =>
    List.forall_mem_map.mpr (hw.link (hfits row hrow)).2
  constructor
  case shown =>
    intro row hrow
    obtain ⟨w, ⟨-, intervals, hutil, hcompression⟩, hrows⟩ := exists_filter_related hrelated hnodup hlines hrow
    have hlog := hutil.isUtilizationLog hend64
    refine ⟨intervals, hutil, plotLinkNetDeviceUtilization_of ?_ ?_ (consecutiveFrom_utilizationRows hlog row.1) ?_⟩
    · rw [List.map_flatMap, ← hcompression.lines_row (hfits row hrow)]
      exact hrows
    · rw [utilizationRows, ne_eq, List.map_eq_nil_iff]
      exact hutil.ne_nil hend
    · exact List.forall_mem_map.mpr (hutil.start_lt_end hI)
  case compressed =>
    intro row hrow
    obtain ⟨w, ⟨-, intervals, hutil, hcompression⟩, hrows⟩ :=
      exists_filter_related hrelated hnodup hcompressedLines hrow
    have hlog := hutil.isUtilizationLog hend64
    obtain ⟨hconsecutive, hlt⟩ := hcompression.compressedLines_row hlog (hutil.start_lt_end hI)
    refine ⟨w.compressedLines.map UtilizationLine.row, plotLinkNetDeviceUtilization_of ?_ ?_ hconsecutive ?_, ?_⟩
    · rw [List.map_flatMap]
      exact hrows
    · obtain ⟨line, hline, -⟩ := hcompression.first
      rw [ne_eq, List.map_eq_nil_iff]
      rintro hnil
      rw [hnil] at hline
      cases hline
    · exact List.forall_mem_map.mpr hlt
    · rw [List.map_map]
      exact hcompression.busySum hlog hutil (hfits row hrow) hI hend
  case missing =>
    intro link hlink
    refine linkIntervals_of_nil ?_
    rw [List.map_flatMap]
    exact filter_related_of_not_mem hrelated hlines hlink

/-- **The plots of utilization show the utilization**, for any links that are tracked and any callbacks of their
    devices. -/
theorem utilization_plots_tell (differs : Int64Pair → DifferenceTest) (hend : 0 < endNs) (hend64 : endNs < 2 ^ 63)
    (hinterval : (getParamOrFail "link_net_device_utilization_tracking_interval_ns".toList sim.config
      >>= parseGeqOneInt64) = .ok intervalNs)
    (htracked : ptopLinkNetDeviceUtilizationTracking topology links sim = .ok tracked)
    (h : DevicesReport events intervalNs endNs tracked) :
    ∃ trackers written, utilizationTrackers events tracked = .ok trackers ∧
      writeUtilizationResults differs endNs trackers = .ok written ∧
      UtilizationPlotsTell events intervalNs endNs tracked written := by
  obtain ⟨value, -, hparse⟩ := bind_eq_ok.mp hinterval
  obtain ⟨⟨-, -, hI64⟩, hI⟩ := parseGeqOneInt64_eq_ok.mp hparse
  obtain ⟨hsorted, hnew⟩ := utilizationTracking_spec hinterval htracked
  obtain ⟨trackers, written, hrun, hwrite, hwritten⟩ :=
    writeUtilizationResults_spec differs hI hI64 hend hend64 hsorted hnew h
  exact ⟨trackers, written, hrun, hwrite, utilizationPlotsTell_of_written hI hend hend64 hsorted h.fits hwritten⟩

end UtilizationTracking

/-- Two transmissions, the second one until after the end. -/
def twoTransmissions (_ : Nat) : List (Int × Bool) := [(3, true), (10, false), (10, true)]

theorem devicesReport_twoTransmissions :
    DevicesReport twoTransmissions 10 25 [(⟨0, 1⟩, 0, NetDeviceUtilizationTracker.create 10)] where
  fits := by simp [Int64Pair.FitsInt, InInt32]
  ascending := fun _ _ => ⟨by simp [twoTransmissions], by simp [twoTransmissions]⟩
  alternating := by
    intro _ _ k e hk
    match k, hk with
    | 0, hk | 1, hk | 2, hk => cases hk; rfl
    | k + 3, hk => exact nomatch hk
  until_end := by simp [twoTransmissions]
  interval_fits := by decide

/-- The intervals differ in their busy time. -/
def busyTimesDiffer (_ : Int64Pair) : DifferenceTest := fun _ x y => decide (x.busyNs ≠ y.busyNs)

theorem utilization_plots_tell_pairTopology :
    ∃ links, setupLinks pairTopology pairLinkProperties (setupNodes textNs3 2) = .ok links ∧
      ∃ tracked trackers written, ptopLinkNetDeviceUtilizationTracking pairTopology links trackingSim = .ok tracked ∧
        utilizationTrackers twoTransmissions tracked = .ok trackers ∧
        writeUtilizationResults busyTimesDiffer 25 trackers = .ok written ∧
        UtilizationPlotsTell twoTransmissions 10 25 tracked written := by
  obtain ⟨links, hlinks, htracked⟩ : ∃ links,
      setupLinks pairTopology pairLinkProperties (setupNodes textNs3 2) = .ok links ∧
      ptopLinkNetDeviceUtilizationTracking pairTopology links trackingSim
        = .ok [(⟨0, 1⟩, 0, NetDeviceUtilizationTracker.create 10)] := ⟨_, rfl, by decide +kernel⟩
  have hinterval : (getParamOrFail "link_net_device_utilization_tracking_interval_ns".toList trackingSim.config
      >>= parseGeqOneInt64) = .ok 10 := by decide +kernel
  obtain ⟨trackers, written, hrun, hwrite, htell⟩ := utilization_plots_tell busyTimesDiffer (by decide) (by decide)
    hinterval htracked devicesReport_twoTransmissions
  exact ⟨links, hlinks, _, trackers, written, htracked, hrun, hwrite, htell⟩

end BasicSim
