import BasicSim.Apps.Correctness.SharedSchedules
import BasicSim.Tools.Correctness.DistributedTest
import BasicSim.Tools.Correctness.LinkPlots

/-!
# `Tools.Correctness.ResultFiles` — the files of a run are written item by item

## Contents
- **Lines.** `WrittenByItems`.
- **Schedulers.** Their files have lines for the entries of the schedules.
- **Trackings.** Their files have lines for the tracked links.
-/

namespace BasicSim

open Fallible Grouping Sharing RunLength

/-! ## Lines -/

section Lines

variable {ι ν Line : Type} {format : LineFormat Line} {nameOf : LineKey → ν} {name : ι → ν} {items : List ι}

/-- The lines of a file are written item by item; the first columns of a line say for which item it is. -/
def WrittenByItems (format : LineFormat Line) (nameOf : LineKey → ν) (name : ι → ν) (items : List ι)
    (lines : List Line) : Prop :=
  ∃ rows, lines = items.flatMap rows ∧ Grouped format.key nameOf name items rows

theorem writtenByItems_of_groups {groups : List (List Line)} (hnodup : items.Nodup)
    (h : List.Forall₂ (fun i group => (∀ line ∈ group, nameOf (format.key line) = name i) ∧
      group.Pairwise fun a b => format.key a < format.key b) items groups) :
    WrittenByItems format nameOf name items groups.flatten := by
  obtain ⟨rows, rfl, hrows⟩ := exists_grouped hnodup h
  exact ⟨rows, rfl, hrows⟩

end Lines

/-! ## Schedulers -/

section Schedulers

variable {Fields : Type}

variable {rates : UdpBurstResult → UdpBurstRates}

end Schedulers

/-! ## Trackings -/

section Trackings

/-- The first two columns. -/
def linkColumns (key : LineKey) : Int64Pair := ⟨(ofLex key).1, (ofLex (ofLex key).2).1⟩

/-- Consecutive intervals that are not empty start one after the other. -/
theorem pairwise_of_consecutiveFrom {startNs : Int} {rows : List LinkRow} (h : ConsecutiveFrom startNs rows)
    (hlt : ∀ row ∈ rows, row.startNs < row.endNs) :
    (∀ row ∈ rows, startNs ≤ row.startNs) ∧ rows.Pairwise fun a b => a.startNs < b.startNs := by
  induction rows generalizing startNs with
  | nil => exact ⟨List.forall_mem_nil _, .nil⟩
  | cons row rows ih =>
      obtain ⟨rfl, h⟩ := h
      obtain ⟨hlt₁, hlt⟩ := List.forall_mem_cons.mp hlt
      obtain ⟨hlater, hpairwise⟩ := ih h hlt
      refine ⟨List.forall_mem_cons.mpr ⟨le_rfl, fun later hmem => ?_⟩, .cons (fun later hmem => ?_) hpairwise⟩
      · exact (le_of_lt hlt₁).trans (hlater later hmem)
      · exact lt_of_lt_of_le hlt₁ (hlater later hmem)

/-- The lines of a link: consecutive intervals that are not empty. -/
structure LinesOf (link : Int64Pair) (rows : List LinkRow) : Prop where
  link : ∀ row ∈ rows, row.link = link
  consecutive : ConsecutiveFrom 0 rows
  start_lt_end : ∀ row ∈ rows, row.startNs < row.endNs

/-- Files of intervals are written link by link. -/
theorem writtenByItems_of_linesOf {Line : Type} {format : LineFormat Line} (row : Line → LinkRow)
    (hnumbers : ∀ line, format.numbers line = ((row line).fromNodeId, (row line).toNodeId, (row line).startNs))
    {links : List Int64Pair} {groups : List (List Line)} (hnodup : links.Nodup)
    (h : List.Forall₂ (fun link group => LinesOf link (group.map row)) links groups) :
    WrittenByItems format linkColumns id links groups.flatten := by
  have hlink : ∀ line, linkColumns (format.key line) = (row line).link := fun line => by
    rw [LineFormat.key, hnumbers]
    rfl
  refine writtenByItems_of_groups hnodup (h.imp fun link group hlines => ?_)
  have hof : ∀ line ∈ group, (row line).link = link := List.forall_mem_map.mp hlines.link
  refine ⟨fun line hline => (hlink line).trans (hof line hline), ?_⟩
  have hascending := (pairwise_of_consecutiveFrom hlines.consecutive hlines.start_lt_end).2
  rw [List.pairwise_map] at hascending
  refine hascending.imp_of_mem fun {a b} ha hb hlt => ?_
  obtain ⟨hfrom, hto⟩ := Int64Pair.mk.inj ((hof a ha).trans (hof b hb).symm)
  rw [LineFormat.key, LineFormat.key, hnumbers, hnumbers, hfrom, hto, Prod.Lex.toLex_lt_toLex]
  exact .inr ⟨rfl, Prod.Lex.toLex_lt_toLex.mpr (.inr ⟨rfl, hlt⟩)⟩

theorem utilizationCsv_written {events : Nat → List (Int × Bool)} {intervalNs endNs : Int}
    {differs : Int64Pair → DifferenceTest} {tracked : List (Int64Pair × Nat × NetDeviceUtilizationTracker)}
    {written : List LinkUtilization} (hI : 1 ≤ intervalNs) (hend64 : endNs < 2 ^ 63)
    (hsorted : tracked.Pairwise fun a b => a.1 < b.1) (hfits : ∀ row ∈ tracked, row.1.FitsInt)
    (h : List.Forall₂ (WrittenFor events intervalNs endNs differs) tracked written) :
    WrittenByItems utilizationCsv linkColumns id (tracked.map Prod.fst) (written.flatMap LinkUtilization.lines) := by
  have hnodup : (tracked.map Prod.fst).Nodup := List.pairwise_map.mpr (hsorted.imp fun h => ne_of_lt h)
  rw [List.flatMap_def]
  refine writtenByItems_of_linesOf UtilizationLine.row (fun _ => rfl) hnodup ?_
  rw [List.forall₂_map_left_iff, List.forall₂_map_right_iff]
  refine ((List.forall₂_and_left _ _).mpr ⟨hfits, h⟩).imp fun row w ⟨hfit, intervals, hutil, hcompression⟩ => ?_
  rw [hcompression.lines_row hfit]
  exact ⟨List.forall_mem_map.mpr fun _ _ => rfl, consecutiveFrom_utilizationRows (hutil.isUtilizationLog hend64) row.1,
    List.forall_mem_map.mpr (hutil.start_lt_end hI)⟩

/-- An encoding is written as lines of its link. -/
theorem linesOf_queueLines {link : Int64Pair} {f : Int → Option Int} {endNs : Int} {log : List (Run Int Int)}
    (hfits : link.FitsInt) (h : Encodes f endNs 0 log) : LinesOf link ((queueLines link log).map QueueLine.row) := by
  rw [queueLines_row hfits]
  refine ⟨link_of_mem_linkRows, consecutiveFrom_linkRows link h, List.forall_mem_map.mpr fun x hx => ?_⟩
  exact h.isCanonical.nonEmpty x hx

theorem queueCsv_written {Queue : Type} {events : Queue → List (Int × QueueEvent)} {endNs : Int}
    {queues : List (LoggedQueue Queue)} (hnodup : (queues.map LoggedQueue.link).Nodup)
    (hfits : ∀ q ∈ queues, q.link.FitsInt) (htells : ∀ q ∈ queues, q.Tells events endNs) :
    WrittenByItems queueCsv linkColumns id (queues.map LoggedQueue.link) (queueResultsOf queues).pktLines ∧
      WrittenByItems queueCsv linkColumns id (queues.map LoggedQueue.link) (queueResultsOf queues).byteLines := by
  have hwritten : ∀ log : LoggedQueue Queue → List (Run Int Int),
      (∀ q ∈ queues, ∃ f, Encodes f endNs 0 (log q)) →
      WrittenByItems queueCsv linkColumns id (queues.map LoggedQueue.link)
        (queues.flatMap fun q => queueLines q.link (log q)) := by
    intro log hlog
    rw [List.flatMap_def]
    refine writtenByItems_of_linesOf QueueLine.row (fun _ => rfl) hnodup ?_
    rw [List.forall₂_map_left_iff, List.forall₂_map_right_iff, List.forall₂_same]
    intro q hq
    obtain ⟨f, hf⟩ := hlog q hq
    exact linesOf_queueLines (hfits q hq) hf
  exact ⟨hwritten LoggedQueue.pkt fun q hq => ⟨_, (htells q hq).pkt⟩,
    hwritten LoggedQueue.byte fun q hq => ⟨_, (htells q hq).byte⟩⟩

end Trackings

end BasicSim
