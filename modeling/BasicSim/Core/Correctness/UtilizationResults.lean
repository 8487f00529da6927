import BasicSim.Core.Correctness.NetDeviceUtilizationTracker
import BasicSim.Core.UtilizationResults
import BasicSim.Lib.Blocks
import Mathlib.Algebra.Order.BigOperators.Group.List

/-!
# `Core.Correctness.UtilizationResults` — compressing the utilization log conserves busy time

The lines of the compressed file are the intervals in blocks, each from the start of its first interval to the
end of its last one, with the sum of the busy times.

## Contents
- **Logs.** `IsUtilizationLog`, which a tracker returns (`IsUtilization.isUtilizationLog`).
- **Lines.** `IsLineOf`, `LineEnds`, `IsCompression`.
- **The loop.** `Compressing`, its step lemma `Compressing.step`.
- **Main result.** `compressing_conserves_busy_time`, and for all links `writeUtilizationResults_compressed`.
-/

namespace BasicSim

open Fallible Blocks

/-! ## Logs -/

/-- The intervals of a link: contiguous from 0 on, in 64 bits, and never busier than they are long. -/
structure IsUtilizationLog (intervals : List UtilizationInterval) : Prop where
  head : ∀ x ∈ intervals.head?, x.startNs = 0
  contiguous : intervals.IsChain fun x y => x.endNs = y.startNs
  end_lt : ∀ x ∈ intervals, x.endNs < 2 ^ 63
  busy_nonneg : ∀ x ∈ intervals, 0 ≤ x.busyNs
  busy_le : ∀ x ∈ intervals, x.busyNs ≤ x.endNs - x.startNs

def busySumNs (intervals : List UtilizationInterval) : Int := (intervals.map UtilizationInterval.busyNs).sum

section Logs

variable {intervals : List UtilizationInterval} {x : UtilizationInterval} {j : Nat}

theorem IsUtilizationLog.contiguous_at (h : IsUtilizationLog intervals) {y : UtilizationInterval}
    (hx : intervals[j]? = some x) (hy : intervals[j + 1]? = some y) : x.endNs = y.startNs := by
  obtain ⟨hj, rfl⟩ := List.getElem?_eq_some_iff.mp hx
  obtain ⟨hj', rfl⟩ := List.getElem?_eq_some_iff.mp hy
  exact List.isChain_iff_getElem.mp h.contiguous j hj'

/-- The busy time so far fits in the time so far. -/
theorem IsUtilizationLog.busySum_le (h : IsUtilizationLog intervals) :
    ∀ (j : Nat) (x : UtilizationInterval), intervals[j]? = some x →
      0 ≤ x.startNs ∧ busySumNs (intervals.take j) ≤ x.startNs := by
  intro j
  induction j with
  | zero =>
      intro x hx
      have hstart := h.head x (by rw [List.head?_eq_getElem?, hx]; exact rfl)
      simp [busySumNs, hstart]
  | succ j ih =>
      intro y hy
      obtain ⟨hj, -⟩ := List.getElem?_eq_some_iff.mp hy
      have hx : intervals[j]? = some intervals[j] := List.getElem?_eq_getElem (by omega)
      obtain ⟨h0, hsum⟩ := ih _ hx
      have hmem : intervals[j] ∈ intervals := List.getElem_mem _
      have hbusy0 := h.busy_nonneg _ hmem
      have hbusy := h.busy_le _ hmem
      have hnext := h.contiguous_at (List.getElem?_eq_getElem (by omega)) hy
      rw [List.take_succ_eq_append_getElem (by omega), busySumNs, List.map_append, List.sum_append, ← busySumNs,
        List.map_singleton, List.sum_singleton]
      omega

/-- The next interval keeps the sum of the busy times in 64 bits. -/
theorem IsUtilizationLog.busySum_succ (h : IsUtilizationLog intervals) (hj : intervals[j]? = some x) :
    busySumNs (intervals.take (j + 1)) = busySumNs (intervals.take j) + x.busyNs ∧
      busySumNs (intervals.take (j + 1)) < 2 ^ 63 := by
  obtain ⟨-, hsum⟩ := h.busySum_le j x hj
  obtain ⟨hlt, rfl⟩ := List.getElem?_eq_some_iff.mp hj
  have hmem : intervals[j] ∈ intervals := List.getElem_mem _
  have hbusy := h.busy_le _ hmem
  have hend := h.end_lt _ hmem
  have heq : busySumNs (intervals.take (j + 1)) = busySumNs (intervals.take j) + intervals[j].busyNs := by
    rw [List.take_succ_eq_append_getElem hlt, busySumNs, List.map_append, List.sum_append, ← busySumNs,
      List.map_singleton, List.sum_singleton]
  exact ⟨heq, by omega⟩

/-- An interval begins and ends in 64 bits. -/
theorem IsUtilizationLog.bounds (h : IsUtilizationLog intervals) (hx : x ∈ intervals) :
    0 ≤ x.startNs ∧ x.startNs ≤ x.endNs ∧ x.endNs < 2 ^ 63 := by
  obtain ⟨j, hj⟩ := List.mem_iff_getElem?.mp hx
  have h0 := h.busy_nonneg x hx
  have hle := h.busy_le x hx
  exact ⟨(h.busySum_le j x hj).1, by omega, h.end_lt x hx⟩

theorem busySumNs_nonneg {l : List UtilizationInterval} (h : ∀ x ∈ l, 0 ≤ x.busyNs) : 0 ≤ busySumNs l := by
  refine List.sum_nonneg ?_
  intro b hb
  obtain ⟨x, hx, rfl⟩ := List.mem_map.mp hb
  exact h x hx

/-- What a tracker returns is such a log, if its last interval ends in 64 bits. -/
theorem NetDeviceUtilizationTracker.IsUtilization.isUtilizationLog {on : Int → Bool} {intervalNs endNs : Int}
    (h : IsUtilization on intervalNs endNs intervals) (hend : endNs < 2 ^ 63) : IsUtilizationLog intervals where
  head x hx := by
    rw [List.head?_eq_getElem?] at hx
    have hstart := (h.interval 0 x hx).1
    simpa using hstart
  contiguous := List.isChain_iff_getElem.mpr fun j hj =>
    h.contiguous j _ _ (List.getElem?_eq_getElem _) (List.getElem?_eq_getElem hj)
  end_lt x hx := by
    obtain ⟨k, hk⟩ := List.mem_iff_getElem?.mp hx
    rw [(h.interval k x hk).2]
    exact lt_of_le_of_lt (min_le_right _ _) hend
  busy_nonneg x hx := (h.busy_mem x hx).1
  busy_le x hx := (h.busy_mem x hx).2

end Logs

/-! ## Lines -/

/-- The line for a block of intervals of a link. -/
structure IsLineOf (directedEdge : Int64Pair) (block : List UtilizationInterval) (line : UtilizationLine) :
    Prop where
  fromNodeId : line.fromNodeId = toInt32 directedEdge.first
  toNodeId : line.toNodeId = toInt32 directedEdge.second
  start : ∃ x, block.head? = some x ∧ line.startNs = x.startNs
  end_ : ∃ x, block.getLast? = some x ∧ line.endNs = x.endNs
  busy : line.busyNs = busySumNs block

/-- Where a line must end: at the last interval, and where the test reports a difference. -/
def LineEnds (differs : DifferenceTest) (intervals : List UtilizationInterval) (j : Nat) : Prop :=
  j + 1 = intervals.length ∨
    ∃ x y, intervals[j]? = some x ∧ intervals[j + 1]? = some y ∧ differs j x y = true

/-- **What is written for a link.** The compressed lines are the intervals in blocks, which end where they must;
    they are contiguous from 0 to the end of the last interval; and in both files the busy times add up to the
    sum of the summary. -/
structure IsCompression (differs : DifferenceTest) (directedEdge : Int64Pair) (intervals : List UtilizationInterval)
    (written : LinkUtilization) : Prop where
  lines : written.lines = intervals.map fun x => utilizationLine directedEdge x.startNs x.endNs x.busyNs
  blocks : ∃ blocks, IsCut (LineEnds differs intervals) intervals blocks ∧
    List.Forall₂ (IsLineOf directedEdge) blocks written.compressedLines
  first : ∃ line, written.compressedLines.head? = some line ∧ line.startNs = 0
  contiguous : written.compressedLines.IsChain fun a b => a.endNs = b.startNs
  last : ∃ line x, written.compressedLines.getLast? = some line ∧ intervals.getLast? = some x ∧
    line.endNs = x.endNs ∧ written.summary.endNs = x.endNs
  busy_lines : (written.lines.map UtilizationLine.busyNs).sum = written.summary.busySumNs
  busy_compressed : (written.compressedLines.map UtilizationLine.busyNs).sum = written.summary.busySumNs

/-! ## The loop -/

/-- **The invariant of the loop** after `j` intervals: which lines are written for the closed blocks, and what the
    variables hold for the open one. -/
structure Compressing (differs : DifferenceTest) (directedEdge : Int64Pair)
    (intervals : List UtilizationInterval) (closed : List (List UtilizationInterval))
    (current : List UtilizationInterval) (j : Nat) (st : WriteState) : Prop where
  blocks : IsOpen (LineEnds differs intervals) (intervals.take j) closed current
  compressedLines : List.Forall₂ (IsLineOf directedEdge) closed st.compressedLines
  lines : st.lines = (intervals.take j).map fun x => utilizationLine directedEdge x.startNs x.endNs x.busyNs
  utilizationBusySum : st.utilizationBusySumNs = busySumNs (intervals.take j)
  runningBusySum : st.runningBusySumNs = busySumNs current
  -- the start of the open block, or of the next one
  leftSide : ∀ x ∈ (current ++ intervals.drop j).head?, st.intervalLeftSideNs = x.startNs

section Loop

variable {differs : DifferenceTest} {directedEdge : Int64Pair} {intervals : List UtilizationInterval}
  {closed : List (List UtilizationInterval)} {current : List UtilizationInterval} {j : Nat} {st : WriteState}
  {x : UtilizationInterval}

/-- The lookahead decides where a line must end. -/
theorem printCompressedLine_eq (differs : DifferenceTest) (h : IsUtilizationLog intervals)
    (hj : intervals[j]? = some x) :
    ∃ print, printCompressedLine differs intervals j x = .ok print ∧
      (print = true ↔ LineEnds differs intervals j) := by
  have hx := h.bounds (List.mem_of_getElem? hj)
  have hlt := (List.getElem?_eq_some_iff.mp hj).1
  unfold printCompressedLine LineEnds
  by_cases hlast : j + 1 = intervals.length
  · exact ⟨true, if_pos hlast, iff_of_true rfl (.inl hlast)⟩
  · have hy : intervals[j + 1]? = some intervals[j + 1] := List.getElem?_eq_getElem (by omega)
    have hbounds := h.bounds (List.mem_of_getElem? hy)
    have hat : vectorAt intervals ((j : Int) + 1) = .ok intervals[j + 1] :=
      vectorAt_eq_ok.mpr ⟨by omega, hy⟩
    refine ⟨differs j x intervals[j + 1], ?_, ?_⟩
    · rw [if_neg hlast, hat, ok_bind, int64_of_mem ⟨by omega, by omega⟩, ok_bind,
        int64_of_mem ⟨by omega, by omega⟩, ok_bind]
    · constructor
      · exact fun hdiffers => .inr ⟨x, _, hj, hy, hdiffers⟩
      · rintro (heq | ⟨x', y', hx', hy', hdiffers⟩)
        · exact absurd heq hlast
        · cases hj.symm.trans hx'
          cases hy.symm.trans hy'
          exact hdiffers

/-- With the next interval, the sum of the open block is the sum of the longer block, in 64 bits. -/
theorem Compressing.running_succ (hst : Compressing differs directedEdge intervals closed current j st)
    (h : IsUtilizationLog intervals) (hj : intervals[j]? = some x) :
    st.runningBusySumNs + x.busyNs = busySumNs (current ++ [x]) ∧ InInt64 (st.runningBusySumNs + x.busyNs) := by
  have hsucc := h.busySum_succ hj
  have hsum : busySumNs (intervals.take j) = busySumNs closed.flatten + busySumNs current := by
    rw [← hst.blocks.flatten, busySumNs, List.map_append, List.sum_append]
    rfl
  have hnonneg : ∀ {l : List UtilizationInterval}, l ⊆ intervals → 0 ≤ busySumNs l :=
    fun hl => busySumNs_nonneg fun y hy => h.busy_nonneg y (hl hy)
  have htake : closed.flatten ++ current ⊆ intervals := hst.blocks.flatten ▸ List.take_subset j intervals
  have hclosed := hnonneg (List.append_subset.mp htake).1
  have hcurrent := hnonneg (List.append_subset.mp htake).2
  have hbusy := h.busy_nonneg x (List.mem_of_getElem? hj)
  rw [hst.runningBusySum]
  refine ⟨?_, by omega, by omega⟩
  rw [busySumNs, busySumNs, List.map_append, List.sum_append, List.map_singleton, List.sum_singleton]

/-- The first interval of the open block, once the next interval is in it. -/
theorem Compressing.first (hst : Compressing differs directedEdge intervals closed current j st)
    (hj : intervals[j]? = some x) :
    ∃ y ∈ intervals, (current ++ [x]).head? = some y ∧ st.intervalLeftSideNs = y.startNs := by
  obtain ⟨hlt, hget⟩ := List.getElem?_eq_some_iff.mp hj
  have hleft := hst.leftSide
  rw [List.drop_eq_getElem_cons hlt, hget] at hleft
  cases current with
  | nil => exact ⟨x, List.mem_of_getElem? hj, rfl, hleft x rfl⟩
  | cons y current =>
      have hmem : y ∈ intervals.take j := by
        rw [← hst.blocks.flatten]
        exact List.mem_append_right _ List.mem_cons_self
      exact ⟨y, List.mem_of_mem_take hmem, rfl, hleft y rfl⟩

/-- **Step lemma.** An interval is written, and the line is ended where it must. -/
theorem Compressing.step (hst : Compressing differs directedEdge intervals closed current j st)
    (h : IsUtilizationLog intervals) (hj : intervals[j]? = some x) :
    ∃ st' closed' current', writeInterval differs directedEdge intervals st j = .ok st' ∧
      Compressing differs directedEdge intervals closed' current' (j + 1) st' := by
  obtain ⟨hlt, hget⟩ := List.getElem?_eq_some_iff.mp hj
  have htake : intervals.take (j + 1) = intervals.take j ++ [x] := by
    rw [List.take_succ_eq_append_getElem hlt, hget]
  have hdrop : intervals.drop j = x :: intervals.drop (j + 1) := by
    rw [List.drop_eq_getElem_cons hlt, hget]
  have hlength : (intervals.take j).length = j := List.length_take_of_le (by omega)
  have hat : vectorAt intervals j = .ok x := vectorAt_eq_ok.mpr ⟨by omega, hj⟩
  -- the sums of the loop are busy times of pieces of the log, so they fit
  obtain ⟨hsum, hsum64⟩ := h.busySum_succ hj
  have hsum0 : 0 ≤ busySumNs (intervals.take (j + 1)) :=
    busySumNs_nonneg fun y hy => h.busy_nonneg y (List.mem_of_mem_take hy)
  obtain ⟨hrunning, hrunning64⟩ := hst.running_succ h hj
  obtain ⟨print, hprint, hiff⟩ := printCompressedLine_eq differs h hj
  have hlines : st.lines ++ [utilizationLine directedEdge x.startNs x.endNs x.busyNs]
      = (intervals.take (j + 1)).map fun x => utilizationLine directedEdge x.startNs x.endNs x.busyNs := by
    rw [hst.lines, htake, List.map_append, List.map_singleton]
  obtain ⟨y, hy, hfirst, hleft⟩ := hst.first hj
  unfold writeInterval
  rw [hat, ok_bind, hst.utilizationBusySum, ← hsum, int64_of_mem ⟨by omega, hsum64⟩, ok_bind,
    int64_of_mem hrunning64, ok_bind, hprint, ok_bind, hrunning]
  -- a line ends here, or the interval joins the open line
  by_cases hcut : LineEnds differs intervals j
  · have hybounds := h.bounds hy
    have hxbounds := h.bounds (List.mem_of_getElem? hj)
    rw [if_pos (hiff.mpr hcut), int64_of_mem ⟨by omega, by omega⟩, ok_bind]
    refine ⟨_, closed ++ [current ++ [x]], [], rfl, ?_, ?_, hlines, rfl, rfl, ?_⟩
    · rw [htake]
      exact hst.blocks.close (by rwa [hlength])
    · exact forall₂_concat hst.compressedLines
        ⟨rfl, rfl, ⟨y, hfirst, hleft⟩, ⟨x, List.getLast?_concat, rfl⟩, rfl⟩
    · intro z hz
      rw [List.nil_append, List.head?_drop] at hz
      exact h.contiguous_at hj hz
  · rw [if_neg fun hp => hcut (hiff.mp hp)]
    refine ⟨_, closed, current ++ [x], rfl, ?_, hst.compressedLines, hlines, rfl, rfl, ?_⟩
    · rw [htake]
      exact hst.blocks.extend (by rwa [hlength])
    · rw [List.append_assoc, List.singleton_append, ← hdrop]
      exact hst.leftSide

/-- **Run lemma.** After the loop every interval is in a block that is closed. -/
theorem writeIntervals_compressing (differs : DifferenceTest) (directedEdge : Int64Pair)
    (h : IsUtilizationLog intervals) :
    ∃ st closed current,
      (List.range intervals.length).foldlM (writeInterval differs directedEdge intervals) .initial = .ok st ∧
      Compressing differs directedEdge intervals closed current intervals.length st := by
  have hinitial : Compressing differs directedEdge intervals [] [] 0 .initial := by
    refine ⟨.nil _, .nil, rfl, rfl, rfl, ?_⟩
    exact fun x hx => (h.head x hx).symm
  obtain ⟨st, hrun, closed, current, hst⟩ := foldlM_range_total
    (fun j st => ∃ closed current, Compressing differs directedEdge intervals closed current j st)
    (f := writeInterval differs directedEdge intervals) (n := intervals.length)
    (fun j st hj ⟨closed, current, hst⟩ => by
      obtain ⟨st', closed', current', hrun, hst'⟩ := hst.step h (List.getElem?_eq_getElem hj)
      exact ⟨st', hrun, closed', current', hst'⟩)
    ⟨[], [], hinitial⟩
  exact ⟨st, closed, current, hrun, hst⟩

/-- The first line is the one of the first block. -/
theorem exists_first_line {b : List UtilizationInterval} {blocks : List (List UtilizationInterval)}
    {lines : List UtilizationLine} (hlines : List.Forall₂ (IsLineOf directedEdge) (b :: blocks) lines) :
    ∃ line, lines.head? = some line ∧ IsLineOf directedEdge b line := by
  cases hlines with
  | cons hline _ => exact ⟨_, rfl, hline⟩

/-- The last line is the one of the last block. -/
theorem exists_last_line {b : List UtilizationInterval} {blocks : List (List UtilizationInterval)}
    {lines : List UtilizationLine} (hlines : List.Forall₂ (IsLineOf directedEdge) (blocks ++ [b]) lines) :
    ∃ line, lines.getLast? = some line ∧ IsLineOf directedEdge b line := by
  rw [← List.forall₂_reverse_iff, List.reverse_append] at hlines
  obtain ⟨line, hline, hb⟩ := exists_first_line hlines
  exact ⟨line, by rw [List.getLast?_eq_head?_reverse, hline], hb⟩

/-- The busy times of the lines are the sums of the blocks. -/
theorem map_busyNs_of_blocks {blocks : List (List UtilizationInterval)} {lines : List UtilizationLine}
    (hlines : List.Forall₂ (IsLineOf directedEdge) blocks lines) :
    lines.map UtilizationLine.busyNs = blocks.map busySumNs := by
  induction hlines with
  | nil => rfl
  | cons hline _ ih => rw [List.map_cons, List.map_cons, hline.busy, ih]

/-- The lines of contiguous blocks are contiguous. -/
theorem isChain_of_blocks {blocks : List (List UtilizationInterval)} {lines : List UtilizationLine}
    (hlines : List.Forall₂ (IsLineOf directedEdge) blocks lines)
    (hblocks : blocks.IsChain fun b c => ∀ x ∈ b.getLast?, ∀ y ∈ c.head?, x.endNs = y.startNs) :
    lines.IsChain fun a b => a.endNs = b.startNs := by
  have hlength := hlines.length_eq
  rw [List.isChain_iff_getElem] at hblocks ⊢
  intro i hi
  obtain ⟨x, hx, hend⟩ := (hlines.get (i := i) (by omega) (by omega)).end_
  obtain ⟨y, hy, hstart⟩ := (hlines.get (i := i + 1) (by omega) (by omega)).start
  exact hend.trans ((hblocks i (by omega) x hx y hy).trans hstart.symm)

/-- When all the intervals are in closed blocks, the lines are what they must be. -/
theorem Compressing.isCompression {last : UtilizationInterval}
    (hst : Compressing differs directedEdge intervals closed current intervals.length st)
    (h : IsUtilizationLog intervals) (hlast : intervals.getLast? = some last) :
    IsCompression differs directedEdge intervals ⟨st.lines, st.compressedLines,
      ⟨toInt32 directedEdge.first, toInt32 directedEdge.second, st.utilizationBusySumNs, last.endNs⟩⟩ := by
  have hne : intervals ≠ [] := by
    rintro rfl
    cases hlast
  have hpos := List.length_pos_iff.mpr hne
  have hblocks := hst.blocks
  have hlines := hst.lines
  have hsum := hst.utilizationBusySum
  rw [List.take_length] at hblocks hlines hsum
  -- the last interval ends a line, so no line is open
  have hcut := hblocks.isCut fun _ => .inl (by omega)
  refine ⟨hlines, ⟨closed, hcut, hst.compressedLines⟩, ?_, ?_, ?_, ?_, ?_⟩
  · obtain ⟨b, rest, rfl, hhead⟩ := hcut.exists_first hne
    obtain ⟨line, hline, hb⟩ := exists_first_line hst.compressedLines
    obtain ⟨x, hx, hstart⟩ := hb.start
    exact ⟨line, hline, hstart.trans (h.head x (hhead ▸ hx))⟩
  · exact isChain_of_blocks hst.compressedLines (hcut.isChain h.contiguous)
  · obtain ⟨before, b, rfl, hgetLast⟩ := hcut.exists_last hne
    obtain ⟨line, hline, hb⟩ := exists_last_line hst.compressedLines
    obtain ⟨x, hx, hend⟩ := hb.end_
    rw [hgetLast, hlast, Option.some.injEq] at hx
    exact ⟨line, last, hline, hlast, hx ▸ hend, rfl⟩
  · show (st.lines.map UtilizationLine.busyNs).sum = st.utilizationBusySumNs
    rw [hlines, hsum, List.map_map]
    rfl
  · show (st.compressedLines.map UtilizationLine.busyNs).sum = st.utilizationBusySumNs
    rw [map_busyNs_of_blocks hst.compressedLines, hsum]
    exact hcut.sum_eq UtilizationInterval.busyNs

/-- What is written for a link is read off the variables after the loop. -/
theorem writeLink_eq (differs : DifferenceTest) (directedEdge : Int64Pair) (hne : intervals ≠ [])
    (h : IsUtilizationLog intervals) : ∃ st closed current last, intervals.getLast? = some last ∧
      Compressing differs directedEdge intervals closed current intervals.length st ∧
      writeLink differs directedEdge intervals = .ok ⟨st.lines, st.compressedLines,
        ⟨toInt32 directedEdge.first, toInt32 directedEdge.second, st.utilizationBusySumNs, last.endNs⟩⟩ := by
  obtain ⟨st, closed, current, hrun, hst⟩ := writeIntervals_compressing differs directedEdge h
  have hpos := List.length_pos_iff.mpr hne
  have hlast : intervals[intervals.length - 1]? = some (intervals.getLast hne) := by
    rw [← List.getLast?_eq_getElem?, List.getLast?_eq_some_getLast hne]
  have hat : vectorAt intervals ((intervals.length : Int) - 1) = .ok (intervals.getLast hne) := by
    refine vectorAt_eq_ok.mpr ⟨by omega, ?_⟩
    rw [← hlast]
    congr 1
    omega
  exact ⟨st, closed, current, _, List.getLast?_eq_some_getLast hne, hst,
    by rw [writeLink, hrun, ok_bind, hat, ok_bind]⟩

end Loop

/-! ## Main result -/

/-- **Compressing the utilization log conserves busy time.** -/
theorem compressing_conserves_busy_time (differs : DifferenceTest) (directedEdge : Int64Pair)
    {intervals : List UtilizationInterval} (hne : intervals ≠ []) (h : IsUtilizationLog intervals) :
    ∃ written, writeLink differs directedEdge intervals = .ok written ∧
      IsCompression differs directedEdge intervals written := by
  obtain ⟨st, closed, current, last, hlast, hst, hwrite⟩ := writeLink_eq differs directedEdge hne h
  exact ⟨_, hwrite, hst.isCompression h hlast⟩

/-- Three intervals; the last one is shorter, and busy all the time. -/
theorem isUtilizationLog_three : IsUtilizationLog [⟨0, 10, 4⟩, ⟨10, 20, 4⟩, ⟨20, 25, 5⟩] where
  head := by simp
  contiguous := by simp
  end_lt := by simp
  busy_nonneg := by simp
  busy_le := by simp

theorem compressing_conserves_busy_time_three :
    ∃ written, writeLink (fun _ x y => decide (x.busyNs ≠ y.busyNs)) ⟨0, 1⟩
        [⟨0, 10, 4⟩, ⟨10, 20, 4⟩, ⟨20, 25, 5⟩] = .ok written ∧
      IsCompression (fun _ x y => decide (x.busyNs ≠ y.busyNs)) ⟨0, 1⟩
        [⟨0, 10, 4⟩, ⟨10, 20, 4⟩, ⟨20, 25, 5⟩] written :=
  compressing_conserves_busy_time _ ⟨0, 1⟩ (List.cons_ne_nil _ _) isUtilizationLog_three

/-- Two lines are written for them. -/
example : (writeLink (fun _ x y => decide (x.busyNs ≠ y.busyNs)) ⟨0, 1⟩
      [⟨0, 10, 4⟩, ⟨10, 20, 4⟩, ⟨20, 25, 5⟩]).map LinkUtilization.compressedLines
    = .ok [⟨0, 1, 0, 20, 8⟩, ⟨0, 1, 20, 25, 5⟩] := by decide

/-- The files are written link by link, in ascending order; nothing of a link is carried over to the next. -/
theorem writeUtilizationResults_compressed (differs : Int64Pair → DifferenceTest) (nowNs : Int)
    {trackers : List (Int64Pair × NetDeviceUtilizationTracker)}
    (hlogs : ∀ p ∈ trackers, ∃ intervals, p.2.finalizeUtilization nowNs = .ok intervals ∧ intervals ≠ [] ∧
      IsUtilizationLog intervals) :
    ∃ written, writeUtilizationResults differs nowNs trackers = .ok written ∧
      List.Forall₂ (fun p w => ∃ intervals, p.2.finalizeUtilization nowNs = .ok intervals ∧
        IsCompression (differs p.1) p.1 intervals w) (sortTrackers trackers) written := by
  refine mapM_total fun p hp => ?_
  obtain ⟨intervals, hfinalize, hne, hlog⟩ := hlogs p ((List.mem_insertionSort _).mp hp)
  obtain ⟨st, closed, current, last, hlast, hst, hwrite⟩ := writeLink_eq (differs p.1) p.1 hne hlog
  exact ⟨_, by rw [hfinalize, ok_bind, hwrite], intervals, hfinalize, hst.isCompression hlog hlast⟩

end BasicSim
