import BasicSim.Lib.StepFunction
import BasicSim.Tools.Plotting

/-!
# `Tools.Correctness.Plotting` — the plotting tools bin time series without losing data

The three loops over intervals are one loop with different amounts: the samples come at weakly ascending times, and
`Binned` is kept by each of them.

## Contents
- **One sample.** `moveTo_spec`, `Binned.moveTo`.
- **What the result must be.** `IsBinning`.
- **Runs.** `sumUpIntoIntervals_binned`, `tcpFlowRateIntervals_binned`, `outOfOrderIntervals_binned`.
- **The result.** `time_series_are_binned`.
-/

namespace BasicSim

open Fallible Binning StepFunction

variable {intervalNs t v : Int} {samples : List (Int × Int)} {st : IntervalState} {k : Nat}

/-! ## One sample -/

/-- **Run lemma.** The inner loop ends, in the bin that the time lies in if it moves at all. -/
theorem fastForward_spec (hI : 1 ≤ intervalNs) (fuel : Nat) :
    ∀ {st : IntervalState} {k : Nat}, IsOpen intervalNs samples st.intervals st.current k →
      t - st.current.right + 1 < fuel → 0 < fuel →
      ∃ st' k', fastForward intervalNs t fuel st = .ok st' ∧
        IsOpen intervalNs samples st'.intervals st'.current k' ∧ t < st'.current.right ∧
        (k' = k ∨ st'.current.left ≤ t) := by
  induction fuel with
  | zero => exact fun _ _ h => absurd h (Nat.lt_irrefl 0)
  | succ fuel ih =>
      intro st k h hfuel _
      unfold fastForward
      by_cases hright : t ≥ st.current.right
      · rw [if_pos hright]
        have hskip := h.skip (by omega)
        obtain ⟨st', k', hrun, hopen, hlt, hleft⟩ :=
          @ih ⟨⟨st.current.right, st.current.right + intervalNs, 0⟩, st.intervals ++ [st.current]⟩ _
            hskip (by simp only; omega) (by omega)
        refine ⟨st', k', hrun, hopen, hlt, .inr ?_⟩
        rcases hleft with rfl | hleft
        · -- no further move: the bin begins where the last one ended
          rw [hopen.current, ← hskip.current]
          exact hright
        · exact hleft
      · rw [if_neg hright]
        exact ⟨st, k, rfl, h, by omega, .inl rfl⟩

theorem moveTo_spec (hI : 1 ≤ intervalNs) (h : IsOpen intervalNs samples st.intervals st.current k) :
    ∃ st' k', moveTo intervalNs t st = .ok st' ∧ IsOpen intervalNs samples st'.intervals st'.current k' ∧
      t < st'.current.right ∧ (k' = k ∨ st'.current.left ≤ t) :=
  fastForward_spec hI _ h (by omega) (by omega)

/-- The time of the last sample, or the start. -/
def lastTimeNs (samples : List (Int × Int)) : Int := (samples.getLast?.map Prod.fst).getD 0

@[simp] theorem lastTimeNs_concat : lastTimeNs (samples ++ [(t, v)]) = t := by
  simp [lastTimeNs]

/-- **The invariant**: the samples are in their bins, and the current bin is that of the last time. -/
structure Binned (intervalNs : Int) (samples : List (Int × Int)) (st : IntervalState) (k : Nat) : Prop where
  isOpen : IsOpen intervalNs samples st.intervals st.current k
  left_le : st.current.left ≤ lastTimeNs samples
  lt_right : lastTimeNs samples < st.current.right

theorem binned_first (hI : 1 ≤ intervalNs) : Binned intervalNs [] (firstInterval intervalNs) 0 :=
  ⟨IsOpen.nil intervalNs, le_refl 0, hI⟩

/-- **Step lemma.** A sample that is not before the last one. -/
theorem Binned.moveTo (h : Binned intervalNs samples st k) (hI : 1 ≤ intervalNs) (ht : lastTimeNs samples ≤ t) :
    ∃ st' k', moveTo intervalNs t st = .ok st' ∧
      ∀ v, Binned intervalNs (samples ++ [(t, v)]) (st'.add v) k' := by
  obtain ⟨st', k', hrun, hopen, hright, hleft⟩ := moveTo_spec (t := t) hI h.isOpen
  have hle : st'.current.left ≤ t := by
    rcases hleft with rfl | hleft
    · rw [hopen.current, ← h.isOpen.current]
      exact h.left_le.trans ht
    · exact hleft
  refine ⟨st', k', hrun, fun v => ⟨hopen.add hle hright, ?_, ?_⟩⟩
  · rw [lastTimeNs_concat]
    exact hle
  · rw [lastTimeNs_concat]
    exact hright

/-! ## What the result must be -/

/-- **What the intervals must be**, for samples whose times lie in bins from 0 on. -/
structure IsBinning (intervalNs : Int) (samples : List (Int × Int)) (l : List (Bin Int)) : Prop where
  interval : ∀ (k : Nat) b, l[k]? = some b → b.left = k * intervalNs ∧ b.right = b.left + intervalNs
  contiguous : ∀ (k : Nat) b c, l[k]? = some b → l[k + 1]? = some c → c.left = b.right
  first : l.head?.map Bin.left = some 0
  last : ∀ b, l.getLast? = some b → b.left ≤ lastTimeNs samples ∧ lastTimeNs samples < b.right
  amount : ∀ b ∈ l, b.amount
    = ((samples.filter fun x => decide (b.left ≤ x.1 ∧ x.1 < b.right)).map Prod.snd).sum
  total : (l.map Bin.amount).sum = (samples.map Prod.snd).sum

/-- A time is at least that of the last sample before it. -/
theorem lastTimeNs_le {todo : List (Int × Int)} (hasc : AscendingFrom 0 (samples ++ (t, v) :: todo)) :
    lastTimeNs samples ≤ t := by
  unfold lastTimeNs
  cases hlast : samples.getLast? with
  | none => exact hasc.from_le (t, v) (by simp)
  | some w => exact hasc.le_of_append (List.mem_of_getLast? hlast)

/-- With the current interval added at the end, the intervals are as they must be. -/
theorem Binned.isBinning (h : Binned intervalNs samples st k) (hI : 1 ≤ intervalNs)
    (hasc : AscendingFrom 0 samples) : IsBinning intervalNs samples (st.intervals ++ [st.current]) := by
  have hbins := h.isOpen.concat_eq
  -- every interval is the bin with its number
  have hget : ∀ (j : Nat) b, (st.intervals ++ [st.current])[j]? = some b → b = bin intervalNs samples j :=
    fun j b hj => eq_bin_of_getElem? (hbins ▸ hj)
  constructor
  case interval =>
    intro j b hj
    rw [hget j b hj, bin, add_mul, one_mul]
    exact ⟨rfl, rfl⟩
  case contiguous =>
    intro j b c hb hc
    rw [hget j b hb, hget (j + 1) c hc, bin, bin]
    push_cast
    rfl
  case first =>
    rw [hbins, bins, List.head?_map, List.head?_range]
    simp [bin]
  case last =>
    intro b hb
    rw [List.getLast?_concat, Option.some.injEq] at hb
    subst hb
    exact ⟨h.left_le, h.lt_right⟩
  case amount =>
    intro b hb
    obtain ⟨j, hj⟩ := List.mem_iff_getElem?.mp hb
    rw [hget j b hj]
    rfl
  case total =>
    rw [hbins]
    refine sum_amountIn (by omega) fun x hx => ⟨hasc.from_le x hx, ?_⟩
    have := h.isOpen.lt_right x hx
    push_cast
    exact this

/-! ## Runs -/

/-- The amounts at the times, as samples. -/
theorem ascendingFrom_zip {times amounts : List Int} (hlen : times.length ≤ amounts.length)
    (hasc : times.Pairwise (· ≤ ·)) (h0 : ∀ t ∈ times, 0 ≤ t) : AscendingFrom 0 (times.zip amounts) where
  ascending := by
    rw [← List.map_fst_zip hlen] at hasc
    exact List.pairwise_map.mp hasc
  from_le := fun u hu => h0 u.1 (List.of_mem_zip hu).1

/-- Once the samples are in, there is only one way it can look. -/
theorem Binned.unique {st' : IntervalState} {k' : Nat} (h : Binned intervalNs samples st k)
    (h' : Binned intervalNs samples st' k') (hI : 1 ≤ intervalNs) : st = st' := by
  have hk : ∀ {st : IntervalState} {k : Nat}, Binned intervalNs samples st k →
      lastTimeNs samples / intervalNs = k := by
    intro st k h
    have hleft := h.left_le
    have hright := h.lt_right
    rw [h.isOpen.current] at hleft hright
    exact (mem_bin_iff (by omega)).mp ⟨hleft, hright⟩
  obtain rfl : k = k' := by
    have := (hk h).symm.trans (hk h')
    omega
  obtain ⟨current, intervals⟩ := st
  obtain ⟨current', intervals'⟩ := st'
  obtain ⟨rfl, rfl⟩ : current = current' ∧ intervals = intervals' :=
    ⟨h.isOpen.current.trans h'.isOpen.current.symm, h.isOpen.closed.trans h'.isOpen.closed.symm⟩
  rfl

/-- **The loop of `sum_up_into_intervals`.** -/
theorem sumUpIntoIntervals_binned {times data : List Int} (hI : 1 ≤ intervalNs)
    (hlen : times.length = data.length) (hasc : AscendingFrom 0 (times.zip data)) :
    ∃ st k, sumUpIntoIntervals intervalNs times data = .ok (st.intervals ++ [st.current]) ∧
      Binned intervalNs (times.zip data) st k := by
  have hzip : (times.zip data).length = times.length := by simp [hlen]
  unfold sumUpIntoIntervals
  -- the index `j` has gone over the first `j` samples
  obtain ⟨st, hst, k, hk⟩ := foldlM_range_total (n := times.length) (s := firstInterval intervalNs)
    (f := fun st i => do
      let timeNs ← itemAt times i
      let st ← BasicSim.moveTo intervalNs timeNs st
      let data ← itemAt data i
      .ok (st.add data))
    (fun j st => ∃ k, Binned intervalNs ((times.zip data).take j) st k)
    (by
      intro j st hj hst
      obtain ⟨k, hst⟩ := hst
      have hget : (times.zip data)[j]? = some (times[j], data[j]) := by
        rw [List.getElem?_zip_eq_some]
        exact ⟨List.getElem?_eq_getElem hj, List.getElem?_eq_getElem (by omega)⟩
      have htake : (times.zip data).take (j + 1) = (times.zip data).take j ++ [(times[j], data[j])] := by
        rw [List.take_add_one, hget]
        rfl
      have hsplit : times.zip data
          = (times.zip data).take j ++ (times[j], data[j]) :: (times.zip data).drop (j + 1) := by
        rw [List.append_cons, ← htake, List.take_append_drop]
      obtain ⟨st', k', hmove, hadd⟩ := hst.moveTo hI (lastTimeNs_le (hsplit ▸ hasc))
      refine ⟨st'.add data[j], ?_, k', ?_⟩
      · simp [itemAt, hmove, hj, hlen ▸ hj]
      · rw [htake]
        exact hadd _)
    ⟨0, binned_first hI⟩
  rw [← hzip, List.take_length] at hk
  exact ⟨st, k, by rw [hst]; rfl, hk⟩

/-- The progress that is made from row to row. -/
def increments (lastProgressByte : Int) : List ProgressRow → List Int
  | [] => []
  | row :: rows => (row.progressByte - lastProgressByte) :: increments row.progressByte rows

/-- The progress at the end. -/
def finalProgress (lastProgressByte : Int) (rows : List ProgressRow) : Int :=
  (rows.getLast?.map ProgressRow.progressByte).getD lastProgressByte

@[simp] theorem finalProgress_cons (p : Int) (row : ProgressRow) (rows : List ProgressRow) :
    finalProgress p (row :: rows) = finalProgress row.progressByte rows := by
  cases rows <;> simp [finalProgress, List.getLast?_cons]

@[simp] theorem length_increments (p : Int) (rows : List ProgressRow) :
    (increments p rows).length = rows.length := by
  induction rows generalizing p with
  | nil => rfl
  | cons row rows ih => simp [increments, ih]

theorem increments_concat (p : Int) (rows : List ProgressRow) (row : ProgressRow) :
    increments p (rows ++ [row]) = increments p rows ++ [row.progressByte - finalProgress p rows] := by
  induction rows generalizing p with
  | nil => rfl
  | cons first rows ih => simp [increments, ih]

/-- The increments add up to the progress. -/
theorem sum_increments (p : Int) (rows : List ProgressRow) :
    (increments p rows).sum = finalProgress p rows - p := by
  induction rows generalizing p with
  | nil => simp [increments, finalProgress]
  | cons row rows ih =>
      rw [increments, List.sum_cons, ih, finalProgress_cons]
      omega

/-- The progress of the rows, as samples. -/
def progressSamples (rows : List ProgressRow) : List (Int × Int) :=
  (rows.map ProgressRow.timeNs).zip (increments 0 rows)

theorem progressSamples_concat (rows : List ProgressRow) (row : ProgressRow) :
    progressSamples (rows ++ [row])
      = progressSamples rows ++ [(row.timeNs, row.progressByte - finalProgress 0 rows)] := by
  rw [progressSamples, increments_concat, List.map_append, List.zip_append (by simp)]
  rfl

theorem ascendingFrom_progressSamples {rows : List ProgressRow} (hasc : (rows.map ProgressRow.timeNs).Pairwise (· ≤ ·))
    (h0 : ∀ row ∈ rows, 0 ≤ row.timeNs) : AscendingFrom 0 (progressSamples rows) :=
  ascendingFrom_zip (by simp) hasc (List.forall_mem_map.mpr h0)

/-- Without the last interval if nothing is in it. -/
def dropEmptyLast (l : List (Bin Int)) : List (Bin Int) :=
  if l.getLast?.map Bin.amount = some 0 then l.dropLast else l

/-- What is dropped does not count. -/
theorem sum_dropEmptyLast (l : List (Bin Int)) :
    ((dropEmptyLast l).map Bin.amount).sum = (l.map Bin.amount).sum := by
  induction l using List.reverseRecOn with
  | nil => rfl
  | append_singleton l b _ =>
      unfold dropEmptyLast
      by_cases hb : b.amount = 0
      · simp [hb]
      · simp [hb]

/-- **The loop of `generate_tcp_flow_rate_csv`.** -/
theorem tcpFlowRateIntervals_binned {tcpFlowId : Int} {rows : List ProgressRow} (hI : 1 ≤ intervalNs)
    (hid : ∀ row ∈ rows, row.tcpFlowId = tcpFlowId) (hasc : (rows.map ProgressRow.timeNs).Pairwise (· ≤ ·))
    (h0 : ∀ row ∈ rows, 0 ≤ row.timeNs) :
    ∃ st k, tcpFlowRateIntervals tcpFlowId intervalNs rows = .ok (dropEmptyLast (st.intervals ++ [st.current])) ∧
      Binned intervalNs (progressSamples rows) st k := by
  have hcheck : (forM rows fun row => throwIf (row.tcpFlowId ≠ tcpFlowId) <| PyExc.valueError
      "The flow identifier does not match (it must be the same in the entire progress file)") = .ok () :=
    forM_eq_ok.mpr fun row hrow => throwIf_of_not (not_not_intro (hid row hrow))
  obtain ⟨⟨st, last⟩, hst, k, hk, -⟩ := foldlM_total (l := rows) (s := (firstInterval intervalNs, (0 : Int)))
    (f := fun s row => do
      let st ← BasicSim.moveTo intervalNs row.timeNs s.1
      .ok (st.add (row.progressByte - s.2), row.progressByte))
    (fun done (s : IntervalState × Int) =>
      ∃ k, Binned intervalNs (progressSamples done) s.1 k ∧ s.2 = finalProgress 0 done)
    (by
      rintro done row todo ⟨st, last⟩ rfl ⟨k, hst, hlast⟩
      obtain rfl : last = finalProgress 0 done := hlast
      have hdone : (done ++ [row]) <+: (done ++ row :: todo) := ⟨todo, by simp⟩
      have hasc' := ascendingFrom_progressSamples (hasc.sublist (hdone.sublist.map _))
        fun r hr => h0 r (hdone.subset hr)
      rw [progressSamples_concat] at hasc'
      obtain ⟨st', k', hmove, hadd⟩ := hst.moveTo hI (lastTimeNs_le hasc')
      refine ⟨(st'.add (row.progressByte - finalProgress 0 done), row.progressByte), ?_, k', ?_, ?_⟩
      · simp only [hmove, ok_bind]
      · rw [progressSamples_concat]
        exact hadd _
      · simp [finalProgress])
    ⟨0, binned_first hI, rfl⟩
  refine ⟨st, k, ?_, hk⟩
  rw [tcpFlowRateIntervals, hcheck, ok_bind]
  refine (congrArg (· >>= _) hst).trans ?_
  rw [ok_bind]
  by_cases hempty : st.current.amount = 0
  · simp [dropEmptyLast, hempty]
  · simp [dropEmptyLast, hempty]

/-- What an entry counts for. -/
def outOfOrderSamples (results : List PingResult) : List (Int × Int) :=
  (results.zip (isOutOfOrder results)).map fun (entry, outOfOrder) =>
    (entry.sendRequestTimestamp, if outOfOrder = true then 1 else 0)

/-- **The loop of `plot_udp_ping`.** -/
theorem outOfOrderIntervals_binned {results : List PingResult} (hI : 1 ≤ intervalNs)
    (hasc : AscendingFrom 0 (outOfOrderSamples results)) :
    ∃ st k, outOfOrderIntervals intervalNs results = .ok (st.intervals ++ [st.current]) ∧
      Binned intervalNs (outOfOrderSamples results) st k := by
  unfold outOfOrderSamples at hasc ⊢
  obtain ⟨st, hst, k, hk⟩ := foldlM_total (l := results.zip (isOutOfOrder results)) (s := firstInterval intervalNs)
    (f := fun st (entry, outOfOrder) => do
      let st ← BasicSim.moveTo intervalNs entry.sendRequestTimestamp st
      .ok (if outOfOrder = true then st.add 1 else st))
    (fun done st => ∃ k, Binned intervalNs (done.map fun (entry, outOfOrder) =>
      (entry.sendRequestTimestamp, if outOfOrder = true then 1 else 0)) st k)
    (by
      rintro done ⟨entry, outOfOrder⟩ todo st hl ⟨k, hst⟩
      rw [hl, List.map_append, List.map_cons] at hasc
      obtain ⟨st', k', hmove, hadd⟩ := hst.moveTo hI (lastTimeNs_le hasc)
      refine ⟨if outOfOrder = true then st'.add 1 else st', ?_, k', ?_⟩
      · simp only [hmove, ok_bind]
      · rw [List.map_append, List.map_singleton]
        cases outOfOrder with
        | true => exact hadd 1
        | false =>
            -- an entry that is in order adds nothing
            have hzero : st'.add 0 = st' := by simp [IntervalState.add]
            exact hzero ▸ hadd 0)
    ⟨0, binned_first hI⟩
  exact ⟨st, k, by rw [outOfOrderIntervals, hst]; rfl, hk⟩

/-! ## The result -/

/-- **Time series are binned without losing data.** -/
theorem time_series_are_binned {intervalNs : Int} (hI : 1 ≤ intervalNs) :
    (∀ times data : List Int, times.length = data.length → times.Pairwise (· ≤ ·) → (∀ t ∈ times, 0 ≤ t) →
      ∃ l, sumUpIntoIntervals intervalNs times data = .ok l ∧ IsBinning intervalNs (times.zip data) l ∧
        (l.map Bin.amount).sum = data.sum) ∧
    (∀ (tcpFlowId : Int) (rows : List ProgressRow), (∀ row ∈ rows, row.tcpFlowId = tcpFlowId) →
      (rows.map ProgressRow.timeNs).Pairwise (· ≤ ·) → (∀ row ∈ rows, 0 ≤ row.timeNs) →
      ∃ l, sumUpIntoIntervals intervalNs (rows.map ProgressRow.timeNs) (increments 0 rows) = .ok l ∧
        tcpFlowRateIntervals tcpFlowId intervalNs rows = .ok (dropEmptyLast l) ∧
        ((dropEmptyLast l).map Bin.amount).sum = finalProgress 0 rows) := by
  have hseries : ∀ times data : List Int, times.length = data.length → times.Pairwise (· ≤ ·) →
      (∀ t ∈ times, 0 ≤ t) → ∃ st k, sumUpIntoIntervals intervalNs times data = .ok (st.intervals ++ [st.current]) ∧
        Binned intervalNs (times.zip data) st k ∧
        IsBinning intervalNs (times.zip data) (st.intervals ++ [st.current]) ∧
        ((st.intervals ++ [st.current]).map Bin.amount).sum = data.sum := by
    intro times data hlen hasc h0
    have hasc := ascendingFrom_zip hlen.le hasc h0
    obtain ⟨st, k, hrun, hst⟩ := sumUpIntoIntervals_binned hI hlen hasc
    have hbinning := hst.isBinning hI hasc
    exact ⟨st, k, hrun, hst, hbinning, by rw [hbinning.total, List.map_snd_zip hlen.ge]⟩
  constructor
  · intro times data hlen hasc h0
    obtain ⟨st, _, hrun, _, hbinning, hsum⟩ := hseries times data hlen hasc h0
    exact ⟨_, hrun, hbinning, hsum⟩
  · intro tcpFlowId rows hid hasc h0
    obtain ⟨st, k, hrun, hst, -, hsum⟩ := hseries (rows.map ProgressRow.timeNs) (increments 0 rows) (by simp)
      hasc (List.forall_mem_map.mpr h0)
    obtain ⟨st', k', hrate, hst'⟩ := tcpFlowRateIntervals_binned hI hid hasc h0
    -- both loops bin the same samples, so they end in the same state
    obtain rfl : st = st' := hst.unique hst' hI
    refine ⟨_, hrun, hrate, ?_⟩
    rw [sum_dropEmptyLast, hsum, sum_increments, sub_zero]

/-- Two samples on a boundary and one after a gap, in intervals of 10. -/
theorem time_series_are_binned_gap :
    sumUpIntoIntervals 10 [0, 10, 10, 35] [1, 2, 3, 4]
        = .ok [⟨0, 10, 1⟩, ⟨10, 20, 5⟩, ⟨20, 30, 0⟩, ⟨30, 40, 4⟩] ∧
    tcpFlowRateIntervals 7 10 [⟨7, 0, 100⟩, ⟨7, 15, 250⟩, ⟨7, 20, 250⟩] = .ok [⟨0, 10, 100⟩, ⟨10, 20, 150⟩] ∧
    ∃ l, sumUpIntoIntervals 10 [0, 15, 20] [100, 150, 0] = .ok l ∧
      tcpFlowRateIntervals 7 10 [⟨7, 0, 100⟩, ⟨7, 15, 250⟩, ⟨7, 20, 250⟩] = .ok (dropEmptyLast l) :=
  have hI : (1 : Int) ≤ 10 := by decide
  have hflow := (time_series_are_binned hI).2 7 [⟨7, 0, 100⟩, ⟨7, 15, 250⟩, ⟨7, 20, 250⟩] (by simp) (by simp) (by simp)
  ⟨by decide, by decide, hflow.imp fun _ h => ⟨h.1, h.2.1⟩⟩

end BasicSim
