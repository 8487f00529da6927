import BasicSim.Apps.Correctness.TcpFlowLogs

/-!
# `Apps.Correctness.TcpFlowResults` — the lines of the flows tell how they ended

The line of a flow is judged by the history of its callbacks. `plot_tcp_flows_ecdfs.py` then counts the flows that were
closed normally with all their bytes acknowledged.

## Contents
- **States.** `FinishedState.Tells`, what a state says about a history; a state is told exactly if it is written.
- **Lines.** `StartedFlow`, a flow with what happened to it, and `StartedFlow.Tells`, its line.
- **Plots.** `tcpFlowsEcdfs_spec`, and with it `tcp_flow_lines_tell`.
-/

namespace BasicSim

open Fallible StepFunction TcpFlow

/-! ## States -/

/-- What a state says about the history of a flow. -/
def FinishedState.Tells (flowSizeByte : Nat) (history : List Moment) : FinishedState → Prop
  | .yes => ∃ m ∈ history, m.callback = .socket .closedNormal ∧ progress m.flow = flowSizeByte
  | .noConnFail => ∃ m ∈ history, m.callback = .socket .connectionFailed
  | .noBadClose => ∃ m ∈ history, m.callback = .socket .closedNormal ∧ progress m.flow ≠ flowSizeByte
  | .noErrClose => ∃ m ∈ history, m.callback = .socket .closedError
  | .noOngoing => ∀ m ∈ history, m.callback.ends = false

section States

variable {flowSizeByte : Nat} {history : List Moment} {flow : TcpFlow} {m : Moment} {event : TcpSocketEvent}

/-- The only moment with a last callback. -/
theorem eq_of_ends (one : history.filter (fun m => m.callback.ends) = [m]) {m' : Moment} (hm' : m' ∈ history)
    (hends : m'.callback.ends = true) : m' = m := by
  have hmem : m' ∈ history.filter (fun m => m.callback.ends) := List.mem_filter.mpr ⟨hm', hends⟩
  rw [one] at hmem
  exact List.mem_singleton.mp hmem

theorem mem_of_one (one : history.filter (fun m => m.callback.ends) = [m]) :
    m ∈ history ∧ m.callback.ends = true := by
  have hmem : m ∈ history.filter (fun m => m.callback.ends) := by simp [one]
  exact List.mem_filter.mp hmem

/-- What holds of a moment with a given last callback holds of the only one. -/
theorem exists_ended_iff (one : history.filter (fun m => m.callback.ends) = [m]) (callback : m.callback = .socket event)
    {event' : TcpSocketEvent} (hends : event'.ends = true) (P : Moment → Prop) :
    (∃ m' ∈ history, m'.callback = .socket event' ∧ P m') ↔ event' = event ∧ P m := by
  constructor
  · rintro ⟨m', hm', heq, hP⟩
    obtain rfl := eq_of_ends one hm' (by rw [heq]; exact hends)
    exact ⟨FlowCallback.socket.inj (heq.symm.trans callback), hP⟩
  · rintro ⟨rfl, hP⟩
    exact ⟨m, (mem_of_one one).1, callback, hP⟩

/-- **The state that is written is the one that is true.** -/
theorem Stands.finishedState_iff (h : Stands flowSizeByte history flow) (st : FinishedState) :
    finishedState flow.client = st ↔ st.Tells flowSizeByte history := by
  cases h with
  | live none live =>
      have hnone : ∀ m ∈ history, m.callback.ends = false := by simpa [List.filter_eq_nil_iff] using none
      have hnot : ∀ {event : TcpSocketEvent}, event.ends = true → ∀ m ∈ history, m.callback ≠ .socket event := by
        intro event hends m hm heq
        have := hnone m hm
        rw [heq] at this
        exact absurd (hends.symm.trans this) (by decide)
      have hstate : finishedState flow.client = .noOngoing := by
        simp [finishedState, live.isCompleted, live.connFailed, live.closedNormally, live.closedByError]
      rw [hstate]
      cases st with
      | noOngoing => exact ⟨fun _ => hnone, fun _ => rfl⟩
      | yes => exact ⟨fun h => (nomatch h), fun ⟨m, hm, heq, _⟩ => absurd heq (hnot rfl m hm)⟩
      | noConnFail => exact ⟨fun h => (nomatch h), fun ⟨m, hm, heq⟩ => absurd heq (hnot rfl m hm)⟩
      | noBadClose => exact ⟨fun h => (nomatch h), fun ⟨m, hm, heq, _⟩ => absurd heq (hnot rfl m hm)⟩
      | noErrClose => exact ⟨fun h => (nomatch h), fun ⟨m, hm, heq⟩ => absurd heq (hnot rfl m hm)⟩
  | @ended m event one callback hover flags hprogress =>
      obtain ⟨hm, hends⟩ := mem_of_one one
      rw [callback] at hends
      have hcompleted : flow.client.isCompleted = true ↔ event = .closedNormal ∧ progress m.flow = flowSizeByte := by
        rw [hover.isCompleted, flags.closedNormally, ← hprogress, progress, if_pos hover.phase]
      -- what each state says is about the only last callback
      have hyes := exists_ended_iff one callback (rfl : TcpSocketEvent.ends .closedNormal = true)
        fun m => progress m.flow = flowSizeByte
      have hbad := exists_ended_iff one callback (rfl : TcpSocketEvent.ends .closedNormal = true)
        fun m => progress m.flow ≠ flowSizeByte
      have hfail := exists_ended_iff one callback (rfl : TcpSocketEvent.ends .connectionFailed = true) fun _ => True
      have herr := exists_ended_iff one callback (rfl : TcpSocketEvent.ends .closedError = true) fun _ => True
      have hongoing : ¬ ∀ m ∈ history, m.callback.ends = false := fun h => by
        have := h m hm
        rw [callback] at this
        exact absurd (hends.symm.trans this) (by decide)
      simp only [and_true] at hfail herr
      cases event with
      | connectionSucceeded send => exact absurd hends Bool.false_ne_true
      | dataSend send => exact absurd hends Bool.false_ne_true
      | acknowledged bytes => exact absurd hends Bool.false_ne_true
      | connectionFailed =>
          have hst : finishedState flow.client = .noConnFail := by simp [finishedState, hcompleted, flags.connFailed]
          rw [hst]
          cases st <;> simp [FinishedState.Tells, hyes, hbad, hfail, herr, hongoing]
      | closedError =>
          have hst : finishedState flow.client = .noErrClose := by
            simp [finishedState, hcompleted, flags.connFailed, flags.closedNormally, flags.closedByError]
          rw [hst]
          cases st <;> simp [FinishedState.Tells, hyes, hbad, hfail, herr, hongoing]
      | closedNormal =>
          by_cases hall : progress m.flow = flowSizeByte
          · have hst : finishedState flow.client = .yes := by simp [finishedState, hcompleted, hall]
            rw [hst]
            cases st <;> simp [FinishedState.Tells, hyes, hbad, hfail, herr, hongoing, hall]
          · have hst : finishedState flow.client = .noBadClose := by
              simp [finishedState, hcompleted, flags.connFailed, flags.closedNormally, hall]
            rw [hst]
            cases st <;> simp [FinishedState.Tells, hyes, hbad, hfail, herr, hongoing, hall]

end States

/-! ## Lines -/

/-- A flow of a schedule that was started at its time, with what happened to it until the end of the simulation. -/
structure StartedFlow (sendStepSize rounds : Nat) (endNs : Int) where
  entry : TcpFlowScheduleEntry
  client : TcpFlowClient
  history : List Moment
  state : LoggedFlow
  size : client.flowSizeByte = entry.fields.sizeByte
  size_pos : 1 ≤ entry.fields.sizeByte
  bounds : Bounds sendStepSize client.flowSizeByte.toNat rounds
  start_nonneg : 0 ≤ entry.startTimeNs
  start_le : entry.startTimeNs ≤ endNs
  run : FlowRun client sendStepSize rounds entry.startTimeNs history state
  past : ∀ m ∈ history, m.nowNs ≤ endNs

theorem finishedState_eq_yes {client : TcpFlowClientState} :
    finishedState client = .yes ↔ client.isCompleted = true := by
  unfold finishedState
  by_cases h : client.isCompleted = true
  · simp [h]
  · rw [if_neg h]
    refine ⟨fun hyes => ?_, fun hc => absurd hc h⟩
    split_ifs at hyes

/-- A flow is completed by its last callback. -/
theorem Stands.of_completed {flowSizeByte : Nat} {history : List Moment} {flow : TcpFlow}
    (h : Stands flowSizeByte history flow) (hcompleted : flow.client.isCompleted = true) :
    ∃ m event, history.filter (fun m => m.callback.ends) = [m] ∧ m.callback = .socket event ∧
      Over flowSizeByte flow ∧ EndedWith event m.nowNs flow.client ∧ progress flow = progress m.flow := by
  cases h with
  | live _ live => exact absurd hcompleted (by rw [live.isCompleted]; decide)
  | ended one callback hover flags hprogress => exact ⟨_, _, one, callback, hover, flags, hprogress⟩

namespace StartedFlow

variable {sendStepSize rounds : Nat} {endNs : Int}

/-- **What the line of a flow must be.** -/
structure Tells (p : StartedFlow sendStepSize rounds endNs) (line : TcpFlowResult) : Prop where
  entry : (⟨line.tcpFlowId, line.fromNodeId, line.toNodeId, line.startTimeNs⟩ : Int × Int × Int × Int)
    = ⟨p.entry.id, p.entry.fromNodeId, p.entry.toNodeId, p.entry.startTimeNs⟩
  fields : line.sizeByte = p.entry.fields.sizeByte ∧ line.metadata = p.entry.fields.metadata
  state : ∀ st, line.finishedState = st ↔ st.Tells p.client.flowSizeByte.toNat p.history
  /-- a finished flow lasts until it is closed, and another one until the end -/
  finished : ∀ m ∈ p.history, m.callback = .socket .closedNormal → line.finishedState = .yes →
    line.durationNs = m.nowNs - p.entry.startTimeNs
  unfinished : line.finishedState ≠ .yes → line.durationNs = endNs - p.entry.startTimeNs
  duration_nonneg : 0 ≤ line.durationNs
  endTime : line.endTimeNs = p.entry.startTimeNs + line.durationNs
  endTime_le : line.endTimeNs ≤ endNs
  /-- the bytes that were acknowledged until the end -/
  sent : ackedOver p.entry.startTimeNs p.history endNs = some line.sentByte
  sent_le : 0 ≤ line.sentByte ∧ line.sentByte ≤ p.entry.fields.sizeByte
  sent_all : line.finishedState = .yes → line.sentByte = p.entry.fields.sizeByte

theorem follows (p : StartedFlow sendStepSize rounds endNs) :
    Follows p.client p.entry.startTimeNs p.history p.state := p.run.follows p.bounds p.start_nonneg

theorem size_eq (p : StartedFlow sendStepSize rounds endNs) :
    (p.client.flowSizeByte.toNat : Int) = p.entry.fields.sizeByte := by
  have hsize := p.size
  have hpos := p.size_pos
  omega

/-- The duration of a flow, by how its connection stands. -/
theorem flowDurationNs_eq (p : StartedFlow sendStepSize rounds endNs) (hend : endNs < 2 ^ 63) :
    ∃ durationNs, flowDurationNs endNs p.entry.startTimeNs p.state.flow.client = .ok durationNs ∧ 0 ≤ durationNs ∧
      p.entry.startTimeNs + durationNs ≤ endNs ∧
      (∀ m ∈ p.history, m.callback = .socket .closedNormal → finishedState p.state.flow.client = .yes →
        durationNs = m.nowNs - p.entry.startTimeNs) ∧
      (finishedState p.state.flow.client ≠ .yes → durationNs = endNs - p.entry.startTimeNs) := by
  have h0 := p.start_nonneg
  have hle := p.start_le
  have hseen := p.follows.seen
  simp only [flowDurationNs, ne_eq, finishedState_eq_yes]
  by_cases hcompleted : p.state.flow.client.isCompleted = true
  · rw [if_pos hcompleted]
    obtain ⟨m, event, one, callback, hover, flags, -⟩ := hseen.stands.of_completed hcompleted
    obtain ⟨hm, -⟩ := mem_of_one one
    have hfrom := hseen.from_le m hm
    have hpast := p.past m hm
    rw [flags.completionTimeNs, int64_of_mem ⟨by omega, by omega⟩]
    refine ⟨_, rfl, by omega, by omega, fun m' hm' hclosed _ => ?_, fun h => absurd hcompleted h⟩
    rw [eq_of_ends one hm' (by rw [hclosed]; rfl)]
  · rw [if_neg hcompleted, int64_of_mem ⟨by omega, by omega⟩]
    exact ⟨_, rfl, by omega, by omega, fun _ _ _ h => absurd h hcompleted, fun _ => rfl⟩

/-- **The line of a flow** is written, and tells what happened. -/
theorem tcpFlowResult_tells (p : StartedFlow sendStepSize rounds endNs) (hend : endNs < 2 ^ 63) :
    ∃ line, tcpFlowResult endNs p.entry p.state.flow = .ok line ∧ p.Tells line := by
  have h0 := p.start_nonneg
  have hseen := p.follows.seen
  have hsize := p.size_eq
  obtain ⟨durationNs, hduration, hnonneg, hle, hfinished, hunfinished⟩ := p.flowDurationNs_eq hend
  have hkeeps := hseen.inOrder.keepsAccounts p.bounds.flow
  have hacked := hseen.inOrder.getAckedBytes p.bounds.flow
  obtain ⟨acked, hacked', hacked_le⟩ := hkeeps.acked
  obtain rfl : progress p.state.flow = acked := by
    rw [hacked, Except.ok.injEq] at hacked'
    exact_mod_cast hacked'
  refine ⟨⟨p.entry.id, p.entry.fromNodeId, p.entry.toNodeId, p.entry.fields.sizeByte, p.entry.startTimeNs,
    p.entry.startTimeNs + durationNs, durationNs, progress p.state.flow, finishedState p.state.flow.client,
    p.entry.fields.metadata⟩, ?_, ?_⟩
  · rw [tcpFlowResult, hacked, ok_bind, hduration, ok_bind, int64_of_mem ⟨by omega, by omega⟩, ok_bind]
  · refine ⟨rfl, ⟨rfl, rfl⟩, hseen.stands.finishedState_iff, hfinished, hunfinished, hnonneg, rfl, hle,
      hseen.acked endNs p.start_le p.past, ⟨Int.natCast_nonneg _, ?_⟩, fun hyes => ?_⟩
    · show (progress p.state.flow : Int) ≤ p.entry.fields.sizeByte
      omega
    · have hall := (hkeeps.completed.mp (finishedState_eq_yes.mp hyes)).2
      rw [hacked, Except.ok.injEq] at hall
      exact hall.trans hsize

end StartedFlow

/-! ## Plots -/

/-- The lists of the finished flows. -/
def EcdfLists.ofRows (rows : List TcpFlowRow) : EcdfLists where
  numFinished := (rows.filter TcpFlowRow.isFinished).length
  numUnfinished := (rows.filter fun row => !row.isFinished).length
  finished := (rows.filter TcpFlowRow.isFinished).map fun row => (row.sizeByte, row.durationNs)

/-- The loop over the lines. -/
theorem foldlM_addRow (rows : List TcpFlowRow) :
    rows.foldlM EcdfLists.addRow ⟨0, 0, []⟩ = .ok (EcdfLists.ofRows rows) ∧
        (∀ row ∈ rows, row.isFinished = true → row.durationNs ≠ 0) ∨
      rows.foldlM EcdfLists.addRow ⟨0, 0, []⟩ = .error .zeroDivisionError ∧
        ∃ row ∈ rows, row.isFinished = true ∧ row.durationNs = 0 := by
  have hloop := foldlM_either (f := EcdfLists.addRow) (l := rows) (s := ⟨0, 0, []⟩)
    (fun done st => st = EcdfLists.ofRows done ∧ ∀ row ∈ done, row.isFinished = true → row.durationNs ≠ 0)
    (fun e => e = PlotError.zeroDivisionError ∧ ∃ row ∈ rows, row.isFinished = true ∧ row.durationNs = 0)
    (by
      rintro done row todo st hrows ⟨rfl, hdone⟩
      have hmem : row ∈ rows := by simp [hrows]
      unfold EcdfLists.addRow
      by_cases hyes : row.isFinished = true
      · rw [if_pos hyes]
        by_cases hzero : row.durationNs = 0
        · exact .inr ⟨_, by rw [throwIf_of hzero]; rfl, rfl, row, hmem, hyes, hzero⟩
        · rw [throwIf_of_not hzero, ok_bind]
          refine .inl ⟨_, rfl, ?_, ?_⟩
          · simp [EcdfLists.ofRows, hyes]
          · exact List.forall_mem_append.mpr ⟨hdone, by simpa using fun _ => hzero⟩
      · rw [if_neg hyes]
        refine .inl ⟨_, rfl, ?_, ?_⟩
        · simp [EcdfLists.ofRows, hyes]
        · exact List.forall_mem_append.mpr ⟨hdone, by simpa using fun h => absurd h hyes⟩)
    ⟨rfl, fun _ h => nomatch h⟩
  rcases hloop with ⟨st, hrun, rfl, hnot⟩ | ⟨e, hrun, rfl, hzero⟩
  · exact .inl ⟨hrun, hnot⟩
  · exact .inr ⟨hrun, hzero⟩

/-- **What `plot_tcp_flows_ecdfs` does** with its lines. -/
theorem tcpFlowsEcdfs_spec (rows : List TcpFlowRow) :
    (tcpFlowsEcdfs rows = .error .zeroDivisionError ↔ ∃ row ∈ rows, row.isFinished = true ∧ row.durationNs = 0) ∧
    (tcpFlowsEcdfs rows = .error (.valueError "No TCP flows were finished so an ECDF could not be produced") ↔
      ∀ row ∈ rows, row.isFinished = false) ∧
    ((¬ ∃ row ∈ rows, row.isFinished = true ∧ row.durationNs = 0) → (¬ ∀ row ∈ rows, row.isFinished = false) →
      tcpFlowsEcdfs rows = .ok (EcdfLists.ofRows rows)) := by
  unfold tcpFlowsEcdfs
  rcases foldlM_addRow rows with ⟨hrun, hnot⟩ | ⟨hrun, row, hrow, hyes, hzero⟩
  · have hnone : (EcdfLists.ofRows rows).numFinished = 0 ↔ ∀ row ∈ rows, row.isFinished = false := by
      simp [EcdfLists.ofRows, List.filter_eq_nil_iff]
    rw [hrun, ok_bind, ← hnone]
    have hnotzero : ¬ ∃ row ∈ rows, row.isFinished = true ∧ row.durationNs = 0 :=
      fun ⟨row, hrow, hyes, hzero⟩ => hnot row hrow hyes hzero
    by_cases h : (EcdfLists.ofRows rows).numFinished = 0
    · rw [throwIf_of h, error_bind]
      exact ⟨iff_of_false (by simp) hnotzero, iff_of_true rfl h, fun _ hsome => absurd h hsome⟩
    · rw [throwIf_of_not h, ok_bind]
      exact ⟨iff_of_false (by simp) hnotzero, iff_of_false (by simp) h, fun _ _ => rfl⟩
  · rw [hrun, error_bind]
    have hsome : ¬ ∀ row ∈ rows, row.isFinished = false := fun h => by simp [h row hrow] at hyes
    exact ⟨iff_of_true rfl ⟨row, hrow, hyes, hzero⟩, iff_of_false (by simp) hsome,
      fun h => absurd ⟨row, hrow, hyes, hzero⟩ h⟩

/-- What the tool reads of a line. -/
def TcpFlowResult.row (line : TcpFlowResult) : TcpFlowRow := ⟨line.sizeByte, line.durationNs, line.finishedState.text⟩

theorem FinishedState.text_eq_yes (st : FinishedState) : st.text = "YES".toList ↔ st = .yes := by
  cases st <;> decide

theorem TcpFlowResult.row_isFinished (line : TcpFlowResult) :
    line.row.isFinished = true ↔ line.finishedState = .yes := by
  rw [← FinishedState.text_eq_yes, TcpFlowRow.isFinished, decide_eq_true_iff, TcpFlowResult.row]

section Lines

variable {sendStepSize rounds : Nat} {endNs : Int}

namespace StartedFlow

/-- The logs of a flow, if it has any, are finalized unless they go on after its connection. -/
theorem finalizes_iff (p : StartedFlow sendStepSize rounds endNs) :
    (∃ s', p.state.finalizeDetailedLogs endNs = .ok s') ↔ p.client.enableDetailedLoggingToFile = true →
      ∀ m ∈ p.history, m.callback.logs = true → m.nowNs ≤ logsEnd endNs p.history := by
  by_cases henabled : p.client.enableDetailedLoggingToFile = true
  · rw [p.run.finalizes_iff p.bounds p.start_nonneg p.start_le henabled p.past]
    exact ⟨fun h _ => h, fun h => h henabled⟩
  · have hlogs : p.state.logs = none := by
      have h := p.follows.logs
      cases hs : p.state.logs with
      | none => rfl
      | some logs =>
          rw [hs] at h
          exact absurd h.1 henabled
    refine iff_of_true ⟨p.state, ?_⟩ fun h => absurd h henabled
    rw [LoggedFlow.finalizeDetailedLogs, LoggedFlow.withLogs, hlogs]

/-- The flow itself is left as it is. -/
theorem finalize_flow (p : StartedFlow sendStepSize rounds endNs) {s' : LoggedFlow}
    (h : p.state.finalizeDetailedLogs endNs = .ok s') : s'.flow = p.state.flow := by
  unfold LoggedFlow.finalizeDetailedLogs LoggedFlow.withLogs at h
  split at h
  · rw [← Except.ok.inj h]
  · obtain ⟨logs', -, h⟩ := bind_eq_ok.mp h
    rw [← Except.ok.inj h]

/-- A flow is written exactly if its logs are finalized. -/
theorem write_spec (p : StartedFlow sendStepSize rounds endNs) (hend : endNs < 2 ^ 63) :
    ∃ line, p.Tells line ∧ ∀ r, (do
      let s ← p.state.finalizeDetailedLogs endNs
      let result ← tcpFlowResult endNs p.entry s.flow
      .ok (result, s)) = Except.ok r ↔ r.1 = line ∧ p.state.finalizeDetailedLogs endNs = .ok r.2 := by
  obtain ⟨line, hline, htells⟩ := p.tcpFlowResult_tells hend
  refine ⟨line, htells, fun r => ?_⟩
  constructor
  · intro h
    obtain ⟨s, hs, h⟩ := bind_eq_ok.mp h
    rw [p.finalize_flow hs, hline, ok_bind] at h
    obtain rfl := Except.ok.inj h
    exact ⟨rfl, hs⟩
  · rintro ⟨hr, hs⟩
    rw [hs, ok_bind, p.finalize_flow hs, hline, ok_bind, ← hr]

/-- A finished flow that lasted no time was closed when it started. -/
theorem Tells.lasts_no_time_iff {p : StartedFlow sendStepSize rounds endNs} {line : TcpFlowResult} (h : p.Tells line) :
    (∃ m ∈ p.history, m.nowNs = p.entry.startTimeNs ∧ m.callback = .socket .closedNormal ∧
      progress m.flow = p.client.flowSizeByte.toNat) ↔ line.finishedState = .yes ∧ line.durationNs = 0 := by
  rw [h.state]
  constructor
  · rintro ⟨m, hm, htime, hclosed, hall⟩
    have hyes : FinishedState.yes.Tells p.client.flowSizeByte.toNat p.history := ⟨m, hm, hclosed, hall⟩
    refine ⟨hyes, ?_⟩
    rw [h.finished m hm hclosed ((h.state _).mpr hyes), htime, sub_self]
  · rintro ⟨⟨m, hm, hclosed, hall⟩, hzero⟩
    have hlasts := h.finished m hm hclosed ((h.state _).mpr ⟨m, hm, hclosed, hall⟩)
    exact ⟨m, hm, by omega, hclosed, hall⟩

end StartedFlow

/-- **The lines of the flows tell how they ended.** They are written exactly if, for each flow with detailed logging,
    nothing was acknowledged and no variable traced after the end of its connection. Then each line tells what happened
    to its flow, and the plot is made of the flows that were closed normally with all their bytes acknowledged: it
    fails if there are none, or if one of them lasted no time. -/
theorem tcp_flow_lines_tell (flows : List (StartedFlow sendStepSize rounds endNs)) (hend : endNs < 2 ^ 63) :
    ((∃ lines, writeTcpFlowLines endNs endNs (flows.map fun p => (p.entry, p.state)) = .ok lines) ↔
      ∀ p ∈ flows, p.client.enableDetailedLoggingToFile = true →
        ∀ m ∈ p.history, m.callback.logs = true → m.nowNs ≤ logsEnd endNs p.history) ∧
    ∀ lines, writeTcpFlowLines endNs endNs (flows.map fun p => (p.entry, p.state)) = .ok lines →
      List.Forall₂ (fun p line => p.Tells line.1) flows lines ∧
      (tcpFlowsEcdfs (lines.map fun line => line.1.row)
          = .error (.valueError "No TCP flows were finished so an ECDF could not be produced") ↔
        ∀ p ∈ flows, ¬ FinishedState.yes.Tells p.client.flowSizeByte.toNat p.history) ∧
      (tcpFlowsEcdfs (lines.map fun line => line.1.row) = .error .zeroDivisionError ↔
        ∃ p ∈ flows, ∃ m ∈ p.history, m.nowNs = p.entry.startTimeNs ∧ m.callback = .socket .closedNormal ∧
          progress m.flow = p.client.flowSizeByte.toNat) ∧
      ((∃ p ∈ flows, FinishedState.yes.Tells p.client.flowSizeByte.toNat p.history) →
        (∀ p ∈ flows, ∀ m ∈ p.history, m.callback = .socket .closedNormal →
          progress m.flow = p.client.flowSizeByte.toNat → m.nowNs ≠ p.entry.startTimeNs) →
        tcpFlowsEcdfs (lines.map fun line => line.1.row)
          = .ok (EcdfLists.ofRows (lines.map fun line => line.1.row))) := by
  constructor
  · rw [writeTcpFlowLines, exists_mapM_iff, List.forall_mem_map]
    refine forall₂_congr fun p _ => ?_
    obtain ⟨line, -, hwrite⟩ := p.write_spec hend
    simp only [hwrite, ← p.finalizes_iff]
    exact ⟨fun ⟨r, _, h⟩ => ⟨r.2, h⟩, fun ⟨s', h⟩ => ⟨(line, s'), rfl, h⟩⟩
  · intro lines hlines
    have htells : List.Forall₂ (fun p line => p.Tells line.1) flows lines := by
      rw [writeTcpFlowLines, mapM_eq_ok, List.forall₂_map_left_iff] at hlines
      refine hlines.imp fun p r hr => ?_
      obtain ⟨line, hline, hwrite⟩ := p.write_spec hend
      exact ((hwrite r).mp hr).1 ▸ hline
    -- what the plot checks of the lines holds of the flows
    have hfinished : (∀ row ∈ lines.map fun line => line.1.row, row.isFinished = false) ↔
        ∀ p ∈ flows, ¬ FinishedState.yes.Tells p.client.flowSizeByte.toNat p.history := by
      rw [List.forall_mem_map]
      refine (forall_mem_iff_of_forall₂ htells fun p line h => ?_).symm
      rw [← h.state, ← line.1.row_isFinished, Bool.not_eq_true]
    have hlasts : (∃ row ∈ lines.map fun line => line.1.row, row.isFinished = true ∧ row.durationNs = 0) ↔
        ∃ p ∈ flows, ∃ m ∈ p.history, m.nowNs = p.entry.startTimeNs ∧ m.callback = .socket .closedNormal ∧
          progress m.flow = p.client.flowSizeByte.toNat := by
      simp only [List.mem_map, exists_exists_and_eq_and]
      refine (exists_mem_iff_of_forall₂ htells fun p line h => ?_).symm
      rw [line.1.row_isFinished]
      exact h.lasts_no_time_iff
    obtain ⟨hzero, hnone, hok⟩ := tcpFlowsEcdfs_spec (lines.map fun line => line.1.row)
    refine ⟨htells, hnone.trans hfinished, hzero.trans hlasts, fun ⟨p, hp, hyes⟩ hlast => hok ?_ ?_⟩
    · rw [hlasts]
      exact fun ⟨p, hp, m, hm, htime, hclosed, hall⟩ => hlast p hp m hm hclosed hall htime
    · rw [hfinished]
      exact fun h => h p hp hyes

end Lines

/-- The logged client as a flow of a schedule. -/
theorem exists_startedFlow : ∃ p : StartedFlow 4 11 20, p.entry = ⟨3, 0, 1, 2, ⟨10, [], []⟩⟩ ∧
    (∀ m ∈ p.history, m.callback.logs = true → m.nowNs ≤ logsEnd 20 p.history) ∧
    ∃ m ∈ p.history, m.nowNs = 9 ∧ m.callback = .socket .closedNormal ∧ progress m.flow = p.client.flowSizeByte.toNat := by
  obtain ⟨history, s, hrun, hend, hpast, hlogged, -, hclosed⟩ := exists_loggedRun
  refine ⟨⟨⟨3, 0, 1, 2, ⟨10, [], []⟩⟩, loggedClient, history, s, rfl, by decide, loggedClient_bounds, by decide,
    by decide, hrun, hpast⟩, rfl, fun m hm hlogs => ?_, hclosed⟩
  have := hlogged m hm hlogs
  show m.nowNs ≤ logsEnd 20 history
  omega

/-- Its line, which the plot can be made of. -/
theorem tcp_flow_lines_tell_loggedClient : ∃ (p : StartedFlow 4 11 20) (line : TcpFlowResult × LoggedFlow),
    writeTcpFlowLines 20 20 [(p.entry, p.state)] = .ok [line] ∧ line.1.finishedState = .yes ∧ line.1.durationNs = 7 ∧
      tcpFlowsEcdfs [line.1.row] = .ok (EcdfLists.ofRows [line.1.row]) := by
  obtain ⟨p, hentry, hlogged, m, hm, htime, hclosed, hall⟩ := exists_startedFlow
  obtain ⟨hwrites, htell⟩ := tcp_flow_lines_tell [p] (by decide : (20 : Int) < 2 ^ 63)
  obtain ⟨lines, hlines⟩ := hwrites.mpr (by simpa using fun _ => hlogged)
  obtain ⟨htells, -, -, hok⟩ := htell lines hlines
  obtain ⟨line, lines, hline, hnil, rfl⟩ := List.forall₂_cons_left_iff.mp htells
  obtain rfl := List.forall₂_nil_left_iff.mp hnil
  have hyes : line.1.finishedState = .yes := (hline.state _).mpr ⟨m, hm, hclosed, hall⟩
  have hlasts := hline.finished m hm hclosed hyes
  rw [htime, hentry] at hlasts
  refine ⟨p, line, hlines, hyes, hlasts, hok ⟨p, List.mem_cons_self, m, hm, hclosed, hall⟩ ?_⟩
  rintro q hq m' hm' hclosed' - htime'
  obtain rfl := List.mem_singleton.mp hq
  -- its connection ends once
  have hzero := hline.finished m' hm' hclosed' hyes
  rw [htime', sub_self] at hzero
  exact absurd (hzero.symm.trans hlasts) (by decide)

end BasicSim
