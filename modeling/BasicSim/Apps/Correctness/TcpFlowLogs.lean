import BasicSim.Apps.Correctness.TcpFlowRuns
import BasicSim.Lib.Differences
import BasicSim.Tools.Correctness.Plotting

/-!
# `Apps.Correctness.TcpFlowLogs` — the detailed logs tell what happened, and so do the rates

A log file is the run-length encoding of its variable, up to the end of the connection or of the simulation. The rates
that `generate_tcp_flow_rate_csv.py` computes from the progress are then the bytes acknowledged in each interval.

## Contents
- **The end.** `logsEnd`, and which updates are too late for it.
- **Logs.** `LogsTell`; when the logs are finalized (`FlowRun.finalizes_iff`) and what they then hold
  (`FlowRun.logsTell`).
- **Rates.** `ackedBefore`, `RatesTell`, `LogsTell.rates`, and with them `detailed_logs_tell`.
-/

namespace BasicSim

open Fallible StepFunction TcpFlow RunLength Differences Binning

/-! ## The end -/

/-- When the logs of variables end: with the connection, or with the simulation. -/
def logsEnd (endNs : Int) (history : List Moment) : Int :=
  match history.find? (fun m => m.callback.ends) with
  | some m => m.nowNs
  | none => endNs

section End

variable {flowSizeByte : Nat} {startNs endNs : Int} {history : List Moment} {s : LoggedFlow}

/-- A client whose connection ended has a flag that says so. -/
theorem EndedWith.flag {event : TcpSocketEvent} {nowNs : Int} {client : TcpFlowClientState}
    (h : EndedWith event nowNs client) (hends : event.ends = true) :
    client.connFailed = true ∨ client.closedByError = true ∨ client.closedNormally = true := by
  cases event with
  | connectionSucceeded send => exact absurd hends Bool.false_ne_true
  | dataSend send => exact absurd hends Bool.false_ne_true
  | acknowledged bytes => exact absurd hends Bool.false_ne_true
  | connectionFailed => exact .inl (h.connFailed.mpr rfl)
  | closedNormal => exact .inr (.inr (h.closedNormally.mpr rfl))
  | closedError => exact .inr (.inl (h.closedByError.mpr rfl))

theorem Stands.logsEndNs_eq (h : Stands flowSizeByte history s.flow) : s.logsEndNs endNs = logsEnd endNs history := by
  unfold LoggedFlow.logsEndNs logsEnd
  rw [← List.head?_filter]
  cases h with
  | live none live => simp [none, live.connFailed, live.closedByError, live.closedNormally]
  | @ended m event one callback hover flags _ =>
      have hends : m.callback.ends = true := by
        have hm : m ∈ history.filter (fun m => m.callback.ends) := by simp [one]
        exact (List.mem_filter.mp hm).2
      rw [callback] at hends
      rw [one, if_pos (flags.flag hends)]
      exact flags.completionTimeNs

theorem Chronicle.start_le_logsEnd (h : Chronicle startNs history) (hend : startNs ≤ endNs) :
    startNs ≤ logsEnd endNs history := by
  unfold logsEnd
  cases hfind : history.find? (fun m => m.callback.ends) with
  | none => exact hend
  | some m => exact h.from_le m (List.mem_of_find?_eq_some hfind)

theorem logsEnd_le (hpast : ∀ m ∈ history, m.nowNs ≤ endNs) : logsEnd endNs history ≤ endNs := by
  unfold logsEnd
  cases hfind : history.find? (fun m => m.callback.ends) with
  | none => exact le_rfl
  | some m => exact hpast m (List.mem_of_find?_eq_some hfind)

theorem forall_historyUpdates_iff {V : Type} {f : Moment → Option V} {time : Int} :
    (∀ w ∈ historyUpdates f history, w.1 ≤ time) ↔ ∀ m ∈ history, (f m).isSome → m.nowNs ≤ time := by
  constructor
  · intro h m hm hsome
    obtain ⟨v, hv⟩ := Option.isSome_iff_exists.mp hsome
    exact h (m.nowNs, v) (List.mem_filterMap.mpr ⟨m, hm, by rw [hv]; rfl⟩)
  · intro h w hw
    obtain ⟨m, hm, hmw⟩ := List.mem_filterMap.mp hw
    obtain ⟨v, hv, rfl⟩ := Option.map_eq_some_iff.mp hmw
    exact h m hm (by rw [hv]; rfl)

/-- No update of a log of a variable is too late. -/
theorem updates_le_iff {time : Int} (hstart : startNs ≤ time) :
    ((∀ w ∈ progressUpdates startNs history, w.1 ≤ time) ∧ ∀ v, ∀ w ∈ tracedUpdates history v, w.1 ≤ time) ↔
      ∀ m ∈ history, m.callback.logs = true → m.nowNs ≤ time := by
  unfold progressUpdates tracedUpdates
  simp only [List.forall_mem_cons, forall_historyUpdates_iff, hstart, true_and]
  constructor
  · rintro ⟨hprogress, htraced⟩ m hm hlogs
    obtain ⟨nowNs, callback, flow⟩ := m
    cases callback with
    | socket event =>
        cases event with
        | acknowledged bytes => exact hprogress _ hm rfl
        | connectionSucceeded _ | connectionFailed | dataSend _ | closedNormal | closedError =>
            exact absurd hlogs Bool.false_ne_true
    | traced v newValue => exact htraced v _ hm (by simp [Moment.loggedVariable])
    | state _ | congState _ => exact absurd hlogs Bool.false_ne_true
  · intro h
    refine ⟨fun m hm hsome => h m hm ?_, fun v m hm hsome => h m hm ?_⟩
    · obtain ⟨nowNs, callback, flow⟩ := m
      cases callback with
      | socket event => cases event <;> first | rfl | exact absurd hsome Bool.false_ne_true
      | traced _ _ | state _ | congState _ => exact absurd hsome Bool.false_ne_true
    · obtain ⟨nowNs, callback, flow⟩ := m
      cases callback with
      | traced w newValue => rfl
      | socket _ | state _ | congState _ => exact absurd hsome Bool.false_ne_true

end End

/-! ## Logs -/

/-- What the log files of a client hold: the acknowledged bytes and the traced variables up to the end of the logs, and
    the states up to the end of the simulation. -/
structure LogsTell (client : TcpFlowClient) (startNs endNs : Int) (history : List Moment) (logs : DetailedLogs) :
    Prop where
  progressByte : ∃ runs, Encodes (ackedOver startNs history) (logsEnd endNs history) startNs runs ∧
    logs.progressByte.saveFileStream.lines = (entriesTo (logsEnd endNs history) runs).map fun e =>
      LogUpdateHelper.formatLine toStr (DetailedLogs.linePrefix client) e.1 e.2
  traced : ∀ v, HoldsLog toStr (DetailedLogs.linePrefix client) (tracedUpdates history v) (logsEnd endNs history)
    (logs.traced v)
  state : HoldsLog id (DetailedLogs.linePrefix client) (stateUpdates startNs history) endNs logs.state
  congState : HoldsLog id (DetailedLogs.linePrefix client) (congStateUpdates startNs history) endNs logs.congState

section Finalize

variable {client : TcpFlowClient} {sendStepSize rounds : Nat} {startNs endNs time : Int} {history : List Moment}
  {s : LoggedFlow} {logs : DetailedLogs}

/-- All logs are finalized unless one of them was updated later. -/
theorem WritesLogs.finalize (hw : WritesLogs client startNs history logs) (hc : Chronicle startNs history)
    (h0 : 0 ≤ startNs) (hstart : startNs ≤ time) (hend : startNs ≤ endNs) (hpast : ∀ m ∈ history, m.nowNs ≤ endNs) :
    (∃ logs', logs.finalize time endNs = .ok logs') ↔
      (∀ w ∈ progressUpdates startNs history, w.1 ≤ time) ∧ ∀ v, ∀ w ∈ tracedUpdates history v, w.1 ≤ time := by
  have htime := h0.trans hstart
  obtain ⟨hprogress, -⟩ := hw.progressByte.finalizeFile (hc.ascendingFrom_cons h0 0) htime
  have htraced := fun v => ((hw.traced v).finalizeFile (hc.ascendingFrom_zero h0) htime).1
  obtain ⟨hstate, -⟩ := hw.state.finalizeFile (hc.ascendingFrom_cons h0 _) (h0.trans hend)
  obtain ⟨hcong, -⟩ := hw.congState.finalizeFile (hc.ascendingFrom_cons h0 _) (h0.trans hend)
  constructor
  · rintro ⟨logs', h⟩
    obtain ⟨progressByte, hprogressByte, h⟩ := bind_eq_ok.mp h
    obtain ⟨traced, hall, -⟩ := bind_eq_ok.mp h
    exact ⟨hprogress.mp ⟨_, hprogressByte⟩, fun v => (htraced v).mp ⟨_, TracedVariable.each_eq_ok.mp hall v⟩⟩
  · rintro ⟨hp, ht⟩
    obtain ⟨progressByte, hprogressByte⟩ := hprogress.mpr hp
    obtain ⟨traced, hall, -⟩ := TracedVariable.each_total (P := fun _ _ => True) fun v =>
      ((htraced v).mpr (ht v)).imp fun _ h => ⟨h, trivial⟩
    -- the logs of the states go on until now
    obtain ⟨state, hstate⟩ := hstate.mpr (historyUpdates_le hend hpast _)
    obtain ⟨congState, hcong⟩ := hcong.mpr (historyUpdates_le hend hpast _)
    refine ⟨⟨progressByte, traced, state, congState⟩, ?_⟩
    rw [DetailedLogs.finalize, hprogressByte, ok_bind, hall, ok_bind, hstate, ok_bind, hcong, ok_bind]

/-- What is then in the files. -/
theorem WritesLogs.finalize_tells (hw : WritesLogs client startNs history logs) (hc : Chronicle startNs history)
    (h0 : 0 ≤ startNs) (hend : startNs ≤ endNs)
    (hupdates : ∀ τ, lastUpdate (progressUpdates startNs history) τ = ackedOver startNs history τ) {logs' : DetailedLogs}
    (h : logs.finalize (logsEnd endNs history) endNs = .ok logs') : LogsTell client startNs endNs history logs' := by
  have htime := h0.trans (hc.start_le_logsEnd hend)
  obtain ⟨progressByte, hprogress, h⟩ := bind_eq_ok.mp h
  obtain ⟨traced, htraced, h⟩ := bind_eq_ok.mp h
  obtain ⟨state, hstate, h⟩ := bind_eq_ok.mp h
  obtain ⟨congState, hcong, h⟩ := bind_eq_ok.mp h
  obtain rfl := Except.ok.inj h
  constructor
  case progressByte =>
    obtain ⟨runs, hwhole, hlines⟩ :=
      (hw.progressByte.finalizeFile (hc.ascendingFrom_cons h0 0) htime).2 progressByte hprogress
    refine ⟨runs, ?_, hlines⟩
    rw [← funext hupdates]
    exact hwhole.encodes (startNs, 0) rfl
  case traced =>
    intro v
    exact ((hw.traced v).finalizeFile (hc.ascendingFrom_zero h0) htime).2 _ (TracedVariable.each_eq_ok.mp htraced v)
  case state => exact (hw.state.finalizeFile (hc.ascendingFrom_cons h0 _) (h0.trans hend)).2 state hstate
  case congState => exact (hw.congState.finalizeFile (hc.ascendingFrom_cons h0 _) (h0.trans hend)).2 congState hcong

variable (hb : Bounds sendStepSize client.flowSizeByte.toNat rounds) (h0 : 0 ≤ startNs) (hend : startNs ≤ endNs)
  (hrun : FlowRun client sendStepSize rounds startNs history s) (henabled : client.enableDetailedLoggingToFile = true)

include hb h0 hrun henabled

variable (endNs) in
/-- The logs of a run, before and after they are finalized. -/
theorem FlowRun.finalizeDetailedLogs_eq : ∃ logs, WritesLogs client startNs history logs ∧
    s.finalizeDetailedLogs endNs = (do
      let logs ← logs.finalize (logsEnd endNs history) endNs
      .ok ⟨s.flow, some logs⟩) := by
  obtain ⟨hseen, hlogs⟩ := hrun.follows hb h0
  rw [LoggedFlow.finalizeDetailedLogs, hseen.stands.logsEndNs_eq]
  obtain ⟨flow, logs⟩ := s
  cases logs with
  | none => exact absurd henabled (by rw [hlogs]; decide)
  | some logs => exact ⟨logs, hlogs.2, rfl⟩

include hend

theorem FlowRun.finalizes_iff (hpast : ∀ m ∈ history, m.nowNs ≤ endNs) :
    (∃ s', s.finalizeDetailedLogs endNs = .ok s') ↔
      ∀ m ∈ history, m.callback.logs = true → m.nowNs ≤ logsEnd endNs history := by
  have hc := (hrun.follows hb h0).seen.toChronicle
  obtain ⟨logs, hw, hfinalize⟩ := hrun.finalizeDetailedLogs_eq endNs hb h0 henabled
  rw [hfinalize, ← updates_le_iff (hc.start_le_logsEnd hend), ← hw.finalize hc h0 (hc.start_le_logsEnd hend) hend hpast]
  constructor
  · rintro ⟨s', h⟩
    obtain ⟨logs', hlogs, -⟩ := bind_eq_ok.mp h
    exact ⟨logs', hlogs⟩
  · rintro ⟨logs', hlogs⟩
    exact ⟨⟨s.flow, some logs'⟩, by rw [hlogs, ok_bind]⟩

theorem FlowRun.logsTell {s' : LoggedFlow} (h : s.finalizeDetailedLogs endNs = .ok s') :
    s'.flow = s.flow ∧ ∃ logs, s'.logs = some logs ∧ LogsTell client startNs endNs history logs := by
  have hseen := (hrun.follows hb h0).seen
  obtain ⟨logs, hw, hfinalize⟩ := hrun.finalizeDetailedLogs_eq endNs hb h0 henabled
  obtain ⟨logs', hlogs, h⟩ := bind_eq_ok.mp (hfinalize.symm.trans h)
  obtain rfl := Except.ok.inj h
  exact ⟨rfl, logs', rfl, hw.finalize_tells hseen.toChronicle h0 hend hseen.updates hlogs⟩

end Finalize

/-! ## Rates -/

/-- The bytes that count as acknowledged before a time, up to the end of the logs. -/
def ackedBefore (startNs logsEndNs : Int) (history : List Moment) (time : Int) : Int :=
  (ackedOver startNs history (min time logsEndNs - 1)).getD 0

/-- The increments of the rows are the differences of their entries. -/
theorem progressSamples_eq (tcpFlowId : Int) (entries : List (Int × Int)) :
    progressSamples (entries.map fun e => ⟨tcpFlowId, e.1, e.2⟩) = differences 0 entries := by
  have hall : ∀ p, ((entries.map fun e => (⟨tcpFlowId, e.1, e.2⟩ : ProgressRow)).map ProgressRow.timeNs).zip
      (increments p (entries.map fun e => ⟨tcpFlowId, e.1, e.2⟩)) = differences p entries := by
    induction entries with
    | nil => exact fun _ => rfl
    | cons e entries ih =>
        intro p
        simp only [List.map_cons, increments, List.zip_cons_cons, differences]
        rw [ih]
  exact hall 0

section Rates

variable {client : TcpFlowClient} {sendStepSize rounds : Nat} {startNs endNs intervalNs : Int} {history : List Moment}
  {s s' : LoggedFlow} {logs : DetailedLogs}

theorem ackedOver_nonneg {τ v : Int} (h : ackedOver startNs history τ = some v) : 0 ≤ v := by
  obtain ⟨t, hmem⟩ := mem_of_lastUpdate h
  rcases List.mem_cons.mp hmem with heq | hmem
  · cases heq
    exact le_rfl
  · obtain ⟨m, -, heq⟩ := List.mem_map.mp hmem
    cases heq
    exact Int.natCast_nonneg _

/-- Before the start, nothing counts. -/
theorem Chronicle.ackedOver_eq_none (h : Chronicle startNs history) {τ : Int} (hτ : τ < startNs) :
    ackedOver startNs history τ = none := by
  refine lastUpdate_eq_none (List.forall_mem_cons.mpr ⟨hτ, fun e he => ?_⟩)
  obtain ⟨m, hm, rfl⟩ := List.mem_map.mp he
  exact lt_of_lt_of_le hτ (h.from_le m hm)

/-- The progress at the end, if nothing was acknowledged at the end of the logs or later. -/
theorem Seen.ackedBefore_end {flowSizeByte : Nat} {flow : TcpFlow} (h : Seen flowSizeByte startNs history flow)
    (hend : startNs ≤ endNs) (hpast : ∀ m ∈ history, m.nowNs ≤ endNs) {time : Int} (hstart : startNs ≤ time)
    (htime : time ≤ endNs)
    (hbefore : ∀ m ∈ history, (∃ bytes, m.callback = .socket (.acknowledged bytes)) → m.nowNs < time) :
    ackedBefore startNs time history time = progress flow := by
  have hups : ∀ w ∈ historyUpdates Moment.loggedProgress history, w.1 < time := by
    intro w hw
    obtain ⟨m, hm, hmw⟩ := List.mem_filterMap.mp hw
    obtain ⟨v, hv, rfl⟩ := Option.map_eq_some_iff.mp hmw
    unfold Moment.loggedProgress at hv
    split at hv
    · next bytes heq => exact hbefore m hm ⟨bytes, heq⟩
    · exact nomatch hv
  have hlast := h.acked endNs hend hpast
  rw [← h.updates] at hlast
  unfold ackedBefore
  rw [min_self, ← h.updates]
  rcases lt_or_eq_of_le hstart with hlt | rfl
  · -- all updates are before the end of the logs
    have hall : ∀ w ∈ progressUpdates startNs history, w.1 ≤ time - 1 :=
      List.forall_mem_cons.mpr ⟨by show startNs ≤ time - 1; omega, fun w hw => by have := hups w hw; omega⟩
    rw [lastUpdate_of_forall_le hall, ← lastUpdate_of_forall_le fun w hw => (hall w hw).trans (by omega : _ ≤ endNs),
      hlast]
    rfl
  · -- there are no updates but the one at the start
    have hnil : historyUpdates Moment.loggedProgress history = [] := by
      rw [List.eq_nil_iff_forall_not_mem]
      exact fun w hw => absurd (hups w hw) (not_lt.mpr (h.toChronicle.updates.from_le w hw))
    have hzero : lastUpdate (progressUpdates startNs history) endNs = some 0 := by
      rw [progressUpdates, hnil]
      exact lastUpdate_of_getLast rfl hend
    rw [h.updates, h.toChronicle.ackedOver_eq_none (by omega)]
    exact Option.some.inj (hzero.symm.trans hlast)

/-- What the intervals of `generate_tcp_flow_rate_csv.py` must be: each has the bytes that were acknowledged in it, as
    long as the logs go on. -/
structure RatesTell (intervalNs startNs logsEndNs : Int) (history : List Moment) (l : List (Bin Int)) : Prop where
  interval : ∀ (k : Nat) b, l[k]? = some b → b.left = k * intervalNs ∧ b.right = b.left + intervalNs
  amount : ∀ b ∈ l, b.amount
    = ackedBefore startNs logsEndNs history b.right - ackedBefore startNs logsEndNs history b.left
  total : ((dropEmptyLast l).map Bin.amount).sum = ackedBefore startNs logsEndNs history logsEndNs

/-- **Rates** of a log that tells what happened. -/
theorem LogsTell.rates (h : LogsTell client startNs endNs history logs) (hc : Chronicle startNs history) (h0 : 0 ≤ startNs)
    {read : Str → ProgressRow} (hread : ∀ t v, 0 ≤ t → 0 ≤ v →
      read (LogUpdateHelper.formatLine toStr (DetailedLogs.linePrefix client) t v) = ⟨client.tcpFlowId, t, v⟩)
    (hI : 1 ≤ intervalNs) :
    ∃ l, tcpFlowRateIntervals client.tcpFlowId intervalNs (logs.progressByte.saveFileStream.lines.map read)
        = .ok (dropEmptyLast l) ∧ RatesTell intervalNs startNs (logsEnd endNs history) history l := by
  obtain ⟨runs, hruns, hlines⟩ := h.progressByte
  -- the file is read back as the entries of the encoding
  have hrows : logs.progressByte.saveFileStream.lines.map read
      = (entriesTo (logsEnd endNs history) runs).map fun e => ⟨client.tcpFlowId, e.1, e.2⟩ := by
    rw [hlines, List.map_map]
    refine List.map_congr_left fun e he => hread _ _ (h0.trans (mem_entriesTo hruns e he).1) ?_
    obtain ⟨x, hx, heq⟩ := value_of_mem_entriesTo he
    have hx' := hruns.isCanonical.nonEmpty x hx
    exact heq ▸ ackedOver_nonneg (hruns.isCanonical.value x hx x.left le_rfl hx')
  have hasc := entriesTo_ascending hruns
  have hvalue : ∀ τ, (lastUpdate (entriesTo (logsEnd endNs history) runs) (τ - 1)).getD 0
      = ackedBefore startNs (logsEnd endNs history) history τ := by
    intro τ
    rw [lastUpdate_entriesTo hruns fun _ => hc.ackedOver_eq_none, ackedBefore,
      show min (τ - 1) (logsEnd endNs history - 1) = min τ (logsEnd endNs history) - 1 by omega]
  have hfrom : ∀ e ∈ entriesTo (logsEnd endNs history) runs, 0 ≤ e.1 :=
    fun e he => h0.trans (mem_entriesTo hruns e he).1
  have hsamples := ascendingFrom_differences ⟨hasc, hfrom⟩ (0 : Int)
  obtain ⟨st, k, hrate, hst⟩ : ∃ st k, tcpFlowRateIntervals client.tcpFlowId intervalNs
      (logs.progressByte.saveFileStream.lines.map read) = .ok (dropEmptyLast (st.intervals ++ [st.current])) ∧
      Binned intervalNs (differences 0 (entriesTo (logsEnd endNs history) runs)) st k := by
    rw [hrows, ← progressSamples_eq client.tcpFlowId]
    refine tcpFlowRateIntervals_binned hI (List.forall_mem_map.mpr fun _ _ => rfl) ?_ (List.forall_mem_map.mpr hfrom)
    rw [List.map_map, List.pairwise_map]
    exact hasc
  have hbins := hst.isBinning hI hsamples
  refine ⟨_, hrate, hbins.interval, fun b hb => ?_, ?_⟩
  · obtain ⟨k, hk⟩ := List.mem_iff_getElem?.mp hb
    obtain ⟨-, hright⟩ := hbins.interval k b hk
    rw [hbins.amount b hb, sum_differences_Ico hasc 0 (by omega), hvalue, hvalue]
  · have hlast := hvalue (logsEnd endNs history + 1)
    rw [add_sub_cancel_right] at hlast
    rw [sum_dropEmptyLast, hbins.total, sum_differences hasc 0 fun e he => (mem_entriesTo hruns e he).2, hlast, sub_zero,
      ackedBefore, ackedBefore, min_self, min_eq_right (by omega)]

end Rates

/-- **The detailed logs tell what happened**, after any callbacks of the socket. They can be finalized exactly if nothing
    was acknowledged and no variable traced after the end of the connection. Then the files hold the acknowledged
    bytes, the variables and the states over time, and the rates that are computed from them are the bytes that were
    acknowledged in each interval; none is missing if the last ones were acknowledged before the end of the logs. -/
theorem detailed_logs_tell {client : TcpFlowClient} {sendStepSize rounds : Nat} {startNs endNs : Int}
    {history : List Moment} {s : LoggedFlow} (hb : Bounds sendStepSize client.flowSizeByte.toNat rounds)
    (h0 : 0 ≤ startNs) (hend : startNs ≤ endNs) (hrun : FlowRun client sendStepSize rounds startNs history s)
    (hpast : ∀ m ∈ history, m.nowNs ≤ endNs) (henabled : client.enableDetailedLoggingToFile = true) :
    ((∃ s', s.finalizeDetailedLogs endNs = .ok s') ↔
      ∀ m ∈ history, m.callback.logs = true → m.nowNs ≤ logsEnd endNs history) ∧
    ∀ s', s.finalizeDetailedLogs endNs = .ok s' → s'.flow = s.flow ∧ ∃ logs, s'.logs = some logs ∧
      LogsTell client startNs endNs history logs ∧
      (∀ (read : Str → ProgressRow) (intervalNs : Int), (∀ t v, 0 ≤ t → 0 ≤ v →
        read (LogUpdateHelper.formatLine toStr (DetailedLogs.linePrefix client) t v) = ⟨client.tcpFlowId, t, v⟩) →
        1 ≤ intervalNs →
        ∃ l, tcpFlowRateIntervals client.tcpFlowId intervalNs (logs.progressByte.saveFileStream.lines.map read)
            = .ok (dropEmptyLast l) ∧ RatesTell intervalNs startNs (logsEnd endNs history) history l) ∧
      ((∀ m ∈ history, (∃ bytes, m.callback = .socket (.acknowledged bytes)) → m.nowNs < logsEnd endNs history) →
        s.flow.getAckedBytes
          = .ok (ackedBefore startNs (logsEnd endNs history) history (logsEnd endNs history))) := by
  have hseen := (hrun.follows hb h0).seen
  have hc := hseen.toChronicle
  refine ⟨hrun.finalizes_iff hb h0 hend henabled hpast, fun s' hs' => ?_⟩
  obtain ⟨hflow, logs, hlogs, htell⟩ := hrun.logsTell hb h0 hend henabled hs'
  refine ⟨hflow, logs, hlogs, htell, fun read intervalNs hread hI => htell.rates hc h0 hread hI, fun hbefore => ?_⟩
  rw [hseen.inOrder.getAckedBytes hb.flow, hseen.ackedBefore_end hend hpast (hc.start_le_logsEnd hend)
    (logsEnd_le hpast) hbefore]

/-- A client with a flow of 10 bytes that logs in detail. -/
def loggedClient : TcpFlowClient :=
  ⟨0, ⟨167772161, 0⟩, ⟨167772162, 1024⟩, 3, 10, [], true, "logs_ns3".toList⟩

/-- It is connected and has a window at 5, its bytes are acknowledged at 7, and the socket is closed at 9. -/
theorem exists_loggedRun : ∃ history s, FlowRun loggedClient 4 11 2 history s ∧ logsEnd 20 history = 9 ∧
    (∀ m ∈ history, m.nowNs ≤ 20) ∧ (∀ m ∈ history, m.callback.logs = true → m.nowNs ≤ 7) ∧
    s.flow.getAckedBytes = .ok 10 ∧ ∃ m ∈ history, m.nowNs = 9 ∧ m.callback = .socket .closedNormal ∧
      progress m.flow = 10 := by
  have hstart : FlowRun loggedClient 4 11 2 [] _ := @FlowRun.start loggedClient 4 11 2 0 _ rfl
  have hconnected : FlowRun loggedClient 4 11 2 ([] ++ [⟨5, .socket (.connectionSucceeded takeAll), _⟩]) _ :=
    .callback hstart (by decide) (by decide) ⟨rfl, takeAll_valid⟩ rfl
  have hwindow : FlowRun loggedClient 4 11 2 (_ ++ [⟨5, .traced .cwnd 4, _⟩]) _ :=
    .callback hconnected (by decide) (by simp) trivial rfl
  have hacked : FlowRun loggedClient 4 11 2 (_ ++ [⟨7, .socket (.acknowledged 10), _⟩]) _ :=
    .callback hwindow (by decide) (by simp) (le_refl 10) rfl
  have hclosed : FlowRun loggedClient 4 11 2 (_ ++ [⟨9, .socket .closedNormal, _⟩]) _ :=
    .callback hacked (by decide) (by simp) ⟨by decide, rfl⟩ rfl
  refine ⟨_, _, hclosed, rfl, by simp, ?_, rfl, _, List.mem_append_right _ List.mem_cons_self, rfl, rfl, rfl⟩
  simp [FlowCallback.logs]

theorem loggedClient_bounds : Bounds 4 loggedClient.flowSizeByte.toNat 11 :=
  ⟨by decide, by decide, by decide, by decide⟩

/-- A reader of the lines. -/
def readProgressRow (line : Str) : ProgressRow :=
  match (line.splitOn ',').map digitsValue with
  | [tcpFlowId, timeNs, progressByte] => ⟨tcpFlowId, timeNs, progressByte⟩
  | _ => ⟨-1, -1, -1⟩

theorem readProgressRow_formatLine (t v : Int) (ht : 0 ≤ t) (hv : 0 ≤ v) :
    readProgressRow (LogUpdateHelper.formatLine toStr (DetailedLogs.linePrefix loggedClient) t v) = ⟨3, t, v⟩ := by
  obtain ⟨t, rfl⟩ := Int.eq_ofNat_of_zero_le ht
  obtain ⟨v, rfl⟩ := Int.eq_ofNat_of_zero_le hv
  have hline : LogUpdateHelper.formatLine toStr (DetailedLogs.linePrefix loggedClient) t v
      = [','].intercalate [toStr (3 : Nat), toStr t, toStr v] := by
    simp [LogUpdateHelper.formatLine, DetailedLogs.linePrefix, loggedClient, List.intercalate]
  have hpieces : ∀ p ∈ [toStr (3 : Nat), toStr t, toStr v], ',' ∉ p := by
    intro p hp
    simp only [List.mem_cons, List.not_mem_nil, or_false] at hp
    rcases hp with rfl | rfl | rfl <;> exact not_mem_toStr rfl _
  unfold readProgressRow
  rw [hline, List.splitOn_intercalate ',' hpieces (List.cons_ne_nil _ _)]
  simp only [List.map_cons, List.map_nil, digitsValue_toStr]
  rfl

/-- In intervals of 3, its rates add up to all its bytes. -/
theorem detailed_logs_tell_loggedClient : ∃ history s s' logs l, FlowRun loggedClient 4 11 2 history s ∧
    s.finalizeDetailedLogs 20 = .ok s' ∧ s'.logs = some logs ∧ LogsTell loggedClient 2 20 history logs ∧
    tcpFlowRateIntervals 3 3 (logs.progressByte.saveFileStream.lines.map readProgressRow) = .ok (dropEmptyLast l) ∧
    ((dropEmptyLast l).map Bin.amount).sum = 10 := by
  obtain ⟨history, s, hrun, hend, hpast, hlogged, hacked, -⟩ := exists_loggedRun
  obtain ⟨hfinal, htell⟩ :=
    detailed_logs_tell loggedClient_bounds (by decide) (show (2 : Int) ≤ 20 by decide) hrun hpast rfl
  have hbefore : ∀ m ∈ history, m.callback.logs = true → m.nowNs < logsEnd 20 history := by
    intro m hm hlogs
    have := hlogged m hm hlogs
    omega
  obtain ⟨s', hs'⟩ := hfinal.mpr fun m hm hlogs => le_of_lt (hbefore m hm hlogs)
  obtain ⟨-, logs, hlogs, h, hrates, hsent⟩ := htell s' hs'
  obtain ⟨l, hl, hrate⟩ := hrates readProgressRow 3 readProgressRow_formatLine (by decide)
  refine ⟨history, s, s', logs, l, hrun, hs', hlogs, h, hl, ?_⟩
  have hall := hsent fun m hm ⟨bytes, hack⟩ => hbefore m hm (by rw [hack]; rfl)
  rw [hacked] at hall
  rw [hrate.total, ← Except.ok.inj hall]

end BasicSim
