import BasicSim.Apps.Correctness.ScheduleFormats
import BasicSim.Apps.Correctness.UdpPingTimetable

/-!
# `Apps.Correctness.UdpPingFinish` — when the delay until `Finish` is computed exactly

The reader accepts every non-negative duration and wait. The end of the duration, and the delay until `Finish`,
which the last `Send` computes in 64 bits, can be too large for an `int64_t`; the delay is then negative.

## Contents
- **Every `Send`.** `SendsAreExact`, `IsLastPing`, `PingTurn`, `PingTurn.step`.
- **Reaching a `Send`.** `run_pings`.
- **Main result.** `accepted_pings_are_exact_iff`.
- **The longest wait.** `longest_wait_overflows`.
-/

namespace BasicSim

open Fallible EventLoop

/-! ## Every `Send` -/

/-- In every simulation that starts the client and stops at the end time, every `Send` before that computes
    exactly whether another ping follows and how long it is until `Finish`. -/
def SendsAreExact (client : UdpPingClient) (startNs endTimeNs : Int) : Prop :=
  ∀ {Byte World Event : Type} (it : BufferIterator Byte) (net : UdpPingNetwork Byte World Event) l₀ trace l,
    PingClientStarts startNs l₀ → Run (client.process it net).handler (endTimeNs - 1) l₀ trace l →
    ∀ t uid, (t, .inl (.send uid)) ∈ l.pending → t < endTimeNs →
      l.state.1.startTimeNs = startNs ∧ ExactAt client t l.state.1

/-- The ping `k` is one of the timetable. -/
def IsPing (fields : UdpPingFields) (k : Nat) : Prop := k = 0 ∨ k * fields.intervalNs < fields.durationNs

/-- No other ping follows the ping `k`. -/
def IsLastPing (fields : UdpPingFields) (k : Nat) : Prop :=
  IsPing fields k ∧ fields.durationNs ≤ (k + 1) * fields.intervalNs

/-- The end of the duration is an `int64_t`, and so is the delay until `Finish` after the last ping, when this
    ping is sent before the simulation ends. -/
structure FinishFits (fields : UdpPingFields) (startNs endTimeNs : Int) : Prop where
  end_lt : startNs + fields.durationNs < 2 ^ 63
  delay_lt : ∀ k : Nat, IsLastPing fields k → startNs + k * fields.intervalNs < endTimeNs →
    fields.durationNs - k * fields.intervalNs + fields.waitAfterwardsNs < 2 ^ 63

/-- What the reader and the creation of a client guarantee. -/
structure PingBounds (fields : UdpPingFields) (startNs : Int) (client : UdpPingClient) : Prop where
  intervalNs : client.intervalNs = fields.intervalNs
  durationNs : client.durationNs = fields.durationNs
  waitAfterwardsNs : client.waitAfterwardsNs = fields.waitAfterwardsNs
  start_nonneg : 0 ≤ startNs
  start_lt : startNs < 2 ^ 63
  interval_pos : 0 < fields.intervalNs
  interval_lt : fields.intervalNs < 2 ^ 63
  duration_nonneg : 0 ≤ fields.durationNs
  wait_nonneg : 0 ≤ fields.waitAfterwardsNs

section Sends

variable {fields : UdpPingFields} {startNs endTimeNs : Int} {client : UdpPingClient} {k : Nat}

theorem IsPing.le (h : IsPing fields k) (hd : 0 ≤ fields.durationNs) :
    k * fields.intervalNs ≤ fields.durationNs := by
  rcases h with rfl | h
  · simpa using hd
  · exact le_of_lt h

theorem IsPing.pred (h : IsPing fields (k + 1)) (hI : 0 < fields.intervalNs) : IsPing fields k := by
  have hlt := h.resolve_left (Nat.succ_ne_zero k)
  push_cast at hlt
  rw [add_mul, one_mul] at hlt
  exact .inr (by omega)

/-- At the time of the ping `k`, what is left is to compare the two ends with `2 ^ 63`. -/
theorem PingBounds.exactAt_iff (hb : PingBounds fields startNs client) (hk : IsPing fields k)
    (hlt : startNs + k * fields.intervalNs < 2 ^ 63) {st : UdpPingClientState}
    (hst : st.startTimeNs = startNs) :
    ExactAt client (startNs + k * fields.intervalNs) st ↔ startNs + fields.durationNs < 2 ^ 63 ∧
      (IsLastPing fields k → fields.durationNs - k * fields.intervalNs + fields.waitAfterwardsNs < 2 ^ 63) := by
  have hk0 : 0 ≤ k * fields.intervalNs := mul_nonneg (by omega) (le_of_lt hb.interval_pos)
  have hle := hk.le hb.duration_nonneg
  have := hb.start_nonneg
  have := hb.duration_nonneg
  rw [BasicSim.exactAt_iff (by omega) hlt (hb.intervalNs ▸ le_of_lt hb.interval_pos)
    (hb.intervalNs ▸ hb.interval_lt) (by rw [hst, hb.durationNs]; omega) (by rw [hst, hb.durationNs]; omega)
    (hb.waitAfterwardsNs ▸ hb.wait_nonneg), hst, hb.durationNs, hb.intervalNs, hb.waitAfterwardsNs]
  have hlast : IsLastPing fields k ↔
      ¬ startNs + k * fields.intervalNs + fields.intervalNs < startNs + fields.durationNs := by
    rw [IsLastPing, add_mul, one_mul]
    exact ⟨fun h => by omega, fun h => ⟨hk, by omega⟩⟩
  rw [hlast, show startNs + fields.durationNs - (startNs + k * fields.intervalNs)
    = fields.durationNs - k * fields.intervalNs by omega]

/-- The pending events of a client: its start, or a ping of its timetable, or no further ping. -/
inductive PingTurn (fields : UdpPingFields) (startNs : Int) (st : UdpPingClientState) :
    List (Int × UdpPingEvent) → Prop
  | start : PingTurn fields startNs st [(startNs, .startApplication)]
  | send {k uid : Nat} (ping : IsPing fields k) (startTime : st.startTimeNs = startNs) :
      PingTurn fields startNs st [(startNs + k * fields.intervalNs, .send uid)]
  | ended {pending : List (Int × UdpPingEvent)} (finish : ∀ e ∈ pending, ∃ uid, e.2 = .finish uid) :
      PingTurn fields startNs st pending

/-- A ping that is pending is one of the timetable. -/
theorem PingTurn.ping_of_mem {st : UdpPingClientState} {pending : List (Int × UdpPingEvent)}
    (h : PingTurn fields startNs st pending) {t : Int} {uid : Nat} (hmem : (t, .send uid) ∈ pending) :
    ∃ k, IsPing fields k ∧ st.startTimeNs = startNs ∧ t = startNs + k * fields.intervalNs ∧
      pending = [(t, .send uid)] := by
  cases h with
  | start => simp at hmem
  | @send k uid' ping startTime =>
      obtain ⟨rfl, heq⟩ := Prod.mk.inj (List.mem_singleton.mp hmem)
      cases heq
      exact ⟨k, ping, startTime, rfl, rfl⟩
  | ended finish =>
      obtain ⟨_, heq⟩ := finish _ hmem
      cases heq

/-- What the event that is executed can be: the only one of the client, or a `Finish`. -/
theorem PingTurn.next {st : UdpPingClientState} {before after : List (Int × UdpPingEvent)} {t : Int}
    {a : UdpPingEvent} (h : PingTurn fields startNs st (before ++ (t, a) :: after)) :
    (before = [] ∧ after = [] ∧ ((t = startNs ∧ a = .startApplication) ∨
      ∃ k uid, IsPing fields k ∧ st.startTimeNs = startNs ∧ t = startNs + k * fields.intervalNs ∧ a = .send uid)) ∨
    (∃ uid, a = .finish uid) ∧ ∀ e ∈ before ++ after, ∃ uid, e.2 = .finish uid := by
  generalize hpending : before ++ (t, a) :: after = pending at h
  cases h with
  | start =>
      obtain ⟨hbefore, heq, hafter⟩ := append_cons_eq_singleton hpending
      obtain ⟨rfl, rfl⟩ := Prod.mk.inj heq
      exact .inl ⟨hbefore, hafter, .inl ⟨rfl, rfl⟩⟩
  | @send k uid ping startTime =>
      obtain ⟨hbefore, heq, hafter⟩ := append_cons_eq_singleton hpending
      obtain ⟨rfl, rfl⟩ := Prod.mk.inj heq
      exact .inl ⟨hbefore, hafter, .inr ⟨k, uid, ping, startTime, rfl, rfl⟩⟩
  | ended finish =>
      subst hpending
      refine .inr ⟨finish _ (List.mem_append_right _ List.mem_cons_self), ?_⟩
      intro e he
      exact finish e ((List.mem_append.mp he).elim (List.mem_append_left _)
        fun he => List.mem_append_right _ (List.mem_cons_of_mem _ he))

/-- The events of a client have no part in the computations. -/
theorem ExactAt.withEvents {nowNs : Int} {st : UdpPingClientState} (h : ExactAt client nowNs st)
    (events : ScheduledEvents) : ExactAt client nowNs { st with events := events } := ⟨h.follows, h.delay⟩

/-- A ping of the timetable before the simulation ends is sent exactly. -/
theorem FinishFits.exactAt (h : FinishFits fields startNs endTimeNs)
    (hb : PingBounds fields startNs client) (hk : IsPing fields k)
    (hlt : startNs + k * fields.intervalNs < endTimeNs) {st : UdpPingClientState}
    (hst : st.startTimeNs = startNs) : ExactAt client (startNs + k * fields.intervalNs) st := by
  have hle := hk.le hb.duration_nonneg
  have hend := h.end_lt
  rw [hb.exactAt_iff hk (by omega) hst]
  exact ⟨hend, fun hlast => h.delay_lt k hlast hlt⟩

section Step

variable {Byte World Event : Type} {it : BufferIterator Byte} {net : UdpPingNetwork Byte World Event}
  {nowNs : Int} {uid : Nat} {st st' : UdpPingClientState} {rest rest' : UdpPingClientData × World}
  {new : List (Int × UdpPingEvent)} {xs : List (Int × Event)}

theorem startApplication_eq_ok
    (h : (client.process it net).own .startApplication nowNs st rest = .ok ((st', new), (rest', xs))) :
    (st', new) = UdpPingClient.scheduleTransmit 0 { st with startTimeNs := nowNs } := by
  obtain ⟨_, hstart, h⟩ := bind_eq_ok.mp h
  obtain ⟨_, -, hstart⟩ := bind_eq_ok.mp hstart
  cases hstart
  cases h
  rfl

theorem send_eq_ok
    (h : (client.process it net).own (.send uid) nowNs st rest = .ok ((st', new), (rest', xs))) :
    client.scheduleAfterSend nowNs { st with events := st.events.execute uid } = .ok (st', new) := by
  obtain ⟨_, hsend, h⟩ := bind_eq_ok.mp h
  obtain ⟨-, hsend⟩ := throwIf_bind_eq_ok.mp hsend
  obtain ⟨-, hsend⟩ := throwIf_bind_eq_ok.mp hsend
  obtain ⟨_, hnext, hsend⟩ := bind_eq_ok.mp hsend
  cases hsend
  cases h
  exact hnext

theorem finish_eq_ok
    (h : (client.process it net).own (.finish uid) nowNs st rest = .ok ((st', new), (rest', xs))) :
    new = [] := by
  obtain ⟨_, -, h⟩ := bind_eq_ok.mp h
  cases h
  rfl

/-- `ScheduleTransmit` for a ping of the timetable. -/
theorem PingTurn.of_scheduleTransmit {dtNs : Int} (hk : IsPing fields k) (hst : st.startTimeNs = startNs)
    (ht : nowNs + dtNs = startNs + k * fields.intervalNs)
    (h : (st', new) = UdpPingClient.scheduleTransmit dtNs st) :
    PingTurn fields startNs st' (new.map fun p => (nowNs + p.1, p.2)) := by
  cases h
  rw [List.map_singleton, ht]
  exact .send hk hst

/-- After a ping of the timetable, the next one is pending, or no further one. -/
theorem PingTurn.of_scheduleAfterSend (hb : PingBounds fields startNs client) (hst : st.startTimeNs = startNs)
    (hexact : ExactAt client (startNs + k * fields.intervalNs) st)
    (h : client.scheduleAfterSend (startNs + k * fields.intervalNs) st = .ok (st', new)) :
    PingTurn fields startNs st' (new.map fun p => (startNs + k * fields.intervalNs + p.1, p.2)) := by
  rw [scheduleAfterSend_eq hexact] at h
  split at h
  · next hmore =>
      have hping : IsPing fields (k + 1) := by
        rw [hst, hb.durationNs, hb.intervalNs] at hmore
        refine .inr ?_
        push_cast
        rw [add_mul, one_mul]
        omega
      refine .of_scheduleTransmit hping hst ?_ (Except.ok.inj h).symm
      push_cast
      rw [add_mul, one_mul, hb.intervalNs, add_assoc]
  · cases h
    refine .ended ?_
    intro e he
    rw [List.map_singleton, List.mem_singleton] at he
    exact ⟨st.events.count, by rw [he]⟩

variable {l l' : Loop (UdpPingClientState × UdpPingClientData × World) (UdpPingEvent ⊕ Event)}

/-- **Step lemma.** When its pings are sent exactly, the client keeps to its timetable. -/
theorem PingTurn.step (hfits : FinishFits fields startNs endTimeNs) (hb : PingBounds fields startNs client)
    (h : PingTurn fields startNs l.state.1 (ownEvents l.pending)) {e : Int × (UdpPingEvent ⊕ Event)}
    (hle : e.1 ≤ endTimeNs - 1) (hstep : Step (client.process it net).handler l e l') :
    PingTurn fields startNs l'.state.1 (ownEvents l'.pending) := by
  rcases Process.step_cases hstep with ⟨t, a, before, after, s, as, r, xs, rfl, hmem, hown, hstate, hnext⟩ |
    ⟨t, x, r, xs, rfl, -, hstate, hsame⟩
  · rw [hmem] at h
    rw [hstate, hnext]
    rcases h.next with ⟨rfl, rfl, ⟨rfl, rfl⟩ | ⟨k, uid, hk, hst, rfl, rfl⟩⟩ | ⟨⟨uid, rfl⟩, hover⟩
    · -- the start schedules the first ping
      refine .of_scheduleTransmit (k := 0) (.inl rfl) rfl ?_ (startApplication_eq_ok hown)
      simp
    · have hlt : startNs + k * fields.intervalNs < endTimeNs := by
        have : startNs + k * fields.intervalNs ≤ endTimeNs - 1 := hle
        omega
      have hst' : ({ l.state.1 with events := l.state.1.events.execute uid } : UdpPingClientState).startTimeNs
          = startNs := hst
      rw [List.nil_append, List.nil_append]
      exact .of_scheduleAfterSend hb hst' (hfits.exactAt hb hk hlt hst') (send_eq_ok hown)
    · rw [finish_eq_ok hown, List.map_nil, List.append_nil]
      exact .ended hover
  · rw [hstate, hsame]
    exact h

end Step

/-- **Run lemma.** When the end of the duration and the last delay are in range, every ping is sent exactly. -/
theorem FinishFits.sendsAreExact (hfits : FinishFits fields startNs endTimeNs)
    (hb : PingBounds fields startNs client) : SendsAreExact client startNs endTimeNs := by
  intro Byte World Event it net l₀ trace l hstarts hrun t uid hmem hlt
  have hturn : PingTurn fields startNs l.state.1 (ownEvents l.pending) := by
    refine hrun.invariantUntil (fun _ l => PingTurn fields startNs l.state.1 (ownEvents l.pending)) ?_ ?_
    · exact fun _ _ _ _ hturn hle hstep => hturn.step hfits hb hle hstep
    · rw [hstarts.1]
      exact .start
  obtain ⟨k, hk, hst, rfl, -⟩ := hturn.ping_of_mem (mem_ownEvents.mpr hmem)
  exact ⟨hst, hfits.exactAt hb hk hlt hst⟩

/-! ## Reaching a `Send` -/

/-- A simulation that only starts the client. -/
def pingStartLoop (startNs : Int) :
    Loop (UdpPingClientState × UdpPingClientData × Unit) (UdpPingEvent ⊕ Empty) :=
  ⟨0, (.initial, .initial, ()), [(startNs, .inl .startApplication)]⟩

/-- As long as the pings before are sent exactly, a ping of the timetable is reached. -/
theorem run_pings (hb : PingBounds fields startNs client) (h : SendsAreExact client startNs endTimeNs)
    (hk : IsPing fields k) (hlt : startNs + k * fields.intervalNs < endTimeNs) :
    ∃ trace l, Run (client.process networkOrder quietUdpPingNetwork).handler (endTimeNs - 1)
        (pingStartLoop startNs) trace l ∧
      l.pending = [(startNs + k * fields.intervalNs, .inl (.send k))] ∧
      l.state.1.startTimeNs = startNs ∧ l.state.1.events = scheduledAfter (k + 1) ∧
      l.state.2.1.hasSocket = true := by
  have hstarts : PingClientStarts startNs (pingStartLoop startNs) := ⟨rfl, rfl, rfl⟩
  induction k with
  -- only the start has been executed
  | zero =>
      have hrun : Run (client.process networkOrder quietUdpPingNetwork).handler (endTimeNs - 1)
          (pingStartLoop startNs) [] (pingStartLoop startNs) := .start
      have hle : startNs ≤ endTimeNs - 1 := by
        simp at hlt
        omega
      have hrun' := hrun.ownStep hle (process_start networkOrder quietUdpPingNetwork startNs () rfl rfl) (by simp)
      exact ⟨_, _, hrun', by simp [inOwn], rfl, rfl, rfl⟩
  | succ k ih =>
      -- ping `k + 1` exists, so ping `k` plans it
      have hmore : startNs + k * fields.intervalNs + client.intervalNs < startNs + client.durationNs := by
        have := hk.resolve_left (Nat.succ_ne_zero k)
        push_cast at this
        rw [add_mul, one_mul] at this
        rw [hb.intervalNs, hb.durationNs]
        omega
      have hlt' : startNs + k * fields.intervalNs < endTimeNs := by
        have := hb.interval_pos
        push_cast at hlt
        rw [add_mul, one_mul] at hlt
        omega
      obtain ⟨trace, ⟨now, ⟨st, data, world⟩, pending⟩, hrun, hpending, hst, hevents, hsocket⟩ :=
        ih (hk.pred hb.interval_pos) hlt'
      cases hpending
      -- the hypothesis speaks of every run, so of the one up to ping `k`
      obtain ⟨-, hexact⟩ := h networkOrder quietUdpPingNetwork _ trace _ hstarts hrun _ k List.mem_cons_self hlt'
      have hnext := scheduleAfterSend_eq (hexact.withEvents ⟨k + 1, []⟩)
      rw [if_pos (by rw [hst]; exact hmore)] at hnext
      have hown := process_send networkOrder quietUdpPingNetwork _ world hevents hsocket hnext
      have hdelay : 0 ≤ client.intervalNs := hb.intervalNs ▸ le_of_lt hb.interval_pos
      have htime : startNs + k * fields.intervalNs + client.intervalNs
          = startNs + (k + 1 : Nat) * fields.intervalNs := by
        push_cast
        rw [add_mul, one_mul, hb.intervalNs, add_assoc]
      refine ⟨_, _, hrun.ownStep (by omega) hown ?_, ?_, hst, rfl, hsocket⟩
      · exact fun p hp => List.mem_singleton.mp hp ▸ hdelay
      · rw [← htime]
        rfl

theorem SendsAreExact.fits (h : SendsAreExact client startNs endTimeNs) (hb : PingBounds fields startNs client)
    (hlt : startNs < endTimeNs) : FinishFits fields startNs endTimeNs := by
  have hat : ∀ {k : Nat}, IsPing fields k → startNs + k * fields.intervalNs < endTimeNs →
      startNs + k * fields.intervalNs < 2 ^ 63 → startNs + fields.durationNs < 2 ^ 63 ∧
        (IsLastPing fields k → fields.durationNs - k * fields.intervalNs + fields.waitAfterwardsNs < 2 ^ 63) := by
    intro k hk hlt hlt63
    obtain ⟨trace, l, hrun, hpending, hst, -, -⟩ := run_pings hb h hk hlt
    obtain ⟨-, hexact⟩ := h networkOrder quietUdpPingNetwork _ trace l ⟨rfl, rfl, rfl⟩ hrun _ k
      (hpending ▸ List.mem_cons_self) hlt
    exact (hb.exactAt_iff hk hlt63 hst).mp hexact
  have hend : startNs + fields.durationNs < 2 ^ 63 := by
    have hstart := hb.start_lt
    exact (@hat 0 (.inl rfl) (by simpa using hlt) (by simpa using hstart)).1
  refine ⟨hend, ?_⟩
  intro k hlast hk
  have hle := hlast.1.le hb.duration_nonneg
  exact (hat hlast.1 hk (by omega)).2 hlast

end Sends

/-! ## Main result -/

/-- **The computations of `Send` are exact** for the accepted entries whose end and whose last delay are
    `int64_t`, and for no others. -/
theorem accepted_pings_are_exact_iff {filename : Str} {file : File} {topology : TopologyPtop}
    {endTimeNs : Int} {schedule : List UdpPingInfo}
    (hread : readUdpPingSchedule filename file topology endTimeNs = .ok schedule)
    {entry : UdpPingInfo} (hentry : entry ∈ schedule) {World Event : Type}
    {nodes : NodeContainer UdpPingClient World Event} {settings : SchedulerSettings}
    {world world' : World} {client : UdpPingClient} {events : List (Int × Event)}
    (hclient : createUdpPingClient nodes settings entry world = .ok (client, world', events)) :
    SendsAreExact client entry.startTimeNs endTimeNs ↔ FinishFits entry.fields entry.startTimeNs endTimeNs := by
  have hbelongs := createUdpPingClient_belongs hclient
  obtain ⟨⟨line, hline⟩, hlt⟩ := exists_line_of_mem (fun _ _ => says_udpPing) hread hentry
  obtain ⟨_, _, _, _, _, _, _, -, -, -, -, hinterval, hstart, hduration, hwait, hne⟩ := hline
  have hb : PingBounds entry.fields entry.startTimeNs client :=
    { intervalNs := hbelongs.intervalNs
      durationNs := hbelongs.durationNs
      waitAfterwardsNs := hbelongs.waitAfterwardsNs
      start_nonneg := parsePositiveInt64_nonneg hstart
      start_lt := parsePositiveInt64_lt hstart
      interval_pos := lt_of_le_of_ne (parsePositiveInt64_nonneg hinterval) hne.symm
      interval_lt := parsePositiveInt64_lt hinterval
      duration_nonneg := parsePositiveInt64_nonneg hduration
      wait_nonneg := parsePositiveInt64_nonneg hwait }
  exact ⟨fun h => h.fits hb hlt, fun h => h.sendsAreExact hb⟩

theorem createUdpPingClient_pairPing (intervalNs durationNs waitAfterwardsNs : Int) :
    createUdpPingClient (quietNodes UdpPingClient) ⟨true, [], ∅⟩
      (pairPing intervalNs durationNs waitAfterwardsNs) ()
        = .ok (pairPingClientOf intervalNs durationNs waitAfterwardsNs, (), []) := rfl

theorem read_tenNanosecondPings :
    readUdpPingSchedule [] (.content "0,0,1,10,0,25,10,,".toList) pairTopology 1 = .ok [pairPing 10 25 10] := by
  decide

theorem accepted_pings_are_exact_iff_tenNanoseconds : SendsAreExact (pairPingClientOf 10 25 10) 0 1 :=
  (accepted_pings_are_exact_iff read_tenNanosecondPings List.mem_cons_self
    (createUdpPingClient_pairPing 10 25 10)).mpr
    ⟨by decide, fun k _ hk => by simp [pairPing] at hk ⊢; omega⟩

/-! ## The longest wait -/

theorem read_longestWait :
    readUdpPingSchedule [] (.content "0,0,1,1,0,1,9223372036854775807,,".toList) pairTopology 1
      = .ok [pairPing 1 1 9223372036854775807] := by decide

/-- **A ping of a nanosecond, with the longest wait.** It is accepted, and the delay until `Finish` after the
    only ping is negative. -/
theorem longest_wait_overflows :
    readUdpPingSchedule [] (.content "0,0,1,1,0,1,9223372036854775807,,".toList) pairTopology 1
      = .ok [pairPing 1 1 9223372036854775807] ∧
    (pairPingClientOf 1 1 9223372036854775807).finishDelayNs 0 .initial = .ok (-9223372036854775808) ∧
    ¬ SendsAreExact (pairPingClientOf 1 1 9223372036854775807) 0 1 := by
  refine ⟨read_longestWait, by decide, ?_⟩
  intro h
  have hb : PingBounds (pairPing 1 1 9223372036854775807).fields 0
      (pairPingClientOf 1 1 9223372036854775807) := by
    constructor <;> decide
  have hlt := (h.fits hb (by decide)).delay_lt 0 ⟨.inl rfl, by decide⟩ (by decide)
  revert hlt
  decide

end BasicSim
