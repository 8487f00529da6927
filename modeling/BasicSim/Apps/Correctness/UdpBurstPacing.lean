import BasicSim.Apps.Correctness.ScheduleFormats
import BasicSim.Apps.Correctness.ScheduledStarts
import BasicSim.Apps.UdpBurst
import BasicSim.Core.Correctness.Double

/-!
# `Apps.Correctness.UdpBurstPacing` — when the sending of a burst comes to an end

The gap between two packets is computed from the target rate of the schedule in floating point. For rates that
make it a positive number of nanoseconds below `2 ^ 63` the client works through a timetable and stops. The
reader accepts other rates too: without a number as its rate the client is not created, and with a tiny rate the
gap does not fit.

## Contents
- **The gap.** `packetGapNs` for every rate of a client (`packetGap_inRange_iff`).
- **The timetable.** `sendCount`, `burstEventAt`, `burstTimeAt`, `burst_timetable`.
- **Main result.** `Paced`, `accepted_bursts_are_paced_iff`.
- **The burst with a tiny rate.** `tiny_rate_has_no_gap`.
-/

namespace BasicSim

open Fallible EventLoop Rounding

/-! ## The gap -/

section Gap

variable {client : UdpBurstClient} {sizes : UdpBurstSizes}

/-- The gap is defined, and a positive 63-bit number of nanoseconds. -/
def GapInRange (client : UdpBurstClient) (sizes : UdpBurstSizes) : Prop :=
  ∃ gapNs, client.packetGapNs sizes = .ok gapNs ∧ 1 ≤ gapNs.toNat ∧ gapNs.toNat < 2 ^ 63

/-- The rate is not too small: an 8000th of it is above the middle of the two doubles between which this quotient lies. -/
def RateInRange (sizes : UdpBurstSizes) (q : Rat) : Prop :=
  RoundsAbove 53 (-1074) ((sizes.maxSegmentSizeByte.toNat : Rat) / (2 ^ 63 - 512)) (q / 8000)

instance (sizes : UdpBurstSizes) (q : Rat) : Decidable (RateInRange sizes q) :=
  inferInstanceAs (Decidable (RoundsAbove _ _ _ _))

theorem maxValue_div_le : Double.maxValue / 8000 ≤ 2 ^ (1012 : Int) := by
  rw [div_le_iff₀ (by norm_num)]
  calc Double.maxValue
      ≤ 2 ^ (41 : Int) * 8000 * 2 ^ (971 : Int) := mul_le_mul_of_nonneg_right (by norm_num) (zpow_pos two_pos _).le
    _ = 2 ^ (41 + 971 : Int) * 8000 := by rw [zpow_add₀ two_ne_zero]; ring
    _ = 2 ^ (1012 : Int) * 8000 := rfl

/-- The double nearest to an 8000th of a rate. -/
theorem nearest_rate_le {q : Rat} (hq : 0 < q) (hmax : q ≤ Double.maxValue) :
    nearest 53 (-1074) (q / 8000) ≤ 2 ^ (1012 : Int) :=
  nearest_le_of_representable (by decide) (zpow_pos two_pos _) (by positivity)
    (representable_zpow (by decide) (by decide))
    ((div_le_div_of_nonneg_right hmax (by norm_num)).trans maxValue_div_le)

/-- With a rate that an attribute may have, the gap is the rounded quotient, rounded up. -/
theorem packetGapNs_eq {q : Rat} (hq : 0 < q) (hmax : q ≤ Double.maxValue)
    (h : client.targetRateMegabitPerSec = .finite q) :
    client.packetGapNs sizes =
      (if nearest 53 (-1074) (q / 8000) = 0 then
        (if (sizes.maxSegmentSizeByte.toNat : Rat) = 0 then .nan else .inf false)
      else .ofRat (sizes.maxSegmentSizeByte.toNat / nearest 53 (-1074) (q / 8000)) : Double).ceil.toUInt64 := by
  have hpos : (0 : Rat) < q / 8000 := by positivity
  have habs : |nearest 53 (-1074) (q / 8000)| < 2 ^ (1024 : Int) := by
    rw [abs_of_nonneg (nearest_nonneg hpos.le)]
    exact lt_of_le_of_lt (nearest_rate_le hq hmax) (two_zpow_lt (by decide))
  have h8000 : ¬ (8000 : Rat) = 0 := by norm_num
  have hneg : ¬ (sizes.maxSegmentSizeByte.toNat : Rat) < 0 := not_lt.mpr (Nat.cast_nonneg _)
  rw [UdpBurstClient.packetGapNs, h]
  simp only [Double.div, if_neg h8000, Double.ofRat, if_pos habs, hneg, decide_false]

/-- A rounded quotient that is rounded up is in range if it was at most `2 ^ 63 - 1`. -/
theorem ceil_inRange_iff {z : Rat} (hz0 : 0 < z) (negative : Bool) :
    (∃ gapNs, (if |z| < 2 ^ (1024 : Int) then .finite z else .inf negative : Double).ceil.toUInt64 = .ok gapNs ∧
      1 ≤ gapNs.toNat ∧ gapNs.toNat < 2 ^ 63) ↔ z ≤ 2 ^ 63 - 1 := by
  have hceil0 : 1 ≤ ⌈z⌉ := Int.one_le_ceil_iff.mpr hz0
  constructor
  · rintro ⟨gapNs, hgap, -, hlt⟩
    split at hgap
    · rw [Double.ceil, Double.toUInt64_intCast] at hgap
      split at hgap
      · rename_i hrange
        cases hgap
        have hnat := toNat_toUInt64 hrange.1 hrange.2
        have hceil : ⌈z⌉ ≤ 2 ^ 63 - 1 := by omega
        exact_mod_cast Int.ceil_le.mp hceil
      · cases hgap
    · cases hgap
  · intro hz
    have hceil : ⌈z⌉ ≤ 2 ^ 63 - 1 := Int.ceil_le.mpr (by exact_mod_cast hz)
    have habs : |z| < 2 ^ (1024 : Int) := by
      rw [abs_of_pos hz0]
      refine lt_of_le_of_lt hz (lt_trans (sub_one_lt _) ?_)
      exact two_zpow_lt (k := 63) (by decide)
    have hnat := toNat_toUInt64 (x := ⌈z⌉) (by omega) (by omega)
    refine ⟨toUInt64 ⌈z⌉, ?_, by omega, by omega⟩
    rw [if_pos habs, Double.ceil, Double.toUInt64_intCast, if_pos ⟨by omega, by omega⟩]

/-- **The gap is in range exactly for the rates that are not too small.** -/
theorem packetGap_inRange_iff {q : Rat} (hq : 0 < q) (hmax : q ≤ Double.maxValue)
    (h : client.targetRateMegabitPerSec = .finite q) (hsize : 0 < sizes.maxSegmentSizeByte.toNat) :
    GapInRange client sizes ↔ RateInRange sizes q := by
  have hsize' : (1 : Rat) ≤ sizes.maxSegmentSizeByte.toNat := by exact_mod_cast hsize
  have hpos : (0 : Rat) < q / 8000 := by positivity
  have hle := nearest_rate_le hq hmax
  have hy0 : 0 ≤ nearest 53 (-1074) (q / 8000) := nearest_nonneg hpos.le
  have hlarge : (0 : Rat) < 2 ^ 63 - 512 := by norm_num
  have hc : 0 < (sizes.maxSegmentSizeByte.toNat : Rat) / (2 ^ 63 - 512) :=
    div_pos (lt_of_lt_of_le one_pos hsize') hlarge
  rw [GapInRange, RateInRange, packetGapNs_eq hq hmax h, ← lt_nearest_iff (by decide) hc hpos]
  generalize nearest 53 (-1074) (q / 8000) = y at hle hy0 ⊢
  rcases hy0.eq_or_lt with rfl | hy
  · -- the quotient is infinite
    rw [if_pos rfl, if_neg (ne_of_gt (lt_of_lt_of_le one_pos hsize'))]
    refine iff_of_false ?_ (not_lt.mpr hc.le)
    rintro ⟨_, hgap, -⟩
    cases hgap
  · rw [if_neg hy.ne', div_lt_comm₀ hlarge hy, ← not_le, ← lt_nearest_gap_iff (by positivity), not_lt]
    -- the quotient is not so small that it is rounded to zero
    have hmin : (2 : Rat) ^ (-1074 : Int) ≤ sizes.maxSegmentSizeByte.toNat / y := by
      rw [le_div_iff₀ hy]
      calc (2 : Rat) ^ (-1074 : Int) * y
          ≤ 2 ^ (-1074 : Int) * 2 ^ (1012 : Int) := mul_le_mul_of_nonneg_left hle (zpow_pos two_pos _).le
        _ = 2 ^ (-62 : Int) := (zpow_add₀ two_ne_zero _ _).symm
        _ ≤ 1 := zpow_le_one_of_nonpos₀ one_le_two (by decide)
        _ ≤ sizes.maxSegmentSizeByte.toNat := hsize'
    exact ceil_inRange_iff (nearest_pos (by decide) hmin) _

end Gap

/-! ## The timetable -/

/-- How many packets fit: one at the start, and one for each gap that ends before the duration does. -/
def sendCount (durationNs : Int) (gapNs : Nat) : Nat := 1 + (durationNs - 1).toNat / gapNs

theorem one_le_sendCount (durationNs : Int) (gapNs : Nat) : 1 ≤ sendCount durationNs gapNs :=
  Nat.le_add_right 1 _

/-- The events of a client, in order. -/
def burstEventAt : Nat → UdpBurstEvent
  | 0 => .startApplication
  | _ + 1 => .send

/-- When they are due. -/
def burstTimeAt (startNs : Int) (gapNs : Nat) : Nat → Int
  | 0 => startNs
  | k + 1 => startNs + k * gapNs

/-- What the client knows once `k` of its events are over. -/
structure BurstProgress (startNs : Int) (k : Nat) (st : UdpBurstClientState) : Prop where
  startTime : 0 < k → st.startTimeNs = startNs
  sent : st.sent = BitVec.ofNat 32 (k - 1)

theorem burstProgress_initial (startNs : Int) : BurstProgress startNs 0 .initial :=
  ⟨fun h => absurd h (lt_irrefl 0), rfl⟩

/-- Another gap ends before the duration does. -/
theorem lt_sendCount_iff {durationNs : Int} {gapNs k : Nat} (hgap : 1 ≤ gapNs) :
    k + 1 < sendCount durationNs gapNs ↔ ((k + 1 : Nat) : Int) * gapNs < durationNs := by
  have hle : k + 1 ≤ (durationNs - 1).toNat / gapNs ↔ (k + 1) * gapNs ≤ (durationNs - 1).toNat :=
    Nat.le_div_iff_mul_le hgap
  have hpos : 0 < (k + 1) * gapNs := Nat.mul_pos (Nat.succ_pos k) hgap
  have hcast : ((k + 1 : Nat) : Int) * gapNs = (((k + 1) * gapNs : Nat) : Int) := by push_cast; ring
  unfold sendCount
  rw [hcast]
  omega

section Timetable

variable {client : UdpBurstClient} {sizes : UdpBurstSizes} {gapNs : BitVec 64} {startNs : Int}

/-- The comparison of the source, when nothing overflows. -/
theorem scheduleNextSend_eq (hgap : client.packetGapNs sizes = .ok gapNs) (hlt : gapNs.toNat < 2 ^ 63)
    (nowNs : Int) (st : UdpBurstClientState) (h0 : 0 ≤ nowNs) (hnow : nowNs < 2 ^ 63)
    (hend0 : 0 ≤ st.startTimeNs + client.durationNs) (hend : st.startTimeNs + client.durationNs < 2 ^ 63) :
    client.scheduleNextSend sizes nowNs st = .ok
      (if nowNs + gapNs.toNat < st.startTimeNs + client.durationNs then
        [((gapNs.toNat : Int), UdpBurstEvent.send)] else []) := by
  have hnow' := toNat_toUInt64 h0 (by omega)
  have hend' := toNat_toUInt64 hend0 (by omega)
  have hint : gapNs.toInt = gapNs.toNat := by
    rw [BitVec.toInt_eq_toNat_cond]
    omega
  have hiff : toUInt64 nowNs + gapNs < toUInt64 (st.startTimeNs + client.durationNs) ↔
      nowNs + gapNs.toNat < st.startTimeNs + client.durationNs := by
    rw [BitVec.lt_def, BitVec.toNat_add]
    omega
  unfold UdpBurstClient.scheduleNextSend
  rw [hgap, ok_bind, int64_of_mem ⟨by omega, hend⟩, ok_bind]
  by_cases h : nowNs + gapNs.toNat < st.startTimeNs + client.durationNs
  · rw [if_pos (hiff.mpr h), if_pos h, hint]
  · rw [if_neg fun h' => h (hiff.mp h'), if_neg h]

/-- **The client works through a timetable**, in any simulation. -/
theorem burst_timetable {Byte World Event : Type} (it : BufferIterator Byte)
    (net : UdpNetwork Byte World Event) (hgap : client.packetGapNs sizes = .ok gapNs)
    (h1 : 1 ≤ gapNs.toNat) (hlt : gapNs.toNat < 2 ^ 63) (h0 : 0 ≤ startNs) (hd : 0 ≤ client.durationNs)
    (hend : startNs + client.durationNs < 2 ^ 63) :
    Timetable (client.process it sizes net) (BurstProgress startNs) burstEventAt
      (burstTimeAt startNs gapNs.toNat) (1 + sendCount client.durationNs gapNs.toNat) := by
  constructor
  · intro k _
    cases k with
    | zero => simp [burstTimeAt]
    | succ k =>
        simp only [burstTimeAt]
        push_cast
        nlinarith
  · intro k st world hk hst
    cases k with
    | zero =>
        have hcount := one_le_sendCount client.durationNs gapNs.toNat
        have hprogress : BurstProgress startNs 1 { st with startTimeNs := startNs } :=
          ⟨fun _ => rfl, hst.sent⟩
        refine ⟨_, world, [], ?_, hprogress, by simp⟩
        rw [if_pos (by omega)]
        refine (UdpBurstClient.process_startApplication net world).trans ?_
        simp [burstTimeAt, burstEventAt]
    | succ k =>
        have hstart := hst.startTime (Nat.succ_pos k)
        -- this packet is sent before the duration ends, or it is the first one
        have hk' : (k : Int) * gapNs.toNat ≤ client.durationNs := by
          cases k with
          | zero => simpa using hd
          | succ k => exact le_of_lt ((lt_sendCount_iff h1).mp (by omega))
        have hk0 : 0 ≤ (k : Int) * gapNs.toNat := by positivity
        have hsent : (client.sendPacket it sizes (startNs + k * gapNs.toNat) st).2.startTimeNs = startNs := by
          rw [UdpBurstClient.sendPacket_startTimeNs, hstart]
        have hsched := scheduleNextSend_eq hgap hlt (startNs + k * gapNs.toNat)
          (client.sendPacket it sizes (startNs + k * gapNs.toNat) st).2 (by omega) (by omega) (by omega) (by omega)
        rw [hsent] at hsched
        have hprogress : BurstProgress startNs (k + 1 + 1)
            (client.sendPacket it sizes (startNs + k * gapNs.toNat) st).2 := by
          refine ⟨fun _ => hstart, ?_⟩
          rw [UdpBurstClient.sendPacket_sent, hst.sent]
          exact (BitVec.ofNat_add k 1).symm
        have hdelays := net.delays_nonneg
          (client.sendPacket it sizes (startNs + k * gapNs.toNat) st).1 (startNs + k * gapNs.toNat) world
        rcases hsocket : net.socketSend (client.sendPacket it sizes (startNs + k * gapNs.toNat) st).1
          (startNs + k * gapNs.toNat) world with ⟨world', events⟩
        rw [hsocket] at hdelays
        refine ⟨_, world', events, ?_, hprogress, hdelays⟩
        have hiff : startNs + k * gapNs.toNat + gapNs.toNat < startNs + client.durationNs ↔
            k + 1 + 1 < 1 + sendCount client.durationNs gapNs.toNat := by
          have hcount : k + 1 < sendCount client.durationNs gapNs.toNat ↔ _ := lt_sendCount_iff h1
          push_cast at hcount
          rw [add_mul, one_mul] at hcount
          omega
        have hdelay : startNs + (k + 1 : Nat) * gapNs.toNat - (startNs + k * gapNs.toNat)
            = (gapNs.toNat : Int) := by
          push_cast
          ring
        simp only [burstTimeAt, burstEventAt, hdelay]
        rw [UdpBurstClient.process_send, hsched, ok_bind, hsocket, if_congr hiff rfl rfl]

end Timetable

/-! ## Main result -/

section Paced

variable {client : UdpBurstClient} {sizes : UdpBurstSizes} {startNs : Int}

/-- The loop is about to start a client that was just created. -/
def ClientStarts {World Event : Type} (startNs : Int)
    (l : Loop (UdpBurstClientState × World) (UdpBurstEvent ⊕ Event)) : Prop :=
  ownEvents l.pending = [(startNs, .startApplication)] ∧ l.state.1 = .initial

/-- The times at which the client executed `Send`. -/
def sendTimes {Event : Type} (trace : List (Int × (UdpBurstEvent ⊕ Event))) : List Int :=
  ((ownEvents trace).filter fun e => e.2 = .send).map Prod.fst

/-- **A burst comes to an end.** The gap is in range; and in every simulation in which the client is started,
    its next event can always be executed, every `Send` is later than the one before, and there is a bound on
    how many there are. -/
structure Paced (client : UdpBurstClient) (sizes : UdpBurstSizes) (startNs : Int) : Prop where
  gap : GapInRange client sizes
  executes : ∀ {Byte World Event : Type} (it : BufferIterator Byte) (net : UdpNetwork Byte World Event)
    endTime l₀ trace l, ClientStarts startNs l₀ →
    Run (client.process it sizes net).handler endTime l₀ trace l →
    ∀ t e, (t, .inl e) ∈ l.pending → ∃ state new,
      (client.process it sizes net).handler (.inl e) t l.state = .ok (state, new) ∧ ∀ p ∈ new, 0 ≤ p.1
  advances : ∀ {Byte World Event : Type} (it : BufferIterator Byte) (net : UdpNetwork Byte World Event)
    endTime l₀ trace l, ClientStarts startNs l₀ →
    Run (client.process it sizes net).handler endTime l₀ trace l → (sendTimes trace).Pairwise (· < ·)
  ends : ∃ N, ∀ {Byte World Event : Type} (it : BufferIterator Byte) (net : UdpNetwork Byte World Event)
    endTime l₀ trace l, ClientStarts startNs l₀ →
    Run (client.process it sizes net).handler endTime l₀ trace l → (sendTimes trace).length ≤ N

/-- The sends among the first events of the timetable. -/
theorem filter_burstEventAt (gapNs k : Nat) :
    (((List.range k).map fun i => (burstTimeAt startNs gapNs i, burstEventAt i)).filter
      fun e => e.2 = .send).map Prod.fst = (List.range (k - 1)).map fun i : Nat => startNs + (i : Int) * gapNs := by
  cases k with
  | zero => rfl
  | succ k =>
      rw [List.range_succ_eq_map, List.map_cons, List.map_map,
        List.filter_cons_of_neg (by simp [burstEventAt]), List.filter_eq_self.mpr (by simp [burstEventAt])]
      simp [burstTimeAt, Function.comp_def]

/-- Whatever the events before are, the client keeps to the timetable. -/
theorem paced_of_gapInRange (hgap : GapInRange client sizes) (h0 : 0 ≤ startNs)
    (hd : 0 ≤ client.durationNs) (hend : startNs + client.durationNs < 2 ^ 63) :
    Paced client sizes startNs := by
  obtain ⟨gapNs, hrun, h1, hlt⟩ := hgap
  -- the run lemma of timetables, for every loop that starts the client
  have honTime : ∀ {Byte World Event : Type} (it : BufferIterator Byte)
      (net : UdpNetwork Byte World Event) endTime l₀ trace l, ClientStarts startNs l₀ →
      Run (client.process it sizes net).handler endTime l₀ trace l →
      ∃ k, OnTime (BurstProgress startNs) burstEventAt (burstTimeAt startNs gapNs.toNat)
        (1 + sendCount client.durationNs gapNs.toNat) k trace l :=
    fun it net endTime l₀ trace l hstarts hl => by
      refine (burst_timetable it net hrun h1 hlt h0 hd hend).run ?_ ?_ hl
      · rw [hstarts.1, due, if_pos (Nat.add_pos_left Nat.one_pos _)]
        rfl
      · rw [hstarts.2]
        exact burstProgress_initial startNs
  refine ⟨⟨gapNs, hrun, h1, hlt⟩, ?_, ?_, sendCount client.durationNs gapNs.toNat, ?_⟩
  · intro Byte World Event it net endTime l₀ trace l hstarts hl t e hmem
    obtain ⟨k, hk⟩ := honTime it net endTime l₀ trace l hstarts hl
    exact hk.executes (burst_timetable it net hrun h1 hlt h0 hd hend) hmem
  · intro Byte World Event it net endTime l₀ trace l hstarts hl
    obtain ⟨k, hk⟩ := honTime it net endTime l₀ trace l hstarts hl
    rw [sendTimes, hk.executed, filter_burstEventAt, List.pairwise_map]
    refine List.pairwise_lt_range.imp fun {i j} hij => ?_
    have hmul : (i : Int) * gapNs.toNat < j * gapNs.toNat :=
      mul_lt_mul_of_pos_right (by omega) (by omega)
    omega
  · intro Byte World Event it net endTime l₀ trace l hstarts hl
    obtain ⟨k, hk⟩ := honTime it net endTime l₀ trace l hstarts hl
    have hle := hk.le
    rw [sendTimes, hk.executed, filter_burstEventAt, List.length_map, List.length_range]
    omega

/-- A socket that takes every packet, in a simulation without other events. -/
def quietUdpNetwork : UdpNetwork Nat Unit Empty where
  bindResult := 0
  bound := by decide
  socketSend _ _ world := (world, [])
  delays_nonneg := by simp
  other := nofun

/-- A simulation that only starts the client. -/
def startLoop (startNs : Int) : Loop (UdpBurstClientState × Unit) (UdpBurstEvent ⊕ Empty) :=
  ⟨0, (.initial, ()), [(startNs, .inl .startApplication)]⟩

theorem clientStarts_startLoop : ClientStarts startNs (startLoop startNs) := ⟨rfl, rfl⟩

/-- After the start, the first `Send` is pending for the same time. -/
theorem run_startLoop : Run (client.process networkOrder sizes quietUdpNetwork).handler startNs
    (startLoop startNs) [(startNs, .inl .startApplication)]
    ⟨startNs, ({ UdpBurstClientState.initial with startTimeNs := startNs }, ()),
      [(startNs + 0, .inl .send)]⟩ := by
  have hdelays : ∀ p ∈ ([(0, .inl .send)] : List (Int × (UdpBurstEvent ⊕ Empty))), 0 ≤ p.1 := by simp
  exact .step .start (.single rfl hdelays) (le_refl startNs)

/-- When the end of the burst is not an `int64_t`, already the first `Send` overflows. -/
theorem Paced.lt (h : Paced client sizes startNs) :
    startNs + client.durationNs < 2 ^ 63 := by
  by_contra hge
  obtain ⟨state, new, hrun, -⟩ := h.executes networkOrder quietUdpNetwork startNs _ _ _
    clientStarts_startLoop run_startLoop (startNs + 0) .send List.mem_cons_self
  obtain ⟨_, hsend, -⟩ := bind_eq_ok.mp hrun
  obtain ⟨next, hnext, -⟩ := bind_eq_ok.mp hsend
  obtain ⟨_, -, hnext⟩ := bind_eq_ok.mp hnext
  obtain ⟨endNs, hend, -⟩ := bind_eq_ok.mp hnext
  have hin : InInt64 (startNs + client.durationNs) := (int64_eq_ok.mp hend).1
  exact hge hin.2

end Paced

/-- **The bursts that come to an end.** Without a number as its rate no client is created; otherwise a burst comes to an
    end if its rate is not too small and its end is an `int64_t`. -/
theorem accepted_bursts_are_paced_iff {stod : Str → Except Exc (Double × Nat)} {filename : Str}
    {file : File} {topology : TopologyPtop} {endTimeNs : Int} {schedule : List UdpBurstInfo}
    (hread : readUdpBurstSchedule stod filename file topology endTimeNs = .ok schedule)
    {entry : UdpBurstInfo} (hentry : entry ∈ schedule) {World Event : Type}
    (nodes : NodeContainer UdpBurstClient World Event) (settings : SchedulerSettings) (world : World)
    (sizes : UdpBurstSizes) (hsize : 0 < sizes.maxSegmentSizeByte.toNat) :
    ((∀ q, entry.fields.targetRateMegabitPerS ≠ .finite q) →
      ∃ err, createUdpBurstClient nodes settings entry world = .error err) ∧
    ∀ app world' events, createUdpBurstClient nodes settings entry world = .ok (app, world', events) →
      (Paced app.2 sizes entry.startTimeNs ↔
        ∃ q, entry.fields.targetRateMegabitPerS = .finite q ∧ RateInRange sizes q ∧
          entry.startTimeNs + entry.fields.durationNs < 2 ^ 63) := by
  -- the entry was read from a line, whose fields are in range
  obtain ⟨⟨line, hline⟩, -⟩ := exists_line_of_mem (fun _ _ => says_udpBurst) hread hentry
  obtain ⟨_, _, _, _, _, _, -, -, -, -, hrate, hstart, hduration, hne⟩ := hline
  have h0 := parsePositiveInt64_nonneg hstart
  have hd := parsePositiveInt64_nonneg hduration
  constructor
  · intro hnumber
    cases hcreated : createUdpBurstClient nodes settings entry world with
    | error err => exact ⟨err, rfl⟩
    | ok created =>
        obtain ⟨q, hq, -⟩ := Double.passesChecker_iff.mp (createUdpBurstClient_passesChecker hcreated)
        exact absurd hq (hnumber q)
  · intro app world' events happ
    have hbelongs := (createUdpBurstClient_belongs happ).2
    obtain ⟨q, hfinite, -, hmax⟩ := Double.passesChecker_iff.mp (createUdpBurstClient_passesChecker happ)
    have hq : 0 < q := by
      refine lt_of_le_of_ne (parsePositiveDouble_nonneg (hfinite ▸ hrate)) ?_
      rintro rfl
      exact hne hfinite
    have hgap : GapInRange app.2 sizes ↔ RateInRange sizes q :=
      packetGap_inRange_iff hq hmax (hbelongs.targetRate.trans hfinite) hsize
    simp only [hfinite, Double.finite.injEq, exists_eq_left']
    rw [← hbelongs.durationNs] at hd ⊢
    exact ⟨fun h => ⟨hgap.mp h.gap, h.lt⟩, fun h => paced_of_gapInRange (hgap.mpr h.1) h0 hd h.2⟩

/-! ## The burst with a tiny rate -/

/-- `std::stod` on the two texts that are used here. -/
def wordStod (s : Str) : Except Exc (Double × Nat) :=
  if s = "1e-13".toList then .ok (.ofRat (1 / 10 ^ 13), 5)
  else if s = "10".toList then .ok (.finite 10, 2)
  else .error (.invalidArgument "stod")

/-- A burst of a microsecond at time 0, between the two nodes of `pairTopology`. -/
def pairBurst (rate : Double) : UdpBurstInfo := ⟨0, 0, 1, 0, ⟨rate, 1000, [], []⟩⟩

/-- Its client. -/
def pairBurstClient (rate : Double) : UdpBurstClient where
  nodeId := 0
  localAddress := ⟨0, 0⟩
  remoteAddress := ⟨0, 1025⟩
  udpBurstId := 0
  targetRateMegabitPerSec := rate
  durationNs := 1000
  additionalParameters := []
  enableDetailedLoggingToFile := false
  baseLogsDir := []

/-- The exact quotient is above 40000000, but the doubles round it down to that. -/
example : (pairBurstClient (.ofRat (3 / 10))).packetGapNs .default = .ok 40000000 := by decide +kernel

theorem createUdpBurstClient_pairBurst {rate : Double} (h : rate.passesChecker = true) :
    createUdpBurstClient (quietNodes UdpBurstClient) ⟨true, [], ∅⟩ (pairBurst rate) ()
      = .ok ((pairBurst rate, pairBurstClient rate), (), []) := by
  have hrate : ¬ (pairBurst rate).fields.targetRateMegabitPerS.passesChecker = false := by
    rw [Bool.not_eq_false]
    exact h
  show (throwIf _ _ >>= _ : Except Exc UdpBurstClient) >>= _ = _
  rw [throwIf_of_not hrate]
  rfl

theorem read_tinyBurst :
    readUdpBurstSchedule wordStod [] (.content "0,0,1,1e-13,0,1000,,".toList) pairTopology 1
      = .ok [pairBurst (.ofRat (1 / 10 ^ 13))] := by decide +kernel

theorem read_tenMegabitBurst :
    readUdpBurstSchedule wordStod [] (.content "0,0,1,10,0,1000,,".toList) pairTopology 1
      = .ok [pairBurst (.finite 10)] := by decide

theorem accepted_bursts_are_paced_iff_tenMegabit : Paced (pairBurstClient (.finite 10)) .default 0 :=
  ((accepted_bursts_are_paced_iff read_tenMegabitBurst List.mem_cons_self (quietNodes UdpBurstClient)
    ⟨true, [], ∅⟩ () .default (by decide)).2 _ _ _ (createUdpBurstClient_pairBurst (by decide +kernel))).mpr
    ⟨10, rfl, by decide +kernel, by decide⟩

/-- A rate of 1e-13 Mbit/s is accepted, and a client is created; but its gap of 1.2e20 ns is no `uint64_t`, and the
    burst does not come to an end. -/
theorem tiny_rate_has_no_gap :
    readUdpBurstSchedule wordStod [] (.content "0,0,1,1e-13,0,1000,,".toList) pairTopology 1
      = .ok [pairBurst (.ofRat (1 / 10 ^ 13))] ∧
    createUdpBurstClient (quietNodes UdpBurstClient) ⟨true, [], ∅⟩ (pairBurst (.ofRat (1 / 10 ^ 13))) ()
      = .ok ((pairBurst (.ofRat (1 / 10 ^ 13)), pairBurstClient (.ofRat (1 / 10 ^ 13))), (), []) ∧
    (pairBurstClient (.ofRat (1 / 10 ^ 13))).packetGapNs .default
      = .error (.undefined "conversion to an integer that does not fit") ∧
    ¬ Paced (pairBurstClient (.ofRat (1 / 10 ^ 13))) .default 0 := by
  have hundefined : (pairBurstClient (.ofRat (1 / 10 ^ 13))).packetGapNs .default
      = .error (.undefined "conversion to an integer that does not fit") := by decide +kernel
  refine ⟨read_tinyBurst, createUdpBurstClient_pairBurst (by decide +kernel), hundefined, ?_⟩
  intro h
  obtain ⟨gapNs, hgap, -⟩ := h.gap
  exact nomatch hundefined.symm.trans hgap

end BasicSim
