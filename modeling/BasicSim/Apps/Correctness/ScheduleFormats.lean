import BasicSim.Apps.Correctness.ScheduleReader

/-!
# `Apps.Correctness.ScheduleFormats` — what the schedule files look like

For each of the three readers, the lines that it accepts are spelled out field by field, and an accepted
file is one whose lines spell out a conforming schedule. Conforming schedules that are written in the
documented format are read back.

## Contents
- **Lines.** `IsTcpFlowLine`, `IsUdpPingLine`, `IsUdpBurstLine`.
- **Files.** `Conforming`, `readSchedule_iff`.
- **Writing.** `writeSchedule`, with `writeTcpFlow`, `writeUdpPing` and `writeUdpBurst`.
- **Main result.** `schedule_readers_accept_their_format`.
-/

namespace BasicSim

open Fallible

/-! ## Lines -/

/-- A line of a TCP flow schedule, and the entry that it spells out. -/
def IsTcpFlowLine (line : Str) (e : TcpFlowScheduleEntry) : Prop :=
  ∃ id fromNodeId toNodeId sizeByte startTimeNs : Str,
    line.splitOn ',' = [id, fromNodeId, toNodeId, sizeByte, startTimeNs,
      e.fields.additionalParameters, e.fields.metadata] ∧
    parsePositiveInt64 id = .ok e.id ∧ parsePositiveInt64 fromNodeId = .ok e.fromNodeId ∧
    parsePositiveInt64 toNodeId = .ok e.toNodeId ∧
    parsePositiveInt64 sizeByte = .ok e.fields.sizeByte ∧
    parsePositiveInt64 startTimeNs = .ok e.startTimeNs

/-- A line of a UDP ping schedule, and the entry that it spells out. -/
def IsUdpPingLine (line : Str) (e : UdpPingInfo) : Prop :=
  ∃ id fromNodeId toNodeId intervalNs startTimeNs durationNs waitAfterwardsNs : Str,
    line.splitOn ',' = [id, fromNodeId, toNodeId, intervalNs, startTimeNs, durationNs,
      waitAfterwardsNs, e.fields.additionalParameters, e.fields.metadata] ∧
    parsePositiveInt64 id = .ok e.id ∧ parsePositiveInt64 fromNodeId = .ok e.fromNodeId ∧
    parsePositiveInt64 toNodeId = .ok e.toNodeId ∧
    parsePositiveInt64 intervalNs = .ok e.fields.intervalNs ∧
    parsePositiveInt64 startTimeNs = .ok e.startTimeNs ∧
    parsePositiveInt64 durationNs = .ok e.fields.durationNs ∧
    parsePositiveInt64 waitAfterwardsNs = .ok e.fields.waitAfterwardsNs ∧
    e.fields.intervalNs ≠ 0

/-- A line of a UDP burst schedule, and the entry that it spells out. -/
def IsUdpBurstLine (stod : Str → Except Exc (Double × Nat)) (line : Str) (e : UdpBurstInfo) : Prop :=
  ∃ id fromNodeId toNodeId targetRate startTimeNs durationNs : Str,
    line.splitOn ',' = [id, fromNodeId, toNodeId, targetRate, startTimeNs, durationNs,
      e.fields.additionalParameters, e.fields.metadata] ∧
    parsePositiveInt64 id = .ok e.id ∧ parsePositiveInt64 fromNodeId = .ok e.fromNodeId ∧
    parsePositiveInt64 toNodeId = .ok e.toNodeId ∧
    parsePositiveDouble stod targetRate = .ok e.fields.targetRateMegabitPerS ∧
    parsePositiveInt64 startTimeNs = .ok e.startTimeNs ∧
    parsePositiveInt64 durationNs = .ok e.fields.durationNs ∧
    e.fields.targetRateMegabitPerS ≠ .finite 0

theorem says_tcpFlow {line : Str} {e : TcpFlowScheduleEntry} :
    Says tcpFlowFormat (line.splitOn ',') e ↔ IsTcpFlowLine line e := by
  constructor
  · intro h
    unfold IsTcpFlowLine
    generalize line.splitOn ',' = commaSplit at h
    have hlen := h.numFields
    rcases commaSplit with
      _ | ⟨id, _ | ⟨fromNodeId, _ | ⟨toNodeId, _ | ⟨sizeByte, _ | ⟨startTimeNs, _ | ⟨additionalParameters,
        _ | ⟨metadata, _ | _⟩⟩⟩⟩⟩⟩⟩ <;> simp [tcpFlowFormat] at hlen
    have hown := h.own
    simp [tcpFlowFormat, vectorAt, bind_eq_ok] at hown
    obtain ⟨size, hsize, hstart, hfields⟩ := hown
    rw [← hfields]
    exact ⟨id, fromNodeId, toNodeId, sizeByte, startTimeNs, rfl, h.id, h.fromNodeId, h.toNodeId, hsize,
      hstart⟩
  · rintro ⟨id, fromNodeId, toNodeId, sizeByte, startTimeNs, hsplit, hid, hfrom, hto, hsize, hstart⟩
    rw [hsplit]
    refine ⟨rfl, hid, hfrom, hto, ?_, rfl⟩
    simp [tcpFlowFormat, vectorAt, hsize, hstart]

theorem says_udpPing {line : Str} {e : UdpPingInfo} :
    Says udpPingFormat (line.splitOn ',') e ↔ IsUdpPingLine line e := by
  constructor
  · intro h
    unfold IsUdpPingLine
    generalize line.splitOn ',' = commaSplit at h
    have hlen := h.numFields
    rcases commaSplit with
      _ | ⟨id, _ | ⟨fromNodeId, _ | ⟨toNodeId, _ | ⟨intervalNs, _ | ⟨startTimeNs, _ | ⟨durationNs,
        _ | ⟨waitAfterwardsNs, _ | ⟨additionalParameters, _ | ⟨metadata, _ | _⟩⟩⟩⟩⟩⟩⟩⟩⟩
      <;> simp [udpPingFormat] at hlen
    have hcheck := throwIf_eq_ok.mp h.check
    have hown := h.own
    simp [udpPingFormat, vectorAt, bind_eq_ok] at hown
    obtain ⟨interval, hinterval, hstart, duration, hduration, wait, hwait, hfields⟩ := hown
    rw [← hfields] at hcheck ⊢
    exact ⟨id, fromNodeId, toNodeId, intervalNs, startTimeNs, durationNs, waitAfterwardsNs, rfl, h.id,
      h.fromNodeId, h.toNodeId, hinterval, hstart, hduration, hwait, hcheck⟩
  · rintro ⟨id, fromNodeId, toNodeId, intervalNs, startTimeNs, durationNs, waitAfterwardsNs, hsplit, hid,
      hfrom, hto, hinterval, hstart, hduration, hwait, hne⟩
    rw [hsplit]
    refine ⟨rfl, hid, hfrom, hto, ?_, throwIf_of_not hne⟩
    simp [udpPingFormat, vectorAt, hinterval, hstart, hduration, hwait]

theorem says_udpBurst {stod : Str → Except Exc (Double × Nat)} {line : Str} {e : UdpBurstInfo} :
    Says (udpBurstFormat stod) (line.splitOn ',') e ↔ IsUdpBurstLine stod line e := by
  constructor
  · intro h
    unfold IsUdpBurstLine
    generalize line.splitOn ',' = commaSplit at h
    have hlen := h.numFields
    rcases commaSplit with
      _ | ⟨id, _ | ⟨fromNodeId, _ | ⟨toNodeId, _ | ⟨targetRate, _ | ⟨startTimeNs, _ | ⟨durationNs,
        _ | ⟨additionalParameters, _ | ⟨metadata, _ | _⟩⟩⟩⟩⟩⟩⟩⟩ <;> simp [udpBurstFormat] at hlen
    have hcheck := throwIf_eq_ok.mp h.check
    have hown := h.own
    simp [udpBurstFormat, vectorAt, bind_eq_ok] at hown
    obtain ⟨rate, hrate, hstart, duration, hduration, hfields⟩ := hown
    rw [← hfields] at hcheck ⊢
    exact ⟨id, fromNodeId, toNodeId, targetRate, startTimeNs, durationNs, rfl, h.id, h.fromNodeId,
      h.toNodeId, hrate, hstart, hduration, hcheck⟩
  · rintro ⟨id, fromNodeId, toNodeId, targetRate, startTimeNs, durationNs, hsplit, hid, hfrom, hto, hrate,
      hstart, hduration, hne⟩
    rw [hsplit]
    refine ⟨rfl, hid, hfrom, hto, ?_, throwIf_of_not hne⟩
    simp [udpBurstFormat, vectorAt, hrate, hstart, hduration]

/-! ## Files -/

section Files

variable {Fields : Type} {format : ScheduleFormat Fields} {topology : TopologyPtop} {endTime : Int}

/-- Identifiers count the entries, start times ascend weakly and lie before the end of the simulation, and
    the two endpoints differ and are valid. -/
structure Conforming (topology : TopologyPtop) (endTime : Int) (schedule : List (ScheduleEntry Fields)) :
    Prop where
  id_eq : ∀ (k : Nat) (e : ScheduleEntry Fields), schedule[k]? = some e → e.id = k
  ascending : schedule.Pairwise fun e e' => e.startTimeNs ≤ e'.startTimeNs
  start_lt : ∀ e ∈ schedule, e.startTimeNs < endTime
  ne : ∀ e ∈ schedule, e.fromNodeId ≠ e.toNodeId
  from_valid : ∀ e ∈ schedule, topology.isValidEndpoint e.fromNodeId = true
  to_valid : ∀ e ∈ schedule, topology.isValidEndpoint e.toNodeId = true

theorem Accepted.conforming {schedule : List (ScheduleEntry Fields)}
    (h : Accepted topology endTime schedule) : Conforming topology endTime schedule where
  id_eq := h.id_eq
  ascending := h.ascending
  start_lt e he := (h.entry e he).start_lt
  ne e he := (h.entry e he).ne
  from_valid e he := (h.entry e he).from_valid
  to_valid e he := (h.entry e he).to_valid

/-- The identifiers of a conforming schedule that was read fit 64 bits, so its length does. -/
theorem Conforming.accepted {schedule : List (ScheduleEntry Fields)} {lines : List Str}
    (h : Conforming topology endTime schedule)
    (hlines : List.Forall₂ (fun line e => Says format (line.splitOn ',') e) lines schedule)
    (hstart : ∀ (line : Str) e, Says format (line.splitOn ',') e → 0 ≤ e.startTimeNs) :
    Accepted topology endTime schedule where
  length_le := by
    by_contra hlong
    have hk : schedule.length - 1 < schedule.length := by omega
    have hget := List.getElem?_eq_getElem hk
    obtain ⟨line, _, hsaid⟩ := exists_left_of_forall₂ hlines (List.getElem_mem hk)
    have hid := h.id_eq _ _ hget
    have hlt := hsaid.id_bounds.2
    omega
  id_eq := h.id_eq
  ascending := h.ascending
  start_nonneg e he := by
    obtain ⟨line, _, hsaid⟩ := exists_left_of_forall₂ hlines he
    exact hstart line e hsaid
  entry e he := by
    obtain ⟨line, _, hsaid⟩ := exists_left_of_forall₂ hlines he
    obtain ⟨_, _, hfrom⟩ := bind_eq_ok.mp hsaid.fromNodeId
    obtain ⟨_, _, hto⟩ := bind_eq_ok.mp hsaid.toNodeId
    exact ⟨parsePositiveInt64_nonneg hfrom, parsePositiveInt64_nonneg hto, h.ne e he, h.from_valid e he,
      h.to_valid e he, h.start_lt e he⟩

/-- A reader accepts exactly the files whose lines spell out a conforming schedule. -/
theorem readSchedule_iff {IsLine : Str → ScheduleEntry Fields → Prop}
    (hsaid : ∀ line e, Says format (line.splitOn ',') e ↔ IsLine line e)
    (hstart : ∀ line e, IsLine line e → 0 ≤ e.startTimeNs) {filename text : Str}
    {schedule : List (ScheduleEntry Fields)} :
    readSchedule format topology endTime filename (.content text) = .ok schedule ↔
      List.Forall₂ IsLine (getlines text) schedule ∧ Conforming topology endTime schedule := by
  have hrel : IsLine = fun (line : Str) e => Says format (line.splitOn ',') e := by
    funext line e
    exact propext (hsaid line e).symm
  rw [readSchedule_eq_ok, hrel]
  constructor
  · rintro ⟨hlines, hacc⟩
    exact ⟨hlines, hacc.conforming⟩
  · rintro ⟨hlines, hconf⟩
    refine ⟨hlines, hconf.accepted hlines ?_⟩
    intro line e h
    exact hstart line e ((hsaid line e).mp h)

/-- Every entry that a reader returns was read from a line, and starts before the end. -/
theorem exists_line_of_mem {IsLine : Str → ScheduleEntry Fields → Prop}
    (hsaid : ∀ line e, Says format (line.splitOn ',') e ↔ IsLine line e) {filename : Str} {file : File}
    {schedule : List (ScheduleEntry Fields)}
    (h : readSchedule format topology endTime filename file = .ok schedule) {entry : ScheduleEntry Fields}
    (hentry : entry ∈ schedule) : (∃ line, IsLine line entry) ∧ entry.startTimeNs < endTime := by
  obtain ⟨text, -, hacc, hlines⟩ := readSchedule_says h
  obtain ⟨line, -, hline⟩ := exists_left_of_forall₂ hlines hentry
  exact ⟨⟨line, (hsaid line entry).mp hline⟩, (hacc.entry entry hentry).start_lt⟩

end Files

section Readers

variable {topology : TopologyPtop} {endTime : Int} {filename text : Str}

theorem readTcpFlowSchedule_iff {schedule : List TcpFlowScheduleEntry} :
    readTcpFlowSchedule filename (.content text) topology endTime = .ok schedule ↔
      List.Forall₂ IsTcpFlowLine (getlines text) schedule ∧ Conforming topology endTime schedule := by
  apply readSchedule_iff fun _ _ => says_tcpFlow
  rintro line e ⟨_, _, _, _, _, _, _, _, _, _, hstart⟩
  exact parsePositiveInt64_nonneg hstart

theorem readUdpPingSchedule_iff {schedule : List UdpPingInfo} :
    readUdpPingSchedule filename (.content text) topology endTime = .ok schedule ↔
      List.Forall₂ IsUdpPingLine (getlines text) schedule ∧ Conforming topology endTime schedule := by
  apply readSchedule_iff fun _ _ => says_udpPing
  rintro line e ⟨_, _, _, _, _, _, _, _, _, _, _, _, hstart, _⟩
  exact parsePositiveInt64_nonneg hstart

theorem readUdpBurstSchedule_iff {stod : Str → Except Exc (Double × Nat)} {schedule : List UdpBurstInfo} :
    readUdpBurstSchedule stod filename (.content text) topology endTime = .ok schedule ↔
      List.Forall₂ (IsUdpBurstLine stod) (getlines text) schedule ∧
        Conforming topology endTime schedule := by
  apply readSchedule_iff fun _ _ => says_udpBurst
  rintro line e ⟨_, _, _, _, _, _, _, _, _, _, _, hstart, _⟩
  exact parsePositiveInt64_nonneg hstart

end Readers

/-! ## Writing -/

/-- Text that does not end a field or a line. -/
def IsFieldText (text : Str) : Prop := ',' ∉ text ∧ '\n' ∉ text

instance instDecidableIsFieldText (text : Str) : Decidable (IsFieldText text) :=
  inferInstanceAs (Decidable (_ ∧ _))

/-- What `parse_positive_int64` can return. -/
def IsPositiveInt64 (v : Int) : Prop := 0 ≤ v ∧ v < 2 ^ 63

instance instDecidableIsPositiveInt64 (v : Int) : Decidable (IsPositiveInt64 v) :=
  inferInstanceAs (Decidable (_ ∧ _))

theorem isFieldText_toStr {v : Int} (h : IsPositiveInt64 v) : IsFieldText (toStr v) := by
  obtain ⟨n, rfl⟩ := Int.eq_ofNat_of_zero_le h.1
  exact ⟨not_mem_toStr rfl n, not_mem_toStr rfl n⟩

theorem parse_toStr {v : Int} (h : IsPositiveInt64 v) : parsePositiveInt64 (toStr v) = .ok v := by
  obtain ⟨n, rfl⟩ := Int.eq_ofNat_of_zero_le h.1
  have hlt := h.2
  exact parsePositiveInt64_toStr (by omega)

/-- A file with a line of comma-separated fields for every entry. -/
def writeSchedule {Fields : Type} (write : ScheduleEntry Fields → List Str)
    (schedule : List (ScheduleEntry Fields)) : Str :=
  unlines (schedule.map fun e => [','].intercalate (write e))

theorem mem_intercalate_comma {c : Char} (hc : c ≠ ',') {pieces : List Str}
    (h : c ∈ [','].intercalate pieces) : ∃ piece ∈ pieces, c ∈ piece := by
  induction pieces with
  | nil => simp at h
  | cons piece pieces ih =>
      by_cases hnil : pieces = []
      · subst hnil
        exact ⟨piece, by simp, by simpa using h⟩
      · rw [List.intercalate_cons_of_ne_nil hnil] at h
        simp only [List.mem_append, List.mem_singleton, hc, or_false] at h
        rcases h with h | h
        · exact ⟨piece, List.mem_cons_self, h⟩
        · obtain ⟨other, hother, hmem⟩ := ih h
          exact ⟨other, List.mem_cons_of_mem _ hother, hmem⟩

/-- The lines of a written file are read back. -/
theorem forall₂_writeSchedule {Fields : Type} {write : ScheduleEntry Fields → List Str}
    {IsLine : Str → ScheduleEntry Fields → Prop} {schedule : List (ScheduleEntry Fields)}
    (htext : ∀ e ∈ schedule, ∀ piece ∈ write e, IsFieldText piece)
    (hline : ∀ e ∈ schedule, ∀ line : Str, line.splitOn ',' = write e → IsLine line e)
    (hne : ∀ e, write e ≠ []) :
    List.Forall₂ IsLine (getlines (writeSchedule write schedule)) schedule := by
  have hlines : getlines (writeSchedule write schedule)
      = schedule.map fun e => [','].intercalate (write e) := by
    apply getlines_unlines
    intro line hmem hnewline
    obtain ⟨e, he, rfl⟩ := List.mem_map.mp hmem
    obtain ⟨piece, hpiece, hc⟩ := mem_intercalate_comma (by decide) hnewline
    exact (htext e he piece hpiece).2 hc
  rw [hlines, List.forall₂_map_left_iff, List.forall₂_same]
  intro e he
  apply hline e he
  exact List.splitOn_intercalate ',' (fun piece hpiece => (htext e he piece hpiece).1) (hne e)

def writeTcpFlow (e : TcpFlowScheduleEntry) : List Str :=
  [toStr e.id, toStr e.fromNodeId, toStr e.toNodeId, toStr e.fields.sizeByte, toStr e.startTimeNs,
    e.fields.additionalParameters, e.fields.metadata]

def writeUdpPing (e : UdpPingInfo) : List Str :=
  [toStr e.id, toStr e.fromNodeId, toStr e.toNodeId, toStr e.fields.intervalNs, toStr e.startTimeNs,
    toStr e.fields.durationNs, toStr e.fields.waitAfterwardsNs, e.fields.additionalParameters,
    e.fields.metadata]

/-- The texts of the rates are a parameter. -/
def writeUdpBurst (writeRate : Double → Str) (e : UdpBurstInfo) : List Str :=
  [toStr e.id, toStr e.fromNodeId, toStr e.toNodeId, writeRate e.fields.targetRateMegabitPerS,
    toStr e.startTimeNs, toStr e.fields.durationNs, e.fields.additionalParameters, e.fields.metadata]

/-- What every entry must have to be written. -/
structure WritableEntry {Fields : Type} (e : ScheduleEntry Fields) : Prop where
  id : IsPositiveInt64 e.id
  fromNodeId : IsPositiveInt64 e.fromNodeId
  toNodeId : IsPositiveInt64 e.toNodeId
  startTimeNs : IsPositiveInt64 e.startTimeNs

structure WritableTcpFlow (e : TcpFlowScheduleEntry) : Prop extends WritableEntry e where
  sizeByte : IsPositiveInt64 e.fields.sizeByte
  additionalParameters : IsFieldText e.fields.additionalParameters
  metadata : IsFieldText e.fields.metadata

structure WritableUdpPing (e : UdpPingInfo) : Prop extends WritableEntry e where
  intervalNs : IsPositiveInt64 e.fields.intervalNs
  intervalNs_ne : e.fields.intervalNs ≠ 0
  durationNs : IsPositiveInt64 e.fields.durationNs
  waitAfterwardsNs : IsPositiveInt64 e.fields.waitAfterwardsNs
  additionalParameters : IsFieldText e.fields.additionalParameters
  metadata : IsFieldText e.fields.metadata

/-- The text of the rate is read as the rate. -/
structure WritableUdpBurst (stod : Str → Except Exc (Double × Nat)) (writeRate : Double → Str)
    (e : UdpBurstInfo) : Prop extends WritableEntry e where
  rateText : IsFieldText (writeRate e.fields.targetRateMegabitPerS)
  rate : parsePositiveDouble stod (writeRate e.fields.targetRateMegabitPerS)
    = .ok e.fields.targetRateMegabitPerS
  rate_ne : e.fields.targetRateMegabitPerS ≠ .finite 0
  durationNs : IsPositiveInt64 e.fields.durationNs
  additionalParameters : IsFieldText e.fields.additionalParameters
  metadata : IsFieldText e.fields.metadata

theorem WritableTcpFlow.texts {e : TcpFlowScheduleEntry} (h : WritableTcpFlow e) :
    ∀ piece ∈ writeTcpFlow e, IsFieldText piece := by
  simp [writeTcpFlow, isFieldText_toStr h.id, isFieldText_toStr h.fromNodeId,
    isFieldText_toStr h.toNodeId, isFieldText_toStr h.startTimeNs, isFieldText_toStr h.sizeByte,
    h.additionalParameters, h.metadata]

theorem WritableTcpFlow.isLine {e : TcpFlowScheduleEntry} (h : WritableTcpFlow e) {line : Str}
    (hsplit : line.splitOn ',' = writeTcpFlow e) : IsTcpFlowLine line e :=
  ⟨_, _, _, _, _, hsplit, parse_toStr h.id, parse_toStr h.fromNodeId, parse_toStr h.toNodeId,
    parse_toStr h.sizeByte, parse_toStr h.startTimeNs⟩

theorem WritableUdpPing.texts {e : UdpPingInfo} (h : WritableUdpPing e) :
    ∀ piece ∈ writeUdpPing e, IsFieldText piece := by
  simp [writeUdpPing, isFieldText_toStr h.id, isFieldText_toStr h.fromNodeId,
    isFieldText_toStr h.toNodeId, isFieldText_toStr h.startTimeNs, isFieldText_toStr h.intervalNs,
    isFieldText_toStr h.durationNs, isFieldText_toStr h.waitAfterwardsNs, h.additionalParameters,
    h.metadata]

theorem WritableUdpPing.isLine {e : UdpPingInfo} (h : WritableUdpPing e) {line : Str}
    (hsplit : line.splitOn ',' = writeUdpPing e) : IsUdpPingLine line e :=
  ⟨_, _, _, _, _, _, _, hsplit, parse_toStr h.id, parse_toStr h.fromNodeId, parse_toStr h.toNodeId,
    parse_toStr h.intervalNs, parse_toStr h.startTimeNs, parse_toStr h.durationNs,
    parse_toStr h.waitAfterwardsNs, h.intervalNs_ne⟩

section Burst

variable {stod : Str → Except Exc (Double × Nat)} {writeRate : Double → Str} {e : UdpBurstInfo}

theorem WritableUdpBurst.texts (h : WritableUdpBurst stod writeRate e) :
    ∀ piece ∈ writeUdpBurst writeRate e, IsFieldText piece := by
  simp [writeUdpBurst, isFieldText_toStr h.id, isFieldText_toStr h.fromNodeId,
    isFieldText_toStr h.toNodeId, isFieldText_toStr h.startTimeNs, isFieldText_toStr h.durationNs,
    h.rateText, h.additionalParameters, h.metadata]

theorem WritableUdpBurst.isLine (h : WritableUdpBurst stod writeRate e) {line : Str}
    (hsplit : line.splitOn ',' = writeUdpBurst writeRate e) : IsUdpBurstLine stod line e :=
  ⟨_, _, _, _, _, _, hsplit, parse_toStr h.id, parse_toStr h.fromNodeId, parse_toStr h.toNodeId,
    h.rate, parse_toStr h.startTimeNs, parse_toStr h.durationNs, h.rate_ne⟩

end Burst

section Written

variable {topology : TopologyPtop} {endTime : Int} {filename : Str}

theorem readTcpFlowSchedule_written {schedule : List TcpFlowScheduleEntry}
    (hwritable : ∀ e ∈ schedule, WritableTcpFlow e) (hconf : Conforming topology endTime schedule) :
    readTcpFlowSchedule filename (.content (writeSchedule writeTcpFlow schedule)) topology endTime
      = .ok schedule := by
  refine readTcpFlowSchedule_iff.mpr ⟨?_, hconf⟩
  apply forall₂_writeSchedule
  · exact fun e he => (hwritable e he).texts
  · exact fun e he line => (hwritable e he).isLine
  · exact fun e => List.cons_ne_nil _ _

theorem readUdpBurstSchedule_written {stod : Str → Except Exc (Double × Nat)} {writeRate : Double → Str}
    {schedule : List UdpBurstInfo} (hwritable : ∀ e ∈ schedule, WritableUdpBurst stod writeRate e)
    (hconf : Conforming topology endTime schedule) :
    readUdpBurstSchedule stod filename (.content (writeSchedule (writeUdpBurst writeRate) schedule))
      topology endTime = .ok schedule := by
  refine readUdpBurstSchedule_iff.mpr ⟨?_, hconf⟩
  apply forall₂_writeSchedule
  · exact fun e he => (hwritable e he).texts
  · exact fun e he line => (hwritable e he).isLine
  · exact fun e => List.cons_ne_nil _ _

theorem readUdpPingSchedule_written {schedule : List UdpPingInfo}
    (hwritable : ∀ e ∈ schedule, WritableUdpPing e) (hconf : Conforming topology endTime schedule) :
    readUdpPingSchedule filename (.content (writeSchedule writeUdpPing schedule)) topology endTime
      = .ok schedule := by
  refine readUdpPingSchedule_iff.mpr ⟨?_, hconf⟩
  apply forall₂_writeSchedule
  · exact fun e he => (hwritable e he).texts
  · exact fun e he line => (hwritable e he).isLine
  · exact fun e => List.cons_ne_nil _ _

end Written

/-! ## Main result -/

/-- **The schedule readers accept exactly their format and lose nothing.** For a readable file, the schedule
    that is returned is the conforming one that the lines spell out; a conforming schedule that is written
    is read back. -/
theorem schedule_readers_accept_their_format (topology : TopologyPtop) (endTime : Int)
    (filename text : Str) :
    (∀ schedule, readTcpFlowSchedule filename (.content text) topology endTime = .ok schedule ↔
      List.Forall₂ IsTcpFlowLine (getlines text) schedule ∧ Conforming topology endTime schedule) ∧
    (∀ stod schedule, readUdpBurstSchedule stod filename (.content text) topology endTime = .ok schedule ↔
      List.Forall₂ (IsUdpBurstLine stod) (getlines text) schedule ∧
        Conforming topology endTime schedule) ∧
    (∀ schedule, readUdpPingSchedule filename (.content text) topology endTime = .ok schedule ↔
      List.Forall₂ IsUdpPingLine (getlines text) schedule ∧ Conforming topology endTime schedule) ∧
    (∀ schedule, (∀ e ∈ schedule, WritableTcpFlow e) → Conforming topology endTime schedule →
      readTcpFlowSchedule filename (.content (writeSchedule writeTcpFlow schedule)) topology endTime
        = .ok schedule) ∧
    (∀ stod writeRate schedule, (∀ e ∈ schedule, WritableUdpBurst stod writeRate e) →
      Conforming topology endTime schedule →
      readUdpBurstSchedule stod filename (.content (writeSchedule (writeUdpBurst writeRate) schedule))
        topology endTime = .ok schedule) ∧
    ∀ schedule, (∀ e ∈ schedule, WritableUdpPing e) → Conforming topology endTime schedule →
      readUdpPingSchedule filename (.content (writeSchedule writeUdpPing schedule)) topology endTime
        = .ok schedule := by
  refine ⟨fun _ => readTcpFlowSchedule_iff, fun _ _ => readUdpBurstSchedule_iff,
    fun _ => readUdpPingSchedule_iff, ?_,
    ?_, ?_⟩
  · intro schedule hwritable hconf
    exact readTcpFlowSchedule_written hwritable hconf
  · intro stod writeRate schedule hwritable hconf
    exact readUdpBurstSchedule_written hwritable hconf
  · intro schedule hwritable hconf
    exact readUdpPingSchedule_written hwritable hconf

/-- Two flows between the nodes of a pair, the second one with texts. -/
def pairFlows : List TcpFlowScheduleEntry :=
  [⟨0, 0, 1, 5, ⟨100, [], []⟩⟩, ⟨1, 1, 0, 7, ⟨200, "a=b".toList, "test".toList⟩⟩]

theorem schedule_readers_accept_their_format_pairFlows :
    readTcpFlowSchedule "flows.csv".toList (.content (writeSchedule writeTcpFlow pairFlows)) pairTopology
      1000 = .ok pairFlows := by
  have hwritable : ∀ e ∈ pairFlows, WritableTcpFlow e := by
    intro e he
    simp only [pairFlows, List.mem_cons, List.not_mem_nil, or_false] at he
    rcases he with rfl | rfl
    · exact ⟨⟨by decide, by decide, by decide, by decide⟩, by decide, by decide, by decide⟩
    · exact ⟨⟨by decide, by decide, by decide, by decide⟩, by decide, by decide, by decide⟩
  have hids : ∀ (k : Nat) e, pairFlows[k]? = some e → e.id = k := by
    intro k e hget
    match k with
    | 0 => cases hget; rfl
    | 1 => cases hget; rfl
    | k + 2 => simp [pairFlows] at hget
  have hconf : Conforming pairTopology 1000 pairFlows :=
    ⟨hids, by decide, by decide, by decide, by decide, by decide⟩
  exact (schedule_readers_accept_their_format pairTopology 1000 "flows.csv".toList []).2.2.2.1 pairFlows
    hwritable hconf

end BasicSim
