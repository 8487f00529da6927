import BasicSim.Apps.ScheduleReader
import BasicSim.Core.Correctness.TopologyLayout

/-!
# `Apps.Correctness.ScheduleReader` — what an accepted schedule promises

`Accepted` is what the schedulers rely on: identifiers that count the lines, ascending start times
before the end of the simulation, and endpoints that the topology calls valid. Valid endpoints are
endpoints, except that with `all_nodes_are_endpoints` every identifier is valid.

## Contents
- **One line.** `Says`, `readLine_eq_ok`.
- **The file.** `readSchedule_eq_ok`, `readSchedule_accepted`.
- **Endpoints.** `isValidEndpoint_iff_mem`, `entriesNameEndpoints_iff`, and the three readers.
-/

namespace BasicSim

open Fallible

variable {Fields : Type} {format : ScheduleFormat Fields} {topology : TopologyPtop} {endTime : Int}

/-! ## One line -/

/-- The from and to fields of a line. -/
def lineEndpoints (line : Str) : Except Exc (Int × Int) := do
  let commaSplit ← splitString line ",".toList
  let fromNodeId ← parsePositiveInt64 (← vectorAt commaSplit 1)
  let toNodeId ← parsePositiveInt64 (← vectorAt commaSplit 2)
  .ok (fromNodeId, toNodeId)

/-- What the checks on a line leave to know about its entry. -/
structure EntryOk (topology : TopologyPtop) (endTime : Int) (e : ScheduleEntry Fields) : Prop where
  from_nonneg : 0 ≤ e.fromNodeId
  to_nonneg : 0 ≤ e.toNodeId
  ne : e.fromNodeId ≠ e.toNodeId
  from_valid : topology.isValidEndpoint e.fromNodeId = true
  to_valid : topology.isValidEndpoint e.toNodeId = true
  start_lt : e.startTimeNs < endTime

theorem checkEndpoint_eq_ok {which : String} {nodeId : Int} :
    checkEndpoint topology which nodeId = .ok () ↔ topology.isValidEndpoint nodeId = true := by
  unfold checkEndpoint
  rw [throwIf_eq_ok, Bool.not_eq_false]

/-- The fields of a split line are those of the entry. -/
structure Says (format : ScheduleFormat Fields) (commaSplit : List Str) (e : ScheduleEntry Fields) :
    Prop where
  numFields : commaSplit.length = format.numFields
  id : (vectorAt commaSplit 0 >>= parsePositiveInt64) = .ok e.id
  fromNodeId : (vectorAt commaSplit 1 >>= parsePositiveInt64) = .ok e.fromNodeId
  toNodeId : (vectorAt commaSplit 2 >>= parsePositiveInt64) = .ok e.toNodeId
  own : format.parseFields commaSplit = .ok (e.startTimeNs, e.fields)
  check : format.checkFields e.fields = .ok ()

theorem splitStringExpected_comma {line : Str} {n : Nat} {commaSplit : List Str} :
    splitStringExpected line ",".toList n = .ok commaSplit ↔
      commaSplit.length = n ∧ commaSplit = line.splitOn ',' := by
  unfold splitStringExpected
  rw [show (",".toList : Str) = [','] from rfl, splitString_singleton, ok_bind, throwIf_bind_eq_ok,
    not_not, Except.ok.injEq, eq_comm (a := line.splitOn ',')]
  constructor
  · rintro ⟨hlen, rfl⟩
    exact ⟨hlen, rfl⟩
  · rintro ⟨hlen, rfl⟩
    exact ⟨hlen, rfl⟩

/-- **Step lemma.** A line is read exactly when its fields are those of an entry that passes the checks;
    the entry is then added. -/
theorem readLine_eq_ok {st st' : ReaderState Fields} {line : Str} :
    readLine format topology endTime st line = .ok st' ↔
      ∃ e, Says format (line.splitOn ',') e ∧ e.id = toInt64 st.lineCounter ∧
        st.prevStartTimeNs ≤ e.startTimeNs ∧ EntryOk topology endTime e ∧
        st' = ⟨st.schedule ++ [e], st.lineCounter + 1, e.startTimeNs⟩ := by
  unfold readLine
  constructor
  · intro h
    -- the statements of the loop body, each of which succeeded
    obtain ⟨commaSplit, hsplit, h⟩ := bind_eq_ok.mp h
    obtain ⟨hlen, rfl⟩ := splitStringExpected_comma.mp hsplit
    obtain ⟨idField, hif, h⟩ := bind_eq_ok.mp h
    obtain ⟨id, hid, h⟩ := bind_eq_ok.mp h
    obtain ⟨hcount, h⟩ := throwIf_bind_eq_ok.mp h
    obtain ⟨fromField, hff, h⟩ := bind_eq_ok.mp h
    obtain ⟨fromNodeId, hfrom, h⟩ := bind_eq_ok.mp h
    obtain ⟨toField, htf, h⟩ := bind_eq_ok.mp h
    obtain ⟨toNodeId, hto, h⟩ := bind_eq_ok.mp h
    obtain ⟨⟨startTimeNs, fields⟩, hown, h⟩ := bind_eq_ok.mp h
    obtain ⟨_, hcheck, h⟩ := bind_eq_ok.mp h
    obtain ⟨hasc, h⟩ := throwIf_bind_eq_ok.mp h
    obtain ⟨hne, h⟩ := throwIf_bind_eq_ok.mp h
    obtain ⟨_, hvf, h⟩ := bind_eq_ok.mp h
    obtain ⟨_, hvt, h⟩ := bind_eq_ok.mp h
    obtain ⟨hlt, h⟩ := throwIf_bind_eq_ok.mp h
    cases h
    refine ⟨⟨id, fromNodeId, toNodeId, startTimeNs, fields⟩, ⟨hlen, ?_, ?_, ?_, hown, hcheck⟩,
      not_not.mp hcount, not_lt.mp hasc, ⟨parsePositiveInt64_nonneg hfrom,
        parsePositiveInt64_nonneg hto, hne, checkEndpoint_eq_ok.mp hvf, checkEndpoint_eq_ok.mp hvt,
        not_le.mp hlt⟩, rfl⟩
    · exact bind_eq_ok.mpr ⟨idField, hif, hid⟩
    · exact bind_eq_ok.mpr ⟨fromField, hff, hfrom⟩
    · exact bind_eq_ok.mpr ⟨toField, htf, hto⟩
  · rintro ⟨e, hsaid, hcount, hasc, hok, rfl⟩
    -- and back, in the same order
    obtain ⟨idField, hif, hid⟩ := bind_eq_ok.mp hsaid.id
    obtain ⟨fromField, hff, hfrom⟩ := bind_eq_ok.mp hsaid.fromNodeId
    obtain ⟨toField, htf, hto⟩ := bind_eq_ok.mp hsaid.toNodeId
    rw [splitStringExpected_comma.mpr ⟨hsaid.numFields, rfl⟩, ok_bind, hif, ok_bind, hid, ok_bind,
      throwIf_of_not (not_not.mpr hcount), ok_bind, hff, ok_bind, hfrom, ok_bind, htf, ok_bind, hto,
      ok_bind, hsaid.own, ok_bind]
    show (format.checkFields e.fields >>= _) = _
    rw [hsaid.check, ok_bind, throwIf_of_not (not_lt.mpr hasc), ok_bind, throwIf_of_not hok.ne, ok_bind,
      checkEndpoint_eq_ok.mpr hok.from_valid, ok_bind, checkEndpoint_eq_ok.mpr hok.to_valid, ok_bind,
      throwIf_of_not (not_le.mpr hok.start_lt), ok_bind]

/-- The endpoints of the entry are those of the line. -/
theorem Says.lineEndpoints {line : Str} {e : ScheduleEntry Fields}
    (h : Says format (line.splitOn ',') e) :
    lineEndpoints line = .ok (e.fromNodeId, e.toNodeId) := by
  obtain ⟨fromField, hff, hfrom⟩ := bind_eq_ok.mp h.fromNodeId
  obtain ⟨toField, htf, hto⟩ := bind_eq_ok.mp h.toNodeId
  unfold BasicSim.lineEndpoints
  rw [show (",".toList : Str) = [','] from rfl, splitString_singleton, ok_bind, hff, ok_bind, hfrom,
    ok_bind, htf, ok_bind, hto, ok_bind]

/-- The identifier of the entry is a non-negative 64-bit integer. -/
theorem Says.id_bounds {commaSplit : List Str} {e : ScheduleEntry Fields}
    (h : Says format commaSplit e) : 0 ≤ e.id ∧ e.id < 2 ^ 63 := by
  obtain ⟨_, _, hid⟩ := bind_eq_ok.mp h.id
  exact ⟨parsePositiveInt64_nonneg hid, parsePositiveInt64_lt hid⟩

/-! ## The file -/

/-- What the schedulers rely on. -/
structure Accepted (topology : TopologyPtop) (endTime : Int) (schedule : List (ScheduleEntry Fields)) :
    Prop where
  length_le : schedule.length ≤ 2 ^ 63
  id_eq : ∀ (i : Nat) (e : ScheduleEntry Fields), schedule[i]? = some e → e.id = i
  ascending : schedule.Pairwise fun e e' => e.startTimeNs ≤ e'.startTimeNs
  start_nonneg : ∀ e ∈ schedule, 0 ≤ e.startTimeNs
  entry : ∀ e ∈ schedule, EntryOk topology endTime e

/-- The invariant of the reading loop. -/
structure ReaderState.Inv (topology : TopologyPtop) (endTime : Int) (st : ReaderState Fields) :
    Prop where
  counter : st.lineCounter = st.schedule.length
  accepted : Accepted topology endTime st.schedule
  prev_nonneg : 0 ≤ st.prevStartTimeNs
  le_prev : ∀ e ∈ st.schedule, e.startTimeNs ≤ st.prevStartTimeNs

theorem ReaderState.Inv.step {st st' : ReaderState Fields} {line : Str}
    (hst : st.Inv topology endTime) (h : readLine format topology endTime st line = .ok st') :
    st'.Inv topology endTime := by
  obtain ⟨e, hsaid, hid, hprev, hok, rfl⟩ := readLine_eq_ok.mp h
  have hid0 := hsaid.id_bounds.1
  -- from line 2 ^ 63 on the converted counter is negative, which no identifier is
  have hlt : st.lineCounter < 2 ^ 63 := by
    have hle : st.lineCounter ≤ 2 ^ 63 := by rw [hst.counter]; exact hst.accepted.length_le
    refine lt_of_le_of_ne hle ?_
    intro heq
    rw [hid, heq] at hid0
    exact absurd hid0 (by decide)
  rw [toInt64_of_lt hlt] at hid
  have hcounter := hst.counter
  refine ⟨?_, ⟨?_, ?_, ?_, ?_, ?_⟩, le_trans hst.prev_nonneg hprev, ?_⟩
  · show st.lineCounter + 1 = (st.schedule ++ [e]).length
    rw [List.length_append, List.length_singleton, hcounter]
  · rw [List.length_append, List.length_singleton]
    omega
  · intro i e' hget
    rcases Nat.lt_trichotomy i st.schedule.length with hi | hi | hi
    · rw [List.getElem?_append_left hi] at hget
      exact hst.accepted.id_eq i e' hget
    · rw [hi, List.getElem?_concat_length] at hget
      cases hget
      rw [hid, hcounter, hi]
    · rw [List.getElem?_eq_none (by rw [List.length_append, List.length_singleton]; omega)] at hget
      cases hget
  · refine List.pairwise_append.mpr ⟨hst.accepted.ascending, List.pairwise_singleton _ _, ?_⟩
    intro a ha b hb
    rw [List.mem_singleton.mp hb]
    exact le_trans (hst.le_prev a ha) hprev
  · intro a ha
    rcases List.mem_append.mp ha with ha | ha
    · exact hst.accepted.start_nonneg a ha
    · rw [List.mem_singleton.mp ha]
      exact le_trans hst.prev_nonneg hprev
  · intro a ha
    rcases List.mem_append.mp ha with ha | ha
    · exact hst.accepted.entry a ha
    · rw [List.mem_singleton.mp ha]
      exact hok
  · intro a ha
    rcases List.mem_append.mp ha with ha | ha
    · exact le_trans (hst.le_prev a ha) hprev
    · rw [List.mem_singleton.mp ha]

theorem Accepted.nil : Accepted topology endTime ([] : List (ScheduleEntry Fields)) where
  length_le := Nat.zero_le _
  id_eq _ _ h := by simp at h
  ascending := .nil
  start_nonneg _ h := by simp at h
  entry _ h := by simp at h

/-- The reading loop leaves an accepted schedule with the fields of the lines. -/
theorem readSchedule_says {filename : Str} {file : File} {schedule : List (ScheduleEntry Fields)}
    (h : readSchedule format topology endTime filename file = .ok schedule) :
    ∃ text, file = .content text ∧ Accepted topology endTime schedule ∧
      List.Forall₂ (fun line e => Says format (line.splitOn ',') e) (getlines text) schedule := by
  cases file with
  | missing => cases h
  | unreadable => cases h
  | content text =>
      obtain ⟨st, hrun, h⟩ := bind_eq_ok.mp h
      cases h
      have hempty : (⟨[], 0, 0⟩ : ReaderState Fields).Inv topology endTime :=
        ⟨rfl, .nil, le_refl _, fun e h => by simp at h⟩
      obtain ⟨hinv, hlines⟩ := foldlM_inv
        (fun done st => st.Inv topology endTime ∧
          List.Forall₂ (fun line e => Says format (line.splitOn ',') e) done st.schedule)
        (fun done line st st' hst hstep => by
          refine ⟨hst.1.step hstep, ?_⟩
          obtain ⟨e, hsaid, _, _, _, hst'⟩ := readLine_eq_ok.mp hstep
          rw [hst']
          exact forall₂_concat hst.2 hsaid)
        ⟨hempty, .nil⟩ hrun
      exact ⟨text, rfl, hinv.accepted, hlines⟩

/-- Lines with the fields of an accepted schedule are read to the end. -/
theorem readLines_of_says {lines : List Str} {todo : List (ScheduleEntry Fields)}
    (h : List.Forall₂ (fun line e => Says format (line.splitOn ',') e) lines todo) :
    ∀ (done : List (ScheduleEntry Fields)) (prev : Int), Accepted topology endTime (done ++ todo) →
      (∀ e ∈ todo, prev ≤ e.startTimeNs) →
      ∃ st, lines.foldlM (readLine format topology endTime) ⟨done, done.length, prev⟩ = .ok st ∧
        st.schedule = done ++ todo := by
  induction h with
  | nil =>
      intro done prev _ _
      exact ⟨_, rfl, by simp⟩
  | @cons line e lines todo hsaid _ ih =>
      intro done prev hacc hprev
      have hlt : done.length < 2 ^ 63 := by
        have hle := hacc.length_le
        rw [List.length_append, List.length_cons] at hle
        omega
      -- the line counter is the number of entries so far, and so the identifier
      have hid : e.id = toInt64 done.length := by
        rw [toInt64_of_lt hlt]
        exact hacc.id_eq done.length e (by simp)
      have hmem : e ∈ done ++ e :: todo := by simp
      have hline : readLine format topology endTime ⟨done, done.length, prev⟩ line
          = .ok ⟨done ++ [e], done.length + 1, e.startTimeNs⟩ :=
        readLine_eq_ok.mpr ⟨e, hsaid, hid, hprev e List.mem_cons_self, hacc.entry e hmem, rfl⟩
      have hasc := (List.pairwise_append.mp hacc.ascending).2.1
      obtain ⟨st, hst, hschedule⟩ := ih (done ++ [e]) e.startTimeNs (by simpa using hacc)
        (List.pairwise_cons.mp hasc).1
      rw [List.length_append, List.length_singleton] at hst
      refine ⟨st, ?_, by simpa using hschedule⟩
      rw [List.foldlM_cons, hline, ok_bind]
      exact hst

/-- **A reader accepts exactly the files whose lines have the fields of an accepted schedule**, and
    returns that schedule. -/
theorem readSchedule_eq_ok {filename text : Str} {schedule : List (ScheduleEntry Fields)} :
    readSchedule format topology endTime filename (.content text) = .ok schedule ↔
      List.Forall₂ (fun line e => Says format (line.splitOn ',') e) (getlines text) schedule ∧
        Accepted topology endTime schedule := by
  constructor
  · intro h
    obtain ⟨text', heq, hacc, hlines⟩ := readSchedule_says h
    cases heq
    exact ⟨hlines, hacc⟩
  · rintro ⟨hlines, hacc⟩
    obtain ⟨st, hst, hschedule⟩ := readLines_of_says hlines [] 0 hacc hacc.start_nonneg
    rw [List.length_nil] at hst
    simp only [readSchedule]
    rw [hst, ok_bind, hschedule, List.nil_append]

/-- **A schedule that a reader returns is accepted**, and its entries have the endpoints of the lines. -/
theorem readSchedule_accepted {filename : Str} {file : File} {schedule : List (ScheduleEntry Fields)}
    (h : readSchedule format topology endTime filename file = .ok schedule) :
    ∃ text, file = .content text ∧ Accepted topology endTime schedule ∧
      List.Forall₂ (fun line e => lineEndpoints line = .ok (e.fromNodeId, e.toNodeId))
        (getlines text) schedule := by
  obtain ⟨text, hfile, hacc, hlines⟩ := readSchedule_says h
  exact ⟨text, hfile, hacc, hlines.imp fun _ _ hsaid => hsaid.lineEndpoints⟩

/-! ## Endpoints -/

/-- Every entry names endpoints of the topology. -/
def EntriesNameEndpoints (topology : TopologyPtop) (schedule : List (ScheduleEntry Fields)) : Prop :=
  ∀ e ∈ schedule, e.fromNodeId ∈ topology.getEndpoints ∧ e.toNodeId ∈ topology.getEndpoints

/-- The endpoint fields of every line of the file are below `n`. -/
def LinesNameNodes (file : File) (n : Int) : Prop :=
  ∀ text, file = .content text → ∀ line ∈ getlines text, ∀ fromNodeId toNodeId,
    lineEndpoints line = .ok (fromNodeId, toNodeId) → fromNodeId < n ∧ toNodeId < n

/-- Endpoints are nodes. -/
theorem TopologyPtop.WellFormed.endpoint_bounds (hwf : topology.WellFormed) {id : Int}
    (h : id ∈ topology.getEndpoints) : 0 ≤ id ∧ id < topology.numNodes := by
  unfold TopologyPtop.getEndpoints at h
  split_ifs at h
  · exact (hwf.mem_allNodeIds id).mp h
  · exact hwf.tors_bounds id h
  · exact hwf.servers_bounds id h

/-- `IsValidEndpoint` agrees with `GetEndpoints` on an identifier unless all nodes are endpoints and
    the identifier is not a node. -/
theorem TopologyPtop.WellFormed.isValidEndpoint_iff_mem (hwf : topology.WellFormed) (id : Int) :
    (topology.isValidEndpoint id = true ↔ id ∈ topology.getEndpoints) ↔
      (topology.allNodesAreEndpoints = false ∨ (0 ≤ id ∧ id < topology.numNodes)) := by
  unfold TopologyPtop.isValidEndpoint TopologyPtop.getEndpoints
  cases hall : topology.allNodesAreEndpoints with
  | true => simp [hwf.mem_allNodeIds]
  | false => cases topology.hasZeroServers <;> simp

/-- The entries of an accepted schedule name endpoints exactly when the restriction of the endpoints is
    on or the lines name nodes. -/
theorem entriesNameEndpoints_iff (hwf : topology.WellFormed) {filename : Str} {file : File}
    {schedule : List (ScheduleEntry Fields)}
    (h : readSchedule format topology endTime filename file = .ok schedule) :
    EntriesNameEndpoints topology schedule ↔
      (topology.allNodesAreEndpoints = false ∨ LinesNameNodes file topology.numNodes) := by
  obtain ⟨text, rfl, haccepted, hlines⟩ := readSchedule_accepted h
  constructor
  · refine fun hends => .inr ?_
    rintro _ ⟨⟩ line hline fromNodeId toNodeId hfields
    obtain ⟨e, he, hread⟩ := exists_right_of_forall₂ hlines hline
    rw [hfields] at hread
    cases hread
    obtain ⟨hfrom, hto⟩ := hends e he
    exact ⟨(hwf.endpoint_bounds hfrom).2, (hwf.endpoint_bounds hto).2⟩
  · intro hcond e he
    have hok := haccepted.entry e he
    have hbounds : topology.allNodesAreEndpoints = false ∨
        (e.fromNodeId < topology.numNodes ∧ e.toNodeId < topology.numNodes) :=
      hcond.imp_right fun hnodes => by
        obtain ⟨line, hline, hread⟩ := exists_left_of_forall₂ hlines he
        exact hnodes text rfl line hline _ _ hread
    exact ⟨((hwf.isValidEndpoint_iff_mem _).mpr (hbounds.imp_right fun h => ⟨hok.from_nonneg, h.1⟩)).mp
        hok.from_valid,
      ((hwf.isValidEndpoint_iff_mem _).mpr (hbounds.imp_right fun h => ⟨hok.to_nonneg, h.2⟩)).mp
        hok.to_valid⟩

/-- **When the accepted schedules name existing endpoints**, by identifier and by file. -/
theorem accepted_schedules_name_endpoints_iff {config : Config} {all : Bool}
    {assignment : Option (List Int)}
    (hparse : parseTopologyGraph config all assignment = .ok topology) :
    (∀ id, InInt64 id → ((topology.isValidEndpoint id = true ↔ id ∈ topology.getEndpoints) ↔
      (topology.allNodesAreEndpoints = false ∨ (0 ≤ id ∧ id < topology.numNodes)))) ∧
    (∀ id ∈ topology.getEndpoints, 0 ≤ id ∧ id < topology.numNodes) ∧
    ∀ (filename : Str) (file : File) (endTime : Int),
      (∀ schedule, readTcpFlowSchedule filename file topology endTime = .ok schedule →
        (EntriesNameEndpoints topology schedule ↔
          (topology.allNodesAreEndpoints = false ∨ LinesNameNodes file topology.numNodes))) ∧
      (∀ schedule, readUdpPingSchedule filename file topology endTime = .ok schedule →
        (EntriesNameEndpoints topology schedule ↔
          (topology.allNodesAreEndpoints = false ∨ LinesNameNodes file topology.numNodes))) ∧
      ∀ stod schedule, readUdpBurstSchedule stod filename file topology endTime = .ok schedule →
        (EntriesNameEndpoints topology schedule ↔
          (topology.allNodesAreEndpoints = false ∨ LinesNameNodes file topology.numNodes)) := by
  have hwf := TopologyPtop.wellFormed_of_parse hparse
  exact ⟨fun id _ => hwf.isValidEndpoint_iff_mem id, fun id h => hwf.endpoint_bounds h,
    fun filename file endTime => ⟨fun _ h => entriesNameEndpoints_iff hwf h,
      fun _ h => entriesNameEndpoints_iff hwf h, fun _ _ h => entriesNameEndpoints_iff hwf h⟩⟩

/-- Identifier 7 is no endpoint; a flow from node 0 to node 1 is between endpoints. -/
theorem accepted_schedules_name_endpoints_iff_pairTopology :
    (¬ (pairTopology.isValidEndpoint 7 = true ↔ (7 : Int) ∈ pairTopology.getEndpoints)) ∧
      readTcpFlowSchedule "schedule.csv".toList (.content "0,0,1,100,0,,".toList) pairTopology 1000
        = .ok [⟨0, 0, 1, 0, ⟨100, [], []⟩⟩] ∧
      EntriesNameEndpoints pairTopology [(⟨0, 0, 1, 0, ⟨100, [], []⟩⟩ : TcpFlowScheduleEntry)] := by
  obtain ⟨hid, -, hread⟩ := accepted_schedules_name_endpoints_iff parseTopologyGraph_pairConfig
  have hflow : readTcpFlowSchedule "schedule.csv".toList (.content "0,0,1,100,0,,".toList) pairTopology 1000
      = .ok [⟨0, 0, 1, 0, ⟨100, [], []⟩⟩] := by decide
  refine ⟨fun h => ?_, hflow, ((hread _ _ 1000).1 _ hflow).mpr (.inr ?_)⟩
  · exact absurd ((hid 7 (by decide)).mp h) (by decide)
  · rintro _ ⟨⟩ line hline fromNodeId toNodeId hfields
    obtain rfl := List.mem_singleton.mp (show line ∈ ["0,0,1,100,0,,".toList] from hline)
    obtain ⟨rfl, rfl⟩ := Prod.mk.inj (Except.ok.inj
      ((show lineEndpoints "0,0,1,100,0,,".toList = .ok (0, 1) by decide).symm.trans hfields))
    decide

/-- With all nodes as endpoints, a flow to node 7 of a topology of two nodes is accepted. -/
theorem accepted_flow_to_missing_node :
    parseTopologyGraph pairConfig true none = .ok pairTopology ∧
      readTcpFlowSchedule "schedule.csv".toList (.content "0,0,7,100,0,,".toList) pairTopology 1000
        = .ok [⟨0, 0, 7, 0, ⟨100, [], []⟩⟩] ∧
      pairTopology.isValidEndpoint 7 = true ∧ (7 : Int) ∉ pairTopology.getEndpoints ∧
      ¬ EntriesNameEndpoints pairTopology
        [(⟨0, 0, 7, 0, ⟨100, [], []⟩⟩ : TcpFlowScheduleEntry)] := by
  refine ⟨by decide, by decide, by decide, by decide, ?_⟩
  intro h
  exact absurd (h _ List.mem_cons_self).2 (by decide)

end BasicSim
