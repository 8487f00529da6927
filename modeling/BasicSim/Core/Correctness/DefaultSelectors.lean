import BasicSim.Core.Correctness.NumberRanges

/-!
# `Core.Correctness.DefaultSelectors` — the values that the default selectors take

Each of the three selectors takes the values of its forms, reads them as what they say, and takes no others. What ns-3
makes of the attributes stays a parameter, and a value that it refuses is not taken.

## Contents
- **Forms.** `IsQueueValue`, `IsReceiveErrorModelValue`, `IsTcQdiscValue`.
- **Exactness.** `parseQueueValue_eq_ok`, `parseErrorModelValue_eq_ok`, `parseTcQdiscValue_eq_ok`.
-/

namespace BasicSim

open Fallible

/-! ## Forms -/

section Forms

variable (ns3 : Ns3Factories) (stod : Str → Except Exc (Double × Nat))

/-- `drop_tail(100p)`. -/
inductive IsQueueValue : Str → ns3.ObjectFactory → Prop where
  | dropTail {maxSize : Str} {number : Int} {size : ns3.QueueSize} {factory : ns3.ObjectFactory}
      (hmax : IsMaxQueueSize ["p", "B"] maxSize number) (hsize : ns3.queueSize maxSize = .ok size)
      (hfactory : ns3.queueFactory "ns3::DropTailQueue<Packet>" [("MaxSize", .queueSize size)] = .ok factory) :
      IsQueueValue ("drop_tail(".toList ++ maxSize ++ [')']) factory

/-- `none` or `iid_uniform_random_pkt(0.1)`. NaN passes the check of the range. -/
inductive IsReceiveErrorModelValue : Str → Bool × Option RateErrorModel → Prop where
  | none : IsReceiveErrorModelValue "none".toList (false, none)
  | iidUniformRandomPkt {errorRate : Str} {rate : Double} (hrate : IsDouble stod errorRate rate)
      (hrange : rate = .nan ∨ rate.IsFraction) :
      IsReceiveErrorModelValue ("iid_uniform_random_pkt(".toList ++ errorRate ++ [')']) (true, some ⟨.packet, rate⟩)

/-- ns-3 makes the helper of the discipline, whose queue has the maximum size. -/
def MakesHelper (queueDisc : String) (maxSize : Str)
    (attributes : ns3.QueueSize → List (String × AttributeValue ns3.QueueSize)) (helper : ns3.TrafficControlHelper) :
    Prop :=
  ∃ size, ns3.queueSize maxSize = .ok size ∧ ns3.setRootQueueDisc queueDisc (attributes size) = .ok helper

/-- A discipline that has a maximum size and nothing else. -/
def IsFifoLike (queueDisc : String) (text : Str) (helper : ns3.TrafficControlHelper) : Prop :=
  (∃ number, IsMaxQueueSize ["p", "B"] (trim text) number) ∧
    MakesHelper ns3 queueDisc (trim text) (fun size => [("MaxSize", .queueSize size)]) helper

/-- `interval_ns; target_ns; max_queue_size`. -/
def IsFqCodel (text : Str) (helper : ns3.TrafficControlHelper) : Prop :=
  ∃ intervalText targetText maxSize interval target, text.splitOn ';' = [intervalText, targetText, maxSize] ∧
    (IsPositiveNumeral intervalText interval ∧ 1 ≤ interval) ∧ (IsPositiveNumeral targetText target ∧ 1 ≤ target) ∧
    (∃ number, IsMaxQueueSize ["p"] (trim maxSize) number) ∧
    MakesHelper ns3 "ns3::FqCoDelQueueDisc" (trim maxSize) (fun size => [("Interval", .string (nanoseconds interval)),
      ("Target", .string (nanoseconds target)), ("MaxSize", .queueSize size)]) helper

/-- `disabled`, `default`, or one of four disciplines. -/
inductive IsTcQdiscValue : Str → Bool × ns3.TrafficControlHelper → Prop where
  | disabled : IsTcQdiscValue "disabled".toList (false, ns3.trafficControlHelper)
  | default : IsTcQdiscValue "default".toList (true, ns3.trafficControlHelper)
  | fqCodel {inner : Str} {helper : ns3.TrafficControlHelper} (h : IsFqCodel ns3 inner helper) :
      IsTcQdiscValue ("fq_codel(".toList ++ inner ++ [')']) (true, helper)
  | fifo {inner : Str} {helper : ns3.TrafficControlHelper} (h : IsFifoLike ns3 "ns3::FifoQueueDisc" inner helper) :
      IsTcQdiscValue ("fifo(".toList ++ inner ++ [')']) (true, helper)
  | pfifoFast {inner : Str} {helper : ns3.TrafficControlHelper}
      (h : IsFifoLike ns3 "ns3::PfifoFastQueueDisc" inner helper) :
      IsTcQdiscValue ("pfifo_fast(".toList ++ inner ++ [')']) (true, helper)
  | simpleRed {inner : Str} {fields : SimpleRedFields} {red : SimpleRed} {helper : ns3.TrafficControlHelper}
      (hfields : inner.splitOn ';' = fields.toList) (hred : IsSimpleRed stod fields red)
      (h : MakesHelper ns3 "ns3::RedQueueDisc" red.maxSizeStr red.attributes helper) :
      IsTcQdiscValue ("simple_red(".toList ++ inner ++ [')']) (true, helper)

end Forms

/-! ## Exactness -/

section Exactness

variable {ns3 : Ns3Factories} {stod : Str → Except Exc (Double × Nat)} {value inner : Str}

theorem parseQueueValue_eq_ok {factory : ns3.ObjectFactory} :
    parseQueueValue ns3 value = .ok factory ↔ IsQueueValue ns3 value factory := by
  unfold parseQueueValue
  constructor
  · intro h
    by_cases hencased : isEncased "drop_tail(" value = true
    · rw [if_pos hencased] at h
      obtain ⟨number, hnumber, h⟩ := bind_eq_ok.mp h
      obtain ⟨size, hsize, h⟩ := bind_eq_ok.mp h
      rw [(isEncased_iff (by decide)).mp ⟨hencased, rfl⟩]
      exact .dropTail (parseMaxQueueSize_eq_ok.mp hnumber) hsize h
    · rw [if_neg hencased] at h
      cases h
  · rintro ⟨hmax, hsize, hfactory⟩
    rw [if_pos ((isEncased_iff (by decide)).mpr rfl).1, ((isEncased_iff (by decide)).mpr rfl).2]
    exact bind_eq_ok.mpr ⟨_, parseMaxQueueSize_eq_ok.mpr hmax, bind_eq_ok.mpr ⟨_, hsize, hfactory⟩⟩

theorem parseErrorModelValue_eq_ok {result : Bool × Option RateErrorModel} :
    parseReceiveErrorModelValue stod value = .ok result ↔ IsReceiveErrorModelValue stod value result := by
  obtain ⟨enabled, model⟩ := result
  cases model with
  | some model =>
      rw [parseReceiveErrorModelValue_eq_ok]
      constructor
      · rintro ⟨rfl, hunit, errorRate, rfl, hrate, hrange⟩
        obtain ⟨unit, rate⟩ := model
        obtain rfl : unit = .packet := hunit
        exact .iidUniformRandomPkt hrate hrange
      · intro h
        cases h with
        | iidUniformRandomPkt hrate hrange => exact ⟨rfl, rfl, _, rfl, hrate, hrange⟩
  | none =>
      unfold parseReceiveErrorModelValue
      constructor
      · intro h
        by_cases hnone : value = "none".toList
        · rw [if_pos hnone] at h
          cases h
          rw [hnone]
          exact .none
        · -- a model comes with every other value
          rw [if_neg hnone] at h
          split at h
          · obtain ⟨_, _, h⟩ := bind_eq_ok.mp h
            cases (throwIf_bind_eq_ok.mp h).2
          · cases h
      · intro h
        cases h with
        | none => rfl

/-- What the queue disciplines have at their end. -/
theorem makesHelper_iff {queueDisc : String} {maxSize : Str}
    {attributes : ns3.QueueSize → List (String × AttributeValue ns3.QueueSize)} {helper : ns3.TrafficControlHelper} :
    (do ns3.setRootQueueDisc queueDisc (attributes (← ns3.queueSize maxSize))) = .ok helper ↔
      MakesHelper ns3 queueDisc maxSize attributes helper :=
  bind_eq_ok

theorem parseFifoLike_eq_ok {queueDisc invalidText : String} {helper : ns3.TrafficControlHelper} :
    parseFifoLike ns3 queueDisc invalidText inner = .ok helper ↔ IsFifoLike ns3 queueDisc inner helper := by
  unfold parseFifoLike IsFifoLike
  simp only [bind_eq_ok (x := parseMaxQueueSize _ _ _), parseMaxQueueSize_eq_ok, makesHelper_iff]
  exact ⟨fun ⟨number, hmax, h⟩ => ⟨⟨number, hmax⟩, h⟩, fun ⟨⟨number, hmax⟩, h⟩ => ⟨number, hmax, h⟩⟩

theorem parseFqCodel_eq_ok {helper : ns3.TrafficControlHelper} :
    parseFqCodel ns3 inner = .ok helper ↔ IsFqCodel ns3 inner helper := by
  unfold parseFqCodel splitStringExpected
  rw [show ";".toList = [';'] from rfl, splitString_singleton]
  constructor
  · intro h
    obtain ⟨spl, hspl, h⟩ := bind_eq_ok.mp h
    obtain ⟨hlen, hspl⟩ := throwIf_bind_eq_ok.mp hspl
    cases hspl
    -- three fields, so that every index is in range
    generalize hsplit : inner.splitOn ';' = spl at h hlen
    rcases spl with _ | ⟨intervalText, _ | ⟨targetText, _ | ⟨maxSize, _ | _⟩⟩⟩ <;> simp at hlen
    simp only [vectorAt, Int.reduceLE, if_true, Int.reduceToNat, List.getElem?_cons_succ, List.getElem?_cons_zero,
      ok_bind] at h
    obtain ⟨interval, hinterval, h⟩ := bind_eq_ok.mp h
    obtain ⟨target, htarget, h⟩ := bind_eq_ok.mp h
    obtain ⟨number, hnumber, h⟩ := bind_eq_ok.mp h
    exact ⟨intervalText, targetText, maxSize, interval, target, hsplit, parseGeqOneInt64_eq_ok.mp hinterval,
      parseGeqOneInt64_eq_ok.mp htarget, ⟨number, parseMaxQueueSize_eq_ok.mp hnumber⟩, makesHelper_iff.mp h⟩
  · rintro ⟨intervalText, targetText, maxSize, interval, target, hsplit, hinterval, htarget, ⟨number, hmax⟩, h⟩
    rw [hsplit, ok_bind, throwIf_of_not (by simp), ok_bind, ok_bind]
    simp only [vectorAt, Int.reduceLE, if_true, Int.reduceToNat, List.getElem?_cons_succ, List.getElem?_cons_zero,
      ok_bind]
    rw [parseGeqOneInt64_eq_ok.mpr hinterval, ok_bind, parseGeqOneInt64_eq_ok.mpr htarget, ok_bind,
      parseMaxQueueSize_eq_ok.mpr hmax, ok_bind]
    exact makesHelper_iff.mpr h

/-- A value of a discipline that is read by `parse`, after the values before it were tried. -/
theorem parseTcQdiscValue_encased {opening : String} (parse : Str → Except Exc ns3.TrafficControlHelper)
    {other : Except Exc (Bool × ns3.TrafficControlHelper)} {result : Bool × ns3.TrafficControlHelper}
    (hopen : opening.toList.getLast? ≠ some ')') :
    (if isEncased opening value = true then do .ok (true, ← parse (innerPart opening value)) else other) = .ok result ↔
      (∃ inner helper, value = opening.toList ++ inner ++ [')'] ∧ parse inner = .ok helper ∧ result = (true, helper)) ∨
      isEncased opening value = false ∧ other = .ok result := by
  by_cases hencased : isEncased opening value = true
  · rw [if_pos hencased, bind_eq_ok]
    constructor
    · rintro ⟨helper, hhelper, h⟩
      cases h
      exact .inl ⟨_, helper, (isEncased_iff hopen).mp ⟨hencased, rfl⟩, hhelper, rfl⟩
    · rintro (⟨inner, helper, hvalue, hhelper, rfl⟩ | ⟨hnot, -⟩)
      · exact ⟨helper, ((isEncased_iff hopen).mpr hvalue).2 ▸ hhelper, rfl⟩
      · rw [hnot] at hencased
        cases hencased
  · rw [if_neg hencased]
    rw [Bool.not_eq_true] at hencased
    constructor
    · exact fun h => .inr ⟨hencased, h⟩
    · rintro (⟨inner, helper, hvalue, -, -⟩ | ⟨-, h⟩)
      · rw [((isEncased_iff hopen).mpr hvalue).1] at hencased
        cases hencased
      · exact h

/-- RED reads its fields first. -/
theorem readSimpleRed_eq_ok {helper : ns3.TrafficControlHelper} :
    (parseSimpleRed stod inner >>= SimpleRed.helper ns3) = .ok helper ↔
      ∃ fields red, inner.splitOn ';' = SimpleRedFields.toList fields ∧ IsSimpleRed stod fields red ∧
        MakesHelper ns3 "ns3::RedQueueDisc" red.maxSizeStr red.attributes helper := by
  simp only [bind_eq_ok (x := parseSimpleRed _ _), parseSimpleRed_eq_ok]
  constructor
  · rintro ⟨red, ⟨fields, hfields, hred⟩, h⟩
    exact ⟨fields, red, hfields, hred, makesHelper_iff.mp h⟩
  · rintro ⟨fields, red, hfields, hred, h⟩
    exact ⟨red, ⟨fields, hfields, hred⟩, makesHelper_iff.mpr h⟩

/-- The branch of RED as one of the others. -/
theorem simpleRed_branch :
    (do
      let red ← parseSimpleRed stod inner
      .ok (true, ← red.helper ns3)) = (do .ok (true, ← parseSimpleRed stod inner >>= SimpleRed.helper ns3)) := by
  rw [bind_assoc]

/-- **The values of the property, and what they are read as.** -/
theorem parseTcQdiscValue_eq_ok {result : Bool × ns3.TrafficControlHelper} :
    parseTcQdiscValue ns3 stod value = .ok result ↔ IsTcQdiscValue ns3 stod value result := by
  unfold parseTcQdiscValue
  rw [simpleRed_branch]
  constructor
  · intro h
    by_cases hdisabled : value = "disabled".toList
    · rw [if_pos hdisabled] at h
      cases h
      rw [hdisabled]
      exact .disabled
    by_cases hdefault : value = "default".toList
    · rw [if_neg hdisabled, if_pos hdefault] at h
      cases h
      rw [hdefault]
      exact .default
    rw [if_neg hdisabled, if_neg hdefault] at h
    -- the disciplines, in the order in which they are tried
    rcases (parseTcQdiscValue_encased _ (by decide)).mp h with ⟨inner, helper, rfl, hread, rfl⟩ | ⟨-, h⟩
    · exact .fqCodel (parseFqCodel_eq_ok.mp hread)
    rcases (parseTcQdiscValue_encased _ (by decide)).mp h with ⟨inner, helper, rfl, hread, rfl⟩ | ⟨-, h⟩
    · exact .fifo (parseFifoLike_eq_ok.mp hread)
    rcases (parseTcQdiscValue_encased _ (by decide)).mp h with ⟨inner, helper, rfl, hread, rfl⟩ | ⟨-, h⟩
    · exact .pfifoFast (parseFifoLike_eq_ok.mp hread)
    rcases (parseTcQdiscValue_encased (fun inner => parseSimpleRed stod inner >>= SimpleRed.helper ns3)
      (by decide)).mp h with ⟨inner, helper, rfl, hread, rfl⟩ | ⟨-, h⟩
    · obtain ⟨fields, red, hfields, hred, hhelper⟩ := readSimpleRed_eq_ok.mp hread
      exact .simpleRed hfields hred hhelper
    · cases h
  · intro h
    cases h with
    | disabled => rfl
    | default => rfl
    | fqCodel h =>
        rw [if_neg (by simp), if_neg (by simp)]
        exact (parseTcQdiscValue_encased _ (by decide)).mpr (.inl ⟨_, _, rfl, parseFqCodel_eq_ok.mpr h, rfl⟩)
    | fifo h =>
        rw [if_neg (by simp), if_neg (by simp), isEncased_eq_false (by simp), if_neg (by decide)]
        exact (parseTcQdiscValue_encased _ (by decide)).mpr (.inl ⟨_, _, rfl, parseFifoLike_eq_ok.mpr h, rfl⟩)
    | pfifoFast h =>
        rw [if_neg (by simp), if_neg (by simp), isEncased_eq_false (by simp), if_neg (by decide),
          isEncased_eq_false (by simp), if_neg (by decide)]
        exact (parseTcQdiscValue_encased _ (by decide)).mpr (.inl ⟨_, _, rfl, parseFifoLike_eq_ok.mpr h, rfl⟩)
    | simpleRed hfields hred h =>
        rw [if_neg (by simp), if_neg (by simp), isEncased_eq_false (by simp), if_neg (by decide),
          isEncased_eq_false (by simp), if_neg (by decide), isEncased_eq_false (by simp), if_neg (by decide)]
        exact (parseTcQdiscValue_encased (fun inner => parseSimpleRed stod inner >>= SimpleRed.helper ns3)
          (by decide)).mpr (.inl ⟨_, _, rfl, readSimpleRed_eq_ok.mpr ⟨_, _, hfields, hred, h⟩, rfl⟩)

end Exactness

end BasicSim
