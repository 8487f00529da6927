import BasicSim.Core.Correctness.Numerals
import BasicSim.Core.DefaultSelectors

/-!
# `Core.Correctness.NumberRanges` — floating-point settings and their ranges

Every check of a range throws when the value is below it or above it. NaN is neither, so it passes them all, and that
is the only value outside of its range that does.

## Contents
- **Comparisons.** What a comparison that fails leaves: `Double.ltRat_eq_false`, `Double.gtRat_eq_false`,
  `Double.leRat_eq_false`.
- **Numbers.** `IsDouble`, `parseInRange_eq_ok`, and what each parser of a number accepts.
- **Values of the selectors.** `isEncased_iff`, `parseReceiveErrorModelValue_eq_ok`, `parseSimpleRed_eq_ok`,
  `parseTcQdiscValue_simpleRed`.
- **The result.** `AcceptedInRange`, `NeverNaN`, `accepted_in_range_iff`.
-/

namespace BasicSim

open Fallible

/-! ## Comparisons -/

section Comparisons

variable {x : Double} {q : Rat}

@[simp] theorem Double.ltRat_nan : Double.nan.ltRat q = false := rfl

@[simp] theorem Double.gtRat_nan : Double.nan.gtRat q = false := rfl

@[simp] theorem Double.leRat_nan : Double.nan.leRat q = false := rfl

@[simp] theorem Double.geRat_nan : Double.nan.geRat q = false := rfl

theorem Double.ltRat_eq_false : x.ltRat q = false ↔ x = .nan ∨ x.geRat q = true := by
  cases x <;> simp [Double.ltRat, Double.geRat]

theorem Double.gtRat_eq_false : x.gtRat q = false ↔ x = .nan ∨ x.leRat q = true := by
  cases x <;> simp [Double.gtRat, Double.leRat]

theorem Double.leRat_eq_false : x.leRat q = false ↔ x = .nan ∨ x.gtRat q = true := by
  cases x <;> simp [Double.gtRat, Double.leRat]

end Comparisons

/-- From zero on. -/
def Double.IsPositive (x : Double) : Prop := x.geRat 0 = true

/-- The range [0, 1]. -/
def Double.IsFraction (x : Double) : Prop := x.geRat 0 = true ∧ x.leRat 1 = true

/-- The range (0, 1]. -/
def Double.IsPositiveFraction (x : Double) : Prop := x.gtRat 0 = true ∧ x.leRat 1 = true

theorem Double.not_isPositive_nan : ¬ Double.nan.IsPositive := Bool.false_ne_true

theorem Double.not_isFraction_nan : ¬ Double.nan.IsFraction := fun h => Bool.false_ne_true h.1

theorem Double.not_isPositiveFraction_nan : ¬ Double.nan.IsPositiveFraction := fun h => Bool.false_ne_true h.1

/-! ## Numbers -/

section Numbers

variable {stod : Str → Except Exc (Double × Nat)} {s : Str} {v : Double}

/-- The text, trimmed, is read as the value to its end. -/
def IsDouble (stod : Str → Except Exc (Double × Nat)) (s : Str) (v : Double) : Prop :=
  stod (trim s) = .ok (v, (trim s).length)

theorem IsDouble.unique {w : Double} (h : IsDouble stod s v) (h' : IsDouble stod s w) : v = w :=
  (Prod.mk.inj (Except.ok.inj (h.symm.trans h'))).1

theorem parseDouble_eq_ok : parseDouble stod s = .ok v ↔ IsDouble stod s v := by
  unfold parseDouble IsDouble
  cases hstod : stod (trim s) with
  | error e => cases e <;> simp [hstod]
  | ok r =>
      obtain ⟨val, i⟩ := r
      simp only [hstod, throwIf_bind_eq_ok, not_not, Except.ok.injEq, Prod.mk.injEq, and_comm]

/-- **What passes a check of the range**: what is in it, and NaN. -/
theorem parseInRange_eq_ok {outside : Double → Bool} {Inside : Double → Prop} {e : Exc}
    (h : ∀ v, outside v = false ↔ v = .nan ∨ Inside v) :
    (do let val ← parseDouble stod s; throwIf (outside val = true) e; .ok val) = .ok v
      ↔ IsDouble stod s v ∧ (v = .nan ∨ Inside v) := by
  rw [bind_eq_ok]
  simp only [parseDouble_eq_ok, throwIf_bind_eq_ok, Bool.not_eq_true, h, Except.ok.injEq]
  constructor
  · rintro ⟨val, hval, hrange, rfl⟩
    exact ⟨hval, hrange⟩
  · rintro ⟨hval, hrange⟩
    exact ⟨v, hval, hrange, rfl⟩

theorem parsePositiveDouble_eq_ok :
    parsePositiveDouble stod s = .ok v ↔ IsDouble stod s v ∧ (v = .nan ∨ v.IsPositive) :=
  parseInRange_eq_ok fun _ => Double.ltRat_eq_false

theorem outside_zero_one (v : Double) : (v.ltRat 0 || v.gtRat 1) = false ↔ v = .nan ∨ v.IsFraction := by
  rw [Bool.or_eq_false_iff, Double.ltRat_eq_false, Double.gtRat_eq_false, ← or_and_left]
  rfl

theorem parseDoubleBetweenZeroAndOne_eq_ok :
    parseDoubleBetweenZeroAndOne stod s = .ok v ↔ IsDouble stod s v ∧ (v = .nan ∨ v.IsFraction) :=
  parseInRange_eq_ok outside_zero_one

theorem parseAboveZeroUpToOne_eq_ok {rangeText : String} :
    parseAboveZeroUpToOne stod rangeText s = .ok v ↔ IsDouble stod s v ∧ (v = .nan ∨ v.IsPositiveFraction) :=
  parseInRange_eq_ok fun v => by
    rw [Bool.or_eq_false_iff, Double.leRat_eq_false, Double.gtRat_eq_false, ← or_and_left]
    rfl

end Numbers

/-! ## Values of the selectors -/

section Selectors

variable {ns3 : Ns3Factories} {stod : Str → Except Exc (Double × Nat)} {opening : String} {value inner : Str}

/-- The opening text ends in a parenthesis that the closing one cannot overlap. -/
theorem isEncased_iff (hopen : opening.toList.getLast? ≠ some ')') :
    isEncased opening value = true ∧ innerPart opening value = inner ↔ value = opening.toList ++ inner ++ [')'] := by
  have hinside : onlyInside "" opening.toList value = .ok inner ↔ _ := onlyInside_eq_ok hopen
  rw [← hinside]
  unfold onlyInside isEncased innerPart
  rw [throwIf_bind_eq_ok, Except.ok.injEq, Bool.and_eq_true, not_or, Bool.not_eq_false, Bool.not_eq_false,
    String.length_toList]

/-- A value that does not begin with the opening text. -/
theorem isEncased_eq_false (hstart : ¬ opening.toList <+: value) : isEncased opening value = false := by
  rw [isEncased, Bool.and_eq_false_iff]
  exact .inl (Bool.eq_false_iff.mpr fun h => hstart (startsWith_eq_true.mp h))

theorem parseReceiveErrorModelValue_eq_ok {enabled : Bool} {model : RateErrorModel} :
    parseReceiveErrorModelValue stod value = .ok (enabled, some model) ↔ enabled = true ∧ model.unit = .packet ∧
      ∃ inner, value = "iid_uniform_random_pkt(".toList ++ inner ++ [')'] ∧ IsDouble stod inner model.rate ∧
        (model.rate = .nan ∨ model.rate.IsFraction) := by
  unfold parseReceiveErrorModelValue
  constructor
  · intro h
    by_cases hnone : value = "none".toList
    · simp [hnone] at h
    rw [if_neg hnone] at h
    by_cases hencased : isEncased "iid_uniform_random_pkt(" value = true
    · rw [if_pos hencased] at h
      obtain ⟨rate, hrate, h⟩ := bind_eq_ok.mp h
      obtain ⟨hrange, h⟩ := throwIf_bind_eq_ok.mp h
      cases h
      exact ⟨rfl, rfl, _, (isEncased_iff (by decide)).mp ⟨hencased, rfl⟩, parseDouble_eq_ok.mp hrate,
        (outside_zero_one rate).mp (Bool.not_eq_true _ ▸ hrange)⟩
    · rw [if_neg hencased] at h
      cases h
  · rintro ⟨rfl, hunit, inner, hvalue, hrate, hrange⟩
    obtain ⟨unit, rate⟩ := model
    obtain rfl : unit = .packet := hunit
    obtain ⟨hencased, hinner⟩ := (isEncased_iff (by decide)).mpr hvalue
    rw [if_neg (by simp [hvalue]), if_pos hencased, hinner, parseDouble_eq_ok.mpr hrate, ok_bind,
      (outside_zero_one rate).mpr hrange]
    rfl

/-! ## RED -/

/-- The text, trimmed, is a number of at least one followed by one of the units. -/
def IsMaxQueueSize (units : List String) (value : Str) (size : Int) : Prop :=
  (∃ unit ∈ units, endsWith value unit.toList = true) ∧
    IsPositiveNumeral (value.take (value.length - 1)) size ∧ 1 ≤ size

/-- The text, trimmed, is one of two words. -/
def IsEither (yes no : String) (field : Str) (isYes : Bool) : Prop :=
  (trim field = yes.toList ∧ isYes = true) ∨ (trim field = no.toList ∧ isYes = false)

theorem parseMaxQueueSize_eq_ok {units : List String} {invalidText : String} {size : Int} :
    parseMaxQueueSize units invalidText value = .ok size ↔ IsMaxQueueSize units value size := by
  unfold parseMaxQueueSize IsMaxQueueSize
  rw [throwIf_bind_eq_ok, parseGeqOneInt64_eq_ok]
  simp only [not_forall, Bool.not_eq_false, exists_prop]

theorem parseEither_eq_ok {yes no invalidText : String} {field : Str} {isYes : Bool} (hne : yes.toList ≠ no.toList) :
    parseEither yes no invalidText field = .ok isYes ↔ IsEither yes no field isYes := by
  unfold parseEither IsEither
  simp only [throwIf_bind_eq_ok, Except.ok.injEq]
  by_cases hyes : trim field = yes.toList
  · simp [hyes, hne, eq_comm]
  · simp [hyes, eq_comm]

/-- The fields of a `simple_red` text. -/
structure SimpleRedFields where
  action : Str
  meanPktSizeByte : Str
  queueWeight : Str
  minThPkt : Str
  maxThPkt : Str
  maxSize : Str
  maxP : Str
  wait : Str
  gentle : Str

def SimpleRedFields.toList (f : SimpleRedFields) : List Str :=
  [f.action, f.meanPktSizeByte, f.queueWeight, f.minThPkt, f.maxThPkt, f.maxSize, f.maxP, f.wait, f.gentle]

/-- **What the fields must be**, but for NaN where a number in the range (0, 1] is read. -/
structure IsSimpleRed (stod : Str → Except Exc (Double × Nat)) (f : SimpleRedFields) (red : SimpleRed) : Prop where
  action : IsEither "ecn" "drop" f.action red.actionIsEcn
  meanPktSizeByte : IsPositiveNumeral f.meanPktSizeByte red.meanPktSizeByte ∧ 1 ≤ red.meanPktSizeByte
  queueWeight : IsDouble stod f.queueWeight red.queueWeight ∧
    (red.queueWeight = .nan ∨ red.queueWeight.IsPositiveFraction)
  minThPkt : IsPositiveNumeral f.minThPkt red.minThPkt
  maxThPkt : IsPositiveNumeral f.maxThPkt red.maxThPkt
  maxSizeStr : trim f.maxSize = red.maxSizeStr
  maxSize : ∃ size pkts, IsMaxQueueSize ["p", "B"] red.maxSizeStr size ∧
    maxSizePkt (endsWith red.maxSizeStr "p".toList) size red.meanPktSizeByte = .ok pkts ∧
    red.minThPkt ≤ red.maxThPkt ∧ red.maxThPkt ≤ pkts
  maxP : IsDouble stod f.maxP red.maxP ∧ (red.maxP = .nan ∨ red.maxP.IsPositiveFraction)
  wait : IsEither "wait" "no_wait" f.wait red.wait
  gentle : IsEither "gentle" "not_gentle" f.gentle red.gentle

theorem checkRedThresholds_eq_ok {minThPkt maxThPkt maxSizePkt : Int} :
    checkRedThresholds minThPkt maxThPkt maxSizePkt = .ok () ↔ minThPkt ≤ maxThPkt ∧ maxThPkt ≤ maxSizePkt := by
  unfold checkRedThresholds
  rw [throwIf_bind_eq_ok, throwIf_eq_ok]
  omega

/-- **The texts that are accepted, but for the limits of ns-3.** -/
theorem parseSimpleRed_eq_ok {red : SimpleRed} : parseSimpleRed stod inner = .ok red ↔
    ∃ f : SimpleRedFields, inner.splitOn ';' = f.toList ∧ IsSimpleRed stod f red := by
  unfold parseSimpleRed splitStringExpected
  rw [show ";".toList = [';'] from rfl, splitString_singleton]
  constructor
  · intro h
    obtain ⟨spl, hspl, h⟩ := bind_eq_ok.mp h
    obtain ⟨hlen, hspl⟩ := throwIf_bind_eq_ok.mp hspl
    cases hspl
    -- nine fields, so that every index is in range
    generalize inner.splitOn ';' = spl at h hlen
    rcases spl with _ | ⟨action, _ | ⟨meanPktSizeByte, _ | ⟨queueWeight, _ | ⟨minThPkt, _ | ⟨maxThPkt,
      _ | ⟨maxSize, _ | ⟨maxP, _ | ⟨wait, _ | ⟨gentle, _ | _⟩⟩⟩⟩⟩⟩⟩⟩⟩ <;> simp at hlen
    simp only [vectorAt, Int.reduceLE, if_true, Int.reduceToNat, List.getElem?_cons_succ, List.getElem?_cons_zero,
      ok_bind] at h
    obtain ⟨actionIsEcn, haction, h⟩ := bind_eq_ok.mp h
    obtain ⟨mean, hmean, h⟩ := bind_eq_ok.mp h
    obtain ⟨weight, hweight, h⟩ := bind_eq_ok.mp h
    obtain ⟨minTh, hminTh, h⟩ := bind_eq_ok.mp h
    obtain ⟨maxTh, hmaxTh, h⟩ := bind_eq_ok.mp h
    obtain ⟨size, hsize, h⟩ := bind_eq_ok.mp h
    obtain ⟨pkts, hpkts, h⟩ := bind_eq_ok.mp h
    obtain ⟨_, hcheck, h⟩ := bind_eq_ok.mp h
    obtain ⟨p, hp, h⟩ := bind_eq_ok.mp h
    obtain ⟨isWait, hwait, h⟩ := bind_eq_ok.mp h
    obtain ⟨isGentle, hgentle, h⟩ := bind_eq_ok.mp h
    cases h
    exact ⟨⟨action, meanPktSizeByte, queueWeight, minThPkt, maxThPkt, maxSize, maxP, wait, gentle⟩, rfl,
      { action := (parseEither_eq_ok (by decide)).mp haction
        meanPktSizeByte := parseGeqOneInt64_eq_ok.mp hmean
        queueWeight := parseAboveZeroUpToOne_eq_ok.mp hweight
        minThPkt := parsePositiveInt64_eq_ok_iff.mp hminTh
        maxThPkt := parsePositiveInt64_eq_ok_iff.mp hmaxTh
        maxSizeStr := rfl
        maxSize := ⟨size, pkts, parseMaxQueueSize_eq_ok.mp hsize, hpkts, checkRedThresholds_eq_ok.mp hcheck⟩
        maxP := parseAboveZeroUpToOne_eq_ok.mp hp
        wait := (parseEither_eq_ok (by decide)).mp hwait
        gentle := (parseEither_eq_ok (by decide)).mp hgentle }⟩
  · rintro ⟨f, hsplit, h⟩
    -- the fields are parsed in the order of the source, and each parser succeeds
    obtain ⟨size, pkts, hsize, hpkts, hthresholds⟩ := h.maxSize
    rw [hsplit, ok_bind, throwIf_of_not (by simp [SimpleRedFields.toList]), ok_bind, ok_bind]
    simp only [SimpleRedFields.toList, vectorAt, Int.reduceLE, if_true, Int.reduceToNat, List.getElem?_cons_succ,
      List.getElem?_cons_zero, ok_bind]
    rw [(parseEither_eq_ok (by decide)).mpr h.action, ok_bind, parseGeqOneInt64_eq_ok.mpr h.meanPktSizeByte, ok_bind,
      parseAboveZeroUpToOne_eq_ok.mpr h.queueWeight, ok_bind, parsePositiveInt64_eq_ok_iff.mpr h.minThPkt, ok_bind,
      parsePositiveInt64_eq_ok_iff.mpr h.maxThPkt, ok_bind, h.maxSizeStr, parseMaxQueueSize_eq_ok.mpr hsize, ok_bind,
      hpkts, ok_bind, checkRedThresholds_eq_ok.mpr hthresholds, ok_bind, parseAboveZeroUpToOne_eq_ok.mpr h.maxP,
      ok_bind, (parseEither_eq_ok (by decide)).mpr h.wait, ok_bind, (parseEither_eq_ok (by decide)).mpr h.gentle,
      ok_bind]

/-- A `simple_red` value is none of the values that are tried before. -/
theorem parseTcQdiscValue_simpleRed :
    parseTcQdiscValue ns3 stod ("simple_red(".toList ++ inner ++ [')']) = (do
      let red ← parseSimpleRed stod inner
      .ok (true, ← red.helper ns3)) := by
  obtain ⟨hencased, hinner⟩ : isEncased "simple_red(" ("simple_red(".toList ++ inner ++ [')']) = true ∧ _ :=
    (isEncased_iff (by decide)).mpr rfl
  unfold parseTcQdiscValue
  rw [if_neg (by simp), if_neg (by simp), isEncased_eq_false (by simp), isEncased_eq_false (by simp),
    isEncased_eq_false (by simp), hencased, hinner]
  rfl

end Selectors

/-! ## The result -/

/-- **Accepted numbers are within their ranges.** -/
structure AcceptedInRange (ns3 : Ns3Factories) (stod : Str → Except Exc (Double × Nat)) (s : Str) : Prop where
  positive : ∀ v, parsePositiveDouble stod s = .ok v → v.IsPositive
  fraction : ∀ v, parseDoubleBetweenZeroAndOne stod s = .ok v → v.IsFraction
  errorRate : ∀ enabled model, parseReceiveErrorModelValue stod s = .ok (enabled, some model) → model.rate.IsFraction
  simpleRed : ∀ inner red result, s = "simple_red(".toList ++ inner ++ [')'] → parseSimpleRed stod inner = .ok red →
    parseTcQdiscValue ns3 stod s = .ok result → red.queueWeight.IsPositiveFraction ∧ red.maxP.IsPositiveFraction

/-- **No number is read as NaN**: not the text as a whole, not the error rate, and in a `simple_red` value that ns-3
    takes neither the queue weight nor the maximum probability. -/
structure NeverNaN (ns3 : Ns3Factories) (stod : Str → Except Exc (Double × Nat)) (s : Str) : Prop where
  number : ¬ IsDouble stod s .nan
  errorRate : ∀ inner, s = "iid_uniform_random_pkt(".toList ++ inner ++ [')'] → ¬ IsDouble stod inner .nan
  simpleRed : ∀ inner (f : SimpleRedFields) red helper, s = "simple_red(".toList ++ inner ++ [')'] →
    inner.splitOn ';' = f.toList → IsSimpleRed stod f red → red.helper ns3 = .ok helper →
    ¬ IsDouble stod f.queueWeight .nan ∧ ¬ IsDouble stod f.maxP .nan

/-! Part by part: what is accepted is in its range, unless NaN is read. -/

section Parts

variable {ns3 : Ns3Factories} {stod : Str → Except Exc (Double × Nat)} {s : Str}

/-- A check that lets exactly its range and NaN pass. -/
theorem forall_inside_iff {Accepts Read Inside : Double → Prop}
    (h : ∀ v, Accepts v ↔ Read v ∧ (v = .nan ∨ Inside v)) (hnan : ¬ Inside .nan) :
    (∀ v, Accepts v → Inside v) ↔ ¬ Read .nan := by
  constructor
  · intro hinside hread
    exact hnan (hinside .nan ((h .nan).mpr ⟨hread, .inl rfl⟩))
  · intro hread v hv
    obtain ⟨hv, rfl | hin⟩ := (h v).mp hv
    · exact absurd hv hread
    · exact hin

theorem positive_iff : (∀ v, parsePositiveDouble stod s = .ok v → v.IsPositive) ↔ ¬ IsDouble stod s .nan :=
  forall_inside_iff (fun _ => parsePositiveDouble_eq_ok) Double.not_isPositive_nan

theorem fraction_iff : (∀ v, parseDoubleBetweenZeroAndOne stod s = .ok v → v.IsFraction) ↔ ¬ IsDouble stod s .nan :=
  forall_inside_iff (fun _ => parseDoubleBetweenZeroAndOne_eq_ok) Double.not_isFraction_nan

theorem errorRate_iff :
    (∀ enabled model, parseReceiveErrorModelValue stod s = .ok (enabled, some model) → model.rate.IsFraction) ↔
      ∀ inner, s = "iid_uniform_random_pkt(".toList ++ inner ++ [')'] → ¬ IsDouble stod inner .nan := by
  constructor
  · intro h inner hs hnan
    apply Double.not_isFraction_nan
    exact h true ⟨.packet, .nan⟩ (parseReceiveErrorModelValue_eq_ok.mpr ⟨rfl, rfl, inner, hs, hnan, .inl rfl⟩)
  · intro h enabled model hmodel
    obtain ⟨-, -, inner, hs, hread, hnan | hin⟩ := parseReceiveErrorModelValue_eq_ok.mp hmodel
    · exact absurd (hnan ▸ hread) (h inner hs)
    · exact hin

/-- A number that passed the check of (0, 1] is in it if and only if it was not read as NaN. -/
theorem isPositiveFraction_iff {field : Str} {v : Double}
    (h : IsDouble stod field v ∧ (v = .nan ∨ v.IsPositiveFraction)) :
    v.IsPositiveFraction ↔ ¬ IsDouble stod field .nan := by
  constructor
  · intro hin hnan
    rw [← hnan.unique h.1] at hin
    exact Double.not_isPositiveFraction_nan hin
  · exact fun hnan => h.2.resolve_left fun hv => hnan (hv ▸ h.1)

theorem simpleRed_iff :
    (∀ inner red result, s = "simple_red(".toList ++ inner ++ [')'] → parseSimpleRed stod inner = .ok red →
      parseTcQdiscValue ns3 stod s = .ok result → red.queueWeight.IsPositiveFraction ∧ red.maxP.IsPositiveFraction) ↔
    ∀ inner (f : SimpleRedFields) red helper, s = "simple_red(".toList ++ inner ++ [')'] →
      inner.splitOn ';' = f.toList → IsSimpleRed stod f red → red.helper ns3 = .ok helper →
      ¬ IsDouble stod f.queueWeight .nan ∧ ¬ IsDouble stod f.maxP .nan := by
  constructor
  · intro h inner f red helper hs hsplit hred hhelper
    have hparse := parseSimpleRed_eq_ok.mpr ⟨f, hsplit, hred⟩
    have hrun : parseTcQdiscValue ns3 stod s = .ok (true, helper) := by
      rw [hs, parseTcQdiscValue_simpleRed, hparse, ok_bind, hhelper, ok_bind]
    rw [← isPositiveFraction_iff hred.queueWeight, ← isPositiveFraction_iff hred.maxP]
    exact h inner red _ hs hparse hrun
  · intro h inner red result hs hparse hrun
    obtain ⟨f, hsplit, hred⟩ := parseSimpleRed_eq_ok.mp hparse
    -- ns-3 has taken the attributes
    rw [hs, parseTcQdiscValue_simpleRed, hparse, ok_bind] at hrun
    obtain ⟨helper, hhelper, -⟩ := bind_eq_ok.mp hrun
    rw [isPositiveFraction_iff hred.queueWeight, isPositiveFraction_iff hred.maxP]
    exact h inner f red helper hs hsplit hred hhelper

end Parts

/-- **Accepted numbers are within their ranges if and only if none of them is NaN.** -/
theorem accepted_in_range_iff (ns3 : Ns3Factories) (stod : Str → Except Exc (Double × Nat)) (s : Str) :
    AcceptedInRange ns3 stod s ↔ NeverNaN ns3 stod s := by
  constructor
  · intro h
    constructor
    case number => exact positive_iff.mp h.positive
    case errorRate => exact errorRate_iff.mp h.errorRate
    case simpleRed => exact simpleRed_iff.mp h.simpleRed
  · intro h
    constructor
    case positive => exact positive_iff.mpr h.number
    case fraction => exact fraction_iff.mpr h.number
    case errorRate => exact errorRate_iff.mpr h.errorRate
    case simpleRed => exact simpleRed_iff.mpr h.simpleRed

/-- `std::stod`, as far as it reads the word for NaN. -/
def nanStod (s : Str) : Except Exc (Double × Nat) :=
  if s = "nan".toList then .ok (.nan, 3) else .error (.invalidArgument "stod")

/-- An ns-3 that keeps what it is given. -/
def recordingNs3 : Ns3Factories where
  QueueSize := Str
  ObjectFactory := String × List (String × AttributeValue Str)
  TrafficControlHelper := Option (String × List (String × AttributeValue Str))
  queueSize size := .ok size
  queueFactory type attributes := .ok (type, attributes)
  trafficControlHelper := none
  setRootQueueDisc type attributes := .ok (some (type, attributes))

theorem nan_is_accepted :
    parsePositiveDouble nanStod "nan".toList = .ok .nan ∧
    parseDoubleBetweenZeroAndOne nanStod "nan".toList = .ok .nan ∧
    parseReceiveErrorModelValue nanStod "iid_uniform_random_pkt(nan)".toList = .ok (true, some ⟨.packet, .nan⟩) ∧
    ¬ ∀ (ns3 : Ns3Factories) (stod : Str → Except Exc (Double × Nat)) (s : Str), AcceptedInRange ns3 stod s := by
  have hpositive : parsePositiveDouble nanStod "nan".toList = .ok .nan := by decide
  refine ⟨hpositive, by decide, by decide, fun h => ?_⟩
  exact Double.not_isPositive_nan ((h recordingNs3 nanStod "nan".toList).positive .nan hpositive)

end BasicSim
