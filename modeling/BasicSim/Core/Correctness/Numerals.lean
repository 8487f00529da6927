import BasicSim.Core.Correctness.Literals

/-!
# `Core.Correctness.Numerals` — integers and sets of integers are parsed exactly

`stoll` accepts a numeral with anything behind it and reports how much it has read. The comparison of that length
with the length of the trimmed text is what makes the text a numeral as a whole.

## Contents
- **Numerals.** `IsNumeral`, `stoll_eq_ok`, and what each integer parser accepts (`parseInt64_eq_ok`).
- **Arrows.** `parseArrow` is one round of the loop that reads the directed pairs.
- **Main result.** `ParsesSetsExactly`, `IntegersParseExactly`, `integers_parse_exactly`.
-/

namespace BasicSim

open Fallible Padding

/-! ## Numerals -/

/-- One or more decimal digits. -/
def IsDigits (digits : Str) : Prop := digits ≠ [] ∧ ∀ c ∈ digits, c.isDigit = true

/-- The text is an optional sign followed by decimal digits, and stands for the value. -/
inductive IsNumeral : Str → Int → Prop where
  | unsigned {digits : Str} (h : IsDigits digits) : IsNumeral digits (Nat.ofDigitChars 10 digits 0 : Nat)
  | plus {digits : Str} (h : IsDigits digits) : IsNumeral ('+' :: digits) (Nat.ofDigitChars 10 digits 0 : Nat)
  | minus {digits : Str} (h : IsDigits digits) : IsNumeral ('-' :: digits) (-(Nat.ofDigitChars 10 digits 0 : Nat))

/-- The text, trimmed, is the numeral of a value that a non-negative `int64_t` can hold. -/
structure IsPositiveNumeral (s : Str) (v : Int) : Prop where
  numeral : IsNumeral (trim s) v
  nonneg : 0 ≤ v
  fits : v < 2 ^ 63

/-- The text is `a->b` for two distinct non-negative integers. -/
def IsArrow (s : Str) (p : Int64Pair) : Prop :=
  ∃ a b, s = a ++ "->".toList ++ b ∧ IsPositiveNumeral a p.first ∧ IsPositiveNumeral b p.second ∧ p.first ≠ p.second

section Numerals

variable {s digits rest : Str} {c : Char} {v : Int}

theorem IsDigits.not_cons (h : c.isDigit = false) : ¬ IsDigits (c :: rest) := by
  rintro ⟨-, hall⟩
  rw [hall c List.mem_cons_self] at h
  cases h

theorem isNumeral_minus : IsNumeral ('-' :: rest) v ↔ IsDigits rest ∧ v = -(Nat.ofDigitChars 10 rest 0 : Nat) := by
  constructor
  · intro h
    cases h with
    | unsigned h => exact absurd h (IsDigits.not_cons rfl)
    | minus h => exact ⟨h, rfl⟩
  · rintro ⟨h, rfl⟩
    exact .minus h

theorem isNumeral_plus : IsNumeral ('+' :: rest) v ↔ IsDigits rest ∧ v = (Nat.ofDigitChars 10 rest 0 : Nat) := by
  constructor
  · intro h
    cases h with
    | unsigned h => exact absurd h (IsDigits.not_cons rfl)
    | plus h => exact ⟨h, rfl⟩
  · rintro ⟨h, rfl⟩
    exact .plus h

theorem isNumeral_unsigned (hminus : s.head? ≠ some '-') (hplus : s.head? ≠ some '+') :
    IsNumeral s v ↔ IsDigits s ∧ v = (Nat.ofDigitChars 10 s 0 : Nat) := by
  constructor
  · intro h
    cases h with
    | unsigned h => exact ⟨h, rfl⟩
    | plus _ => exact absurd rfl hplus
    | minus _ => exact absurd rfl hminus
  · rintro ⟨h, rfl⟩
    exact .unsigned h

/-- What `stoll` does after the sign: the text is read to its end exactly when it is digits. -/
theorem readDigits_eq_ok (signed : Nat → Int) {before : Nat} {e e' : Exc} :
    (do
      throwIf (rest.takeWhile Char.isDigit = []) e
      throwIf (¬ InInt64 (signed (digitsValue (rest.takeWhile Char.isDigit)))) e'
      .ok (signed (digitsValue (rest.takeWhile Char.isDigit)), before + (rest.takeWhile Char.isDigit).length)) =
      .ok (v, before + rest.length) ↔
      (IsDigits rest ∧ v = signed (Nat.ofDigitChars 10 rest 0)) ∧ InInt64 v := by
  simp only [throwIf_bind_eq_ok, not_not, Except.ok.injEq, Prod.mk.injEq, Nat.add_left_cancel_iff]
  have hend : (rest.takeWhile Char.isDigit).length = rest.length ↔ rest.takeWhile Char.isDigit = rest :=
    ⟨(List.takeWhile_prefix _).eq_of_length, congrArg List.length⟩
  rw [hend]
  constructor
  · rintro ⟨hne, hfits, rfl, hall⟩
    rw [hall] at hne hfits ⊢
    exact ⟨⟨⟨hne, List.takeWhile_eq_self_iff.mp hall⟩, rfl⟩, hfits⟩
  · rintro ⟨⟨⟨hne, hdigits⟩, rfl⟩, hfits⟩
    have hall := List.takeWhile_eq_self_iff.mpr hdigits
    rw [hall]
    exact ⟨hne, hfits, rfl, rfl⟩

/-- **`stoll` reads a text without leading white space to its end exactly when it is a numeral that fits.** -/
theorem stoll_eq_ok (hleft : leftTrim s = s) : stoll s = .ok (v, s.length) ↔ IsNumeral s v ∧ InInt64 v := by
  unfold stoll
  simp only [hleft]
  by_cases hminus : s.head? = some '-'
  · obtain ⟨rest, rfl⟩ := List.head?_eq_some_iff.mp hminus
    have hlen : ('-' :: rest).length = 1 + rest.length := Nat.add_comm _ _
    simp only [List.head?_cons, beq_self_eq_true, Bool.true_or, if_true, List.tail_cons, hlen,
      Nat.add_sub_cancel]
    rw [isNumeral_minus]
    exact readDigits_eq_ok fun n => -(n : Int)
  have hminus' : (s.head? == some '-') = false := beq_eq_false_iff_ne.mpr hminus
  simp only [hminus', Bool.false_or, Bool.false_eq_true, if_false]
  by_cases hplus : s.head? = some '+'
  · obtain ⟨rest, rfl⟩ := List.head?_eq_some_iff.mp hplus
    have hlen : ('+' :: rest).length = 1 + rest.length := Nat.add_comm _ _
    simp only [List.head?_cons, beq_self_eq_true, if_true, List.tail_cons, hlen, Nat.add_sub_cancel]
    rw [isNumeral_plus]
    exact readDigits_eq_ok fun n => (n : Int)
  · have hplus' : (s.head? == some '+') = false := beq_eq_false_iff_ne.mpr hplus
    simp only [hplus', Bool.false_eq_true, if_false, Nat.sub_self]
    rw [isNumeral_unsigned hminus hplus]
    conv_lhs => rw [← Nat.zero_add s.length]
    exact readDigits_eq_ok fun n => (n : Int)

theorem leftTrim_trim (s : Str) : leftTrim (trim s) = trim s := List.dropWhile_idempotent _ _

/-- `parse_int64` reads a numeral that fits, with white space around it, and nothing else. -/
theorem parseInt64_eq_ok : parseInt64 s = .ok v ↔ IsNumeral (trim s) v ∧ InInt64 v := by
  rw [← stoll_eq_ok (leftTrim_trim s)]
  unfold parseInt64
  dsimp only
  cases stoll (trim s) with
  | error e => cases e <;> simp
  | ok read =>
      obtain ⟨val, i⟩ := read
      dsimp only
      rw [throwIf_bind_eq_ok, not_not, Except.ok.injEq, Except.ok.injEq, Prod.mk.injEq]
      exact and_comm

theorem parsePositiveInt64_eq_ok_iff : parsePositiveInt64 s = .ok v ↔ IsPositiveNumeral s v := by
  rw [parsePositiveInt64_eq_ok, parseInt64_eq_ok]
  constructor
  · rintro ⟨⟨hnumeral, -, hlt⟩, hnonneg⟩
    exact ⟨hnumeral, hnonneg, hlt⟩
  · rintro ⟨hnumeral, hnonneg, hlt⟩
    exact ⟨⟨hnumeral, by omega, hlt⟩, hnonneg⟩

theorem parseGeqOneInt64_eq_ok : parseGeqOneInt64 s = .ok v ↔ IsPositiveNumeral s v ∧ 1 ≤ v := by
  unfold parseGeqOneInt64
  rw [bind_eq_ok]
  simp only [throwIf_bind_eq_ok, not_lt, Except.ok.injEq, parsePositiveInt64_eq_ok_iff]
  constructor
  · rintro ⟨w, hw, hle, rfl⟩
    exact ⟨hw, hle⟩
  · rintro ⟨hv, hle⟩
    exact ⟨v, hv, hle, rfl⟩

end Numerals

/-! ## Arrows -/

/-- One round of the loop over the string set: the pair that is inserted. -/
def parseArrow (s : Str) : Except Exc Int64Pair := do
  let p ← parseDirectedEdgeKey s
  throwIf (p.first = p.second) <| .invalidArgument ("Directed pair cannot be to itself: " ++ String.ofList s)
  .ok p

theorem parseArrow_eq_ok {s : Str} {p : Int64Pair} : parseArrow s = .ok p ↔ IsArrow s p := by
  unfold parseArrow
  rw [bind_eq_ok]
  simp only [throwIf_bind_eq_ok, Except.ok.injEq, parseDirectedEdgeKey_eq_ok, IsLinkItem,
    parsePositiveInt64_eq_ok_iff]
  constructor
  · rintro ⟨q, ⟨a, b, rfl, ha, hb⟩, hne, rfl⟩
    exact ⟨a, b, rfl, ha, hb, hne⟩
  · rintro ⟨a, b, rfl, ha, hb, hne⟩
    exact ⟨p, ⟨a, b, rfl, ha, hb⟩, hne, rfl⟩

theorem parseSetDirectedPairPositiveInt64_eq_ok {value : Str} {s : OrdSet Int64Pair} :
    parseSetDirectedPairPositiveInt64 value = .ok s ↔
      ∃ written, IsSetLiteral (ReadAs parseArrow) value written ∧ s = OrdSet.ofList written := by
  refine parseSet_eq_ok ?_
  intro pairs item
  simp only [parseArrow, parseDirectedEdgeKey, map_bind, bind_assoc, ok_bind, map_ok]

/-! ## Main result -/

/-- A set parser returns exactly on the set literals whose items stand for pairwise different values. The result
    is the set of these values and has as many elements as the literal has items; on any other text it throws. -/
structure ParsesSetsExactly {α : Type} [LinearOrder α] (StandsFor : Str → α → Prop)
    (parse : Str → Except Exc (OrdSet α)) : Prop where
  returns : ∀ value s, parse value = .ok s ↔ ∃ vals, IsSetLiteral StandsFor value vals ∧ s = OrdSet.ofList vals
  size : ∀ value items s, IsLiteral "set(".toList value items → parse value = .ok s → s.size = items.length
  throws : ∀ value, (¬ ∃ vals, IsSetLiteral StandsFor value vals) → Throws (parse value)

section OnlyThrows

theorem onlyThrows_stoll (s : Str) : OnlyThrows (stoll s) :=
  (onlyThrows_invalidArgument _).bind fun _ _ =>
    (onlyThrows_throwIf (e := .outOfRange "stoll") trivial).bind fun _ _ => onlyThrows_ok _

theorem onlyThrows_parseInt64 (s : Str) : OnlyThrows (parseInt64 s) := by
  unfold parseInt64
  dsimp only
  split
  · intro e h
    cases h
    trivial
  · next e _ hst =>
      intro e' h
      cases h
      exact onlyThrows_stoll _ e hst
  · exact (onlyThrows_invalidArgument _).bind fun _ _ => onlyThrows_ok _

theorem onlyThrows_parsePositiveInt64 (s : Str) : OnlyThrows (parsePositiveInt64 s) :=
  (onlyThrows_parseInt64 s).bind fun _ _ => (onlyThrows_invalidArgument _).bind fun _ _ => onlyThrows_ok _

theorem onlyThrows_parseSetPositiveInt64 (value : Str) : OnlyThrows (parseSetPositiveInt64 value) := by
  refine (onlyThrows_parseSetString value).bind fun stringSet _ => ?_
  refine (onlyThrows_foldlM ?_ stringSet.toList _).bind fun _ _ =>
    (onlyThrows_invalidArgument _).bind fun _ _ => onlyThrows_ok _
  exact fun _ item => (onlyThrows_parsePositiveInt64 item).bind fun _ _ => onlyThrows_ok _

theorem onlyThrows_parseSetDirectedPairPositiveInt64 (value : Str) :
    OnlyThrows (parseSetDirectedPairPositiveInt64 value) := by
  refine (onlyThrows_parseSetString value).bind fun stringSet _ => ?_
  refine (onlyThrows_foldlM ?_ stringSet.toList _).bind fun _ _ =>
    (onlyThrows_invalidArgument _).bind fun _ _ => onlyThrows_ok _
  intro pairs item
  refine (onlyThrows_splitStringExpected (by decide) item 2).bind fun parts _ => ?_
  refine (onlyThrows_vectorAt parts 0).bind fun l _ => (onlyThrows_parsePositiveInt64 l).bind fun a _ => ?_
  refine (onlyThrows_vectorAt parts 1).bind fun r _ => (onlyThrows_parsePositiveInt64 r).bind fun b _ => ?_
  exact (onlyThrows_invalidArgument _).bind fun _ _ => onlyThrows_ok _

end OnlyThrows

/-- A parser that reads every item of the string set is exact, if the reading of an item is. -/
theorem parsesSetsExactly {α : Type} [LinearOrder α] {StandsFor : Str → α → Prop} {readItem : Str → Except Exc α}
    {parse : Str → Except Exc (OrdSet α)} (hitem : ∀ s v, readItem s = .ok v ↔ StandsFor s v)
    (hparse : ∀ value s, parse value = .ok s ↔
      ∃ written, IsSetLiteral (ReadAs readItem) value written ∧ s = OrdSet.ofList written)
    (hthrows : ∀ value, OnlyThrows (parse value)) : ParsesSetsExactly StandsFor parse := by
  obtain rfl : ReadAs readItem = StandsFor := funext fun s => funext fun v => propext (hitem s v)
  refine ⟨hparse, ?_, ?_⟩
  · intro value items s hitems hs
    obtain ⟨vals, ⟨items', hitems', hread, hnodup⟩, rfl⟩ := (hparse value s).mp hs
    rw [OrdSet.size_ofList_eq.mpr hnodup, ← hread.length_eq, hitems'.unique hitems]
  · intro value hnot
    refine (hthrows value).throws ?_
    intro s hs
    obtain ⟨vals, hlit, -⟩ := (hparse value s).mp hs
    exact hnot ⟨vals, hlit⟩

/-- What the integer parsers and the parsers of sets of integers accept, and what they return. -/
structure IntegersParseExactly : Prop where
  int64 : ∀ s v, parseInt64 s = .ok v ↔ IsNumeral (trim s) v ∧ InInt64 v
  positiveInt64 : ∀ s v, parsePositiveInt64 s = .ok v ↔ IsPositiveNumeral s v
  geqOneInt64 : ∀ s v, parseGeqOneInt64 s = .ok v ↔ IsPositiveNumeral s v ∧ 1 ≤ v
  sets : ParsesSetsExactly IsPositiveNumeral parseSetPositiveInt64
  directedPairs : ParsesSetsExactly IsArrow parseSetDirectedPairPositiveInt64

/-- **Integers and sets of integers parse exactly.** -/
theorem integers_parse_exactly : IntegersParseExactly where
  int64 _ _ := parseInt64_eq_ok
  positiveInt64 _ _ := parsePositiveInt64_eq_ok_iff
  geqOneInt64 _ _ := parseGeqOneInt64_eq_ok
  sets := parsesSetsExactly (fun _ _ => parsePositiveInt64_eq_ok_iff) (fun _ _ => parseSetPositiveInt64_eq_ok)
    onlyThrows_parseSetPositiveInt64
  directedPairs := parsesSetsExactly (fun _ _ => parseArrow_eq_ok)
    (fun _ _ => parseSetDirectedPairPositiveInt64_eq_ok) onlyThrows_parseSetDirectedPairPositiveInt64

-- two spellings of one number are one number
example : (parseSetPositiveInt64 "set(3, 03)".toList).toOption = none := by rfl

end BasicSim
