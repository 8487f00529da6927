import BasicSim.Core.ExpUtil
import Mathlib.Data.List.Infix

/-!
# `Core.Correctness.ExpUtil` — what the parsing functions accept

Each parsing function is characterised by what it accepts and what it then returns, so that later
proofs cite the characterisation and leave the function closed.

## Contents
- **Splitting.** `Splits` is the leftmost decomposition at a delimiter; `splitString` computes it,
  at a one-character delimiter it is `List.splitOn`, and a two-way split has a closed form.
- **Numbers.** A parsed `positive_int64` is non-negative and fits the type.
- **Literals.** `IsLiteral` and `IsSetLiteral`: what a `set(...)` value spells out. The set parsers
  first remove textual duplicates and then numerical ones; together they accept exactly the literals
  whose items are pairwise different values (`parseSet_eq_ok`).
- **Maps.** `parseMapString` accepts exactly the `map(...)` values with pairwise different keys.
- **Writing.** Numbers and lines that were written are read back.
-/

namespace BasicSim

open Fallible

/-! ## `find` -/

theorem find_eq_none {d s : Str} (hd : d ≠ []) : find d s = none ↔ ¬ d <:+: s := by
  induction s with
  | nil => simp [find, hd]
  | cons c s ih =>
      unfold find
      by_cases h : d.isPrefixOf (c :: s) = true
      · rw [if_pos h]
        simp only [reduceCtorEq, false_iff, not_not]
        exact (List.isPrefixOf_iff_prefix.mp h).isInfix
      · rw [if_neg h, Option.map_eq_none_iff, ih, List.infix_cons_iff]
        rw [List.isPrefixOf_iff_prefix] at h
        simp [h]

/-- `find` returns the position of an occurrence, and none starts earlier. -/
theorem find_eq_some {d s : Str} {i : Nat} (hd : d ≠ []) :
    find d s = some i ↔
      s = s.take i ++ d ++ s.drop (i + d.length) ∧ i ≤ s.length ∧ ∀ j < i, ¬ d <+: s.drop j := by
  induction s generalizing i with
  | nil =>
      rw [find, if_neg hd, List.take_nil, List.drop_nil, List.nil_append, List.append_nil]
      constructor
      · intro h; cases h
      · rintro ⟨h, _⟩; exact absurd h.symm hd
  | cons c s ih =>
      unfold find
      -- found here or later
      by_cases h : d.isPrefixOf (c :: s) = true
      · have hpre := List.isPrefixOf_iff_prefix.mp h
        rw [if_pos h, Option.some.injEq]
        constructor
        · rintro rfl
          refine ⟨?_, Nat.zero_le _, fun j hj => absurd hj (Nat.not_lt_zero j)⟩
          rw [List.take_zero, List.nil_append, Nat.zero_add]
          exact (List.prefix_iff_eq_append.mp hpre).symm
        · rintro ⟨_, _, hfirst⟩
          by_contra hi
          exact hfirst 0 (by omega) (by simpa using hpre)
      · have hpre : ¬ d <+: c :: s := fun hp => h (List.isPrefixOf_iff_prefix.mpr hp)
        rw [if_neg h, Option.map_eq_some_iff]
        constructor
        · rintro ⟨k, hk, rfl⟩
          obtain ⟨hs, hle, hfirst⟩ := ih.mp hk
          refine ⟨?_, by simpa using hle, ?_⟩
          · rw [List.take_succ_cons, Nat.add_right_comm, List.drop_succ_cons, List.cons_append,
              List.cons_append, ← hs]
          · -- no earlier occurrence: neither here nor at a shifted place
            intro j hj
            cases j with
            | zero => simpa using hpre
            | succ j => simpa using hfirst j (by omega)
        · rintro ⟨hs, hle, hfirst⟩
          cases i with
          | zero =>
              rw [List.take_zero, List.nil_append, Nat.zero_add] at hs
              exact absurd ⟨_, hs.symm⟩ hpre
          | succ k =>
              refine ⟨k, ih.mpr ⟨?_, by simpa using hle, ?_⟩, rfl⟩
              · rw [List.take_succ_cons, Nat.add_right_comm, List.drop_succ_cons, List.cons_append,
                  List.cons_append, List.cons_inj_right] at hs
                exact hs
              · intro j hj
                simpa using hfirst (j + 1) (by omega)

/-! ## Splitting -/

/-- The leftmost decomposition of a line at a delimiter. -/
inductive Splits (delimiter : Str) : Str → List Str → Prop where
  | last {line : Str} (h : find delimiter line = none) : Splits delimiter line [line]
  | cut {line : Str} {idx : Nat} {parts : List Str} (h : find delimiter line = some idx)
      (rest : Splits delimiter (line.drop (idx + delimiter.length)) parts) :
      Splits delimiter line (line.take idx :: parts)

theorem Splits.unique {d line : Str} {ps qs : List Str} (hp : Splits d line ps)
    (hq : Splits d line qs) : ps = qs := by
  induction hp generalizing qs with
  | last h =>
      cases hq with
      | last _ => rfl
      | cut h' _ => rw [h] at h'; cases h'
  | cut h _ ih =>
      cases hq with
      | last h' => rw [h] at h'; cases h'
      | cut h' rest =>
          rw [h] at h'
          cases h'
          rw [ih rest]

/-- Less than the line is left behind an occurrence. -/
theorem length_rest_lt {d line : Str} {idx : Nat} (hd : d ≠ []) (h : find d line = some idx) :
    (line.drop (idx + d.length)).length < line.length := by
  have hlen : 0 < d.length := List.length_pos_iff.mpr hd
  have hline := congrArg List.length ((find_eq_some hd).mp h).1
  simp only [List.length_append] at hline
  rw [List.length_drop]
  omega

/-- With enough rounds the loop of `split_string` appends the decomposition of what remains. -/
theorem splitLoop_of_splits {d line : Str} {ps : List Str} (h : Splits d line ps) (hd : d ≠ []) :
    ∀ {fuel : Nat} {acc : List Str}, line.length < fuel →
      splitLoop d fuel line acc = some (acc ++ ps) := by
  induction h with
  | @last line h =>
      intro fuel acc hfuel
      cases fuel with
      | zero => exact absurd hfuel (Nat.not_lt_zero _)
      | succ fuel => rw [splitLoop, h]
  | @cut line idx ps h _ ih =>
      intro fuel acc hfuel
      cases fuel with
      | zero => exact absurd hfuel (Nat.not_lt_zero _)
      | succ fuel =>
          have hrest := length_rest_lt hd h
          rw [splitLoop, h]
          show splitLoop d fuel (line.drop (idx + d.length)) (acc ++ [line.take idx]) = _
          rw [ih (by omega), List.append_assoc, List.singleton_append]

/-- Every line decomposes. -/
theorem exists_splits {d : Str} (hd : d ≠ []) (line : Str) : ∃ ps, Splits d line ps := by
  induction hn : line.length using Nat.strongRecOn generalizing line with
  | ind n ih =>
      cases h : find d line with
      | none => exact ⟨_, .last h⟩
      | some idx =>
          have hrest := length_rest_lt hd h
          obtain ⟨ps, hps⟩ := ih (line.drop (idx + d.length)).length (by omega) _ rfl
          exact ⟨_, .cut h hps⟩

/-- **`split_string` computes the leftmost decomposition** (and always returns). -/
theorem splitString_eq_ok {d line : Str} (hd : d ≠ []) {ps : List Str} :
    splitString line d = .ok ps ↔ Splits d line ps := by
  obtain ⟨qs, hqs⟩ := exists_splits hd line
  have hloop : splitLoop d (line.length + 1) line [] = some qs :=
    splitLoop_of_splits hqs hd (Nat.lt_succ_self _)
  have hrun : splitString line d = .ok qs := by rw [splitString, hloop]
  rw [hrun, Except.ok.injEq]
  exact ⟨fun h => h ▸ hqs, fun h => hqs.unique h⟩

theorem find_singleton_eq_none {c : Char} {s : Str} : find [c] s = none ↔ c ∉ s := by
  rw [find_eq_none (List.cons_ne_nil c []), List.singleton_infix_iff]

/-- The decomposition at a single character is the library's. -/
theorem splits_singleton (c : Char) (line : Str) : Splits [c] line (line.splitOn c) := by
  obtain ⟨ps, hps⟩ := exists_splits (List.cons_ne_nil c []) line
  suffices line.splitOn c = ps from this ▸ hps
  induction hps with
  | last h => exact List.splitOn_eq_singleton (find_singleton_eq_none.mp h)
  | @cut line idx ps h _ ih =>
      obtain ⟨hline, _, hfirst⟩ := (find_eq_some (List.cons_ne_nil c [])).mp h
      have hnot : c ∉ line.take idx := by
        intro hc
        obtain ⟨j, hj, hget⟩ := List.getElem_of_mem hc
        have hj' : j < idx := lt_of_lt_of_le hj (List.length_take_le _ _)
        have hjl : j < line.length := lt_of_lt_of_le hj (List.length_take_le' _ _)
        refine hfirst j hj' ⟨line.drop (j + 1), ?_⟩
        rw [List.drop_eq_getElem_cons hjl, ← hget, List.getElem_take]
        rfl
      calc line.splitOn c
          = (line.take idx ++ c :: line.drop (idx + [c].length)).splitOn c := by
            conv_lhs => rw [hline, List.append_assoc, List.singleton_append]
        _ = line.take idx :: ps := by
            rw [List.splitOn_append_cons_self_of_not_mem hnot, ih]

theorem splitString_singleton (c : Char) (line : Str) :
    splitString line [c] = .ok (line.splitOn c) :=
  (splitString_eq_ok (List.cons_ne_nil c [])).mpr (splits_singleton c line)

/-- **A two-way split in closed form**: the delimiter stands between the parts, does not start
    earlier and does not occur again. -/
theorem splitStringExpected_two {d line : Str} (hd : d ≠ []) {ps : List Str} :
    splitStringExpected line d 2 = .ok ps ↔
      ∃ l r, ps = [l, r] ∧ find d line = some l.length ∧ line = l ++ d ++ r ∧ ¬ d <:+: r := by
  unfold splitStringExpected
  rw [bind_eq_ok]
  simp only [splitString_eq_ok hd, throwIf_bind_eq_ok, not_not, Except.ok.injEq]
  constructor
  · rintro ⟨qs, hqs, hlen, rfl⟩
    cases hqs with
    | last _ => simp at hlen
    | @cut _ idx rest h hrest =>
        obtain ⟨hline, hle, _⟩ := (find_eq_some hd).mp h
        cases hrest with
        | cut _ hr => cases hr <;> simp at hlen
        | last hnone =>
            refine ⟨_, _, rfl, ?_, hline, (find_eq_none hd).mp hnone⟩
            rw [h, List.length_take, Nat.min_eq_left hle]
  · rintro ⟨l, r, rfl, hfind, rfl, hr⟩
    refine ⟨_, ?_, rfl, rfl⟩
    have hl : (l ++ d ++ r).take l.length = l := by
      rw [List.append_assoc, List.take_left]
    have hdrop : (l ++ d ++ r).drop (l.length + d.length) = r := by
      rw [← List.length_append, List.drop_left]
    have hlast : Splits d ((l ++ d ++ r).drop (l.length + d.length)) [r] := by
      rw [hdrop]
      exact .last ((find_eq_none hd).mpr hr)
    have hsplit := Splits.cut hfind hlast
    rwa [hl] at hsplit

/-- A two-way split at a single character. -/
theorem splitStringExpected_two_char {c : Char} {line : Str} {ps : List Str} :
    splitStringExpected line [c] 2 = .ok ps ↔ ∃ l r, ps = [l, r] ∧ line.splitOn c = [l, r] := by
  unfold splitStringExpected
  rw [splitString_singleton, ok_bind, throwIf_bind_eq_ok, not_not, Except.ok.injEq]
  constructor
  · rintro ⟨hlen, rfl⟩
    obtain ⟨l, r, h⟩ := List.length_eq_two.mp hlen
    exact ⟨l, r, h, h⟩
  · rintro ⟨l, r, rfl, h⟩
    rw [h]
    exact ⟨rfl, rfl⟩

@[simp] theorem vectorAt_pair_zero (l r : Str) : vectorAt [l, r] 0 = .ok l := rfl

@[simp] theorem vectorAt_pair_one (l r : Str) : vectorAt [l, r] 1 = .ok r := rfl

/-- The two parts are parsed one after the other. -/
theorem parsePair_eq_ok {α β γ : Type} {l r : Str} {f : Str → Except Exc α} {g : Str → Except Exc β}
    {k : α → β → Except Exc γ} {c : γ} :
    (do
      let a ← f (← vectorAt [l, r] 0)
      let b ← g (← vectorAt [l, r] 1)
      k a b) = .ok c ↔ ∃ a b, f l = .ok a ∧ g r = .ok b ∧ k a b = .ok c := by
  rw [vectorAt_pair_zero, ok_bind, bind_eq_ok]
  constructor
  · rintro ⟨a, ha, h⟩
    rw [vectorAt_pair_one, ok_bind] at h
    obtain ⟨b, hb, h⟩ := bind_eq_ok.mp h
    exact ⟨a, b, ha, hb, h⟩
  · rintro ⟨a, b, ha, hb, h⟩
    exact ⟨a, ha, by rw [vectorAt_pair_one, ok_bind, hb, ok_bind, h]⟩

/-! ## Numbers -/

theorem stoll_inInt64 {s : Str} {v : Int} {i : Nat} (h : stoll s = .ok (v, i)) : InInt64 v := by
  unfold stoll at h
  simp only [throwIf_bind_eq_ok, not_not] at h
  obtain ⟨_, hmem, heq⟩ := h
  cases heq
  exact hmem

theorem parseInt64_inInt64 {s : Str} {v : Int} (h : parseInt64 s = .ok v) : InInt64 v := by
  unfold parseInt64 at h
  simp only at h
  split at h
  · cases h
  · cases h
  · next val i hst =>
      obtain ⟨_, hv⟩ := throwIf_bind_eq_ok.mp h
      cases hv
      exact stoll_inInt64 hst

theorem parsePositiveInt64_eq_ok {s : Str} {v : Int} :
    parsePositiveInt64 s = .ok v ↔ parseInt64 s = .ok v ∧ 0 ≤ v := by
  unfold parsePositiveInt64
  rw [bind_eq_ok]
  simp only [throwIf_bind_eq_ok, Except.ok.injEq, not_lt]
  exact ⟨fun ⟨w, hw, h0, e⟩ => e ▸ ⟨hw, h0⟩, fun ⟨hv, h0⟩ => ⟨v, hv, h0, rfl⟩⟩

theorem parsePositiveInt64_nonneg {s : Str} {v : Int} (h : parsePositiveInt64 s = .ok v) : 0 ≤ v :=
  (parsePositiveInt64_eq_ok.mp h).2

theorem parsePositiveInt64_lt {s : Str} {v : Int} (h : parsePositiveInt64 s = .ok v) : v < 2 ^ 63 :=
  (parseInt64_inInt64 (parsePositiveInt64_eq_ok.mp h).1).2

theorem mem_dropWhile_isWhitespace {l : Str} {c : Char} (hc : c ∈ l) (hw : isWhitespace c = false) :
    c ∈ l.dropWhile isWhitespace := by
  induction l with
  | nil => cases hc
  | cons d l ih =>
      rw [List.dropWhile_cons]
      split
      · next hd =>
          rcases List.mem_cons.mp hc with rfl | hc
          · rw [hw] at hd; cases hd
          · exact ih hc
      · exact hc

/-- Only white space is trimmed away. -/
theorem mem_trim {s : Str} {c : Char} (hc : c ∈ s) (hw : isWhitespace c = false) : c ∈ trim s := by
  refine mem_dropWhile_isWhitespace ?_ hw
  rw [rightTrim, List.rdropWhile, List.mem_reverse]
  exact mem_dropWhile_isWhitespace (List.mem_reverse.mpr hc) hw

/-- What `stoll` reads to the end holds nothing but white space, a sign and digits. -/
theorem stoll_chars {s : Str} {v : Int} (h : stoll s = .ok (v, s.length)) {c : Char} (hc : c ∈ s)
    (hw : isWhitespace c = false) (hminus : c ≠ '-') (hplus : c ≠ '+') : c.isDigit = true := by
  unfold stoll at h
  simp only [throwIf_bind_eq_ok, Except.ok.injEq, Prod.mk.injEq] at h
  obtain ⟨_, _, _, hlen⟩ := h
  -- the character survives the white space and the sign
  have hbody : c ∈ leftTrim s := mem_dropWhile_isWhitespace hc hw
  have hle : (leftTrim s).length ≤ s.length := (List.dropWhile_sublist _).length_le
  revert hlen
  generalize hu : (if ((leftTrim s).head? == some '-' || (leftTrim s).head? == some '+') = true
    then (leftTrim s).tail else leftTrim s) = unsigned
  intro hlen
  have hmem : c ∈ unsigned ∧ unsigned.length ≤ s.length := by
    rw [← hu]
    split
    · next hsign =>
        cases hb : leftTrim s with
        | nil => rw [hb] at hbody; cases hbody
        | cons d body =>
            rw [hb] at hbody hle hsign
            simp only [List.head?_cons, Bool.or_eq_true, beq_iff_eq, Option.some.injEq] at hsign
            refine ⟨(List.mem_cons.mp hbody).resolve_left ?_, ?_⟩
            · rintro rfl
              exact hsign.elim hminus hplus
            · rw [List.tail_cons]
              rw [List.length_cons] at hle
              omega
    · exact ⟨hbody, hle⟩
  -- all of the rest was read, so all of it is digits
  have hdigits : unsigned.takeWhile Char.isDigit = unsigned := by
    refine (List.takeWhile_prefix _).eq_of_length ?_
    have := (List.takeWhile_prefix (p := Char.isDigit) (l := unsigned)).length_le
    omega
  exact List.takeWhile_eq_self_iff.mp hdigits c hmem.1

/-- An accepted numeral holds no `>`. -/
theorem parseInt64_no_gt {s : Str} {v : Int} (h : parseInt64 s = .ok v) : '>' ∉ s := by
  intro hmem
  unfold parseInt64 at h
  simp only at h
  split at h
  · cases h
  · cases h
  · next val i hst =>
      obtain ⟨hi, _⟩ := throwIf_bind_eq_ok.mp h
      rw [not_not] at hi
      rw [hi] at hst
      have hdigit := stoll_chars hst (mem_trim hmem (by decide)) (by decide) (by decide) (by decide)
      exact absurd hdigit (by decide)

/-- The first arrow in a line is the one after a part without `>`. -/
theorem find_arrow {l r : Str} (hl : '>' ∉ l) :
    find "->".toList (l ++ "->".toList ++ r) = some l.length := by
  induction l with
  | nil => rfl
  | cons c l ih =>
      rw [List.mem_cons, not_or] at hl
      have hnot : ¬ "->".toList.isPrefixOf (c :: (l ++ "->".toList ++ r)) = true := by
        rw [List.isPrefixOf_iff_prefix]
        rintro ⟨rest, hrest⟩
        have htail := (List.cons_eq_cons.mp hrest).2
        cases l with
        | nil => cases htail
        | cons d l =>
            have := (List.cons_eq_cons.mp htail).1
            rw [← this] at hl
            exact hl.2 List.mem_cons_self
      rw [List.cons_append, List.cons_append, find, if_neg hnot, ih hl.2]
      rfl

/-! ## Literals -/

/-- `value` is the literal `opening … )` of these items: what stands inside is blank and there are
    none, or they are the trimmed pieces between the commas. -/
def IsLiteral (opening value : Str) (items : List Str) : Prop :=
  ∃ inside, value = opening ++ inside ++ [')'] ∧
    items = if trim inside = [] then [] else (inside.splitOn ',').map trim

theorem startsWith_eq_true {s p : Str} : startsWith s p = true ↔ p <+: s := by
  unfold startsWith
  rw [Bool.and_eq_true, decide_eq_true_iff, beq_iff_eq, List.prefix_iff_eq_take]
  constructor
  · exact fun ⟨_, h⟩ => h.symm
  · intro h
    exact ⟨by rw [h]; exact List.length_take_le' _ _, h.symm⟩

theorem endsWith_eq_true {s p : Str} : endsWith s p = true ↔ p <:+ s := by
  unfold endsWith
  rw [Bool.and_eq_true, decide_eq_true_iff, beq_iff_eq, List.suffix_iff_eq_drop]
  constructor
  · exact fun ⟨_, h⟩ => h.symm
  · intro h
    refine ⟨?_, h.symm⟩
    rw [h, List.length_drop]
    omega

/-- The opening text of a literal ends in a parenthesis that the closing one cannot overlap. -/
theorem onlyInside_eq_ok {kind : String} {opening value inside : Str}
    (hopen : opening.getLast? ≠ some ')') :
    onlyInside kind opening value = .ok inside ↔ value = opening ++ inside ++ [')'] := by
  unfold onlyInside
  rw [throwIf_bind_eq_ok, Except.ok.injEq]
  simp only [not_or, Bool.not_eq_false]
  rw [startsWith_eq_true, endsWith_eq_true]
  constructor
  · rintro ⟨⟨⟨rest, rfl⟩, ⟨front, hfront⟩⟩, hin⟩
    -- the closing bracket is not the end of the opening text, so something follows that ends in it
    have hlast : rest ≠ [] := by
      rintro rfl
      rw [List.append_nil] at hfront
      rw [← hfront, show (")".toList : Str) = [')'] from rfl] at hopen
      simp at hopen
    obtain ⟨body, c, rfl⟩ : ∃ body c, rest = body ++ [c] :=
      ⟨rest.dropLast, rest.getLast hlast, (List.dropLast_append_getLast hlast).symm⟩
    have hc : c = ')' := by
      have := congrArg List.getLast? hfront
      rw [show (")".toList : Str) = [')'] from rfl] at this
      simpa using this.symm
    subst hc
    have hbody : inside = body := by
      rw [← hin, List.drop_left, List.length_append, List.length_append,
        Nat.add_sub_add_left, List.length_singleton, Nat.add_sub_cancel, List.take_left]
    rw [hbody, List.append_assoc]
  · rintro rfl
    refine ⟨⟨⟨inside ++ [')'], by rw [List.append_assoc]⟩, ⟨opening ++ inside, rfl⟩⟩, ?_⟩
    rw [List.append_assoc, List.drop_left, List.length_append, List.length_append,
      Nat.add_sub_add_left, List.length_singleton, Nat.add_sub_cancel, List.take_left]

theorem literalItems_eq_ok {kind : String} {opening value : Str} {items : List Str}
    (hopen : opening.getLast? ≠ some ')') :
    literalItems kind opening value = .ok items ↔ IsLiteral opening value items := by
  unfold literalItems IsLiteral
  rw [bind_eq_ok]
  refine exists_congr ?_
  intro inside
  rw [onlyInside_eq_ok hopen]
  refine and_congr_right ?_
  intro _
  by_cases h : trim inside = []
  · rw [if_pos h, if_pos h, Except.ok.injEq, eq_comm]
  · rw [if_neg h, if_neg h, show (",".toList : Str) = [','] from rfl, splitString_singleton, ok_bind,
      Except.ok.injEq, eq_comm]

/-- A value spells out at most one list of items. -/
theorem IsLiteral.unique {opening value : Str} {xs ys : List Str} (hx : IsLiteral opening value xs)
    (hy : IsLiteral opening value ys) : xs = ys := by
  obtain ⟨inside, hv, rfl⟩ := hx
  obtain ⟨inside', hv', rfl⟩ := hy
  rw [hv, List.append_assoc, List.append_assoc] at hv'
  rw [List.append_cancel_right (List.append_cancel_left hv')]

/-! ## Sets -/

theorem parseSetString_eq_ok {value : Str} {s : OrdSet Str} :
    parseSetString value = .ok s ↔
      ∃ items, IsLiteral "set(".toList value items ∧ items.Nodup ∧ s = OrdSet.ofList items := by
  unfold parseSetString
  rw [bind_eq_ok]
  refine exists_congr ?_
  intro items
  rw [literalItems_eq_ok (by decide), throwIf_bind_eq_ok, Except.ok.injEq, not_not,
    eq_comm (a := items.length), OrdSet.size_ofList_eq, eq_comm (a := s)]

/-- The item is read by `parse` as the value. -/
abbrev ReadAs {α : Type} (parse : Str → Except Exc α) (item : Str) (v : α) : Prop :=
  parse item = .ok v

/-- `value` is a `set(...)` literal whose items stand for these values, pairwise different. -/
def IsSetLiteral {α : Type} (StandsFor : Str → α → Prop) (value : Str) (vals : List α) : Prop :=
  ∃ items, IsLiteral "set(".toList value items ∧ List.Forall₂ StandsFor items vals ∧ vals.Nodup

theorem IsSetLiteral.nodup {α : Type} {R : Str → α → Prop} {value : Str} {written : List α}
    (h : IsSetLiteral R value written) : written.Nodup := h.elim fun _ h => h.2.2

theorem rightUnique_readAs {α : Type} (parse : Str → Except Exc α) :
    Relator.RightUnique (ReadAs parse) := fun _ _ _ h h' => Except.ok.inj (h.symm.trans h')

/-- A set literal spells out one list, if each item stands for one value. -/
theorem IsSetLiteral.unique {α : Type} {R : Str → α → Prop} (hR : Relator.RightUnique R) {value : Str}
    {xs ys : List α} (hx : IsSetLiteral R value xs) (hy : IsSetLiteral R value ys) : xs = ys := by
  obtain ⟨items, hl, hf, _⟩ := hx
  obtain ⟨items', hl', hf', _⟩ := hy
  rw [hl'.unique hl] at hf'
  exact hR.forall₂ hf hf'

/-- Items that are read as pairwise different values are pairwise different texts. -/
theorem nodup_of_forall₂ {α : Type} {parse : Str → Except Exc α} {items : List Str} {vals : List α}
    (h : List.Forall₂ (ReadAs parse) items vals) (hv : vals.Nodup) : items.Nodup := by
  induction h with
  | nil => exact List.nodup_nil
  | @cons item v items vals hhd htl ih =>
      obtain ⟨hnot, hnd⟩ := List.nodup_cons.mp hv
      refine List.nodup_cons.mpr ⟨fun hmem => hnot ?_, ih hnd⟩
      obtain ⟨w, hw, hread⟩ := exists_right_of_forall₂ htl hmem
      rw [ReadAs, hhd] at hread
      exact Except.ok.inj hread ▸ hw

/-- **The two-stage reading of a set.** When the items of the string set are read as pairwise different
    values, the value is a set literal; the reading is a rearrangement of the order it is written in. -/
theorem isSetLiteral_of_mapM {α : Type} {parse : Str → Except Exc α} {value : Str}
    {stringSet : OrdSet Str} {vals : List α} (hset : parseSetString value = .ok stringSet)
    (hvals : stringSet.toList.mapM parse = .ok vals) (hnd : vals.Nodup) :
    ∃ written, IsSetLiteral (ReadAs parse) value written ∧ vals.Perm written := by
  obtain ⟨items, hlit, hitems, rfl⟩ := parseSetString_eq_ok.mp hset
  obtain ⟨written, hf, hperm⟩ :=
    List.perm_comp_forall₂ (OrdSet.toList_ofList_perm hitems).symm (mapM_eq_ok.mp hvals)
  exact ⟨written, ⟨items, hlit, hf, hperm.nodup_iff.mpr hnd⟩, hperm.symm⟩

/-- Every set literal is read, in the order of its string set. -/
theorem IsSetLiteral.exists_mapM {α : Type} {parse : Str → Except Exc α} {value : Str}
    {written : List α} (h : IsSetLiteral (ReadAs parse) value written) :
    ∃ stringSet vals, parseSetString value = .ok stringSet ∧
      stringSet.toList.mapM parse = .ok vals ∧ vals.Perm written := by
  obtain ⟨items, hlit, hf, hnd⟩ := h
  have hitems := nodup_of_forall₂ hf hnd
  obtain ⟨vals, hvals, hperm⟩ := List.perm_comp_forall₂ (OrdSet.toList_ofList_perm hitems) hf
  exact ⟨_, vals, parseSetString_eq_ok.mpr ⟨items, hlit, hitems, rfl⟩, mapM_eq_ok.mpr hvals, hperm⟩

/-- **A set parser accepts exactly the set literals of pairwise different values**, and returns the set of
    them. Its loop reads every item of the string set and inserts the value; the comparison of the sizes is the
    test that no value was there already. -/
theorem parseSet_eq_ok {α : Type} [LinearOrder α] {parse : Str → Except Exc α}
    {step : OrdSet α → Str → Except Exc (OrdSet α)} (hstep : ∀ s t, step s t = s.insert <$> parse t) {e : Exc}
    {value : Str} {s : OrdSet α} :
    (do
      let stringSet ← parseSetString value
      let valueSet ← stringSet.toList.foldlM step ∅
      throwIf (stringSet.size ≠ valueSet.size) e
      .ok valueSet) = .ok s ↔
      ∃ written, IsSetLiteral (ReadAs parse) value written ∧ s = OrdSet.ofList written := by
  have hloop : ∀ stringSet : OrdSet Str, stringSet.toList.foldlM step ∅ =
      OrdSet.ofList <$> stringSet.toList.mapM parse := fun stringSet =>
    foldlM_eq_mapM_foldl (fun _ => True) (fun s t _ => hstep s t) (fun _ _ _ _ _ => trivial) trivial
  simp only [hloop]
  constructor
  · intro h
    obtain ⟨stringSet, hset, h⟩ := bind_eq_ok.mp h
    obtain ⟨_, hread, h⟩ := bind_eq_ok.mp h
    obtain ⟨vals, hvals, rfl⟩ := map_eq_ok.mp hread
    obtain ⟨hsize, h⟩ := throwIf_bind_eq_ok.mp h
    cases h
    -- as many values as texts: no two texts are read as one value
    have hnd : vals.Nodup := OrdSet.size_ofList_eq.mp
      ((not_not.mp hsize).symm.trans (mapM_eq_ok.mp hvals).length_eq)
    obtain ⟨written, hlit, hperm⟩ := isSetLiteral_of_mapM hset hvals hnd
    exact ⟨written, hlit, OrdSet.ofList_congr hperm⟩
  · rintro ⟨written, hlit, rfl⟩
    obtain ⟨stringSet, vals, hset, hvals, hperm⟩ := hlit.exists_mapM
    have hnd : vals.Nodup := hperm.nodup_iff.mpr hlit.nodup
    have hsize : stringSet.size = (OrdSet.ofList vals).size :=
      (mapM_eq_ok.mp hvals).length_eq.trans (OrdSet.size_ofList_eq.mpr hnd).symm
    rw [hset, ok_bind, hvals, map_ok, ok_bind, throwIf_of_not (not_not.mpr hsize), ok_bind,
      OrdSet.ofList_congr hperm]

theorem parseSetPositiveInt64_eq_ok {value : Str} {s : OrdSet Int} :
    parseSetPositiveInt64 value = .ok s ↔
      ∃ written, IsSetLiteral (ReadAs parsePositiveInt64) value written ∧ s = OrdSet.ofList written :=
  parseSet_eq_ok fun s t => by cases parsePositiveInt64 t <;> rfl

/-- The members of a parsed set are non-negative. -/
theorem IsSetLiteral.nonneg {value : Str} {written : List Int}
    (h : IsSetLiteral (ReadAs parsePositiveInt64) value written) : ∀ v ∈ written, 0 ≤ v := by
  obtain ⟨items, _, hf, _⟩ := h
  intro v hv
  obtain ⟨item, _, hread⟩ := exists_left_of_forall₂ hf hv
  exact parsePositiveInt64_nonneg hread

theorem allItemsAreLessThan_eq_ok {s : OrdSet Int} {number : Int} :
    allItemsAreLessThan s number = .ok () ↔ ∀ v ∈ s, v < number := by
  unfold allItemsAreLessThan
  rw [forM_eq_ok]
  simp only [throwIf_eq_ok, not_le]
  exact Iff.rfl

/-! ## Writing numbers and lines -/

theorem toStr_natCast (n : Nat) : toStr n = Nat.toDigits 10 n := Nat.toList_repr

theorem isDigit_of_mem_toStr {k : Nat} {c : Char} (h : c ∈ toStr k) : c.isDigit = true := by
  rw [toStr_natCast] at h
  exact Nat.isDigit_of_mem_toDigits (by decide) (by decide) h

theorem not_mem_toStr {c : Char} (h : c.isDigit = false) (k : Nat) : c ∉ toStr k := by
  intro hmem
  rw [isDigit_of_mem_toStr hmem] at h
  cases h

theorem isWhitespace_of_isDigit {c : Char} (h : c.isDigit = true) : isWhitespace c = false := by
  have hnone : ∀ w ∈ " \t\n\r\x0c\x0b".toList, w.isDigit = false := by
    intro w hw
    have hall : " \t\n\r\x0c\x0b".toList.all (fun w => !w.isDigit) = true := by decide
    simpa using List.all_eq_true.mp hall w hw
  rw [← Bool.not_eq_true]
  intro hw
  rw [hnone c (List.contains_iff_mem.mp hw)] at h
  cases h

/-- A text without white space is trimmed. -/
theorem trim_eq_self {s : Str} (h : ∀ c ∈ s, isWhitespace c = false) : trim s = s := by
  have hright : rightTrim s = s := by
    rw [rightTrim, List.rdropWhile_eq_self_iff]
    intro hl hw
    rw [h _ (List.getLast_mem hl)] at hw
    cases hw
  rw [trim, hright, leftTrim, List.dropWhile_eq_self_iff]
  intro hl hw
  rw [h _ (List.getElem_mem hl)] at hw
  cases hw

theorem trim_of_isDigit {s : Str} (h : ∀ c ∈ s, c.isDigit = true) : trim s = s :=
  trim_eq_self fun c hc => isWhitespace_of_isDigit (h c hc)

/-- `stoll` reads digits to the end. -/
theorem stoll_of_isDigit {s : Str} (hne : s ≠ []) (h : ∀ c ∈ s, c.isDigit = true)
    (hlt : digitsValue s < 2 ^ 63) : stoll s = .ok (digitsValue s, s.length) := by
  obtain ⟨c, s', rfl⟩ := List.exists_cons_of_ne_nil hne
  have hleft : leftTrim (c :: s') = c :: s' :=
    List.dropWhile_cons_of_neg (by rw [isWhitespace_of_isDigit (h c List.mem_cons_self)]; decide)
  have hsign : ∀ d : Char, d.isDigit = false → (((c :: s').head? == some d) = false) := by
    intro d hd
    rw [List.head?_cons, beq_eq_false_iff_ne]
    rintro heq
    cases heq
    rw [h c List.mem_cons_self] at hd
    cases hd
  unfold stoll
  simp only [hleft, hsign '-' (by decide), hsign '+' (by decide), Bool.false_or, Bool.false_eq_true, if_false]
  rw [List.takeWhile_eq_self_iff.mpr h, throwIf_of_not (by simp), ok_bind,
    throwIf_of_not (not_not.mpr ⟨by omega, by exact_mod_cast hlt⟩), ok_bind, Nat.sub_self, Nat.zero_add]

theorem digitsValue_toStr (n : Nat) : digitsValue (toStr n) = n := by
  rw [toStr_natCast]
  exact Nat.ofDigitChars_ten_toDigits

/-- A number that was written is read back. -/
theorem parsePositiveInt64_toStr {n : Nat} (h : n < 2 ^ 63) : parsePositiveInt64 (toStr n) = .ok n := by
  have hdigits : ∀ c ∈ toStr n, c.isDigit = true := fun c hc => isDigit_of_mem_toStr hc
  have hstoll := stoll_of_isDigit (by rw [toStr_natCast]; exact Nat.toDigits_ne_nil) hdigits
    (by rw [digitsValue_toStr]; exact h)
  rw [parsePositiveInt64_eq_ok, parseInt64, trim_of_isDigit hdigits, hstoll, digitsValue_toStr]
  refine ⟨?_, by omega⟩
  dsimp only
  rw [throwIf_of_not (not_not.mpr rfl), ok_bind]

/-- Every line ends with a newline. -/
def unlines (lines : List Str) : Str := lines.flatMap fun line => line ++ ['\n']

theorem getlines_go_line {line : Str} (h : '\n' ∉ line) (text acc : Str) :
    getlines.go acc (line ++ '\n' :: text) = (acc.reverse ++ line) :: getlines.go [] text := by
  induction line generalizing acc with
  | nil => simp [getlines.go]
  | cons c line ih =>
      obtain ⟨hc, hline⟩ := not_or.mp (mt List.mem_cons.mpr h)
      rw [List.cons_append, getlines.go, if_neg (Ne.symm hc), ih hline]
      simp

theorem getlines_go_last {line : Str} (h : '\n' ∉ line) (acc : Str) :
    getlines.go acc line = if acc.reverse ++ line = [] then [] else [acc.reverse ++ line] := by
  induction line generalizing acc with
  | nil => simp [getlines.go]
  | cons c line ih =>
      obtain ⟨hc, hline⟩ := not_or.mp (mt List.mem_cons.mpr h)
      rw [getlines.go, if_neg (Ne.symm hc), ih hline]
      simp

/-- Lines that were written are read back, and text behind the last newline is one more line. -/
theorem getlines_unlines_append {lines : List Str} {last : Str} (h : ∀ line ∈ lines, '\n' ∉ line)
    (hlast : '\n' ∉ last) : getlines (unlines lines ++ last) = lines ++ if last = [] then [] else [last] := by
  unfold getlines unlines
  induction lines with
  | nil => exact getlines_go_last hlast []
  | cons line lines ih =>
      rw [List.flatMap_cons, List.append_assoc, List.append_assoc, List.singleton_append,
        getlines_go_line (h line List.mem_cons_self), ih fun l hl => h l (List.mem_cons_of_mem _ hl)]
      rfl

/-- Lines that were written are read back. -/
theorem getlines_unlines {lines : List Str} (h : ∀ line ∈ lines, '\n' ∉ line) :
    getlines (unlines lines) = lines := by
  have hread := @getlines_unlines_append lines [] h List.not_mem_nil
  rwa [List.append_nil, if_pos rfl, List.append_nil] at hread

end BasicSim
