import BasicSim.Core.Correctness.ExpUtil
import BasicSim.Lib.Occurrences

/-!
# `Core.Correctness.Splitting` — `split_string` splits at exactly the delimiter occurrences

## Contents
- **Pieces.** What a decomposition (`Splits`) says about its pieces, one property by induction on it each.
- **Main result.** `split_string_splits_exactly`.
-/

namespace BasicSim

open Fallible Occurrences

variable {delimiter line : Str} {pieces : List Str}

/-! ## Pieces -/

/-- The pieces with the delimiter between them are the line. -/
theorem Splits.intercalate_eq (hd : delimiter ≠ []) (h : Splits delimiter line pieces) :
    delimiter.intercalate pieces = line := by
  induction h with
  | last _ => simp [List.intercalate]
  | @cut line idx pieces hfind rest ih =>
      have hline := ((find_eq_some hd).mp hfind).1
      obtain ⟨piece, later, rfl⟩ : ∃ piece later, pieces = piece :: later := by
        cases rest with
        | last _ => exact ⟨_, _, rfl⟩
        | cut _ _ => exact ⟨_, _, rfl⟩
      calc delimiter.intercalate (line.take idx :: piece :: later)
          = line.take idx ++ delimiter ++ delimiter.intercalate (piece :: later) := by
            simp [List.intercalate]
        _ = line.take idx ++ delimiter ++ line.drop (idx + delimiter.length) := by rw [ih]
        _ = line := hline.symm

/-- `find` finds the first occurrence. -/
theorem occursAt_of_find {idx : Nat} (hd : delimiter ≠ []) (hfind : find delimiter line = some idx) :
    OccursAt delimiter line idx := by
  obtain ⟨hline, hle, -⟩ := (find_eq_some hd).mp hfind
  refine ⟨line.drop (idx + delimiter.length), ?_⟩
  conv_rhs => rw [hline, List.append_assoc]
  exact (List.drop_left' (List.length_take_of_le hle)).symm

/-- What stands before the first occurrence does not hold the delimiter. -/
theorem not_infix_take {idx : Nat} (hd : delimiter ≠ []) (hfind : find delimiter line = some idx) :
    ¬ delimiter <:+: line.take idx := by
  obtain ⟨-, -, hfirst⟩ := (find_eq_some hd).mp hfind
  rw [infix_iff_occursAt]
  rintro ⟨p, hp⟩
  have hpos : 0 < delimiter.length := List.length_pos_iff.mpr hd
  have hlen : delimiter.length ≤ ((line.take idx).drop p).length := hp.length_le
  rw [List.length_drop] at hlen
  have hle := List.length_take_le idx line
  refine hfirst p (by omega) (hp.trans ?_)
  rw [List.drop_take]
  exact List.take_prefix _ _

theorem Splits.not_infix (hd : delimiter ≠ []) (h : Splits delimiter line pieces) :
    ∀ piece ∈ pieces, ¬ delimiter <:+: piece := by
  induction h with
  | last hnone =>
      intro piece hpiece
      rw [List.mem_singleton.mp hpiece]
      exact (find_eq_none hd).mp hnone
  | cut hfind _ ih =>
      intro piece hpiece
      rcases List.mem_cons.mp hpiece with rfl | hpiece
      · exact not_infix_take hd hfind
      · exact ih piece hpiece

/-- The decomposition of the rest of a line cuts at its leftmost occurrences. -/
theorem Splits.leftmost (hd : delimiter ≠ []) {rest : Str} (h : Splits delimiter rest pieces) :
    ∀ start, rest = line.drop start →
      ∃ positions, Leftmost delimiter line start positions ∧ pieces.length = positions.length + 1 := by
  induction h with
  | last hnone =>
      rintro start rfl
      refine ⟨[], .done ?_, rfl⟩
      intro p hle hp
      exact (find_eq_none hd).mp hnone (infix_drop_iff.mpr ⟨p, hle, hp⟩)
  | @cut _ idx pieces hfind _ ih =>
      rintro start rfl
      obtain ⟨hline, -, hfirst⟩ := (find_eq_some hd).mp hfind
      obtain ⟨positions, hpositions, hlength⟩ := ih (start + idx + delimiter.length) (by
        rw [List.drop_drop, Nat.add_assoc])
      refine ⟨(start + idx) :: positions, .next (Nat.le_add_right start idx) ?_ ?_ hpositions, ?_⟩
      · exact occursAt_drop.mp (occursAt_of_find hd hfind)
      · intro q hle hlt hq
        refine hfirst (q - start) (by omega) (occursAt_drop.mpr ?_)
        rwa [Nat.add_sub_cancel' hle]
      · rw [List.length_cons, List.length_cons, hlength]

/-! ## Main result -/

/-- What `split_string` does with a line in which the delimiter occurs at these positions. -/
structure SplitsExactly (line delimiter : Str) (positions : List Nat) (pieces : List Str) : Prop where
  ends : ∀ fuel, line.length < fuel → splitLoop delimiter fuel line [] = some pieces
  returned : splitString line delimiter = .ok pieces
  join : delimiter.intercalate pieces = line
  free : ∀ piece ∈ pieces, ¬ delimiter <:+: piece
  count : pieces.length = positions.length + 1
  expected : ∀ n, n = positions.length + 1 → splitStringExpected line delimiter n = .ok pieces
  unexpected : ∀ n, n ≠ positions.length + 1 →
    ∃ what, splitStringExpected line delimiter n = .error (.invalidArgument what)

/-- **`split_string` splits at exactly the delimiter occurrences.** There is one list of leftmost non-overlapping
    occurrences, and it is where the line is cut. -/
theorem split_string_splits_exactly (line : Str) {delimiter : Str} (hd : delimiter ≠ []) :
    ∃ positions pieces, (∀ qs, Leftmost delimiter line 0 qs ↔ qs = positions) ∧
      SplitsExactly line delimiter positions pieces := by
  obtain ⟨pieces, hsplits⟩ := exists_splits hd line
  obtain ⟨positions, hpositions, hcount⟩ := hsplits.leftmost hd 0 rfl
  have hreturned : splitString line delimiter = .ok pieces := (splitString_eq_ok hd).mpr hsplits
  refine ⟨positions, pieces, fun qs => ⟨fun hqs => hqs.unique hpositions, ?_⟩, ?_⟩
  · rintro rfl
    exact hpositions
  · constructor
    case ends => exact fun fuel hfuel => splitLoop_of_splits hsplits hd hfuel
    case returned => exact hreturned
    case join => exact hsplits.intercalate_eq hd
    case free => exact hsplits.not_infix hd
    case count => exact hcount
    case expected =>
      intro n hn
      rw [splitStringExpected, hreturned, ok_bind, throwIf_of_not (by omega), ok_bind]
    case unexpected =>
      intro n hn
      rw [splitStringExpected, hreturned, ok_bind, throwIf_of (by omega)]
      exact ⟨_, rfl⟩

/-- The first `aa` of `aaab` is taken, and the one that overlaps it is not. -/
theorem split_string_splits_exactly_overlapping :
    ∃ positions pieces, (∀ qs, Leftmost "aa".toList "aaab".toList 0 qs ↔ qs = positions) ∧
      SplitsExactly "aaab".toList "aa".toList positions pieces :=
  split_string_splits_exactly "aaab".toList (by decide)

example : splitString "aaab".toList "aa".toList = .ok [[], "ab".toList] := by rfl

end BasicSim
