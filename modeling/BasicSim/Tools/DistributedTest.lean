import BasicSim.Apps.ResultFiles
import BasicSim.Lib.Padding
import BasicSim.Tools.Plotting
import Mathlib.Data.Prod.Lex

/-!
# `Tools.DistributedTest` — whether a distributed run wrote the same (`build/test_distributed_exactly_equal.py`)

The test compares the files of a run that is not distributed to those that the systems of a distributed run wrote. The
lines of all systems are merged by their first three columns; the merged file must be the same line by line.

How Python reads an integer is a parameter.

## Contents
- **Lines.** `stripLine`, `firstThreeNumbersInTuple`, `sortedBy`.
- **The test.** `TestError`, `testFile`, `testDistributedExactlyEqual`.
-/

namespace BasicSim

open Fallible

/-! ## Lines -/

/-- `str.isspace` of a character. -/
def isSpace (c : Char) : Bool :=
  c.toNat ∈ [0x20, 0x85, 0xA0, 0x1680, 0x2028, 0x2029, 0x202F, 0x205F, 0x3000] ∨ 0x09 ≤ c.toNat ∧ c.toNat ≤ 0x0D ∨
    0x1C ≤ c.toNat ∧ c.toNat ≤ 0x1F ∨ 0x2000 ≤ c.toNat ∧ c.toNat ≤ 0x200A

/-- `line.strip()`. -/
def stripLine (line : Str) : Str := Padding.strip isSpace line

/-- What lines are sorted by; tuples are compared item by item. -/
abbrev LineKey := Int ×ₗ Int ×ₗ Int

def firstThreeNumbersInTuple (int : Str → Except PyExc Int) (csvLine : Str) : Except PyExc LineKey := do
  let spl := csvLine.splitOn ','
  let first ← itemAt spl 0 >>= int
  let second ← itemAt spl 1 >>= int
  let third ← itemAt spl 2 >>= int
  .ok (toLex (first, toLex (second, third)))

section Test

variable (int : Str → Except PyExc Int) (base : ResultFiles) (system : Nat → ResultFiles) (numCores : Nat)
  (f : ResultFile)

end Test

end BasicSim
