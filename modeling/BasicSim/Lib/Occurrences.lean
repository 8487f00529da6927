import Mathlib.Data.List.Infix

/-!
# `Lib.Occurrences` — the leftmost occurrences of a pattern in a list

A scan from the left takes the first occurrence of the pattern, goes on behind it, and so on. What it finds are
the leftmost non-overlapping occurrences; the text between them is free of the pattern.

## Contents
- **Occurrences.** `OccursAt`, `infix_iff_occursAt`, `infix_drop_iff`.
- **Scanning.** `Leftmost`, with its uniqueness.
-/

namespace Occurrences

variable {α : Type} {d l : List α} {start p q : Nat} {ps qs : List Nat}

/-! ## Occurrences -/

/-- The pattern `d` occurs in the list at the position. -/
def OccursAt (d l : List α) (p : Nat) : Prop := d <+: l.drop p

theorem infix_iff_occursAt : d <:+: l ↔ ∃ p, OccursAt d l p := by
  constructor
  · rintro ⟨before, after, rfl⟩
    refine ⟨before.length, ?_⟩
    rw [OccursAt, List.append_assoc, List.drop_left]
    exact List.prefix_append d after
  · rintro ⟨p, hp⟩
    exact hp.isInfix.trans (List.drop_suffix p l).isInfix

/-- Behind a position, occurrences are counted from that position. -/
theorem occursAt_drop : OccursAt d (l.drop start) p ↔ OccursAt d l (start + p) := by
  rw [OccursAt, OccursAt, List.drop_drop]

/-- The pattern is not in the rest of the list if it does not occur from there on. -/
theorem infix_drop_iff : d <:+: l.drop start ↔ ∃ p, start ≤ p ∧ OccursAt d l p := by
  rw [infix_iff_occursAt]
  constructor
  · rintro ⟨p, hp⟩
    exact ⟨start + p, Nat.le_add_right start p, occursAt_drop.mp hp⟩
  · rintro ⟨p, hle, hp⟩
    refine ⟨p - start, occursAt_drop.mpr ?_⟩
    rwa [Nat.add_sub_cancel' hle]

/-! ## Scanning -/

/-- **The leftmost non-overlapping occurrences** from the position `start` on: the first one, and then those from
    its end on. -/
inductive Leftmost (d l : List α) : Nat → List Nat → Prop
  | done {start : Nat} (none : ∀ p, start ≤ p → ¬ OccursAt d l p) : Leftmost d l start []
  | next {start p : Nat} {ps : List Nat} (le : start ≤ p) (occurs : OccursAt d l p)
      (first : ∀ q, start ≤ q → q < p → ¬ OccursAt d l q) (rest : Leftmost d l (p + d.length) ps) :
      Leftmost d l start (p :: ps)

/-- There is one way to scan a list. -/
theorem Leftmost.unique (h : Leftmost d l start ps) (h' : Leftmost d l start qs) : ps = qs := by
  induction h generalizing qs with
  | done none =>
      cases h' with
      | done _ => rfl
      | next le occurs _ _ => exact absurd occurs (none _ le)
  | @next start p ps le occurs first _ ih =>
      cases h' with
      | done none => exact absurd occurs (none p le)
      | @next _ q qs le' occurs' first' rest' =>
          have hpq : p = q := by
            rcases Nat.lt_trichotomy p q with hlt | heq | hlt
            · exact absurd occurs (first' p le hlt)
            · exact heq
            · exact absurd occurs' (first q le' hlt)
          subst hpq
          rw [ih rest']

end Occurrences
