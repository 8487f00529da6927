import Mathlib.Algebra.BigOperators.Group.List.Basic
import Mathlib.Data.List.Chain

/-!
# `Lib.Blocks` — a list that is cut into blocks

A loop goes over a list, and closes a block after some of the positions. `IsCut` says which blocks these are;
`IsOpen` is the invariant of the loop, with the block that is not closed yet.

## Contents
- **Ends.** `EndsAfter`, `IsCut`.
- **The loop.** `IsOpen`, with the rules `IsOpen.nil`, `IsOpen.extend`, `IsOpen.close` and `IsOpen.isCut`.
- **Consequences.** `IsCut.sum_eq`, `IsCut.isChain`, `IsCut.exists_first`, `IsCut.exists_last`.
-/

namespace Blocks

variable {α : Type}

/-! ## Ends -/

/-- A block ends after the position `j`. -/
def EndsAfter (blocks : List (List α)) (j : Nat) : Prop :=
  ∃ before after, blocks = before ++ after ∧ before.flatten.length = j + 1

/-- The list in blocks, none of them empty, which end after the positions of `cut`. -/
structure IsCut (cut : Nat → Prop) (l : List α) (blocks : List (List α)) : Prop where
  flatten : blocks.flatten = l
  nonempty : [] ∉ blocks
  ends : ∀ j, j < l.length → (EndsAfter blocks j ↔ cut j)

theorem EndsAfter.lt {blocks : List (List α)} {j : Nat} (h : EndsAfter blocks j) : j < blocks.flatten.length := by
  obtain ⟨before, after, rfl, hlength⟩ := h
  rw [List.flatten_append, List.length_append]
  omega

/-- One more block ends at the end, and before that nothing changes. -/
theorem endsAfter_concat {blocks : List (List α)} {b : List α} {j : Nat} :
    EndsAfter (blocks ++ [b]) j ↔ EndsAfter blocks j ∨ blocks.flatten.length + b.length = j + 1 := by
  constructor
  · rintro ⟨before, after, heq, hlength⟩
    rcases List.eq_nil_or_concat after with rfl | ⟨after, c, rfl⟩
    · rw [List.append_nil] at heq
      refine .inr ?_
      rw [← hlength, ← heq, List.flatten_append, List.length_append, List.flatten_singleton]
    · rw [List.concat_eq_append, ← List.append_assoc] at heq
      exact .inl ⟨before, after, (List.append_inj' heq rfl).1, hlength⟩
  · rintro (⟨before, after, rfl, hlength⟩ | hlength)
    · exact ⟨before, after ++ [b], List.append_assoc .., hlength⟩
    · refine ⟨blocks ++ [b], [], (List.append_nil _).symm, ?_⟩
      rw [List.flatten_append, List.length_append, List.flatten_singleton, hlength]

/-! ## The loop -/

/-- **The invariant of the loop**: the closed blocks and the open one make up the list so far. -/
structure IsOpen (cut : Nat → Prop) (l : List α) (closed : List (List α)) (current : List α) : Prop where
  flatten : closed.flatten ++ current = l
  nonempty : [] ∉ closed
  ends : ∀ j, j < l.length → (EndsAfter closed j ↔ cut j)

section Loop

variable {cut : Nat → Prop} {l : List α} {closed : List (List α)} {current : List α} {a : α}

theorem IsOpen.nil (cut : Nat → Prop) : IsOpen cut ([] : List α) [] [] :=
  ⟨rfl, List.not_mem_nil, fun _ hj => absurd hj (Nat.not_lt_zero _)⟩

theorem IsOpen.length_eq (h : IsOpen cut l closed current) :
    closed.flatten.length + current.length = l.length := by
  rw [← h.flatten, List.length_append]

/-- An item is added to the open block. -/
theorem IsOpen.extend (h : IsOpen cut l closed current) (hcut : ¬ cut l.length) :
    IsOpen cut (l ++ [a]) closed (current ++ [a]) := by
  refine ⟨by rw [← h.flatten, List.append_assoc], h.nonempty, ?_⟩
  intro j hj
  rw [List.length_append, List.length_singleton] at hj
  rcases Nat.lt_succ_iff_lt_or_eq.mp hj with hj | rfl
  · exact h.ends j hj
  · have hlength := h.length_eq
    exact ⟨fun hends => absurd hends.lt (by omega), fun hc => absurd hc hcut⟩

/-- An item is added to the open block, and the block is closed. -/
theorem IsOpen.close (h : IsOpen cut l closed current) (hcut : cut l.length) :
    IsOpen cut (l ++ [a]) (closed ++ [current ++ [a]]) [] := by
  have hlength := h.length_eq
  refine ⟨?_, ?_, ?_⟩
  · rw [List.flatten_append, List.flatten_singleton, List.append_nil, ← List.append_assoc, h.flatten]
  · intro hmem
    rcases List.mem_append.mp hmem with hmem | hmem
    · exact h.nonempty hmem
    · simp at hmem
  · intro j hj
    rw [List.length_append, List.length_singleton] at hj
    rw [endsAfter_concat, List.length_append, List.length_singleton]
    rcases Nat.lt_succ_iff_lt_or_eq.mp hj with hj | rfl
    · rw [← h.ends j hj]
      exact ⟨fun hor => hor.resolve_right (by omega), .inl⟩
    · exact ⟨fun _ => hcut, fun _ => .inr (by omega)⟩

/-- When the last item closes a block, nothing is left open. -/
theorem IsOpen.isCut (h : IsOpen cut l closed current) (hlast : l ≠ [] → cut (l.length - 1)) :
    IsCut cut l closed := by
  have hcurrent : current = [] := by
    rcases eq_or_ne l [] with hnil | hne
    · have hflatten := h.flatten
      rw [hnil, List.append_eq_nil_iff] at hflatten
      exact hflatten.2
    · have hpos := List.length_pos_iff.mpr hne
      have hlt := ((h.ends (l.length - 1) (by omega)).mpr (hlast hne)).lt
      have hlength := h.length_eq
      exact List.length_eq_zero_iff.mp (by omega)
  refine ⟨?_, h.nonempty, h.ends⟩
  rw [← h.flatten, hcurrent, List.append_nil]

end Loop

/-! ## Consequences -/

section Consequences

variable {cut : Nat → Prop} {l : List α} {blocks : List (List α)}

/-- The sums of the blocks add up to the sum of the list. -/
theorem IsCut.sum_eq {M : Type} [AddMonoid M] (h : IsCut cut l blocks) (f : α → M) :
    (blocks.map fun b => (b.map f).sum).sum = (l.map f).sum := by
  rw [← h.flatten, List.map_flatten, List.sum_flatten, List.map_map]
  rfl

/-- Where the items of the list follow each other, so do the blocks. -/
theorem IsCut.isChain {R : α → α → Prop} (h : IsCut cut l blocks) (hl : l.IsChain R) :
    blocks.IsChain fun b c => ∀ x ∈ b.getLast?, ∀ y ∈ c.head?, R x y := by
  rw [← h.flatten] at hl
  exact ((List.isChain_flatten h.nonempty).mp hl).2

/-- The first block begins with the first item. -/
theorem IsCut.exists_first (h : IsCut cut l blocks) (hl : l ≠ []) :
    ∃ b rest, blocks = b :: rest ∧ b.head? = l.head? := by
  cases blocks with
  | nil => exact absurd h.flatten.symm hl
  | cons b rest =>
      have hb : b ≠ [] := fun hnil => h.nonempty (hnil ▸ List.mem_cons_self)
      refine ⟨b, rest, rfl, ?_⟩
      rw [← h.flatten, List.flatten_cons, List.head?_append_of_ne_nil _ hb]

/-- The last block ends with the last item. -/
theorem IsCut.exists_last (h : IsCut cut l blocks) (hl : l ≠ []) :
    ∃ before b, blocks = before ++ [b] ∧ b.getLast? = l.getLast? := by
  rcases List.eq_nil_or_concat blocks with rfl | ⟨before, b, rfl⟩
  · exact absurd h.flatten.symm hl
  · rw [List.concat_eq_append] at h ⊢
    have hb : b ≠ [] := fun hnil => h.nonempty (hnil ▸ List.mem_append_right _ List.mem_cons_self)
    refine ⟨before, b, rfl, ?_⟩
    rw [← h.flatten, List.flatten_append, List.flatten_singleton, List.getLast?_append_of_ne_nil _ hb]

end Consequences

end Blocks
