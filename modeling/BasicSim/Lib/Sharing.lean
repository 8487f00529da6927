import Mathlib.Data.List.Sort

/-!
# `Lib.Sharing` — a list that several owners share

Every element of a list belongs to an owner, and each owner works on its part: the elements that are its own, in
the order of the list. Nothing is lost, nothing is done twice, and the parts can be merged again.

## Contents
- **Parts.** `part`, and `flatMap_part_perm`: the parts of some owners are what belongs to them, in another
  order.
- **Sharing.** `Shared`, and the rule `shared_of_parts`.
-/

namespace Sharing

/-! ## Parts -/

section Parts

variable {α κ : Type} [DecidableEq κ] {owner : α → κ} {l : List α}

/-- The part of an owner. -/
def part (owner : α → κ) (l : List α) (i : κ) : List α := l.filter fun a => owner a = i

theorem mem_part {i : κ} {a : α} : a ∈ part owner l i ↔ a ∈ l ∧ owner a = i := by
  simp [part]

theorem part_sublist (i : κ) : (part owner l i).Sublist l := List.filter_sublist

theorem part_eq_self {i : κ} (h : ∀ a ∈ l, owner a = i) : part owner l i = l :=
  List.filter_eq_self.mpr fun a ha => decide_eq_true (h a ha)

theorem part_eq_nil {i : κ} (h : ∀ a ∈ l, owner a ≠ i) : part owner l i = [] :=
  List.filter_eq_nil_iff.mpr fun a ha => by simpa using h a ha

/-- The parts of some owners have what belongs to them. -/
theorem flatMap_part_perm {owners : List κ} (h : owners.Nodup) (l : List α) :
    (owners.flatMap (part owner l)).Perm (l.filter fun a => owner a ∈ owners) := by
  induction owners with
  | nil => simp
  | cons i owners ih =>
      obtain ⟨hi, hnodup⟩ := List.nodup_cons.mp h
      -- what belongs to all of them is split by whether it belongs to the first
      have hsplit := List.filter_append_perm (fun a => decide (owner a = i))
        (l.filter fun a => owner a ∈ i :: owners)
      rw [List.filter_filter, List.filter_filter] at hsplit
      have hfirst : (l.filter fun a => decide (owner a = i) && decide (owner a ∈ i :: owners))
          = part owner l i :=
        List.filter_congr fun a _ => by
          rw [Bool.eq_iff_iff, Bool.and_eq_true, decide_eq_true_iff, decide_eq_true_iff, List.mem_cons]
          exact ⟨fun h => h.1, fun h => ⟨h, .inl h⟩⟩
      have hrest : (l.filter fun a => (!decide (owner a = i)) && decide (owner a ∈ i :: owners))
          = l.filter fun a => owner a ∈ owners :=
        List.filter_congr fun a _ => by
          rw [Bool.eq_iff_iff, Bool.and_eq_true, Bool.not_eq_true', decide_eq_false_iff_not,
            decide_eq_true_iff, decide_eq_true_iff, List.mem_cons]
          exact ⟨fun h => h.2.resolve_left h.1, fun h => ⟨fun heq => hi (heq ▸ h), .inr h⟩⟩
      rw [hfirst, hrest] at hsplit
      rw [List.flatMap_cons]
      exact ((ih hnodup).append_left _).trans hsplit

end Parts

/-! ## Sharing -/

section Sharing

variable {α β : Type} [LinearOrder β] {owner : α → Nat} {ident : α → β} {k : Nat} {parts : Nat → List α}
  {l : List α}

/-- **`k` owners share a list** whose elements are known by an identifier: each has a subsequence, every element
    is with its owner once and with no other, and merging the parts by identifier gives the list. -/
structure Shared (owner : α → Nat) (ident : α → β) (k : Nat) (parts : Nat → List α) (l : List α) : Prop where
  subsequence : ∀ i < k, (parts i).Sublist l
  owner_lt : ∀ a ∈ l, owner a < k
  once : ∀ a ∈ l, ∀ i < k, ((parts i).map ident).count (ident a) = if i = owner a then 1 else 0
  merged : (((List.range k).flatMap parts).map ident).insertionSort (· ≤ ·) = l.map ident

/-- **Rule.** When everybody has its own part of a list in ascending order of the identifiers, the list is
    shared. -/
theorem shared_of_parts (hsorted : l.Pairwise fun a b => ident a < ident b) (howner : ∀ a ∈ l, owner a < k)
    (hparts : ∀ i < k, parts i = part owner l i) : Shared owner ident k parts l where
  subsequence := by
    intro i hi
    rw [hparts i hi]
    exact part_sublist i
  owner_lt := howner
  once := by
    intro a ha i hi
    have hnodup : (l.map ident).Nodup := List.pairwise_map.mpr (hsorted.imp fun h => ne_of_lt h)
    have hnodup' : ((part owner l i).map ident).Nodup := hnodup.sublist ((part_sublist i).map ident)
    rw [hparts i hi]
    split
    · next h => exact List.count_eq_one_of_mem hnodup' (List.mem_map_of_mem (mem_part.mpr ⟨ha, h.symm⟩))
    · next h =>
        refine List.count_eq_zero_of_not_mem fun hmem => h ?_
        obtain ⟨b, hb, hident⟩ := List.mem_map.mp hmem
        obtain ⟨hb, hi⟩ := mem_part.mp hb
        rw [← hi, List.inj_on_of_nodup_map hnodup hb ha hident]
  merged := by
    -- the parts together are a permutation of the list, and sorting its identifiers gives them back
    have hperm : ((List.range k).flatMap parts).Perm l := by
      have hperm : ((List.range k).flatMap (part owner l)).Perm (l.filter fun a => owner a ∈ List.range k) :=
        flatMap_part_perm List.nodup_range l
      rw [List.filter_eq_self.mpr fun a ha => decide_eq_true (List.mem_range.mpr (howner a ha))] at hperm
      refine List.Perm.trans (.of_eq (List.flatMap_congr ?_)) hperm
      intro i hi
      exact hparts i (List.mem_range.mp hi)
    have hsorted' : (l.map ident).Pairwise (· ≤ ·) := List.pairwise_map.mpr (hsorted.imp fun h => le_of_lt h)
    refine List.Perm.eq_of_pairwise (fun _ _ _ _ => le_antisymm) (List.pairwise_insertionSort _ _) hsorted'
      ((List.perm_insertionSort _ _).trans (hperm.map ident))

/-- What is shared is with each owner as its part. -/
theorem Shared.eq_part (h : Shared owner ident k parts l) (hnodup : (l.map ident).Nodup) {i : Nat} (hi : i < k) :
    parts i = part owner l i := by
  -- a sublist has what is in it, if nothing is there twice
  have hsub : ∀ {l p : List α}, p.Sublist l → (l.map ident).Nodup → p = l.filter fun a => ident a ∈ p.map ident := by
    intro l p hp hnodup
    induction hp with
    | slnil => rfl
    | @cons p l a hp ih =>
        obtain ⟨ha, hnodup⟩ := List.nodup_cons.mp hnodup
        have hnot : ident a ∉ p.map ident := fun hmem => ha ((hp.map ident).subset hmem)
        rw [List.filter_cons_of_neg (by simpa using hnot)]
        exact ih hnodup
    | @cons_cons p l a hp ih =>
        obtain ⟨ha, hnodup⟩ := List.nodup_cons.mp hnodup
        rw [List.filter_cons_of_pos (by simp)]
        refine congrArg (a :: ·) ((ih hnodup).trans (List.filter_congr fun b hb => ?_))
        have hne : ident b ≠ ident a := fun heq => ha (heq ▸ List.mem_map_of_mem hb)
        simp [hne]
  rw [hsub (h.subsequence i hi) hnodup, part]
  refine List.filter_congr fun a ha => ?_
  rw [Bool.eq_iff_iff, decide_eq_true_iff, decide_eq_true_iff, ← List.one_le_count_iff, h.once a ha i hi]
  split
  · next heq => exact iff_of_true le_rfl heq.symm
  · next hne => exact iff_of_false (by decide) fun heq => hne heq.symm

/-- Everybody may have the part by other means. -/
theorem Shared.congr {parts' : Nat → List α} {l' : List α} (h : Shared owner ident k parts l)
    (hparts : ∀ i < k, parts' i = parts i) (hl : l' = l) : Shared owner ident k parts' l' := by
  subst hl
  refine ⟨?_, h.owner_lt, ?_, ?_⟩
  · intro i hi
    rw [hparts i hi]
    exact h.subsequence i hi
  · intro a ha i hi
    rw [hparts i hi]
    exact h.once a ha i hi
  · rw [List.flatMap_congr fun i hi => hparts i (List.mem_range.mp hi)]
    exact h.merged

end Sharing

end Sharing
