import Mathlib.Data.List.Chain
import Mathlib.Data.List.Nodup

/-!
# `Lib.RankedWalk` — walks that get closer with every step

A token is handled at the place where it is: it settles there, with a result, or it moves on to another place. It
moves at most as often as its budget allows.

If every place on the way has a rank that the next move lowers by one, and a token of rank 0 settles, the walk is known:
it takes exactly as many moves as the rank says, or it stops where the budget is used up.
-/

namespace BasicSim

namespace RankedWalk

variable {ε α β : Type}

/-- What the place where a token is does with it. -/
inductive Handling (α β : Type) where
  | settle (result : β)
  | move (next : α)

/-- The places where a token is, from a place on, and what becomes of it: nothing, if it should move but its budget is
    used up. -/
def walk (handle : α → Except ε (Handling α β)) : Nat → α → List α × Except ε (Option β)
  | 0, a => ([a], (handle a).map fun
    | .settle b => some b
    | .move _ => none)
  | budget + 1, a =>
    match handle a with
    | .error e => ([a], .error e)
    | .ok (.settle b) => ([a], .ok (some b))
    | .ok (.move a') => (a :: (walk handle budget a').1, (walk handle budget a').2)

variable {handle : α → Except ε (Handling α β)} {a a' : α}

theorem walk_error {e : ε} (h : handle a = .error e) (budget : Nat) : walk handle budget a = ([a], .error e) := by
  cases budget <;> simp [walk, h, Except.map]

theorem walk_settle {b : β} (h : handle a = .ok (.settle b)) (budget : Nat) :
    walk handle budget a = ([a], .ok (some b)) := by
  cases budget <;> simp [walk, h, Except.map]

theorem walk_move (h : handle a = .ok (.move a')) (budget : Nat) :
    walk handle (budget + 1) a = (a :: (walk handle budget a').1, (walk handle budget a').2) := by
  simp only [walk, h]

theorem walk_move_zero (h : handle a = .ok (.move a')) : walk handle 0 a = ([a], .ok none) := by
  simp [walk, h, Except.map]

/-- Tokens of rank 0 settle; a move takes a token over a link, to a rank that is lower by one. -/
structure Ranked (handle : α → Except ε (Handling α β)) (Rank : Nat → α → Prop) (Link : α → α → Prop)
    (Settles : α → β → Prop) : Prop where
  settle : ∀ a, Rank 0 a → ∃ b, handle a = .ok (.settle b) ∧ Settles a b
  move : ∀ k a, Rank (k + 1) a → ∃ a', handle a = .ok (.move a') ∧ Link a a' ∧ Rank k a'

/-- The places of a walk, of ranks `k`, `k - 1` and so on. -/
structure Descends (Rank : Nat → α → Prop) (Link : α → α → Prop) (k : Nat) (a : α) (places : List α) : Prop where
  head : places.head? = some a
  linked : places.IsChain Link
  rank : ∀ i b, places[i]? = some b → Rank (k - i) b

section Ranked

variable {Rank : Nat → α → Prop} {Link : α → α → Prop} {Settles : α → β → Prop} {k : Nat}

theorem Descends.single (h : Rank k a) : Descends Rank Link k a [a] := by
  refine ⟨rfl, List.isChain_singleton a, ?_⟩
  intro i b hb
  cases i with
  | zero => exact Option.some.inj hb ▸ h
  | succ i => exact absurd hb (by simp)

theorem Descends.cons {places : List α} (ha : Rank (k + 1) a) (hlink : Link a a')
    (h : Descends Rank Link k a' places) : Descends Rank Link (k + 1) a (a :: places) := by
  obtain ⟨hhead, hlinked, hrank⟩ := h
  refine ⟨rfl, ?_, ?_⟩
  · cases places with
    | nil => cases hhead
    | cons p places =>
        cases hhead
        exact List.isChain_cons_cons.mpr ⟨hlink, hlinked⟩
  · intro i b hb
    cases i with
    | zero => exact Option.some.inj hb ▸ ha
    | succ i =>
        rw [Nat.add_sub_add_right]
        exact hrank i b hb

/-- If what is seen of a place determines its rank, the walk never sees the same twice. -/
theorem Descends.nodup_map {γ : Type} {f : α → γ} {m : γ → Nat} {places : List α} (h : Descends Rank Link k a places)
    (hm : ∀ k a, Rank k a → m (f a) = k) (hlen : places.length ≤ k + 1) : (places.map f).Nodup := by
  rw [List.nodup_iff_getElem?_ne_getElem?]
  intro i j hij hj heq
  rw [List.length_map] at hj
  have hi : i < places.length := by omega
  rw [List.getElem?_map, List.getElem?_map, List.getElem?_eq_getElem hi, List.getElem?_eq_getElem hj] at heq
  have hri := hm _ _ (h.rank i _ (List.getElem?_eq_getElem hi))
  have hrj := hm _ _ (h.rank j _ (List.getElem?_eq_getElem hj))
  rw [Option.some.inj heq] at hri
  omega

/-- **Arrival.** With budget enough, the token settles after `k` moves. -/
theorem Ranked.arrives (h : Ranked handle Rank Link Settles) (ha : Rank k a) {budget : Nat} (hk : k ≤ budget) :
    ∃ places last b, walk handle budget a = (places, .ok (some b)) ∧ places.length = k + 1 ∧
      Descends Rank Link k a places ∧ places.getLast? = some last ∧ Settles last b := by
  induction k generalizing a budget with
  | zero =>
      obtain ⟨b, hsettle, hb⟩ := h.settle a ha
      exact ⟨[a], a, b, walk_settle hsettle budget, rfl, .single ha, rfl, hb⟩
  | succ k ih =>
      obtain ⟨a', hmove, hlink, ha'⟩ := h.move k a ha
      obtain ⟨budget, rfl⟩ : ∃ n, budget = n + 1 := ⟨budget - 1, by omega⟩
      obtain ⟨places, last, b, hwalk, hlen, hdesc, hlast, hb⟩ := ih ha' (Nat.le_of_succ_le_succ hk)
      refine ⟨a :: places, last, b, ?_, by rw [List.length_cons, hlen], .cons ha hlink hdesc, ?_, hb⟩
      · rw [walk_move hmove, hwalk]
      · rw [List.getLast?_cons, hlast, Option.getD_some]

/-- **Expiry.** With a smaller budget, the token stops on the way. -/
theorem Ranked.expires (h : Ranked handle Rank Link Settles) (ha : Rank k a) {budget : Nat} (hk : budget < k) :
    ∃ places, walk handle budget a = (places, .ok none) ∧ places.length = budget + 1 ∧
      Descends Rank Link k a places := by
  induction budget generalizing a k with
  | zero =>
      obtain ⟨k, rfl⟩ : ∃ n, k = n + 1 := ⟨k - 1, by omega⟩
      obtain ⟨a', hmove, -, -⟩ := h.move k a ha
      exact ⟨[a], walk_move_zero hmove, rfl, .single ha⟩
  | succ budget ih =>
      obtain ⟨k, rfl⟩ : ∃ n, k = n + 1 := ⟨k - 1, by omega⟩
      obtain ⟨a', hmove, hlink, ha'⟩ := h.move k a ha
      obtain ⟨places, hwalk, hlen, hdesc⟩ := ih ha' (Nat.lt_of_succ_lt_succ hk)
      refine ⟨a :: places, ?_, by rw [List.length_cons, hlen], .cons ha hlink hdesc⟩
      rw [walk_move hmove, hwalk]

end Ranked

end RankedWalk

end BasicSim
