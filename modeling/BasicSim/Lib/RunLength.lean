import Mathlib.Data.List.Chain
import Mathlib.Order.Basic
import Mathlib.Order.Lattice

/-!
# `Lib.RunLength` — the run-length encoding of a step function

A function of time on `[a, b)` is written down as runs `[left, right)` of one value. `IsCanonical` says
which list of runs is the encoding, in elementary terms; `Encodes` is the same as an inductive
predicate, on which the proofs are done.

## Contents
- **Encodings.** `IsCanonical`, `Encodes`, and that they agree (`Encodes.isCanonical`, `IsCanonical.encodes`).
- **Uniqueness.** `Encodes.unique`.
- **Growth.** `push` extends an encoding by one more run, and merges it with the last one if it can.
-/

namespace RunLength

variable {T V : Type} [LinearOrder T]

/-- `[left, right)` with one value. -/
structure Run (T V : Type) where
  left : T
  right : T
  value : V
deriving DecidableEq, Repr

/-! ## Encodings -/

/-- **The canonical list of runs** of `f` on `[a, b)`. -/
structure IsCanonical (f : T → Option V) (a b : T) (l : List (Run T V)) : Prop where
  nonEmpty : ∀ x ∈ l, x.left < x.right
  touch : l.IsChain fun x y => x.right = y.left
  differ : l.IsChain fun x y => x.value ≠ y.value
  first : ∀ x, l.head? = some x → x.left = a
  last : ∀ x, l.getLast? = some x → x.right = b
  covers : ∀ τ, a ≤ τ → τ < b → ∃ x ∈ l, x.left ≤ τ ∧ τ < x.right
  value : ∀ x ∈ l, ∀ τ, x.left ≤ τ → τ < x.right → f τ = some x.value

/-- The same, run by run. -/
inductive Encodes (f : T → Option V) (b : T) : T → List (Run T V) → Prop
  | nil : Encodes f b b []
  | cons {a r : T} {v : V} {l : List (Run T V)} (hne : a < r)
      (hval : ∀ τ, a ≤ τ → τ < r → f τ = some v) (hdiff : ∀ x, l.head? = some x → v ≠ x.value)
      (htail : Encodes f b r l) : Encodes f b a (⟨a, r, v⟩ :: l)

variable {f : T → Option V} {a b : T} {l : List (Run T V)}

theorem Encodes.le (h : Encodes f b a l) : a ≤ b := by
  induction h with
  | nil => exact le_rfl
  | cons hne _ _ _ ih => exact le_of_lt (lt_of_lt_of_le hne ih)

/-- Only the empty interval has the empty encoding. -/
theorem Encodes.eq_nil_iff (h : Encodes f b a l) : l = [] ↔ a = b := by
  cases h with
  | nil => simp
  | cons hne _ _ htail => simp [ne_of_lt (lt_of_lt_of_le hne htail.le)]

/-- The runs before the last one end before it does. -/
theorem Encodes.right_lt {x : Run T V} (h : Encodes f b a (l ++ [x])) : ∀ y ∈ l, y.right < b := by
  induction l generalizing a with
  | nil => exact fun y hy => nomatch hy
  | cons z l ih =>
      rw [List.cons_append] at h
      cases h with
      | cons _ _ _ htail =>
          have hne : l ++ [x] ≠ [] := by simp
          intro y hy
          rcases List.mem_cons.mp hy with rfl | hy
          · exact lt_of_le_of_ne htail.le fun heq => hne (htail.eq_nil_iff.mpr heq)
          · exact ih htail y hy

theorem Encodes.isCanonical (h : Encodes f b a l) : IsCanonical f a b l := by
  induction h with
  | nil =>
      exact ⟨fun _ h => absurd h List.not_mem_nil, .nil, .nil, (fun _ h => nomatch h),
        (fun _ h => nomatch h), fun τ ha hb => absurd hb (not_lt.mpr ha),
        fun _ h => absurd h List.not_mem_nil⟩
  | @cons a r v l hne hval hdiff htail ih =>
      constructor
      case nonEmpty => exact List.forall_mem_cons.mpr ⟨hne, ih.nonEmpty⟩
      case touch => exact ih.touch.cons fun x hx => (ih.first x hx).symm
      case differ => exact ih.differ.cons hdiff
      case first => exact fun x hx => by rw [← Option.some.inj hx]
      case last =>
        intro x hx
        cases l with
        | nil => rw [← Option.some.inj hx]; exact htail.eq_nil_iff.mp rfl
        | cons y l => exact ih.last x (by rwa [List.getLast?_cons_cons] at hx)
      case covers =>
        intro τ ha hb
        by_cases hr : τ < r
        · exact ⟨_, List.mem_cons_self, ha, hr⟩
        · obtain ⟨x, hx, hτ⟩ := ih.covers τ (not_lt.mp hr) hb
          exact ⟨x, List.mem_cons_of_mem _ hx, hτ⟩
      case value => exact List.forall_mem_cons.mpr ⟨hval, ih.value⟩

/-- What follows the first run of a canonical list is canonical. -/
theorem IsCanonical.tail {y : Run T V} (h : IsCanonical f a b (y :: l)) : IsCanonical f y.right b l := by
  refine ⟨fun x hx => h.nonEmpty x (List.mem_cons_of_mem _ hx), h.touch.tail, h.differ.tail,
    fun x hx => (h.touch.rel_head? hx).symm, fun x hx => h.last x ?_, fun τ hy hb => ?_,
    fun x hx => h.value x (List.mem_cons_of_mem _ hx)⟩
  · cases l with
    | nil => exact nomatch hx
    | cons z l => rwa [List.getLast?_cons_cons]
  · have hay : a ≤ τ := by
      rw [← h.first y rfl]
      exact le_trans (le_of_lt (h.nonEmpty y List.mem_cons_self)) hy
    obtain ⟨x, hx, hl, hr⟩ := h.covers τ hay hb
    rcases List.mem_cons.mp hx with rfl | hx
    · exact absurd hr (not_lt.mpr hy)
    · exact ⟨x, hx, hl, hr⟩

/-- The first run of a canonical list ends within the interval. -/
theorem IsCanonical.right_le {y : Run T V} (h : IsCanonical f a b (y :: l)) : y.right ≤ b := by
  induction l generalizing a y with
  | nil => exact le_of_eq (h.last y rfl)
  | cons z l ih =>
      rw [(List.isChain_cons_cons.mp h.touch).1]
      exact le_trans (le_of_lt (h.nonEmpty z (by simp))) (ih h.tail)

theorem IsCanonical.encodes (h : IsCanonical f a b l) (hab : a ≤ b) : Encodes f b a l := by
  induction l generalizing a with
  | nil =>
      have hba : ¬ a < b := fun hlt => by
        obtain ⟨x, hx, _⟩ := h.covers a le_rfl hlt
        exact absurd hx List.not_mem_nil
      rw [le_antisymm hab (not_lt.mp hba)]
      exact .nil
  | cons y l ih =>
      obtain ⟨left, right, value⟩ := y
      obtain rfl : left = a := h.first _ rfl
      exact .cons (h.nonEmpty _ List.mem_cons_self) (h.value _ List.mem_cons_self)
        (fun x hx => h.differ.rel_head? hx) (ih h.tail h.right_le)

/-- Only the values in the interval matter. -/
theorem Encodes.congr {g : T → Option V} (h : Encodes f b a l) (hfg : ∀ τ, a ≤ τ → τ < b → f τ = g τ) :
    Encodes g b a l := by
  induction h with
  | nil => exact .nil
  | cons hne hval hdiff htail ih =>
      refine .cons hne (fun τ ha hr => ?_) hdiff (ih fun τ hr hb => hfg τ (le_trans (le_of_lt hne) hr) hb)
      rw [← hfg τ ha (lt_of_lt_of_le hr htail.le), hval τ ha hr]

/-! ## Uniqueness -/

/-- If one first run were shorter, what follows it would have the same value. -/
theorem Encodes.not_lt_right {r r' : T} {v : V} {l l' : List (Run T V)}
    (h : Encodes f b a (⟨a, r, v⟩ :: l)) (h' : Encodes f b a (⟨a, r', v⟩ :: l')) : ¬ r < r' := by
  intro hlt
  cases h with
  | cons hne hval hdiff htail =>
      cases h' with
      | cons hne' hval' hdiff' htail' =>
          cases htail with
          | nil => exact absurd htail'.le (not_le.mpr hlt)
          | cons hne₂ hval₂ _ _ =>
              have h1 := hval₂ r le_rfl hne₂
              have h2 := hval' r (le_of_lt hne) hlt
              exact hdiff _ rfl (Option.some.inj (h2.symm.trans h1))

/-- **There is one encoding.** -/
theorem Encodes.unique {l' : List (Run T V)} (h : Encodes f b a l) (h' : Encodes f b a l') : l = l' := by
  induction h generalizing l' with
  | nil => exact (h'.eq_nil_iff.mpr rfl).symm
  | @cons a r v l hne hval hdiff htail ih =>
      have h := Encodes.cons hne hval hdiff htail
      cases h' with
      | nil => exact absurd (lt_of_lt_of_le hne htail.le) (lt_irrefl _)
      | @cons _ r' v' l' hne' hval' hdiff' htail' =>
          obtain rfl : v = v' := Option.some.inj ((hval a le_rfl hne).symm.trans (hval' a le_rfl hne'))
          have h' := Encodes.cons hne' hval' hdiff' htail'
          obtain rfl : r = r' := le_antisymm (not_lt.mp (h'.not_lt_right h)) (not_lt.mp (h.not_lt_right h'))
          rw [ih htail']

/-! ## Growth -/

variable [DecidableEq V]

/-- Add a run, or extend the last one if it has the same value. -/
def push : List (Run T V) → Run T V → List (Run T V)
  | [], y => [y]
  | [x], y => if x.value = y.value then [⟨x.left, y.right, x.value⟩] else [x, y]
  | x :: z :: l, y => x :: push (z :: l) y

omit [LinearOrder T] in
theorem push_concat (l : List (Run T V)) (x y : Run T V) :
    push (l ++ [x]) y =
      if x.value = y.value then l ++ [⟨x.left, y.right, x.value⟩] else l ++ [x, y] := by
  induction l with
  | nil => rfl
  | cons z l ih =>
      cases l with
      | nil =>
          simp only [List.cons_append, List.nil_append, push]
          split <;> rfl
      | cons w l =>
          simp only [List.cons_append] at ih ⊢
          rw [push, ih]
          split <;> rfl

omit [LinearOrder T] in
theorem head?_push {l : List (Run T V)} {x y : Run T V} (h : (push l y).head? = some x) :
    l = [] ∧ x = y ∨ ∃ z, l.head? = some z ∧ x.value = z.value := by
  match l with
  | [] => exact .inl ⟨rfl, (Option.some.inj h).symm⟩
  | [z] =>
      refine .inr ⟨z, rfl, ?_⟩
      unfold push at h
      split at h <;> rw [← Option.some.inj h]
  | z :: w :: l => exact .inr ⟨z, rfl, by rw [← Option.some.inj h]⟩

/-- **Growing.** If the function has the value `v` on `[b, c)`, then pushing that run encodes it up to
    `c`. -/
theorem Encodes.push {c : T} {v : V} (h : Encodes f b a l) (hbc : b < c)
    (hval : ∀ τ, b ≤ τ → τ < c → f τ = some v) : Encodes f c a (push l ⟨b, c, v⟩) := by
  induction h with
  | nil => exact .cons hbc hval (fun _ h => nomatch h) .nil
  | @cons a r w l hne hw hdiff htail ih =>
      cases l with
      | nil =>
          obtain rfl := htail.eq_nil_iff.mp rfl
          unfold RunLength.push
          split
          · -- the last run has the value: it is extended
            next heq =>
              have heq : w = v := heq
              subst heq
              refine .cons (lt_trans hne hbc) (fun τ ha hc => ?_) (fun _ h => nomatch h) .nil
              rcases lt_or_ge τ r with hr | hr
              · exact hw τ ha hr
              · exact hval τ hr hc
          · -- it has another one: a run is added
            next hvne =>
              refine .cons hne hw ?_ (.cons hbc hval (fun _ h => nomatch h) .nil)
              intro x hx
              rw [← Option.some.inj hx]
              exact hvne
      | cons z l =>
          refine .cons hne hw ?_ ih
          intro x hx
          rcases head?_push hx with ⟨hnil, _⟩ | ⟨z', hz', heq⟩
          · exact nomatch hnil
          · rw [heq]
            exact hdiff z' hz'

end RunLength
