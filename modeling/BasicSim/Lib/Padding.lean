import Mathlib.Data.List.DropRight

/-!
# `Lib.Padding` — text between blanks

Blanks around a text do not count: `strip` takes them away, and is left with the same text however it was
padded. Pieces that do not hold a separator are read back from the text in which the separator joins them.

## Contents
- **Stripping.** `strip`, `IsStripped`, and that they belong together (`strip_eq_self_iff`).
- **Padding.** `IsPadded`, `isPadded_strip`, `IsPadded.strip_eq`.
- **Joining.** `Joins`, `Joins.splitOn_eq`.
-/

namespace Padding

variable {α : Type} (blank : α → Bool)

/-! ## Stripping -/

def strip (l : List α) : List α := (l.rdropWhile blank).dropWhile blank

/-- A text that neither begins nor ends with a blank. -/
structure IsStripped (l : List α) : Prop where
  head : ∀ a ∈ l.head?, blank a = false
  last : ∀ a ∈ l.getLast?, blank a = false

/-- A text of nothing but blanks. -/
def IsBlank (l : List α) : Prop := ∀ a ∈ l, blank a = true

instance (l : List α) : Decidable (IsBlank blank l) := inferInstanceAs (Decidable (∀ a ∈ l, blank a = true))

variable {blank} {l x padded before after : List α}

theorem IsBlank.append (hl : IsBlank blank l) (hx : IsBlank blank x) : IsBlank blank (l ++ x) :=
  fun a ha => (List.mem_append.mp ha).elim (hl a) (hx a)

/-- Two ends that are not blank are enough. -/
theorem isStripped_cons_concat {a b : α} (ha : blank a = false) (hb : blank b = false) (l : List α) :
    IsStripped blank (a :: l ++ [b]) := by
  constructor
  · intro c hc
    cases hc
    exact ha
  · intro c hc
    rw [List.getLast?_append] at hc
    cases hc
    exact hb

theorem isStripped_strip (l : List α) : IsStripped blank (strip blank l) := by
  constructor
  · intro a ha
    have hhead := List.head?_dropWhile_not blank (l.rdropWhile blank)
    rw [Option.mem_def, strip] at ha
    rw [ha] at hhead
    exact hhead
  · intro a ha
    obtain ⟨hne, rfl⟩ := List.mem_getLast?_eq_getLast ha
    have hsuffix : strip blank l <:+ l.rdropWhile blank := List.dropWhile_suffix blank
    have hne' : l.rdropWhile blank ≠ [] := fun hnil => hne (List.suffix_nil.mp (hnil ▸ hsuffix))
    rw [hsuffix.getLast hne, Bool.eq_false_iff]
    exact List.rdropWhile_last_not blank l hne'

/-- Blanks at the end are dropped. -/
theorem rdropWhile_append_blank (h : IsBlank blank after) :
    (l ++ after).rdropWhile blank = l.rdropWhile blank := by
  rw [List.rdropWhile, List.reverse_append,
    List.dropWhile_append_of_pos fun a ha => h a (List.mem_reverse.mp ha), List.rdropWhile]

theorem isBlank_nil : IsBlank blank ([] : List α) := fun _ ha => nomatch ha

/-- Blanks around a text that has none at its ends are taken away. -/
theorem IsStripped.strip_eq (hx : IsStripped blank x) (hbefore : IsBlank blank before)
    (hafter : IsBlank blank after) : strip blank (before ++ x ++ after) = x := by
  rw [strip, rdropWhile_append_blank hafter]
  rcases eq_or_ne x [] with rfl | hne
  · rw [List.append_nil, List.rdropWhile_eq_nil_iff.mpr hbefore]
    rfl
  · have hlast : blank (x.getLast hne) = false := hx.last _ (List.getLast?_eq_some_getLast hne)
    have hhead : blank (x.head hne) = false := hx.head _ (List.head?_eq_some_head hne)
    have hright : (before ++ x).rdropWhile blank = before ++ x := by
      rw [List.rdropWhile_eq_self_iff]
      intro h
      rw [List.getLast_append_of_ne_nil _ hne, hlast]
      exact Bool.false_ne_true
    rw [hright, List.dropWhile_append_of_pos hbefore, List.dropWhile_eq_self_iff]
    intro h
    rw [← List.head_eq_getElem_zero hne, hhead]
    exact Bool.false_ne_true

theorem strip_eq_self_iff : strip blank x = x ↔ IsStripped blank x := by
  constructor
  · exact fun h => h ▸ isStripped_strip x
  · intro h
    have heq := h.strip_eq isBlank_nil isBlank_nil
    rwa [List.nil_append, List.append_nil] at heq

/-! ## Padding -/

variable (blank) in
/-- The text with blanks around it. -/
def IsPadded (x padded : List α) : Prop :=
  ∃ before after, IsBlank blank before ∧ IsBlank blank after ∧ padded = before ++ x ++ after

/-- A text without blanks around it. -/
theorem isPadded_self (blank : α → Bool) (x : List α) : IsPadded blank x x :=
  ⟨[], [], isBlank_nil, isBlank_nil, by rw [List.nil_append, List.append_nil]⟩

/-- Every text is the stripped one, padded. -/
theorem isPadded_strip (blank : α → Bool) (l : List α) : IsPadded blank (strip blank l) l := by
  refine ⟨(l.rdropWhile blank).takeWhile blank, l.rtakeWhile blank, ?_, ?_, ?_⟩
  · exact fun a ha => List.mem_takeWhile_imp ha
  · exact fun a ha => List.mem_takeWhile_imp (List.mem_reverse.mp ha)
  · rw [strip, List.takeWhile_append_dropWhile, List.rdropWhile_append_rtakeWhile]

/-- However a text is padded, stripping leaves what it leaves of the text itself. -/
theorem IsPadded.strip_eq (h : IsPadded blank x padded) : strip blank padded = strip blank x := by
  obtain ⟨before, after, hbefore, hafter, rfl⟩ := h
  obtain ⟨before', after', hbefore', hafter', hx⟩ := isPadded_strip blank x
  have heq : before ++ x ++ after = (before ++ before') ++ strip blank x ++ (after' ++ after) := by
    conv_lhs => rw [hx]
    simp only [List.append_assoc]
  rw [heq, (isStripped_strip x).strip_eq (hbefore.append hbefore') (hafter'.append hafter)]

theorem strip_eq_nil_iff : strip blank l = [] ↔ IsBlank blank l := by
  constructor
  · intro h
    obtain ⟨before, after, hbefore, hafter, heq⟩ := isPadded_strip blank l
    rw [h, List.append_nil] at heq
    exact heq ▸ hbefore.append hafter
  · intro h
    have hnil : IsStripped blank ([] : List α) := by constructor <;> simp
    have heq := hnil.strip_eq h isBlank_nil
    rwa [List.append_nil, List.append_nil] at heq

/-- A character of a padded text that is not a blank is one of the text. -/
theorem IsPadded.mem_iff (h : IsPadded blank x padded) {a : α} (ha : blank a = false) : a ∈ padded ↔ a ∈ x := by
  obtain ⟨before, after, hbefore, hafter, rfl⟩ := h
  have hnot : ∀ {l}, IsBlank blank l → a ∉ l := fun hl hmem => by
    rw [hl a hmem] at ha
    cases ha
  simp only [List.mem_append, hnot hbefore, hnot hafter, false_or, or_false]

/-! ## Joining -/

/-- There is one piece more than there are separators. -/
theorem length_splitOn [BEq α] [LawfulBEq α] (separator : α) (l : List α) :
    (l.splitOn separator).length = l.count separator + 1 := by
  induction l with
  | nil => rfl
  | cons a l ih =>
      rw [List.splitOn_cons_eq_if_modifyHead, List.count_cons]
      split
      · rw [List.length_cons, ih]
      · rw [List.length_modifyHead, ih, Nat.add_zero]

/-- The separator joins the pieces; without pieces there is only blank text. -/
structure Joins (blank : α → Bool) (separator : α) (pieces : List (List α)) (l : List α) : Prop where
  nil : pieces = [] → IsBlank blank l
  cons : pieces ≠ [] → l = [separator].intercalate pieces

/-- Pieces that do not hold the separator are read back. -/
theorem Joins.splitOn_eq [BEq α] [LawfulBEq α] {separator : α} {pieces : List (List α)}
    (h : Joins blank separator pieces l) (hne : pieces ≠ []) (hpieces : ∀ p ∈ pieces, separator ∉ p) :
    l.splitOn separator = pieces := by
  rw [h.cons hne, List.splitOn_intercalate separator hpieces hne]

/-- Joined text is not blank, unless it is one blank piece. -/
theorem Joins.not_isBlank {separator : α} {pieces : List (List α)} (h : Joins blank separator pieces l)
    (hne : pieces ≠ []) (hseparator : blank separator = false) (hone : ∀ p, pieces = [p] → ¬ IsBlank blank p) :
    ¬ IsBlank blank l := by
  rw [h.cons hne]
  match pieces, hne, hone with
  | [p], _, hone =>
      rw [List.intercalate_singleton]
      exact hone p rfl
  | p :: q :: pieces, _, _ =>
      intro hblank
      have hmem : separator ∈ [separator].intercalate (p :: q :: pieces) := by
        simp [List.intercalate_cons_cons]
      rw [hblank separator hmem] at hseparator
      cases hseparator

end Padding
