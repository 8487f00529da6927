import Mathlib.Data.List.Forall2
import Mathlib.Tactic.Common

/-!
# `Lib.Fallible` — reasoning about programs that may throw

A program that may throw is a term of `Except ε α`. Nothing here knows what is thrown: the rules
peel a successful run apart, one `bind` or one loop at a time.

## Contents
- **Sequencing.** `bind_eq_ok` and the computation rules for `ok`/`error`.
- **Checks.** `throwIf c e`: throw `e` when `c` holds, the `if (c) throw e;` of C-like languages.
- **Loops.** A loop that only checks (`forM_eq_ok`), one that converts every item (`mapM_eq_ok`,
  `mapM_total`, with `map_eq_map_of_forall₂` about its results),
  one that carries an accumulator (`foldlM_inv`, `foldlM_total`, `foldlM_reads`,
  `foldlM_sim`, `foldlM_flatMap`, `foldlM_eq_mapM_foldl`, `foldlM_read_same`), and one that filters
  (`filterLoop_of`, `filterLoop_eq_ok`).
-/

namespace Fallible

variable {ε α β σ : Type}

/-! ## Sequencing -/

@[simp] theorem ok_bind (a : α) (f : α → Except ε β) : (Except.ok a >>= f) = f a := rfl

@[simp] theorem error_bind (e : ε) (f : α → Except ε β) : (Except.error e >>= f) = .error e := rfl

@[simp] theorem pure_eq_ok (a : α) : (pure a : Except ε α) = .ok a := rfl

@[simp] theorem throw_eq_error (e : ε) : (throw e : Except ε α) = .error e := rfl

@[simp] theorem map_ok (a : α) (f : α → β) : (f <$> (Except.ok a : Except ε α)) = .ok (f a) := rfl

@[simp] theorem map_error (e : ε) (f : α → β) :
    (f <$> (Except.error e : Except ε α)) = .error e := rfl

/-- A sequence succeeds exactly when its first part does and its second part does on the value. -/
theorem bind_eq_ok {x : Except ε α} {f : α → Except ε β} {r : β} :
    (x >>= f) = .ok r ↔ ∃ a, x = .ok a ∧ f a = .ok r := by
  cases x with
  | error e => exact ⟨fun h => (nomatch h), fun ⟨_, h, _⟩ => (nomatch h)⟩
  | ok a => exact ⟨fun h => ⟨a, rfl, h⟩, fun ⟨_, h, hf⟩ => by cases h; exact hf⟩

theorem map_eq_ok {x : Except ε α} {f : α → β} {r : β} :
    f <$> x = .ok r ↔ ∃ a, x = .ok a ∧ f a = r := by
  cases x with
  | error e => exact ⟨fun h => (nomatch h), fun ⟨_, h, _⟩ => (nomatch h)⟩
  | ok a => exact ⟨fun h => ⟨a, rfl, Except.ok.inj h⟩, fun ⟨_, h, hf⟩ => by cases h; rw [← hf]; rfl⟩

/-- A sequence throws exactly when its first part does, or its second part does on the value. -/
theorem bind_eq_error {x : Except ε α} {f : α → Except ε β} {e : ε} :
    (x >>= f) = .error e ↔ x = .error e ∨ ∃ a, x = .ok a ∧ f a = .error e := by
  cases x with
  | error e' =>
      constructor
      · intro h; cases h; exact .inl rfl
      · rintro (h | ⟨_, h, _⟩)
        · cases h; rfl
        · cases h
  | ok a =>
      constructor
      · intro h; exact .inr ⟨a, rfl, h⟩
      · rintro (h | ⟨_, h, hf⟩)
        · cases h
        · cases h; exact hf

/-! ## Checks -/

/-- Throw `e` when `c` holds. -/
def throwIf (c : Prop) [Decidable c] (e : ε) : Except ε Unit := if c then .error e else .ok ()

@[simp] theorem throwIf_eq_ok {c : Prop} [Decidable c] {e : ε} {u : Unit} :
    throwIf c e = .ok u ↔ ¬ c := by
  unfold throwIf; split <;> simp_all

theorem throwIf_of_not {c : Prop} [Decidable c] {e : ε} (h : ¬ c) : throwIf c e = .ok () := if_neg h

theorem throwIf_of {c : Prop} [Decidable c] {e : ε} (h : c) : throwIf c e = .error e := if_pos h

/-- A program that starts with a check succeeds exactly when the check passes and the rest does. -/
theorem throwIf_bind_eq_ok {c : Prop} [Decidable c] {e : ε} {f : Unit → Except ε β} {r : β} :
    (throwIf c e >>= f) = .ok r ↔ ¬ c ∧ f () = .ok r := by
  rw [bind_eq_ok]
  exact ⟨fun ⟨_, h, hf⟩ => ⟨throwIf_eq_ok.mp h, hf⟩, fun ⟨h, hf⟩ => ⟨(), throwIf_of_not h, hf⟩⟩

/-! ## Loops -/

/-- A checking loop succeeds exactly when the check passes on every item. -/
theorem forM_eq_ok {f : α → Except ε Unit} {l : List α} :
    forM l f = .ok () ↔ ∀ a ∈ l, f a = .ok () := by
  induction l with
  | nil => simp
  | cons a l ih =>
      rw [List.forM_cons, bind_eq_ok, List.forall_mem_cons, ← ih]
      exact ⟨fun ⟨_, h, hl⟩ => ⟨h, hl⟩, fun ⟨h, hl⟩ => ⟨(), h, hl⟩⟩

/-- A converting loop succeeds exactly when every item converts; the results come in order. -/
theorem mapM_eq_ok {f : α → Except ε β} {l : List α} {r : List β} :
    l.mapM f = .ok r ↔ List.Forall₂ (fun a b => f a = .ok b) l r := by
  induction l generalizing r with
  | nil => simp [eq_comm]
  | cons a l ih =>
      rw [List.mapM_cons, bind_eq_ok]
      constructor
      · rintro ⟨b, hb, h⟩
        obtain ⟨bs, hbs, h⟩ := bind_eq_ok.mp h
        cases h
        exact .cons hb (ih.mp hbs)
      · rintro (_ | ⟨hb, hbs⟩)
        exact ⟨_, hb, bind_eq_ok.mpr ⟨_, ih.mpr hbs, rfl⟩⟩

/-- Items that are related in pairs have a property if their partners do. -/
theorem forall_mem_iff_of_forall₂ {R : α → β → Prop} {P : α → Prop} {Q : β → Prop} {l : List α} {r : List β}
    (h : List.Forall₂ R l r) (hiff : ∀ a b, R a b → (P a ↔ Q b)) : (∀ a ∈ l, P a) ↔ ∀ b ∈ r, Q b := by
  induction h with
  | nil => simp
  | cons hR _ ih => rw [List.forall_mem_cons, List.forall_mem_cons, hiff _ _ hR, ih]

theorem exists_mem_iff_of_forall₂ {R : α → β → Prop} {P : α → Prop} {Q : β → Prop} {l : List α} {r : List β}
    (h : List.Forall₂ R l r) (hiff : ∀ a b, R a b → (P a ↔ Q b)) : (∃ a ∈ l, P a) ↔ ∃ b ∈ r, Q b := by
  have hnot := forall_mem_iff_of_forall₂ h fun a b hR => not_congr (hiff a b hR)
  simpa using not_congr hnot

theorem forall₂_trans {γ : Type} {R : α → β → Prop} {S : β → γ → Prop} {Q : α → γ → Prop} {l : List α}
    {m : List β} {r : List γ} (hQ : ∀ a b c, R a b → S b c → Q a c) (h : List.Forall₂ R l m)
    (h' : List.Forall₂ S m r) : List.Forall₂ Q l r := by
  induction h generalizing r with
  | nil =>
      cases h'
      exact .nil
  | cons hR _ ih =>
      cases h' with
      | cons hS h' => exact .cons (hQ _ _ _ hR hS) (ih h')

/-- A converting loop whose items all convert to related values succeeds. -/
theorem mapM_total {f : α → Except ε β} {R : α → β → Prop} {l : List α}
    (h : ∀ a ∈ l, ∃ b, f a = .ok b ∧ R a b) : ∃ r, l.mapM f = .ok r ∧ List.Forall₂ R l r := by
  induction l with
  | nil => exact ⟨[], rfl, .nil⟩
  | cons a l ih =>
      obtain ⟨b, hb, hR⟩ := h a List.mem_cons_self
      obtain ⟨bs, hbs, hRs⟩ := ih fun a' ha' => h a' (List.mem_cons_of_mem _ ha')
      exact ⟨b :: bs, by rw [List.mapM_cons, hb, ok_bind, hbs]; rfl, .cons hR hRs⟩

/-- Items that are all related to something are related to a list. -/
theorem exists_forall₂_iff {R : α → β → Prop} {l : List α} :
    (∃ r, List.Forall₂ R l r) ↔ ∀ a ∈ l, ∃ b, R a b := by
  induction l with
  | nil => simp
  | cons a l ih =>
      rw [List.forall_mem_cons, ← ih]
      constructor
      · rintro ⟨_, hr⟩
        cases hr with
        | cons hab hr => exact ⟨⟨_, hab⟩, _, hr⟩
      · rintro ⟨⟨b, hab⟩, r, hr⟩
        exact ⟨b :: r, .cons hab hr⟩

theorem exists_mapM_iff {f : α → Except ε β} {l : List α} :
    (∃ r, l.mapM f = .ok r) ↔ ∀ a ∈ l, ∃ b, f a = .ok b := by
  simp only [mapM_eq_ok, exists_forall₂_iff]

/-- Every result of a converting loop comes from some item. -/
theorem exists_left_of_forall₂ {R : α → β → Prop} {l : List α} {r : List β}
    (h : List.Forall₂ R l r) {b : β} (hb : b ∈ r) : ∃ a ∈ l, R a b := by
  induction h with
  | nil => cases hb
  | cons hab _ ih =>
      rcases List.mem_cons.mp hb with rfl | hb
      · exact ⟨_, List.mem_cons_self, hab⟩
      · obtain ⟨a, ha, hr⟩ := ih hb
        exact ⟨a, List.mem_cons_of_mem _ ha, hr⟩

/-- Every item of a converting loop has a result. -/
theorem exists_right_of_forall₂ {R : α → β → Prop} {l : List α} {r : List β}
    (h : List.Forall₂ R l r) {a : α} (ha : a ∈ l) : ∃ b ∈ r, R a b := by
  obtain ⟨b, hb, hr⟩ := exists_left_of_forall₂ h.flip ha
  exact ⟨b, hb, hr⟩

/-- **Loop rule (partial).** What one step keeps, a whole successful loop keeps. The invariant may
    speak of the items done so far. -/
theorem foldlM_inv {f : σ → α → Except ε σ} (Inv : List α → σ → Prop)
    (hstep : ∀ done a s s', Inv done s → f s a = .ok s' → Inv (done ++ [a]) s') {l : List α} {s r : σ}
    (hs : Inv [] s) (h : l.foldlM f s = .ok r) : Inv l r := by
  suffices ∀ todo done s, Inv done s → todo.foldlM f s = .ok r → Inv (done ++ todo) r from
    this l [] s hs h
  intro todo
  induction todo with
  | nil =>
      intro done s hs h
      cases h
      rwa [List.append_nil]
  | cons a todo ih =>
      intro done s hs h
      rw [List.foldlM_cons] at h
      obtain ⟨s', hf, hl⟩ := bind_eq_ok.mp h
      have := ih (done ++ [a]) s' (hstep done a s s' hs hf) hl
      rwa [List.append_assoc, List.singleton_append] at this

/-- One more converted item. -/
theorem forall₂_concat {R : α → β → Prop} {l : List α} {r : List β} {a : α} {b : β}
    (h : List.Forall₂ R l r) (hab : R a b) : List.Forall₂ R (l ++ [a]) (r ++ [b]) :=
  List.rel_append h (.cons hab .nil)

/-- A correspondence seen from the other side. -/
theorem forall₂_flip {R : α → β → Prop} {S : β → α → Prop} {l : List α} {r : List β}
    (hS : ∀ a ∈ l, ∀ b, R a b → S b a) (h : List.Forall₂ R l r) : List.Forall₂ S r l := by
  induction h with
  | nil => exact .nil
  | cons hab _ ih =>
      exact .cons (hS _ List.mem_cons_self _ hab) (ih fun a ha => hS a (List.mem_cons_of_mem _ ha))

/-- Items and their results that agree, agree in order. -/
theorem map_eq_map_of_forall₂ {γ : Type} {R : α → β → Prop} {f : α → γ} {g : β → γ} {l : List α} {r : List β}
    (hR : ∀ a b, R a b → f a = g b) (h : List.Forall₂ R l r) : l.map f = r.map g := by
  induction h with
  | nil => rfl
  | cons hab _ ih => rw [List.map_cons, List.map_cons, hR _ _ hab, ih]

theorem eq_map_of_forall₂ {R : α → β → Prop} {g : β → α} {l : List α} {r : List β}
    (hR : ∀ a b, R a b → a = g b) (h : List.Forall₂ R l r) : l = r.map g := by
  rw [← map_eq_map_of_forall₂ (f := id) hR h, List.map_id]

/-- What the last item is converted from. -/
theorem exists_of_forall₂_concat {R : α → β → Prop} {l : List α} {r : List β} {b : β}
    (h : List.Forall₂ R l (r ++ [b])) : ∃ l' a, l = l' ++ [a] ∧ List.Forall₂ R l' r ∧ R a b := by
  obtain ⟨a, rest, hab, hrest, hdrop⟩ := List.forall₂_cons_right_iff.mp (List.forall₂_drop_append _ _ _ h)
  cases hrest
  exact ⟨l.take r.length, a, by rw [← hdrop, List.take_append_drop], List.forall₂_take_append _ _ _ h, hab⟩

/-- **Loop rule (exact).** A loop that reads every item as some value and keeps a state that depends on
    the values read so far, as long as they are `Good` together, succeeds exactly when all items can
    be read as values that are `Good` together. -/
theorem foldlM_reads {f : σ → α → Except ε σ} {R : α → β → Prop} (Good : List β → Prop)
    (state : List β → σ) (hnil : Good []) (hpre : ∀ bs bs', Good (bs ++ bs') → Good bs)
    (hstep : ∀ done a s', Good done →
      (f (state done) a = .ok s' ↔ ∃ b, R a b ∧ Good (done ++ [b]) ∧ s' = state (done ++ [b])))
    {l : List α} {r : σ} :
    l.foldlM f (state []) = .ok r ↔ ∃ bs, List.Forall₂ R l bs ∧ Good bs ∧ r = state bs := by
  -- the state is read from the values so far, so the induction goes over what is still to do
  suffices ∀ done, Good done → (l.foldlM f (state done) = .ok r ↔
      ∃ bs, List.Forall₂ R l bs ∧ Good (done ++ bs) ∧ r = state (done ++ bs)) from this [] hnil
  induction l with
  | nil =>
      intro done hdone
      constructor
      · intro h
        cases h
        exact ⟨[], .nil, by rwa [List.append_nil], by rw [List.append_nil]⟩
      · rintro ⟨bs, hbs, _, rfl⟩
        cases hbs
        rw [List.append_nil]
        rfl
  | cons a l ih =>
      intro done hdone
      rw [List.foldlM_cons, bind_eq_ok]
      constructor
      · rintro ⟨s', hf, hl⟩
        obtain ⟨b, hab, hgood, rfl⟩ := (hstep done a s' hdone).mp hf
        obtain ⟨bs, hbs, hgood', hr⟩ := (ih _ hgood).mp hl
        rw [List.append_assoc, List.singleton_append] at hgood' hr
        exact ⟨b :: bs, .cons hab hbs, hgood', hr⟩
      · rintro ⟨_, hbs, hgood, hr⟩
        cases hbs with
        | @cons _ b _ bs hab hbs =>
            rw [← List.singleton_append, ← List.append_assoc] at hgood hr
            have hgood' := hpre _ _ hgood
            exact ⟨_, (hstep done a _ hdone).mpr ⟨b, hab, hgood', rfl⟩,
              (ih _ hgood').mpr ⟨bs, hbs, hgood, hr⟩⟩

/-- In a successful loop every item had its successful step. -/
theorem foldlM_step_of_eq_ok {f : σ → α → Except ε σ} {l : List α} {s r : σ}
    (h : l.foldlM f s = .ok r) {a : α} (ha : a ∈ l) : ∃ s₁ s₂, f s₁ a = .ok s₂ := by
  induction l generalizing s with
  | nil => cases ha
  | cons b l ih =>
      rw [List.foldlM_cons] at h
      obtain ⟨s', hf, hl⟩ := bind_eq_ok.mp h
      rcases List.mem_cons.mp ha with rfl | ha
      · exact ⟨s, s', hf⟩
      · exact ih hl ha

/-- **Loop rule (either way).** If from an invariant state every step leads to an invariant state or
    throws a `Bad` error, the loop ends in an invariant state or throws a `Bad` error. The invariant may
    speak of the items done so far. -/
theorem foldlM_either {f : σ → α → Except ε σ} (Inv : List α → σ → Prop) (Bad : ε → Prop) {l : List α}
    (hstep : ∀ done a todo s, l = done ++ a :: todo → Inv done s →
      (∃ s', f s a = .ok s' ∧ Inv (done ++ [a]) s') ∨ ∃ e, f s a = .error e ∧ Bad e)
    {s : σ} (hs : Inv [] s) :
    (∃ r, l.foldlM f s = .ok r ∧ Inv l r) ∨ ∃ e, l.foldlM f s = .error e ∧ Bad e := by
  suffices ∀ todo done s, l = done ++ todo → Inv done s →
      (∃ r, todo.foldlM f s = .ok r ∧ Inv l r) ∨ ∃ e, todo.foldlM f s = .error e ∧ Bad e from
    this l [] s rfl hs
  intro todo
  induction todo with
  | nil =>
      intro done s hl hs
      exact .inl ⟨s, rfl, by rw [hl, List.append_nil]; exact hs⟩
  | cons a todo ih =>
      intro done s hl hs
      rw [List.foldlM_cons]
      rcases hstep done a todo s hl hs with ⟨s', hf, hs'⟩ | ⟨e, hf, he⟩
      · rw [hf, ok_bind]
        exact ih (done ++ [a]) s' (by simp [hl]) hs'
      · rw [hf]
        exact .inr ⟨e, rfl, he⟩

/-- **Loop rule (total).** If from an invariant state every step succeeds and leads to an invariant
    state, the loop succeeds and ends in one. -/
theorem foldlM_total {f : σ → α → Except ε σ} (Inv : List α → σ → Prop) {l : List α}
    (hstep : ∀ done a todo s, l = done ++ a :: todo → Inv done s →
      ∃ s', f s a = .ok s' ∧ Inv (done ++ [a]) s')
    {s : σ} (hs : Inv [] s) : ∃ r, l.foldlM f s = .ok r ∧ Inv l r :=
  (foldlM_either Inv (fun _ => False) (fun done a todo s hl hI => .inl (hstep done a todo s hl hI))
    hs).resolve_right fun ⟨_, _, h⟩ => h

/-- **Loop rule (simulation).** If every step follows the step of a pure loop under `R`, the loop
    succeeds and follows the pure loop. -/
theorem foldlM_sim {τ : Type} {f : σ → α → Except ε σ} {g : τ → α → τ} (R : σ → τ → Prop)
    {l : List α} (hstep : ∀ s t a, a ∈ l → R s t → ∃ s', f s a = .ok s' ∧ R s' (g t a)) {s : σ} {t : τ}
    (hs : R s t) : ∃ r, l.foldlM f s = .ok r ∧ R r (l.foldl g t) := by
  induction l generalizing s t with
  | nil => exact ⟨s, rfl, hs⟩
  | cons a l ih =>
      obtain ⟨s', hf, hs'⟩ := hstep s t a List.mem_cons_self hs
      obtain ⟨r, hr, hR⟩ := ih (fun s t b hb => hstep s t b (List.mem_cons_of_mem _ hb)) hs'
      exact ⟨r, by rw [List.foldlM_cons, hf, ok_bind, hr], hR⟩

/-- Nested loops are one loop over all the rounds. -/
theorem foldlM_flatMap {f : σ → β → Except ε σ} {g : α → List β} {l : List α} {s : σ} :
    (l.flatMap g).foldlM f s = l.foldlM (fun s a => (g a).foldlM f s) s := by
  induction l generalizing s with
  | nil => rfl
  | cons a l ih =>
      rw [List.flatMap_cons, List.foldlM_append, List.foldlM_cons]
      exact congrArg _ (funext fun s => ih)

/-- **Loop rule (counted).** If from an invariant state every step succeeds and leads to an invariant state, so
    does the loop that counts to `n`. -/
theorem foldlM_range_total {f : σ → Nat → Except ε σ} (Inv : Nat → σ → Prop) {n : Nat}
    (hstep : ∀ j s, j < n → Inv j s → ∃ s', f s j = .ok s' ∧ Inv (j + 1) s') {s : σ} (hs : Inv 0 s) :
    ∃ r, (List.range n).foldlM f s = .ok r ∧ Inv n r := by
  induction n with
  | zero => exact ⟨s, rfl, hs⟩
  | succ n ih =>
      obtain ⟨r, hr, hInv⟩ := ih fun j s hj => hstep j s (Nat.lt_succ_of_lt hj)
      obtain ⟨r', hr', hInv'⟩ := hstep n r (Nat.lt_succ_self n) hInv
      refine ⟨r', ?_, hInv'⟩
      rw [List.range_succ, List.foldlM_append, hr, ok_bind, List.foldlM_cons, hr', ok_bind]
      rfl

/-- A loop over the indices of a list, which reads each item first, is a loop over the items. -/
theorem foldlM_range {read : Nat → Except ε β} {f : σ → β → Except ε σ} {l : List β}
    (hread : ∀ j b, l[j]? = some b → read j = .ok b) {n : Nat} (hn : n ≤ l.length) {s : σ} :
    (List.range n).foldlM (fun s j => read j >>= f s) s = (l.take n).foldlM f s := by
  induction n with
  | zero => rfl
  | succ n ih =>
      rw [List.range_succ, List.foldlM_append, ih (by omega), List.take_succ_eq_append_getElem (by omega),
        List.foldlM_append]
      refine congrArg _ (funext fun s => ?_)
      rw [List.foldlM_cons, List.foldlM_cons, hread n _ (List.getElem?_eq_getElem (by omega)), ok_bind]
      rfl

/-- A loop whose step reads its item with `parse` and then updates the state without failing (as
    long as `Inv` holds) is the converting loop followed by a pure fold: it throws exactly when, and
    what, the converting loop throws. -/
theorem foldlM_eq_mapM_foldl {f : σ → α → Except ε σ} {parse : α → Except ε β} {upd : σ → β → σ}
    (Inv : σ → Prop) (hstep : ∀ s a, Inv s → f s a = upd s <$> parse a)
    (hInv : ∀ s a b, Inv s → parse a = .ok b → Inv (upd s b)) :
    ∀ {l : List α} {s : σ}, Inv s → l.foldlM f s = (fun bs => bs.foldl upd s) <$> l.mapM parse
  | [], s, _ => rfl
  | a :: l, s, hs => by
      rw [List.foldlM_cons, List.mapM_cons, hstep s a hs]
      cases ha : parse a with
      | error e => rfl
      | ok b =>
          rw [map_ok, ok_bind, ok_bind, foldlM_eq_mapM_foldl Inv hstep hInv (hInv s a b hs ha)]
          cases l.mapM parse <;> rfl

/-- A loop that reads the same thing every round, and then updates the state without failing, might as well
    read it once before. -/
theorem foldlM_read_same {read : Except ε β} {upd : β → σ → α → σ} {l : List α} (hl : l ≠ []) {s : σ} :
    l.foldlM (fun s a => do let b ← read; .ok (upd b s a)) s = (fun b => l.foldl (upd b) s) <$> read := by
  cases read with
  | error e =>
      cases l with
      | nil => exact absurd rfl hl
      | cons a l => rfl
  | ok b => exact List.foldlM_pure

/-- A loop that keeps the items for which a condition holds, when the condition may throw. -/
def filterLoop (p : α → Except ε Bool) (l : List α) : Except ε (List α) :=
  l.foldlM (fun kept a => do let keep ← p a; .ok (if keep = true then kept ++ [a] else kept)) []

theorem filterLoop_of {p : α → Except ε Bool} {q : α → Bool} {l : List α} (h : ∀ a ∈ l, p a = .ok (q a)) :
    filterLoop p l = .ok (l.filter q) := by
  obtain ⟨r, hr, rfl⟩ := foldlM_total (fun done kept => kept = done.filter q)
    (f := fun kept a => do let keep ← p a; .ok (if keep = true then kept ++ [a] else kept)) (l := l)
    (fun done a todo kept hl hkept => by
      refine ⟨_, by rw [h a (by rw [hl]; exact List.mem_append_right _ List.mem_cons_self)]; rfl, ?_⟩
      rw [hkept, List.filter_append]
      cases hq : q a with
      | true => rw [if_pos rfl, List.filter_cons_of_pos hq]; rfl
      | false => rw [if_neg Bool.false_ne_true, List.filter_cons_of_neg (by rw [hq]; decide)]; simp)
    (s := []) rfl
  exact hr

/-- A filtering loop that succeeds has found out about every item. -/
theorem filterLoop_eq_ok {p : α → Except ε Bool} {l r : List α} (h : filterLoop p l = .ok r) :
    ∃ q : α → Bool, (∀ a ∈ l, p a = .ok (q a)) ∧ r = l.filter q := by
  have hq : ∀ a ∈ l, p a = .ok ((p a).toOption.getD false) := by
    intro a ha
    obtain ⟨_, _, hstep⟩ := foldlM_step_of_eq_ok h ha
    obtain ⟨keep, hkeep, -⟩ := bind_eq_ok.mp hstep
    rw [hkeep]
    rfl
  refine ⟨_, hq, ?_⟩
  rw [filterLoop_of hq] at h
  exact (Except.ok.inj h).symm

end Fallible
