import Mathlib.Data.Finset.Card
import Mathlib.Data.List.Perm.Basic
import Mathlib.Order.Basic
import Mathlib.Tactic.Common

/-!
# `Lib.OrdSet` — ordered sets and maps as strictly ascending lists

The iteration order of an ordered set is part of what a program observes, so a set is its list of
members in ascending order, and the ordering is a field: a set with a repeated or misplaced member
cannot be built. A map is the list of its entries in ascending order of the key.

## Contents
- **`OrdSet`**: membership, `insert`, `ofList`, `inter`, `union`, `size`; two sets with the same
  members are equal (`ext_mem`), and the cardinality shortcuts that programs use in place of set
  equality (`size_ofList_eq`, `eq_of_subset_of_size_le`).
- **`OrdMap`**: `find?`, an `insert` that keeps the entry that is already there, `ofEntries` and `fill`; two
  maps that find the same are equal (`ext_find?`).
-/

/-- A finite set that is iterated in ascending order. -/
structure OrdSet (α : Type) [LinearOrder α] where
  toList : List α
  sorted : toList.Pairwise (· < ·)

namespace OrdSet

variable {α : Type} [LinearOrder α]

instance : DecidableEq (OrdSet α) := fun s t =>
  decidable_of_iff (s.toList = t.toList) ⟨fun h => by cases s; cases t; cases h; rfl, fun h => h ▸ rfl⟩

instance : EmptyCollection (OrdSet α) := ⟨⟨[], .nil⟩⟩

instance : Membership α (OrdSet α) := ⟨fun s a => a ∈ s.toList⟩

instance (a : α) (s : OrdSet α) : Decidable (a ∈ s) := inferInstanceAs (Decidable (a ∈ s.toList))

/-- Number of members. -/
def size (s : OrdSet α) : Nat := s.toList.length

theorem mem_def {a : α} {s : OrdSet α} : a ∈ s ↔ a ∈ s.toList := Iff.rfl

@[simp] theorem not_mem_empty (a : α) : a ∉ (∅ : OrdSet α) := List.not_mem_nil

theorem nodup (s : OrdSet α) : s.toList.Nodup := s.sorted.imp fun h => ne_of_lt h

/-- A set is determined by its members. -/
theorem ext_mem {s t : OrdSet α} (h : ∀ a, a ∈ s ↔ a ∈ t) : s = t := by
  have hperm : s.toList.Perm t.toList := (List.perm_ext_iff_of_nodup s.nodup t.nodup).mpr h
  have heq : s.toList = t.toList :=
    hperm.eq_of_pairwise (fun _ _ _ _ hab hba => absurd hab (lt_asymm hba)) s.sorted t.sorted
  cases s; cases t; cases heq; rfl

/-- A set is empty exactly when nothing is in it. -/
theorem size_eq_zero {s : OrdSet α} : s.size = 0 ↔ ∀ a, a ∉ s := by
  rw [size, List.length_eq_zero_iff, List.eq_nil_iff_forall_not_mem]; exact Iff.rfl

/-! ## Insertion -/

/-- Insert into an ascending list, keeping it ascending and free of repetitions. -/
def insertAsc (a : α) : List α → List α
  | [] => [a]
  | b :: l => if a < b then a :: b :: l else if a = b then b :: l else b :: insertAsc a l

theorem mem_insertAsc {a b : α} {l : List α} : b ∈ insertAsc a l ↔ b = a ∨ b ∈ l := by
  induction l with
  | nil => simp [insertAsc]
  | cons c l ih =>
      unfold insertAsc
      split_ifs with hlt heq
      · exact List.mem_cons
      · subst heq; simp
      · simp only [List.mem_cons, ih]; tauto

theorem pairwise_insertAsc {a : α} {l : List α} (h : l.Pairwise (· < ·)) :
    (insertAsc a l).Pairwise (· < ·) := by
  induction l with
  | nil => exact List.pairwise_singleton _ _
  | cons c l ih =>
      have hc := List.pairwise_cons.mp h
      unfold insertAsc
      split_ifs with hlt heq
      · exact List.pairwise_cons.mpr ⟨fun b hb => (List.mem_cons.mp hb).elim (fun e => e ▸ hlt)
          (fun hb => hlt.trans (hc.1 b hb)), h⟩
      · exact h
      · refine List.pairwise_cons.mpr ⟨?_, ih hc.2⟩
        intro b hb
        rcases mem_insertAsc.mp hb with rfl | hb
        · exact lt_of_le_of_ne (not_lt.mp hlt) (Ne.symm heq)
        · exact hc.1 b hb

/-- Add a member (no effect when it is there already). -/
def insert (s : OrdSet α) (a : α) : OrdSet α := ⟨insertAsc a s.toList, pairwise_insertAsc s.sorted⟩

@[simp] theorem mem_insert {a b : α} {s : OrdSet α} : b ∈ s.insert a ↔ b = a ∨ b ∈ s :=
  mem_insertAsc

/-- The set of a list's items. -/
def ofList (l : List α) : OrdSet α := l.foldl insert ∅

theorem mem_foldl_insert {a : α} {l : List α} {s : OrdSet α} :
    a ∈ l.foldl insert s ↔ a ∈ s ∨ a ∈ l := by
  induction l generalizing s with
  | nil => simp
  | cons b l ih => rw [List.foldl_cons, ih, mem_insert, List.mem_cons]; tauto

@[simp] theorem mem_ofList {a : α} {l : List α} : a ∈ ofList l ↔ a ∈ l := by
  simp [ofList, mem_foldl_insert]

/-- The order in which the members were inserted leaves no trace. -/
theorem ofList_congr {l m : List α} (h : l.Perm m) : ofList l = ofList m :=
  ext_mem fun _ => by rw [mem_ofList, mem_ofList, h.mem_iff]

/-! ## Intersection and union -/

/-- Members of both sets. -/
def inter (s t : OrdSet α) : OrdSet α := ⟨s.toList.filter (· ∈ t), s.sorted.filter _⟩

/-- Members of either set. -/
def union (s t : OrdSet α) : OrdSet α := t.toList.foldl insert s

@[simp] theorem mem_inter {a : α} {s t : OrdSet α} : a ∈ s.inter t ↔ a ∈ s ∧ a ∈ t := by
  simp [inter, mem_def]

@[simp] theorem mem_union {a : α} {s t : OrdSet α} : a ∈ s.union t ↔ a ∈ s ∨ a ∈ t :=
  mem_foldl_insert

/-! ## Cardinality in place of equality -/

theorem card_toFinset (s : OrdSet α) : s.toList.toFinset.card = s.size :=
  List.toFinset_card_of_nodup s.nodup

theorem ofList_concat (l : List α) (a : α) : ofList (l ++ [a]) = (ofList l).insert a :=
  List.foldl_concat ..

/-- A set has as many members as the list it was built from exactly when nothing was repeated. -/
theorem size_ofList_eq {l : List α} : (ofList l).size = l.length ↔ l.Nodup := by
  have hset : (ofList l).toList.toFinset = l.toFinset := by
    ext a; rw [List.mem_toFinset, List.mem_toFinset]; exact mem_ofList
  rw [← card_toFinset, hset]
  exact Multiset.toFinset_card_eq_card_iff_nodup (m := (l : Multiset α))

/-- A list without repetitions is a rearrangement of its set. -/
theorem toList_ofList_perm {l : List α} (h : l.Nodup) : (ofList l).toList.Perm l :=
  (List.perm_ext_iff_of_nodup (ofList l).nodup h).mpr fun _ => mem_ofList

/-- A subset that is no smaller is the whole set. -/
theorem eq_of_subset_of_size_le {s t : OrdSet α} (h : ∀ a ∈ s, a ∈ t) (hsize : t.size ≤ s.size) :
    s = t := by
  have hsub : s.toList.toFinset ⊆ t.toList.toFinset := fun a ha =>
    List.mem_toFinset.mpr (h a (List.mem_toFinset.mp ha))
  have heq := Finset.eq_of_subset_of_card_le hsub (by rw [card_toFinset, card_toFinset]; exact hsize)
  refine ext_mem ?_
  intro a
  rw [mem_def, mem_def, ← List.mem_toFinset, heq, List.mem_toFinset]

/-- `s ∩ t` is as large as `t` exactly when `t` lies inside `s`. -/
theorem size_inter_eq_right {s t : OrdSet α} : (s.inter t).size = t.size ↔ ∀ a ∈ t, a ∈ s := by
  constructor
  · intro h a ha
    have heq := eq_of_subset_of_size_le (s := s.inter t) (t := t)
      (fun a ha => (mem_inter.mp ha).2) (le_of_eq h.symm)
    exact (mem_inter.mp (heq ▸ ha)).1
  · intro h
    rw [ext_mem (s := s.inter t) (t := t) fun a => ⟨fun ha => (mem_inter.mp ha).2,
      fun ha => mem_inter.mpr ⟨h a ha, ha⟩⟩]

end OrdSet

/-- A finite map that is iterated in ascending order of the key. -/
structure OrdMap (κ υ : Type) [LinearOrder κ] where
  entries : List (κ × υ)
  sorted : entries.Pairwise (fun a b => a.1 < b.1)

namespace OrdMap

variable {κ υ : Type} [LinearOrder κ]

instance [DecidableEq υ] : DecidableEq (OrdMap κ υ) := fun s t =>
  decidable_of_iff (s.entries = t.entries)
    ⟨fun h => by cases s; cases t; cases h; rfl, fun h => h ▸ rfl⟩

instance : EmptyCollection (OrdMap κ υ) := ⟨⟨[], .nil⟩⟩

/-- The value at a key, if there is one. -/
def find? (m : OrdMap κ υ) (k : κ) : Option υ := (m.entries.find? (·.1 = k)).map Prod.snd

/-- Number of entries. -/
def size (m : OrdMap κ υ) : Nat := m.entries.length

/-- The keys, as an ordered set. -/
def keys (m : OrdMap κ υ) : OrdSet κ := ⟨m.entries.map Prod.fst, List.pairwise_map.mpr m.sorted⟩

theorem size_keys (m : OrdMap κ υ) : m.keys.size = m.size := List.length_map _

@[simp] theorem find?_empty (k : κ) : (∅ : OrdMap κ υ).find? k = none := rfl

theorem mem_keys {m : OrdMap κ υ} {k : κ} : k ∈ m.keys ↔ ∃ v, (k, v) ∈ m.entries := by
  rw [OrdSet.mem_def]
  show k ∈ m.entries.map Prod.fst ↔ _
  simp [List.mem_map]

@[simp] theorem not_mem_keys_empty (k : κ) : k ∉ (∅ : OrdMap κ υ).keys := List.not_mem_nil

/-- Looking a key up finds exactly the entries. -/
theorem find?_eq_some {m : OrdMap κ υ} {k : κ} {v : υ} : m.find? k = some v ↔ (k, v) ∈ m.entries := by
  obtain ⟨l, hl⟩ := m
  show (l.find? (·.1 = k)).map Prod.snd = some v ↔ (k, v) ∈ l
  induction l with
  | nil => simp
  | cons e l ih =>
      obtain ⟨hhd, htl⟩ := List.pairwise_cons.mp hl
      by_cases hk : e.1 = k
      · rw [List.find?_cons_of_pos (by simpa using hk), List.mem_cons]
        constructor
        · intro h; left; rw [← hk, ← Option.some.inj h]
        · rintro (h | h)
          · rw [← h]; rfl
          · exact absurd (hhd _ h) (by simp [hk])
      · rw [List.find?_cons_of_neg (by simpa using hk), ih htl, List.mem_cons]
        refine ⟨.inr, fun h => h.resolve_left fun he => hk (by rw [← he])⟩

theorem find?_isSome {m : OrdMap κ υ} {k : κ} : (m.find? k).isSome ↔ k ∈ m.keys := by
  rw [Option.isSome_iff_exists, mem_keys]
  exact exists_congr fun _ => find?_eq_some

theorem find?_eq_none {m : OrdMap κ υ} {k : κ} : m.find? k = none ↔ k ∉ m.keys := by
  rw [← find?_isSome, Option.not_isSome_iff_eq_none]

/-- A map is determined by the values at its keys. -/
theorem ext_find? {m n : OrdMap κ υ} (h : ∀ k v, m.find? k = some v ↔ n.find? k = some v) : m = n := by
  have hmem : ∀ e, e ∈ m.entries ↔ e ∈ n.entries := by
    rintro ⟨k, v⟩
    rw [← find?_eq_some, h, find?_eq_some]
  have hnodup : ∀ o : OrdMap κ υ, o.entries.Nodup := fun o => o.sorted.imp fun h he => absurd h (by simp [he])
  have hperm : m.entries.Perm n.entries := (List.perm_ext_iff_of_nodup (hnodup m) (hnodup n)).mpr hmem
  have heq : m.entries = n.entries :=
    hperm.eq_of_pairwise (fun _ _ _ _ hab hba => absurd hab (lt_asymm hba)) m.sorted n.sorted
  cases m; cases n; cases heq; rfl

theorem nodup_keys (m : OrdMap κ υ) : (m.entries.map Prod.fst).Nodup := m.keys.nodup

/-! ## Insertion -/

/-- Insert into an ascending entry list; an entry that has the key already stays as it is. -/
def insertEntry (k : κ) (v : υ) : List (κ × υ) → List (κ × υ)
  | [] => [(k, v)]
  | e :: l =>
      if k < e.1 then (k, v) :: e :: l else if k = e.1 then e :: l else e :: insertEntry k v l

theorem mem_insertEntry {k : κ} {v : υ} {l : List (κ × υ)} {e : κ × υ} :
    e ∈ insertEntry k v l → e = (k, v) ∨ e ∈ l := by
  induction l with
  | nil => simp [insertEntry]
  | cons c l ih =>
      unfold insertEntry
      split_ifs
      · exact List.mem_cons.mp
      · exact .inr
      · rw [List.mem_cons, List.mem_cons]; tauto

theorem pairwise_insertEntry {k : κ} {v : υ} {l : List (κ × υ)}
    (h : l.Pairwise (fun a b => a.1 < b.1)) :
    (insertEntry k v l).Pairwise (fun a b => a.1 < b.1) := by
  induction l with
  | nil => exact List.pairwise_singleton _ _
  | cons c l ih =>
      have hc := List.pairwise_cons.mp h
      unfold insertEntry
      split_ifs with hlt heq
      · exact List.pairwise_cons.mpr ⟨fun b hb => (List.mem_cons.mp hb).elim (fun e => e ▸ hlt)
          (fun hb => lt_trans hlt (hc.1 b hb)), h⟩
      · exact h
      · refine List.pairwise_cons.mpr ⟨?_, ih hc.2⟩
        intro b hb
        rcases mem_insertEntry hb with rfl | hb
        · exact lt_of_le_of_ne (not_lt.mp hlt) (Ne.symm heq)
        · exact hc.1 b hb

/-- Add an entry; a key that is there already keeps its value. -/
def insert (m : OrdMap κ υ) (k : κ) (v : υ) : OrdMap κ υ :=
  ⟨insertEntry k v m.entries, pairwise_insertEntry m.sorted⟩

theorem find?_insertEntry {k k' : κ} {v : υ} {l : List (κ × υ)} :
    (l.Pairwise fun a b => a.1 < b.1) →
    ((insertEntry k v l).find? (·.1 = k')).map Prod.snd
      = if k' = k then some (((l.find? (·.1 = k)).map Prod.snd).getD v)
        else (l.find? (·.1 = k')).map Prod.snd := by
  induction l with
  | nil =>
      intro _
      by_cases hk : k' = k
      · subst hk; simp [insertEntry]
      · simp [insertEntry, hk, Ne.symm hk]
  | cons c l ih =>
      intro h
      obtain ⟨hhd, htl⟩ := List.pairwise_cons.mp h
      rcases lt_trichotomy k c.1 with hlt | heq | hgt
      · -- the new entry comes first: `k` occurs nowhere in the old list
        -- the list is sorted, so all its keys are greater
        have hnone : (c :: l).find? (·.1 = k) = none := by
          rw [List.find?_eq_none]
          intro e he
          rcases List.mem_cons.mp he with rfl | he
          · simpa using ne_of_gt hlt
          · simpa using ne_of_gt (hlt.trans (hhd e he))
        rw [insertEntry, if_pos hlt, hnone]
        by_cases hk : k' = k
        · subst hk; simp
        · rw [if_neg hk, List.find?_cons_of_neg (by simpa using Ne.symm hk)]
      · rw [insertEntry, if_neg (by simp [heq]), if_pos heq]
        by_cases hk : k' = k
        · subst hk; simp [heq]
        · rw [if_neg hk]
      · -- the entry goes into the rest of the list
        have hne : ¬ k = c.1 := ne_of_gt hgt
        have hfind : (c :: l).find? (fun e => decide (e.1 = k)) = l.find? (fun e => decide (e.1 = k)) :=
          List.find?_cons_of_neg (by simpa using Ne.symm hne)
        rw [insertEntry, if_neg (lt_asymm hgt), if_neg hne, hfind]
        by_cases hc : c.1 = k'
        · have hk : k' ≠ k := fun e => hne (by rw [hc, e])
          rw [List.find?_cons_of_pos (by simpa using hc), List.find?_cons_of_pos (by simpa using hc),
            if_neg hk]
        · rw [List.find?_cons_of_neg (by simpa using hc), List.find?_cons_of_neg (by simpa using hc),
            ih htl]

/-- After an insertion the key has a value (the old one if there was one); the others keep theirs. -/
theorem find?_insert (m : OrdMap κ υ) (k k' : κ) (v : υ) :
    (m.insert k v).find? k' = if k' = k then some ((m.find? k).getD v) else m.find? k' :=
  find?_insertEntry m.sorted

theorem find?_insert_of_not_mem {m : OrdMap κ υ} {k : κ} (h : k ∉ m.keys) (k' : κ) (v : υ) :
    (m.insert k v).find? k' = if k' = k then some v else m.find? k' := by
  rw [find?_insert, find?_eq_none.mpr h, Option.getD_none]

theorem mem_keys_insert {m : OrdMap κ υ} {k k' : κ} {v : υ} :
    k' ∈ (m.insert k v).keys ↔ k' = k ∨ k' ∈ m.keys := by
  rw [← find?_isSome, ← find?_isSome, find?_insert]
  split_ifs with h <;> simp [h]

theorem keys_insert (m : OrdMap κ υ) (k : κ) (v : υ) : (m.insert k v).keys = m.keys.insert k :=
  OrdSet.ext_mem fun _ => by rw [mem_keys_insert, OrdSet.mem_insert]

/-! ## Modification -/

/-- Change the value of a key, if there is one. -/
def modify (m : OrdMap κ υ) (k : κ) (f : υ → υ) : OrdMap κ υ where
  entries := m.entries.map fun e => if e.1 = k then (e.1, f e.2) else e
  sorted := List.pairwise_map.mpr <| m.sorted.imp fun {a b} h => by
    split_ifs <;> exact h

@[simp] theorem keys_modify (m : OrdMap κ υ) (k : κ) (f : υ → υ) : (m.modify k f).keys = m.keys := by
  refine OrdSet.ext_mem ?_
  intro k'
  rw [OrdSet.mem_def, OrdSet.mem_def]
  show k' ∈ (m.entries.map _).map Prod.fst ↔ k' ∈ m.entries.map Prod.fst
  rw [List.map_map]
  refine iff_of_eq (congrArg (k' ∈ ·) (List.map_congr_left ?_))
  intro e _
  show (if e.1 = k then (e.1, f e.2) else e).1 = e.1
  split_ifs <;> rfl

theorem find?_modify (m : OrdMap κ υ) (k k' : κ) (f : υ → υ) :
    (m.modify k f).find? k' = if k' = k then (m.find? k').map f else m.find? k' := by
  show ((m.entries.map _).find? (·.1 = k')).map Prod.snd = _
  unfold find?
  induction m.entries with
  | nil => simp
  | cons e l ih =>
      have hkey : (if e.1 = k then (e.1, f e.2) else e).1 = e.1 := by split_ifs <;> rfl
      rw [List.map_cons]
      by_cases hk : e.1 = k'
      · rw [List.find?_cons_of_pos (by simpa [hkey] using hk), List.find?_cons_of_pos (by simpa using hk)]
        by_cases hkk : e.1 = k
        · rw [if_pos hkk, if_pos (hk.symm.trans hkk)]
          rfl
        · rw [if_neg hkk, if_neg fun h => hkk (hk.trans h)]
      · rw [List.find?_cons_of_neg (by simpa [hkey] using hk), List.find?_cons_of_neg (by simpa using hk), ih]

/-! ## From a list of entries -/

/-- The map of a list of entries, inserted in order. -/
def ofEntries (l : List (κ × υ)) : OrdMap κ υ := l.foldl (fun m e => m.insert e.1 e.2) ∅

theorem ofEntries_concat (l : List (κ × υ)) (e : κ × υ) :
    ofEntries (l ++ [e]) = (ofEntries l).insert e.1 e.2 := List.foldl_concat ..

theorem keys_ofEntries (l : List (κ × υ)) : (ofEntries l).keys = OrdSet.ofList (l.map Prod.fst) := by
  induction l using List.reverseRecOn with
  | nil => rfl
  | append_singleton l e ih =>
      rw [ofEntries_concat, keys_insert, ih, List.map_append, List.map_singleton,
        OrdSet.ofList_concat]

/-- A map from entries holds only entries. -/
theorem mem_of_find?_ofEntries {l : List (κ × υ)} {k : κ} {v : υ} :
    (ofEntries l).find? k = some v → (k, v) ∈ l := by
  induction l using List.reverseRecOn with
  | nil => exact fun h => nomatch h
  | append_singleton l e ih =>
      rw [ofEntries_concat, find?_insert]
      intro h
      by_cases hk : k = e.1
      · rw [if_pos hk] at h
        cases hold : (ofEntries l).find? e.1 with
        | none =>
            rw [hold] at h
            obtain rfl := Option.some.inj h
            exact List.mem_append_right _ (List.mem_singleton.mpr (by rw [hk]; rfl))
        | some v' =>
            rw [hold] at h
            exact List.mem_append_left _ (ih (by rw [hk, hold]; exact h))
      · rw [if_neg hk] at h
        exact List.mem_append_left _ (ih h)

/-- Without repeated keys, the entries of the map are those of the list. -/
theorem find?_ofEntries {l : List (κ × υ)} (h : (l.map Prod.fst).Nodup) {k : κ} {v : υ} :
    (ofEntries l).find? k = some v ↔ (k, v) ∈ l := by
  induction l using List.reverseRecOn with
  | nil => simp [ofEntries]
  | append_singleton l e ih =>
      obtain ⟨k₀, v₀⟩ := e
      rw [List.map_append, List.map_singleton] at h
      obtain ⟨hl, _, hdisj⟩ := List.nodup_append.mp h
      have hnew : k₀ ∉ l.map Prod.fst := fun hk => hdisj _ hk _ (List.mem_singleton.mpr rfl) rfl
      have hnone : (ofEntries l).find? k₀ = none := by
        rw [find?_eq_none, keys_ofEntries, OrdSet.mem_ofList]
        exact hnew
      rw [ofEntries_concat, find?_insert, List.mem_append, List.mem_singleton, Prod.mk.injEq]
      by_cases hk : k = k₀
      · subst hk
        have hnot : (k, v) ∉ l := fun hm => hnew (List.mem_map_of_mem hm)
        simp [hnone, hnot, eq_comm]
      · rw [if_neg hk, ih hl]
        simp [hk]

/-- A map is that of its entries, in whatever order they are inserted. -/
theorem ofEntries_eq_of_perm {l : List (κ × υ)} {m : OrdMap κ υ} (h : l.Perm m.entries) : ofEntries l = m := by
  refine ext_find? ?_
  intro k v
  rw [find?_ofEntries ((h.map Prod.fst).nodup_iff.mpr m.nodup_keys), h.mem_iff, find?_eq_some]

/-- One more entry repeats no key exactly when its key is not there yet. -/
theorem nodup_concat_iff {l : List (κ × υ)} {e : κ × υ} :
    ((l ++ [e]).map Prod.fst).Nodup ↔ (l.map Prod.fst).Nodup ∧ ¬ ((ofEntries l).find? e.1).isSome = true := by
  rw [find?_isSome, keys_ofEntries, OrdSet.mem_ofList, List.map_append, List.map_singleton, ← List.concat_eq_append,
    List.nodup_concat]
  exact and_comm

/-! ## One value for all keys -/

/-- The map that gives the value to all the keys. -/
def fill (l : List κ) (v : υ) : OrdMap κ υ := l.foldl (fun m k => m.insert k v) ∅

theorem fill_concat (l : List κ) (k : κ) (v : υ) : fill (l ++ [k]) v = (fill l v).insert k v := List.foldl_concat ..

theorem find?_fill {l : List κ} {k : κ} {v : υ} : (fill l v).find? k = if k ∈ l then some v else none := by
  induction l using List.reverseRecOn with
  | nil => rfl
  | append_singleton l a ih =>
      rw [fill_concat, find?_insert, ih]
      by_cases hk : k = a
      · subst hk
        by_cases hmem : k ∈ l
        · rw [if_pos rfl, ih, if_pos hmem, if_pos (List.mem_append_left _ hmem), Option.getD_some]
        · rw [if_pos rfl, ih, if_neg hmem, if_pos (by simp), Option.getD_none]
      · rw [if_neg hk]
        simp only [List.mem_append, List.mem_singleton, hk, or_false]

theorem mem_keys_fill {l : List κ} {k : κ} {v : υ} : k ∈ (fill l v).keys ↔ k ∈ l := by
  rw [← find?_isSome, find?_fill]
  split_ifs with h <;> simp [h]

theorem eq_of_find?_fill {l : List κ} {k : κ} {v w : υ} (h : (fill l v).find? k = some w) : v = w := by
  rw [find?_fill] at h
  split_ifs at h
  exact Option.some.inj h

/-- Neither the order of the keys nor their repetition matters. -/
theorem fill_congr {l l' : List κ} (h : ∀ k, k ∈ l ↔ k ∈ l') (v : υ) : fill l v = fill l' v := by
  refine ext_find? ?_
  intro k w
  rw [find?_fill, find?_fill]
  simp only [h]

end OrdMap
