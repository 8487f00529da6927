import BasicSim.Core.Correctness.LinkProperties
import BasicSim.Lib.Padding

/-!
# `Core.Correctness.Literals` — parsing a set, list or map literal undoes rendering it

A literal is rendered with commas between its pieces and white space anywhere around items, keys and values.
What is parsed is what was rendered; texts that are not encased, and literals that repeat an item or a key, are
not parsed.

## Contents
- **Rendering.** `Padded`, `IsPlain`, `Renders`.
- **Parsing.** `Renders.isLiteral`, `Renders.isMapLiteral`.
- **Rejection.** `Throws`, `OnlyThrows`, `IsEncased`, `trimmedItems`, `trimmedKeys`.
- **Main result.** `SetsRoundTrip`, `ListsRoundTrip`, `MapsRoundTrip`, `literals_round_trip`.
-/

namespace BasicSim

open Fallible Padding

/-! ## Rendering -/

/-- The text with white space around it. -/
abbrev Padded (x padded : Str) : Prop := IsPadded isWhitespace x padded

/-- A trimmed text that does not hold these characters. -/
structure IsPlain (forbidden : List Char) (x : Str) : Prop where
  trimmed : trim x = x
  clean : ∀ c ∈ forbidden, c ∉ x

/-- A key and a value of a map literal, with a colon between them. -/
def RendersEntry (entry : Str × Str) (piece : Str) : Prop :=
  ∃ key value, Padded entry.1 key ∧ Padded entry.2 value ∧ piece = key ++ ':' :: value

/-- `value` is the literal `opening … )` of pieces that render these items. -/
def Renders {α : Type} (RendersItem : α → Str → Prop) (opening : Str) (items : List α) (value : Str) : Prop :=
  ∃ inside pieces, value = opening ++ inside ++ [')'] ∧ List.Forall₂ RendersItem items pieces ∧
    Joins isWhitespace ',' pieces inside

section Parsing

variable {opening value : Str} {x padded : Str} {forbidden : List Char}

theorem trim_eq_strip (s : Str) : trim s = strip isWhitespace s := rfl

theorem IsPlain.trim_padded (hx : IsPlain forbidden x) (h : Padded x padded) : trim padded = x :=
  h.strip_eq.trans hx.trimmed

/-- White space brings in no other characters. -/
theorem IsPlain.not_mem_padded (hx : IsPlain forbidden x) (h : Padded x padded) {c : Char}
    (hc : c ∈ forbidden) (hw : isWhitespace c = false) : c ∉ padded := by
  rw [h.mem_iff hw]
  exact hx.clean c hc

/-- Only white space is trimmed to nothing. -/
theorem IsPlain.not_isBlank_padded (hx : IsPlain forbidden x) (h : Padded x padded) (hne : x ≠ []) :
    ¬ IsBlank isWhitespace padded := by
  rw [← strip_eq_nil_iff, ← trim_eq_strip, hx.trim_padded h]
  exact hne

/-! ## Parsing -/

/-- The pieces are trimmed to the items, and hold no comma. -/
theorem trim_pieces {items pieces : List Str} (h : List.Forall₂ Padded items pieces)
    (hitems : ∀ x ∈ items, IsPlain [','] x) : pieces.map trim = items ∧ ∀ p ∈ pieces, ',' ∉ p := by
  constructor
  · rw [← List.forall₂_eq_eq_eq, List.forall₂_map_left_iff]
    refine forall₂_flip ?_ h
    intro x hx padded hpadded
    exact (hitems x hx).trim_padded hpadded
  · intro p hp
    obtain ⟨x, hx, hpadded⟩ := exists_left_of_forall₂ h hp
    exact (hitems x hx).not_mem_padded hpadded List.mem_cons_self (by decide)

theorem pieces_ne_nil {α : Type} {R : α → Str → Prop} {items : List α} {pieces : List Str}
    (h : List.Forall₂ R items pieces) (hne : items ≠ []) : pieces ≠ [] := by
  rintro rfl
  cases h
  exact hne rfl

/-- A rendered set or list literal spells out its items, if they are not a single empty one. -/
theorem Renders.isLiteral {items : List Str} (h : Renders Padded opening items value)
    (hitems : ∀ x ∈ items, IsPlain [','] x) (hone : items ≠ [[]]) : IsLiteral opening value items := by
  obtain ⟨inside, pieces, rfl, hpieces, hjoins⟩ := h
  refine ⟨inside, rfl, ?_⟩
  rcases eq_or_ne items [] with rfl | hne
  · cases hpieces
    have hblank : trim inside = [] := strip_eq_nil_iff.mpr (hjoins.nil rfl)
    rw [if_pos hblank]
  · obtain ⟨htrim, hcomma⟩ := trim_pieces hpieces hitems
    have hne' := pieces_ne_nil hpieces hne
    have hnonblank : ¬ trim inside = [] := by
      rw [trim_eq_strip, strip_eq_nil_iff]
      refine hjoins.not_isBlank hne' (by decide) ?_
      rintro p rfl
      obtain ⟨x, rest, hpadded, hrest, rfl⟩ := List.forall₂_cons_right_iff.mp hpieces
      cases hrest
      exact (hitems x List.mem_cons_self).not_isBlank_padded hpadded fun hx => hone (by rw [hx])
    rw [if_neg hnonblank, hjoins.splitOn_eq hne' hcomma, htrim]

/-- A rendered entry is split at its only colon. -/
theorem RendersEntry.isMapEntry {entry : Str × Str} {piece : Str} (h : RendersEntry entry piece)
    (hkey : IsPlain [',', ':'] entry.1) (hvalue : IsPlain [',', ':'] entry.2) :
    IsMapEntry piece entry ∧ ',' ∉ piece := by
  obtain ⟨key, value, hk, hv, rfl⟩ := h
  have hkcolon := hkey.not_mem_padded hk (c := ':') (by simp) (by decide)
  have hvcolon := hvalue.not_mem_padded hv (c := ':') (by simp) (by decide)
  constructor
  · refine ⟨key, value, ?_, ?_⟩
    · rw [List.splitOn_append_cons_self_of_not_mem hkcolon, List.splitOn_eq_singleton hvcolon]
    · rw [hkey.trim_padded hk, hvalue.trim_padded hv]
  · simp only [List.mem_append, List.mem_cons, not_or]
    exact ⟨hkey.not_mem_padded hk (by simp) (by decide), by decide,
      hvalue.not_mem_padded hv (by simp) (by decide)⟩

/-- A rendered map literal has the entries. -/
theorem Renders.isMapLiteral {entries : List (Str × Str)} (h : Renders RendersEntry "map(".toList entries value)
    (hentries : ∀ e ∈ entries, IsPlain [',', ':'] e.1 ∧ IsPlain [',', ':'] e.2) : IsMapLiteral value entries := by
  obtain ⟨inside, pieces, rfl, hpieces, hjoins⟩ := h
  refine ⟨inside, rfl, ?_⟩
  rcases eq_or_ne entries [] with rfl | hne
  · cases hpieces
    have hblank : trim inside = [] := strip_eq_nil_iff.mpr (hjoins.nil rfl)
    rw [if_pos hblank]
  · have hread : List.Forall₂ (fun piece entry => IsMapEntry piece entry ∧ ',' ∉ piece) pieces entries := by
      refine forall₂_flip ?_ hpieces
      intro entry hentry piece hrenders
      exact hrenders.isMapEntry (hentries entry hentry).1 (hentries entry hentry).2
    have hne' := pieces_ne_nil hpieces hne
    have hnonblank : ¬ trim inside = [] := by
      rw [trim_eq_strip, strip_eq_nil_iff]
      refine hjoins.not_isBlank hne' (by decide) ?_
      rintro p rfl hblank
      obtain ⟨e, rest, ⟨key, value, -, -, rfl⟩, -, -⟩ := List.forall₂_cons_right_iff.mp hpieces
      have hcolon := hblank ':' (by simp)
      revert hcolon
      decide
    rw [if_neg hnonblank, hjoins.splitOn_eq hne' ?_]
    · exact hread.imp fun _ _ h => h.1
    · intro p hp
      obtain ⟨_, _, hp⟩ := exists_right_of_forall₂ hread hp
      exact hp.2

end Parsing

/-! ## Rejection -/

/-- An exception of the standard library. -/
def Exc.IsException : Exc → Prop
  | .invalidArgument _ | .runtimeError _ | .outOfRange _ => True
  | .abort _ | .assertion _ | .undefined _ => False

def Throws {α : Type} (x : Except Exc α) : Prop := ∃ e, x = .error e ∧ e.IsException

/-- Nothing can go wrong but that an exception is thrown. -/
def OnlyThrows {α : Type} (x : Except Exc α) : Prop := ∀ e, x = .error e → e.IsException

section OnlyThrows

variable {α β σ : Type} {x : Except Exc α}

theorem OnlyThrows.throws (hx : OnlyThrows x) (h : ∀ a, x ≠ .ok a) : Throws x := by
  cases hrun : x with
  | error e => exact ⟨e, rfl, hx e hrun⟩
  | ok a => exact absurd hrun (h a)

theorem onlyThrows_ok (a : α) : OnlyThrows (.ok a : Except Exc α) := fun _ h => nomatch h

theorem onlyThrows_throwIf {c : Prop} [Decidable c] {e : Exc} (he : e.IsException) : OnlyThrows (throwIf c e) := by
  intro e' h
  unfold throwIf at h
  split at h
  · cases h
    exact he
  · cases h

theorem onlyThrows_invalidArgument {c : Prop} [Decidable c] (what : String) :
    OnlyThrows (throwIf c (.invalidArgument what)) := onlyThrows_throwIf trivial

theorem OnlyThrows.bind {f : α → Except Exc β} (hx : OnlyThrows x) (hf : ∀ a, x = .ok a → OnlyThrows (f a)) :
    OnlyThrows (x >>= f) := by
  intro e h
  rcases bind_eq_error.mp h with h | ⟨a, ha, h⟩
  · exact hx e h
  · exact hf a ha e h

theorem onlyThrows_foldlM {f : σ → α → Except Exc σ} (hf : ∀ s a, OnlyThrows (f s a)) (l : List α) (s : σ) :
    OnlyThrows (l.foldlM f s) := by
  induction l generalizing s with
  | nil => exact onlyThrows_ok s
  | cons a l ih => exact (hf s a).bind fun s' _ => ih s'

theorem onlyThrows_splitString {delimiter : Str} (hd : delimiter ≠ []) (line : Str) :
    OnlyThrows (splitString line delimiter) := by
  obtain ⟨pieces, hpieces⟩ := exists_splits hd line
  rw [(splitString_eq_ok hd).mpr hpieces]
  exact onlyThrows_ok pieces

theorem onlyThrows_splitStringExpected {delimiter : Str} (hd : delimiter ≠ []) (line : Str) (expected : Nat) :
    OnlyThrows (splitStringExpected line delimiter expected) :=
  (onlyThrows_splitString hd line).bind fun _ _ =>
    (onlyThrows_invalidArgument _).bind fun _ _ => onlyThrows_ok _

theorem onlyThrows_vectorAt (v : List α) (i : Int) : OnlyThrows (vectorAt v i) := by
  intro e h
  unfold vectorAt at h
  split at h
  · split at h <;> cases h
    trivial
  · cases h
    trivial

theorem onlyThrows_literalItems (kind : String) (opening value : Str) :
    OnlyThrows (literalItems kind opening value) := by
  refine ((onlyThrows_invalidArgument _).bind fun _ _ => onlyThrows_ok _).bind fun inside _ => ?_
  split
  · exact onlyThrows_ok _
  · exact (onlyThrows_splitString (by decide) inside).bind fun _ _ => onlyThrows_ok _

theorem onlyThrows_parseSetString (value : Str) : OnlyThrows (parseSetString value) :=
  (onlyThrows_literalItems _ _ value).bind fun _ _ =>
    (onlyThrows_invalidArgument _).bind fun _ _ => onlyThrows_ok _

theorem onlyThrows_parseMapEntry (piece : Str) : OnlyThrows (parseMapEntry piece) :=
  (onlyThrows_splitStringExpected (by decide) piece 2).bind fun _ _ =>
    (onlyThrows_vectorAt _ _).bind fun _ _ => (onlyThrows_vectorAt _ _).bind fun _ _ => onlyThrows_ok _

theorem onlyThrows_parseMapString (value : Str) : OnlyThrows (parseMapString value) := by
  refine ((onlyThrows_invalidArgument _).bind fun _ _ => onlyThrows_ok _).bind fun inside _ => ?_
  split
  · exact onlyThrows_ok _
  · refine (onlyThrows_splitString (by decide) inside).bind fun pieces _ => ?_
    refine (onlyThrows_foldlM ?_ pieces _).bind fun _ _ => onlyThrows_ok _
    intro st piece
    exact (onlyThrows_parseMapEntry piece).bind fun _ _ =>
      (onlyThrows_invalidArgument _).bind fun _ _ => onlyThrows_ok _

end OnlyThrows

/-- The text stands between `opening` and a closing parenthesis. -/
def IsEncased (opening value : Str) : Prop := ∃ inside, value = opening ++ inside ++ [')']

/-- The trimmed pieces between the commas. -/
def trimmedItems (inside : Str) : List Str := (inside.splitOn ',').map trim

/-- The trimmed keys: what stands before the first colon of each piece. -/
def trimmedKeys (inside : Str) : List Str :=
  (inside.splitOn ',').map fun piece => trim ((piece.splitOn ':').headD [])

section Rejection

variable {value inside : Str}

/-- A blank inside has no comma, so it is one piece. -/
theorem splitOn_comma_of_blank (h : trim inside = []) : inside.splitOn ',' = [inside] := by
  refine List.splitOn_eq_singleton ?_
  intro hmem
  have hcomma := strip_eq_nil_iff.mp h ',' hmem
  revert hcomma
  decide

theorem nodup_trimmedItems {items : List Str} (hitems : items.Nodup)
    (h : IsLiteral "set(".toList ("set(".toList ++ inside ++ [')']) items) : (trimmedItems inside).Nodup := by
  have hlit : IsLiteral "set(".toList ("set(".toList ++ inside ++ [')'])
    (if trim inside = [] then [] else (inside.splitOn ',').map trim) := ⟨inside, rfl, rfl⟩
  have heq := h.unique hlit
  by_cases hblank : trim inside = []
  · rw [trimmedItems, splitOn_comma_of_blank hblank]
    exact List.nodup_singleton _
  · rw [if_neg hblank] at heq
    rw [trimmedItems, ← heq]
    exact hitems

theorem nodup_trimmedKeys {entries : List (Str × Str)} (hkeys : (entries.map Prod.fst).Nodup)
    (h : IsMapLiteral ("map(".toList ++ inside ++ [')']) entries) : (trimmedKeys inside).Nodup := by
  obtain ⟨inside', heq, hentries⟩ := h
  rw [List.append_assoc, List.append_assoc] at heq
  obtain rfl := List.append_cancel_right (List.append_cancel_left heq)
  by_cases hblank : trim inside = []
  · rw [trimmedKeys, splitOn_comma_of_blank hblank]
    exact List.nodup_singleton _
  · rw [if_neg hblank] at hentries
    have hkeys' : trimmedKeys inside = entries.map Prod.fst := by
      refine map_eq_map_of_forall₂ ?_ hentries
      rintro piece entry ⟨l, r, hsplit, rfl⟩
      rw [hsplit]
      rfl
    rw [hkeys']
    exact hkeys

end Rejection

/-! ## Main result -/

/-- **Sets.** -/
structure SetsRoundTrip : Prop where
  parses : ∀ (s : OrdSet Str) (items : List Str) (value : Str), items.Perm s.toList →
    (∀ x ∈ items, IsPlain [','] x ∧ x ≠ []) → Renders Padded "set(".toList items value →
    parseSetString value = .ok s
  not_encased : ∀ value, ¬ IsEncased "set(".toList value → Throws (parseSetString value)
  repeated : ∀ inside, ¬ (trimmedItems inside).Nodup →
    Throws (parseSetString ("set(".toList ++ inside ++ [')']))

/-- **Lists.** -/
structure ListsRoundTrip : Prop where
  parses : ∀ (items : List Str) (value : Str), items ≠ [[]] → (∀ x ∈ items, IsPlain [','] x) →
    Renders Padded "list(".toList items value → parseListString value = .ok items
  not_encased : ∀ value, ¬ IsEncased "list(".toList value → Throws (parseListString value)

/-- **Maps.** -/
structure MapsRoundTrip : Prop where
  parses : ∀ (entries : List (Str × Str)) (value : Str), (entries.map Prod.fst).Nodup →
    (∀ e ∈ entries, IsPlain [',', ':'] e.1 ∧ IsPlain [',', ':'] e.2) →
    Renders RendersEntry "map(".toList entries value → parseMapString value = .ok entries
  not_encased : ∀ value, ¬ IsEncased "map(".toList value → Throws (parseMapString value)
  repeated : ∀ inside, ¬ (trimmedKeys inside).Nodup →
    Throws (parseMapString ("map(".toList ++ inside ++ [')']))

theorem setsRoundTrip : SetsRoundTrip := by
  refine ⟨?_, ?_, ?_⟩
  · intro s items value hperm hitems hrenders
    have hnodup : items.Nodup := hperm.nodup_iff.mpr s.nodup
    have hone : items ≠ [[]] := by
      rintro rfl
      exact (hitems [] List.mem_cons_self).2 rfl
    refine parseSetString_eq_ok.mpr ⟨items, hrenders.isLiteral (fun x hx => (hitems x hx).1) hone, hnodup, ?_⟩
    refine OrdSet.ext_mem fun x => ?_
    rw [OrdSet.mem_ofList, hperm.mem_iff]
    rfl
  · intro value hencased
    refine (onlyThrows_parseSetString _).throws ?_
    intro s hs
    obtain ⟨items, ⟨inside, rfl, -⟩, -⟩ := parseSetString_eq_ok.mp hs
    exact hencased ⟨inside, rfl⟩
  · intro inside hrepeated
    refine (onlyThrows_parseSetString _).throws ?_
    intro s hs
    obtain ⟨items, hlit, hnodup, -⟩ := parseSetString_eq_ok.mp hs
    exact hrepeated (nodup_trimmedItems hnodup hlit)

theorem listsRoundTrip : ListsRoundTrip := by
  refine ⟨?_, ?_⟩
  · intro items value hone hitems hrenders
    exact (literalItems_eq_ok (by decide)).mpr (hrenders.isLiteral hitems hone)
  · intro value hencased
    refine (onlyThrows_literalItems _ _ _).throws ?_
    intro items hparse
    obtain ⟨inside, rfl, -⟩ := (literalItems_eq_ok (by decide)).mp hparse
    exact hencased ⟨inside, rfl⟩

theorem mapsRoundTrip : MapsRoundTrip := by
  refine ⟨?_, ?_, ?_⟩
  · intro entries value hkeys hentries hrenders
    exact parseMapString_eq_ok.mpr ⟨hrenders.isMapLiteral hentries, hkeys⟩
  · intro value hencased
    refine (onlyThrows_parseMapString _).throws ?_
    intro entries hparse
    obtain ⟨⟨inside, rfl, -⟩, -⟩ := parseMapString_eq_ok.mp hparse
    exact hencased ⟨inside, rfl⟩
  · intro inside hrepeated
    refine (onlyThrows_parseMapString _).throws ?_
    intro entries hparse
    obtain ⟨hlit, hkeys⟩ := parseMapString_eq_ok.mp hparse
    exact hrepeated (nodup_trimmedKeys hkeys hlit)

/-- **Parsing of set, list and map literals undoes rendering.** -/
theorem literals_round_trip : SetsRoundTrip ∧ ListsRoundTrip ∧ MapsRoundTrip :=
  ⟨setsRoundTrip, listsRoundTrip, mapsRoundTrip⟩

end BasicSim
