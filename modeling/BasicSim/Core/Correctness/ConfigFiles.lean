import BasicSim.Core.Correctness.Literals
import Mathlib.Data.List.ReduceOption

/-!
# `Core.Correctness.ConfigFiles` — reading a configuration undoes rendering it

A line of a configuration file says nothing (it is blank, or a comment) or gives a value to a key. `IsLine` puts
what a line says, `RendersLine` the ways to write it, and every way to write it is read back.

## Contents
- **Reading.** `IsLine`; `readConfig` accepts exactly the files whose lines give pairwise different keys a value
  (`readConfig_eq_ok`).
- **Quotes.** `removeQuotes_quoted`, `removeQuotes_eq_self`.
- **Rendering.** `RendersLine`, `RendersConfig`, and that it is read back (`readConfig_of_renders`).
- **Main result.** `ConfigsRoundTrip`, `configs_round_trip`.
-/

namespace BasicSim

open Fallible Padding

/-! ## Reading -/

/-- The line is blank, or a comment. -/
abbrev SaysNothing (line : Str) : Prop := trim line = [] ∨ line.head? = some '#'

/-- What a line of a configuration file says. -/
inductive IsLine : Str → Option (Str × Str) → Prop where
  | nothing {line : Str} (h : SaysNothing line) : IsLine line none
  | setting {line l r : Str} (h : ¬ SaysNothing line) (hsplit : line.splitOn '=' = [l, r]) :
      IsLine line (some (trim l, removeStartEndDoubleQuoteIfPresent (trim r)))

/-- The keys that are given a value, line by line: what stands before the first `=`, trimmed. -/
def lineKeys (text : Str) : List Str :=
  ((getlines text).filter fun line => ¬ SaysNothing line).map fun line => trim ((line.splitOn '=').headD [])

theorem reduceOption_concat_none {α : Type} (l : List (Option α)) :
    (l ++ [none]).reduceOption = l.reduceOption := by
  rw [List.reduceOption_append, List.reduceOption_cons_of_none, List.reduceOption_nil, List.append_nil]

theorem reduceOption_concat_some {α : Type} (l : List (Option α)) (a : α) :
    (l ++ [some a]).reduceOption = l.reduceOption ++ [a] := by
  rw [List.reduceOption_append, List.reduceOption_cons_of_some, List.reduceOption_nil]

/-- **`read_config` accepts exactly the files whose lines give pairwise different keys a value.** -/
theorem readConfig_eq_ok {filename text : Str} {config : Config} :
    readConfig filename (.content text) = .ok config ↔
      ∃ said, List.Forall₂ IsLine (getlines text) said ∧ (said.reduceOption.map Prod.fst).Nodup ∧
        config = OrdMap.ofEntries said.reduceOption := by
  refine foldlM_reads (R := IsLine) (fun said => (said.reduceOption.map Prod.fst).Nodup)
    (fun said => OrdMap.ofEntries said.reduceOption) List.nodup_nil ?_ ?_
  · intro bs bs' h
    rw [List.reduceOption_append, List.map_append] at h
    exact (List.nodup_append.mp h).1
  · intro done line config hdone
    -- a blank line or a comment, or a setting
    by_cases hskip : SaysNothing line
    · rw [if_pos hskip, Except.ok.injEq]
      constructor
      · rintro rfl
        refine ⟨none, .nothing hskip, ?_, ?_⟩ <;> rw [reduceOption_concat_none]
        exact hdone
      · rintro ⟨_, hline, _, rfl⟩
        cases hline with
        | nothing _ => rw [reduceOption_concat_none]
        | setting h _ => exact absurd hskip h
    · rw [if_neg hskip, bind_eq_ok, show ("=".toList : Str) = ['='] from rfl]
      simp only [splitStringExpected_two_char]
      constructor
      · rintro ⟨_, ⟨l, r, rfl, hsplit⟩, h⟩
        rw [vectorAt_pair_zero, ok_bind, vectorAt_pair_one, ok_bind] at h
        obtain ⟨hfresh, h⟩ := throwIf_bind_eq_ok.mp h
        cases h
        refine ⟨_, .setting hskip hsplit, ?_, ?_⟩ <;> rw [reduceOption_concat_some]
        · exact OrdMap.nodup_concat_iff.mpr ⟨hdone, hfresh⟩
        · rw [OrdMap.ofEntries_concat]
      · rintro ⟨_, hline, hnodup, rfl⟩
        cases hline with
        | nothing h => exact absurd h hskip
        | @setting l r _ hsplit =>
            rw [reduceOption_concat_some] at hnodup ⊢
            refine ⟨[l, r], ⟨l, r, rfl, hsplit⟩, ?_⟩
            rw [vectorAt_pair_zero, ok_bind, vectorAt_pair_one, ok_bind,
              throwIf_of_not (OrdMap.nodup_concat_iff.mp hnodup).2, ok_bind, OrdMap.ofEntries_concat]

/-! ## Quotes -/

/-- The text stands in double quotes. -/
def IsQuoted (s : Str) : Prop := ∃ inside, s = '"' :: inside ++ ['"']

theorem removeQuotes_quoted (inside : Str) :
    removeStartEndDoubleQuoteIfPresent ('"' :: inside ++ ['"']) = inside := by
  unfold removeStartEndDoubleQuoteIfPresent
  have hlen : ('"' :: inside ++ ['"']).length = inside.length + 2 := by simp
  rw [if_pos, hlen]
  · simp
  · rw [startsWith_eq_true, endsWith_eq_true, hlen]
    exact ⟨by omega, ⟨inside ++ ['"'], rfl⟩, ⟨'"' :: inside, rfl⟩⟩

theorem removeQuotes_eq_self {s : Str} (h : ¬ IsQuoted s) : removeStartEndDoubleQuoteIfPresent s = s := by
  unfold removeStartEndDoubleQuoteIfPresent
  rw [if_neg]
  rw [startsWith_eq_true, endsWith_eq_true, show ("\"".toList : Str) = ['"'] from rfl]
  rintro ⟨hlen, ⟨rest, rfl⟩, hsuffix⟩
  apply h
  -- the closing quote is not the opening one
  rcases List.suffix_cons_iff.mp hsuffix with heq | ⟨inside, rfl⟩
  · obtain rfl : [] = rest := (List.cons_eq_cons.mp heq).2
    exact absurd hlen (by decide)
  · exact ⟨inside, rfl⟩

/-! ## Rendering -/

/-- A key that can be written: it is not read as the beginning of a comment. -/
structure IsKey (k : Str) : Prop where
  plain : IsPlain ['=', '\n'] k
  not_comment : k.head? ≠ some '#'

/-- A value that can be written: its own quotes are not taken away. -/
structure IsValue (v : Str) : Prop where
  plain : IsPlain ['=', '\n'] v
  not_quoted : ¬ IsQuoted v

/-- The line gives a value to a key, with the value in double quotes or not, or it says nothing. -/
inductive RendersLine : Option (Str × Str) → Str → Prop where
  | blank {line : Str} (h : IsBlank isWhitespace line) : RendersLine none line
  | comment (text : Str) : RendersLine none ('#' :: text)
  | setting {k v key value : Str} (hkey : Padded k key)
      (hvalue : Padded v value ∨ Padded ('"' :: v ++ ['"']) value) : RendersLine (some (k, v)) (key ++ '=' :: value)

/-- The text is a file with these settings in some order, between lines that say nothing. The last line may lack
    its newline. -/
def RendersConfig (config : Config) (text : Str) : Prop :=
  ∃ said lines, said.reduceOption.Perm config.entries ∧ List.Forall₂ RendersLine said lines ∧
    (∀ line ∈ lines, '\n' ∉ line) ∧ (unlines lines = text ∨ unlines lines = text ++ ['\n'])

section Rendering

variable {k v key value line : Str}

/-- A key never looks like a comment, however it is padded. -/
theorem IsKey.head?_padded (hk : IsKey k) (hkey : Padded k key) : (key ++ '=' :: value).head? ≠ some '#' := by
  obtain ⟨before, after, hbefore, hafter, rfl⟩ := hkey
  have hwhite : ∀ {l : Str} {c : Char}, IsBlank isWhitespace (c :: l) → c ≠ '#' := by
    rintro l c hblank rfl
    exact absurd (hblank '#' List.mem_cons_self) (by decide)
  intro h
  cases before with
  | cons c before => exact hwhite hbefore (Option.some.inj h)
  | nil =>
      cases k with
      | cons c k => exact hk.not_comment h
      | nil =>
          cases after with
          | cons c after => exact hwhite hafter (Option.some.inj h)
          | nil => simp at h

/-- Double quotes at the ends are not trimmed away. -/
theorem trim_quoted (inside : Str) : trim ('"' :: inside ++ ['"']) = '"' :: inside ++ ['"'] :=
  strip_eq_self_iff.mpr (isStripped_cons_concat (by decide) (by decide) inside)

/-- The value is found in or without double quotes. -/
theorem IsValue.removeQuotes_trim (hv : IsValue v) (h : Padded v value ∨ Padded ('"' :: v ++ ['"']) value) :
    removeStartEndDoubleQuoteIfPresent (trim value) = v := by
  rcases h with h | h
  · rw [hv.plain.trim_padded h]
    exact removeQuotes_eq_self hv.not_quoted
  · have htrim : trim value = '"' :: v ++ ['"'] := h.strip_eq.trans (trim_quoted v)
    rw [htrim]
    exact removeQuotes_quoted v

/-- The only `=` of a line is the one between key and value. -/
theorem IsValue.not_mem_padded (hv : IsValue v) (h : Padded v value ∨ Padded ('"' :: v ++ ['"']) value) :
    '=' ∉ value := by
  rcases h with h | h
  · exact hv.plain.not_mem_padded h (by simp) (by decide)
  · rw [h.mem_iff (by decide)]
    simpa using hv.plain.clean '=' (by simp)

/-- What a rendered line says is read back. -/
theorem RendersLine.isLine {said : Option (Str × Str)} (h : RendersLine said line)
    (hsaid : ∀ e ∈ said, IsKey e.1 ∧ IsValue e.2) : IsLine line said := by
  cases h with
  | blank hblank => exact .nothing (.inl (strip_eq_nil_iff.mpr hblank))
  | comment text => exact .nothing (.inr rfl)
  | @setting k v key value hkey hvalue =>
      obtain ⟨hk, hv⟩ := hsaid (k, v) rfl
      have hspeaks : ¬ SaysNothing (key ++ '=' :: value) := by
        rintro (hblank | hcomment)
        · have hequals := strip_eq_nil_iff.mp hblank '=' (by simp)
          exact absurd hequals (by decide)
        · exact hk.head?_padded hkey hcomment
      have hsplit : (key ++ '=' :: value).splitOn '=' = [key, value] := by
        rw [List.splitOn_append_cons_self_of_not_mem (hk.plain.not_mem_padded hkey (by simp) (by decide)),
          List.splitOn_eq_singleton (hv.not_mem_padded hvalue)]
      have hline := IsLine.setting hspeaks hsplit
      rwa [hk.plain.trim_padded hkey, hv.removeQuotes_trim hvalue] at hline

/-- An empty line says nothing. -/
theorem RendersLine.eq_none {said : Option (Str × Str)} (h : RendersLine said []) : said = none := by
  generalize hline : ([] : Str) = line at h
  cases h with
  | blank _ => rfl
  | comment _ => cases hline
  | setting _ _ => exact absurd (congrArg List.length hline) (by simp)

end Rendering

/-! ## Main result -/

/-- The lines of a rendered configuration are read back; only an empty last line may be missing. -/
theorem RendersConfig.lines_eq {config : Config} {text : Str} (h : RendersConfig config text) :
    ∃ said, said.reduceOption.Perm config.entries ∧ List.Forall₂ RendersLine said (getlines text) := by
  obtain ⟨said, lines, hperm, hlines, hnewline, htext⟩ := h
  rcases htext with rfl | htext
  · refine ⟨said, hperm, ?_⟩
    rwa [getlines_unlines hnewline]
  · rcases List.eq_nil_or_concat lines with rfl | ⟨init, last, rfl⟩
    · simp [unlines] at htext
    · rw [List.concat_eq_append] at hlines hnewline htext
      have hinit : ∀ line ∈ init, '\n' ∉ line := fun line hl => hnewline line (List.mem_append_left _ hl)
      have htext' : text = unlines init ++ last := by
        unfold unlines at htext
        rw [List.flatMap_append, List.flatMap_singleton, ← List.append_assoc] at htext
        exact (List.append_cancel_right htext).symm
      rw [htext', getlines_unlines_append hinit (hnewline last (by simp))]
      by_cases hlast : last = []
      · obtain ⟨said', o, rfl, hsaid, ho⟩ := exists_of_forall₂_concat hlines
        rw [hlast] at ho
        obtain rfl := ho.eq_none
        rw [reduceOption_concat_none] at hperm
        rw [if_pos hlast, List.append_nil]
        exact ⟨said', hperm, hsaid⟩
      · rw [if_neg hlast]
        exact ⟨said, hperm, hlines⟩

theorem readConfig_of_renders {filename text : Str} {config : Config}
    (hconfig : ∀ e ∈ config.entries, IsKey e.1 ∧ IsValue e.2) (hrenders : RendersConfig config text) :
    readConfig filename (.content text) = .ok config := by
  obtain ⟨said, hperm, hlines⟩ := hrenders.lines_eq
  have hsaid : List.Forall₂ IsLine (getlines text) said := by
    refine forall₂_flip ?_ hlines
    intro o ho line hline
    refine hline.isLine ?_
    rintro e rfl
    exact hconfig e (hperm.mem_iff.mp (List.mem_filterMap.mpr ⟨some e, ho, rfl⟩))
  refine readConfig_eq_ok.mpr ⟨said, hsaid, ?_, (OrdMap.ofEntries_eq_of_perm hperm).symm⟩
  exact (hperm.map Prod.fst).nodup_iff.mpr config.nodup_keys

theorem onlyThrows_readConfig (filename text : Str) : OnlyThrows (readConfig filename (.content text)) := by
  refine onlyThrows_foldlM ?_ (getlines text) ∅
  intro config line
  dsimp only
  split
  · exact onlyThrows_ok _
  · refine (onlyThrows_splitStringExpected (by decide) line 2).bind fun parts _ => ?_
    refine (onlyThrows_vectorAt parts 0).bind fun _ _ => (onlyThrows_vectorAt parts 1).bind fun _ _ => ?_
    refine OnlyThrows.bind (onlyThrows_throwIf ?_) fun _ _ => onlyThrows_ok _
    trivial

/-- The keys that are given a value are those of what the lines say. -/
theorem lineKeys_eq {text : Str} {said : List (Option (Str × Str))} (h : List.Forall₂ IsLine (getlines text) said) :
    lineKeys text = said.reduceOption.map Prod.fst := by
  unfold lineKeys
  generalize getlines text = lines at h
  induction h with
  | nil => rfl
  | cons hline _ ih =>
      cases hline with
      | nothing hnothing =>
          rw [List.filter_cons_of_neg (by simp [hnothing]), ih, List.reduceOption_cons_of_none]
      | setting hspeaks hsplit =>
          rw [List.filter_cons_of_pos (by simp [hspeaks]), List.map_cons, ih,
            List.reduceOption_cons_of_some, List.map_cons, hsplit]
          rfl

structure ConfigsRoundTrip : Prop where
  reads : ∀ filename text config, (∀ e ∈ config.entries, IsKey e.1 ∧ IsValue e.2) → RendersConfig config text →
    readConfig filename (.content text) = .ok config
  repeated : ∀ filename text, ¬ (lineKeys text).Nodup → Throws (readConfig filename (.content text))
  malformed : ∀ filename text line, line ∈ getlines text → ¬ SaysNothing line → line.count '=' ≠ 1 →
    Throws (readConfig filename (.content text))

/-- **`read_config` undoes rendering of a configuration.** -/
theorem configs_round_trip : ConfigsRoundTrip where
  reads := fun _ _ _ => readConfig_of_renders
  repeated := by
    intro filename text hrepeated
    refine (onlyThrows_readConfig _ _).throws ?_
    intro config hread
    obtain ⟨said, hlines, hnodup, -⟩ := readConfig_eq_ok.mp hread
    exact hrepeated (lineKeys_eq hlines ▸ hnodup)
  malformed := by
    intro filename text line hline hspeaks hcount
    refine (onlyThrows_readConfig _ _).throws ?_
    intro config hread
    obtain ⟨said, hlines, -, -⟩ := readConfig_eq_ok.mp hread
    obtain ⟨_, _, hsaid⟩ := exists_right_of_forall₂ hlines hline
    cases hsaid with
    | nothing h => exact hspeaks h
    | setting _ hsplit =>
        have hlen := length_splitOn '=' line
        rw [hsplit, List.length_cons, List.length_singleton] at hlen
        omega

example : readConfig [] (.content "# links\n rate = \"10 \" \n\ndelay=".toList) =
    .ok (OrdMap.ofEntries [("rate".toList, "10 ".toList), ("delay".toList, [])]) := by rfl

end BasicSim
