import BasicSim.Core.LogUpdateHelper
import BasicSim.Lib.StepFunction

/-!
# `Core.Correctness.LogUpdateHelper` — the log is the run-length encoding of the value

The value over time is `StepFunction.lastUpdate`.

## Contents
- **What is saved.** `Saved`: the runs that are saved, in memory and in the file.
- **The invariant.** `Logs`: alpha is the last run, and beta is still open.
- **Runs of calls.** `Logs.updates`, `Logs.finalize`.
- **The log and the file.** `updates_then_finalize_runLength`, `file_lines_are_log`.
-/

namespace BasicSim

open Fallible RunLength StepFunction

namespace LogUpdateHelper

variable {V : Type}

variable {ups : List (Int × V)} {u : Int × V}

/-! ## What is saved -/

variable {render : V → Str} {h : LogUpdateHelper V} {closed : List (Run Int V)}

/-- The line of a run. -/
def runLine (render : V → Str) (fileLinePrefix : Str) (x : Run Int V) : Str :=
  formatLine render fileLinePrefix x.left x.value

/-- The runs `closed` are saved, and then the lines `rest`. -/
structure Saved (render : V → Str) (h : LogUpdateHelper V) (closed : List (Run Int V))
    (rest : List Str) : Prop where
  log : h.logTimeValue = if h.saveInMemory then closed else []
  isOpen : h.saveFileStream.isOpen = h.saveToFile
  lines : h.saveFileStream.lines =
    if h.saveToFile then closed.map (runLine render h.fileLinePrefix) ++ rest else []

/-- Write a line behind the ones that are there. -/
theorem Saved.write {rest : List Str} (hs : Saved render h closed rest) (time : Int) (value : V) :
    Saved render (h.writeLine render time value) closed
      (rest ++ [formatLine render h.fileLinePrefix time value]) := by
  obtain ⟨hlog, hopen, hlines⟩ := hs
  cases hfile : h.saveToFile with
  | false =>
      rw [hfile] at hopen hlines
      refine ⟨hlog, ?_, ?_⟩ <;> simp [LogUpdateHelper.writeLine, hfile, hopen, hlines]
  | true =>
      rw [hfile] at hopen hlines
      refine ⟨hlog, ?_, ?_⟩ <;>
        simp [LogUpdateHelper.writeLine, FileStream.writeLine, hfile, hopen, hlines]

/-- Save one more run. -/
theorem Saved.saveRun (hs : Saved render h closed []) (left right : Int) (value : V) :
    Saved render ((h.saveToLog left right value).writeLine render left value)
      (closed ++ [⟨left, right, value⟩]) [] := by
  have hw := hs.write left value
  refine ⟨?_, hw.isOpen, hw.lines.trans ?_⟩
  · show (if h.saveInMemory then _ else _) = if h.saveInMemory then _ else _
    rw [hs.log]
    split <;> rfl
  · rw [List.map_append, List.append_nil]
    rfl

/-! ## The invariant -/

/-- **The invariant** after the updates `ups`: alpha is the last run, the runs before it are saved, and
    beta starts at the time of the last update, whose value may still change. -/
inductive Logs (render : V → Str) (h : LogUpdateHelper V) (ups : List (Int × V)) : Prop
  | idle (none : ups = []) (saved : Saved render h [] []) (check : h.lastIntervalCheckTime = -1)
      (alpha : h.intervalAlphaLeftTime = -1) (beta : h.intervalBetaLeftTime = -1)
  | alpha {t : Int} (nonneg : 0 ≤ t) (last : ups.getLast? = some (t, h.lastUpdateValue))
      (all : ∀ u ∈ ups, u.1 = t) (saved : Saved render h [] []) (check : h.lastIntervalCheckTime = t)
      (alpha : h.intervalAlphaLeftTime = t) (beta : h.intervalBetaLeftTime = -1)
  | beta {first : Int × V} {t : Int} {closed : List (Run Int V)} (nonneg : 0 ≤ t)
      (last : ups.getLast? = some (t, h.lastUpdateValue)) (head : ups.head? = some first)
      (saved : Saved render h closed []) (check : h.lastIntervalCheckTime = t)
      (alpha : 0 ≤ h.intervalAlphaLeftTime) (beta : h.intervalBetaLeftTime = t)
      (encodes : Encodes (lastUpdate ups) t first.1
        (closed ++ [⟨h.intervalAlphaLeftTime, t, h.intervalAlphaValue⟩]))

/-- The runs up to the last update are not touched by another update. -/
theorem encodes_concat {b a : Int} {l : List (Run Int V)} (h : Encodes (lastUpdate ups) b a l)
    (hb : b ≤ u.1) : Encodes (lastUpdate (ups ++ [u])) b a l :=
  h.congr fun _ _ hτ => (lastUpdate_concat_of_lt (lt_of_lt_of_le hτ hb)).symm

theorem head?_concat {first : Int × V} (h : ups.head? = some first) :
    (ups ++ [u]).head? = some first := by
  cases ups with
  | nil => exact nomatch h
  | cons w ups => exact h

variable [DecidableEq V]

/-- **Step lemma.** An update that is not in the past. -/
theorem Logs.update (hl : Logs render h ups) {t' : Int} {v' : V} (h0 : 0 ≤ t')
    (hpast : ∀ w ∈ ups, w.1 ≤ t') : ∃ h', h.update render t' v' = (.ok (), h') ∧
      Logs render h' (ups ++ [(t', v')]) ∧ h'.saveInMemory = h.saveInMemory ∧
      h'.saveToFile = h.saveToFile ∧ h'.fileLinePrefix = h.fileLinePrefix := by
  have hlast' : (ups ++ [(t', v')]).getLast? = some (t', v') := List.getLast?_concat
  unfold LogUpdateHelper.update
  rw [if_neg (not_lt.mpr h0)]
  cases hl with
  -- no update yet: alpha starts
  | idle hnone saved check alpha beta =>
      rw [if_neg (by omega), if_pos (by omega), startInterval, if_pos alpha]
      subst hnone
      exact ⟨_, rfl, .alpha h0 rfl (fun w hw => by rw [List.mem_singleton.mp hw])
        ⟨saved.log, saved.isOpen, saved.lines⟩ rfl rfl beta, rfl, rfl, rfl⟩
  -- one time moment so far, and only alpha is open
  | @alpha t nonneg last all saved check alpha beta =>
      have ht : t ≤ t' := hpast _ (List.mem_of_getLast? last)
      rw [if_neg (by omega)]
      rcases lt_or_eq_of_le ht with hlt | rfl
      · -- a second time moment: beta starts
        obtain ⟨first, head⟩ : ∃ first, ups.head? = some first := by
          cases ups with
          | nil => exact nomatch last
          | cons w ups => exact ⟨w, rfl⟩
        have hfirst : first.1 = t := all first (List.mem_of_head? head)
        have hgrown := (Encodes.nil : Encodes (lastUpdate (ups ++ [(t', v')])) t t []).push hlt
          (fun τ hτ hu => lastUpdate_between last hτ hu)
        rw [if_pos (by omega), startInterval, if_neg (by omega), if_pos beta]
        refine ⟨_, rfl, .beta h0 hlast' (head?_concat head) ⟨saved.log, saved.isOpen, saved.lines⟩ rfl
          (by show 0 ≤ h.intervalAlphaLeftTime; omega) rfl ?_, rfl, rfl, rfl⟩
        rw [hfirst]
        show Encodes _ t' t [⟨h.intervalAlphaLeftTime, t', h.lastUpdateValue⟩]
        rw [alpha]
        exact hgrown
      · -- the same time moment
        rw [if_neg (by omega)]
        refine ⟨_, rfl, .alpha h0 hlast' ?_ ⟨saved.log, saved.isOpen, saved.lines⟩ check alpha
          beta, rfl, rfl, rfl⟩
        intro w hw
        rcases List.mem_append.mp hw with hw | hw
        · exact all w hw
        · rw [List.mem_singleton.mp hw]
  -- two open intervals, alpha before beta
  | @beta first t closed nonneg last head saved check alpha beta encodes =>
      have ht : t ≤ t' := hpast _ (List.mem_of_getLast? last)
      rw [if_neg (by omega)]
      rcases lt_or_eq_of_le ht with hlt | rfl
      · have hgrown := (encodes_concat encodes (u := (t', v')) ht).push hlt
          (fun τ hτ hu => lastUpdate_between last hτ hu)
        rw [push_concat] at hgrown
        rw [if_pos (by omega), startInterval, if_neg (by omega), if_neg (by omega)]
        split
        · -- beta has the value of alpha: alpha goes on
          next hmerge =>
            rw [if_pos hmerge] at hgrown
            exact ⟨_, rfl, .beta h0 hlast' (head?_concat head) ⟨saved.log, saved.isOpen, saved.lines⟩ rfl
              alpha rfl hgrown, rfl, rfl, rfl⟩
        · -- alpha is saved, and beta becomes alpha
          next hsave =>
            rw [if_neg hsave] at hgrown
            have hsaved := saved.saveRun h.intervalAlphaLeftTime h.intervalBetaLeftTime h.intervalAlphaValue
            refine ⟨_, rfl, .beta h0 hlast' (head?_concat head)
              ⟨hsaved.log, hsaved.isOpen, hsaved.lines⟩ rfl (by show 0 ≤ h.intervalBetaLeftTime; omega) rfl
              ?_, rfl, rfl, rfl⟩
            show Encodes _ t' first.1 ((closed ++ [⟨h.intervalAlphaLeftTime, h.intervalBetaLeftTime,
              h.intervalAlphaValue⟩]) ++ [⟨h.intervalBetaLeftTime, t', h.lastUpdateValue⟩])
            rw [beta, List.append_assoc]
            exact hgrown
      · -- the same time moment: only the last value is overwritten, which no interval has yet
        rw [if_neg (by omega)]
        exact ⟨_, rfl, .beta h0 hlast' (head?_concat head) ⟨saved.log, saved.isOpen, saved.lines⟩ check alpha
          beta (encodes_concat encodes le_rfl), rfl, rfl, rfl⟩

/-! ## Runs of calls -/

/-- **Run lemma.** Updates at ascending times. -/
theorem Logs.updates {todo : List (Int × V)} (hl : Logs render h ups)
    (hasc : AscendingFrom 0 (ups ++ todo)) :
    ∃ h', h.updates render todo = (.ok (), h') ∧ Logs render h' (ups ++ todo) ∧
      h'.saveInMemory = h.saveInMemory ∧ h'.saveToFile = h.saveToFile ∧
      h'.fileLinePrefix = h.fileLinePrefix := by
  induction todo generalizing h ups with
  | nil => exact ⟨h, rfl, by rwa [List.append_nil], rfl, rfl, rfl⟩
  | cons u todo ih =>
      obtain ⟨t, v⟩ := u
      have h0 : 0 ≤ t := hasc.from_le (t, v) (by simp)
      obtain ⟨h₁, hupdate, hl₁, hmem, hfile, hpre⟩ :=
        hl.update h0 fun w hw => hasc.le_of_append hw
      obtain ⟨h₂, hrest, hl₂, hmem₂, hfile₂, hpre₂⟩ := ih hl₁ (by simpa using hasc)
      refine ⟨h₂, ?_, by simpa using hl₂, hmem₂.trans hmem, hfile₂.trans hfile, hpre₂.trans hpre⟩
      rw [LogUpdateHelper.updates, hupdate]
      exact hrest

/-- The closing line: the value of the last run once more. -/
def closingLines (render : V → Str) (fileLinePrefix : Str) (time : Int) (l : List (Run Int V)) :
    List Str :=
  (l.getLast?.map fun x => formatLine render fileLinePrefix time x.value).toList

omit [DecidableEq V] in
theorem closingLines_concat (fileLinePrefix : Str) (time : Int) (l : List (Run Int V)) (x : Run Int V) :
    closingLines render fileLinePrefix time (l ++ [x])
      = [formatLine render fileLinePrefix time x.value] := by
  unfold closingLines
  rw [List.getLast?_concat]
  rfl

/-- The runs of the whole log. -/
structure IsWhole (ups : List (Int × V)) (time : Int) (runs : List (Run Int V)) : Prop where
  none : ups = [] → runs = []
  encodes : ∀ first, ups.head? = some first → Encodes (lastUpdate ups) time first.1 runs

/-- `saveRest` completes the log. -/
theorem Logs.saveRest (hl : Logs render h ups) {time : Int}
    (hpast : ∀ w ∈ ups, w.1 ≤ time) : ∃ runs, IsWhole ups time runs ∧
      Saved render (h.saveRest render time) runs (closingLines render h.fileLinePrefix time runs) ∧
      (h.saveRest render time).saveInMemory = h.saveInMemory ∧
      (h.saveRest render time).saveToFile = h.saveToFile ∧
      (h.saveRest render time).fileLinePrefix = h.fileLinePrefix := by
  unfold LogUpdateHelper.saveRest
  cases hl with
  | idle hnone saved check alpha beta =>
      rw [if_neg (by simp [alpha]), if_neg (by simp [alpha])]
      subst hnone
      exact ⟨[], ⟨fun _ => rfl, fun _ h => nomatch h⟩, saved, rfl, rfl, rfl⟩
  | @alpha t nonneg last all saved check alpha beta =>
      have ht : t ≤ time := hpast _ (List.mem_of_getLast? last)
      rw [if_pos ⟨by omega, beta⟩]
      have hne : ups ≠ [] := fun h => by rw [h] at last; exact nomatch last
      split
      · next htime =>
          refine ⟨[⟨h.intervalAlphaLeftTime, time, h.lastUpdateValue⟩], ⟨fun h => absurd h hne,
            ?_⟩, (saved.saveRun _ _ _).write time h.lastUpdateValue, rfl, rfl, rfl⟩
          intro first head
          rw [all first (List.mem_of_head? head), alpha]
          exact Encodes.nil.push (lt_of_le_of_ne ht (by omega)) fun τ hτ _ =>
            lastUpdate_of_getLast last hτ
      · next htime =>
          refine ⟨[], ⟨fun _ => rfl, ?_⟩, saved, rfl, rfl, rfl⟩
          intro first head
          rw [all first (List.mem_of_head? head), show time = t by omega]
          exact .nil
  | @beta first t closed nonneg last head saved check alpha beta encodes =>
      have ht : t ≤ time := hpast _ (List.mem_of_getLast? last)
      have hne : ups ≠ [] := fun h => by rw [h] at last; exact nomatch last
      have hwhole {runs : List (Run Int V)} (h : Encodes (lastUpdate ups) time first.1 runs) :
          IsWhole ups time runs :=
        ⟨fun hnil => absurd hnil hne, fun first' head' =>
          Option.some.inj (head.symm.trans head') ▸ h⟩
      rw [if_neg (by omega), if_pos ⟨by omega, by omega⟩]
      -- the last run, which is empty if the last update is at `time`
      have hgrown (hlt : t < time) := encodes.push hlt fun τ hτ _ => lastUpdate_of_getLast last hτ
      simp only [push_concat] at hgrown
      split
      · next hmerge =>
          refine ⟨closed ++ [⟨h.intervalAlphaLeftTime, time, h.intervalAlphaValue⟩], hwhole ?_, ?_, rfl, rfl,
            rfl⟩
          · rcases lt_or_eq_of_le ht with hlt | rfl
            · have := hgrown hlt
              rwa [if_pos hmerge] at this
            · exact encodes
          · rw [closingLines_concat]
            exact (saved.saveRun h.intervalAlphaLeftTime time h.intervalAlphaValue).write time _
      · next hdiffer =>
          have hsaved := saved.saveRun h.intervalAlphaLeftTime h.intervalBetaLeftTime h.intervalAlphaValue
          split
          · next htime =>
              refine ⟨closed ++ [⟨h.intervalAlphaLeftTime, h.intervalBetaLeftTime, h.intervalAlphaValue⟩] ++
                [⟨h.intervalBetaLeftTime, time, h.lastUpdateValue⟩], hwhole ?_, ?_, rfl, rfl, rfl⟩
              · have := hgrown (lt_of_le_of_ne ht (by omega))
                rw [if_neg hdiffer] at this
                rw [beta, List.append_assoc]
                exact this
              · rw [closingLines_concat]
                exact (hsaved.saveRun h.intervalBetaLeftTime time h.lastUpdateValue).write time _
          · next htime =>
              have htime : time = t := by omega
              refine ⟨closed ++ [⟨h.intervalAlphaLeftTime, h.intervalBetaLeftTime, h.intervalAlphaValue⟩],
                hwhole ?_, ?_, rfl, rfl, rfl⟩
              · rw [beta, htime]
                exact encodes
              · rw [closingLines_concat, htime, ← beta]
                exact hsaved.write h.intervalBetaLeftTime h.intervalAlphaValue

omit [DecidableEq V] in
/-- The time that is checked is that of the last update. -/
theorem Logs.check_iff (hl : Logs render h ups) (hasc : AscendingFrom 0 ups) {time : Int}
    (h0 : 0 ≤ time) : time < h.lastIntervalCheckTime ↔ ∃ w ∈ ups, time < w.1 := by
  cases hl with
  | idle hnone _ check _ _ =>
      subst hnone
      simp only [List.not_mem_nil, false_and, exists_false, iff_false]
      omega
  | alpha _ last _ _ check _ _ =>
      rw [check]
      exact ⟨fun h => ⟨_, List.mem_of_getLast? last, h⟩, fun ⟨w, hw, h⟩ =>
        lt_of_lt_of_le h (hasc.le_last last hw)⟩
  | beta _ last _ _ check _ _ _ =>
      rw [check]
      exact ⟨fun h => ⟨_, List.mem_of_getLast? last, h⟩, fun ⟨w, hw, h⟩ =>
        lt_of_lt_of_le h (hasc.le_last last hw)⟩

/-- `Finalize` returns the log that is saved in memory, and leaves the lines in the file. -/
theorem Logs.finalize (hl : Logs render h ups) (hasc : AscendingFrom 0 ups) {time : Int} (h0 : 0 ≤ time)
    (hpast : ∀ w ∈ ups, w.1 ≤ time) : ∃ runs h', IsWhole ups time runs ∧
      h.finalize render time = (.ok (if h.saveInMemory then runs else []), h') ∧
      h'.saveFileStream.lines = if h.saveToFile then
        runs.map (runLine render h.fileLinePrefix) ++ closingLines render h.fileLinePrefix time runs
      else [] := by
  obtain ⟨runs, hwhole, hsaved, hmem, hfile, hpre⟩ := hl.saveRest hpast
  have hcheck : ¬ time < h.lastIntervalCheckTime := fun hlt => by
    obtain ⟨w, hw, hlt⟩ := (hl.check_iff hasc h0).mp hlt
    exact absurd (hpast w hw) (not_le.mpr hlt)
  have hlog := hsaved.log
  have hlines := hsaved.lines
  rw [hmem] at hlog
  rw [hfile, hpre] at hlines
  refine ⟨runs, (h.saveRest render time).closeFile, hwhole, ?_, ?_⟩
  · unfold LogUpdateHelper.finalize
    rw [if_neg (not_lt.mpr h0), if_neg hcheck, ← hlog]
    rfl
  · rw [← hlines]
    show (if (h.saveRest render time).saveToFile = true then _ else _ : FileStream).lines = _
    split <;> rfl

/-- A call in the past throws and changes nothing. -/
theorem Logs.past_throws (hl : Logs render h ups) (hasc : AscendingFrom 0 ups) {time : Int}
    (htime : time < 0 ∨ ∃ w ∈ ups, time < w.1) :
    (∀ v, ∃ what, h.update render time v = (.error (.invalidArgument what), h)) ∧
      ∃ what, h.finalize render time = (.error (.invalidArgument what), h) := by
  unfold LogUpdateHelper.update LogUpdateHelper.finalize
  by_cases h0 : time < 0
  · simp only [if_pos h0]
    exact ⟨fun _ => ⟨_, rfl⟩, _, rfl⟩
  · have hcheck := (hl.check_iff hasc (not_lt.mp h0)).mpr (htime.resolve_left h0)
    simp only [if_neg h0, if_pos hcheck]
    exact ⟨fun _ => ⟨_, rfl⟩, _, rfl⟩

omit [DecidableEq V] in
/-- The state before the first update. -/
theorem logs_create {minusOne : V} {saveInMemory saveToFile : Bool} {saveFilename fileLinePrefix : Str}
    (hcreate : create minusOne saveInMemory saveToFile saveFilename fileLinePrefix = .ok h) :
    Logs render h [] ∧ h.saveInMemory = saveInMemory ∧ h.saveToFile = saveToFile ∧
      h.fileLinePrefix = fileLinePrefix := by
  unfold create at hcreate
  obtain ⟨-, hcreate⟩ := throwIf_bind_eq_ok.mp hcreate
  cases hcreate
  refine ⟨.idle rfl ⟨?_, rfl, ?_⟩ rfl rfl rfl, rfl, rfl, rfl⟩
  · show [] = if saveInMemory then [] else []
    split <;> rfl
  · show [] = if saveToFile then [] else []
    split <;> rfl

/-! ## The log and the file -/

omit [DecidableEq V] in
theorem IsWhole.eq_nil_iff {time : Int} {runs : List (Run Int V)} (h : IsWhole ups time runs) :
    runs = [] ↔ ups = [] ∨ ∃ first, ups.head? = some first ∧ first.1 = time := by
  cases ups with
  | nil => simp [h.none rfl]
  | cons first ups => simp [(h.encodes first rfl).eq_nil_iff]

/-- A whole run of the helper, in any mode. -/
theorem run_spec (minusOne : V) {saveInMemory saveToFile : Bool}
    (hmode : ¬ (!saveInMemory && !saveToFile) = true) (saveFilename fileLinePrefix : Str)
    (render : V → Str) (hasc : AscendingFrom 0 ups) {time : Int} (h0 : 0 ≤ time)
    (hpast : ∀ w ∈ ups, w.1 ≤ time) :
    ∃ h₀ h₁ h₂ runs, create minusOne saveInMemory saveToFile saveFilename fileLinePrefix = .ok h₀ ∧
      h₀.updates render ups = (.ok (), h₁) ∧ Logs render h₁ ups ∧ IsWhole ups time runs ∧
      h₁.finalize render time = (.ok (if saveInMemory then runs else []), h₂) ∧
      h₂.saveFileStream.lines = if saveToFile then
        runs.map (runLine render fileLinePrefix) ++ closingLines render fileLinePrefix time runs
      else [] := by
  obtain ⟨h₀, hcreate⟩ : ∃ h₀, create minusOne saveInMemory saveToFile saveFilename fileLinePrefix
      = .ok h₀ := by
    unfold create
    rw [throwIf_of_not hmode]
    exact ⟨_, rfl⟩
  obtain ⟨hlogs₀, rfl, rfl, rfl⟩ : Logs render h₀ [] ∧ _ := logs_create hcreate
  rw [← List.nil_append ups] at hasc
  obtain ⟨h₁, hupdates, hlogs, hmem, hfile, hpre⟩ := hlogs₀.updates hasc
  obtain ⟨runs, h₂, hwhole, hfinalize, hlines⟩ := hlogs.finalize hasc h0 hpast
  rw [hmem] at hfinalize
  rw [hfile, hpre] at hlines
  exact ⟨h₀, h₁, h₂, runs, hcreate, hupdates, hlogs, hwhole, hfinalize, hlines⟩

/-- **The log is the canonical run-length log.** -/
theorem log_is_canonical (minusOne : V) (saveToFile : Bool) (saveFilename fileLinePrefix : Str)
    (render : V → Str) {ups : List (Int × V)} (hasc : AscendingFrom 0 ups) {time : Int} (h0 : 0 ≤ time)
    (hpast : ∀ w ∈ ups, w.1 ≤ time) :
    ∃ h₀ h₁ h₂ log, create minusOne true saveToFile saveFilename fileLinePrefix = .ok h₀ ∧
      h₀.updates render ups = (.ok (), h₁) ∧ h₁.finalize render time = (.ok log, h₂) ∧
      (∀ first, ups.head? = some first → IsCanonical (lastUpdate ups) first.1 time log ∧
        ∀ l, IsCanonical (lastUpdate ups) first.1 time l → l = log) ∧
      (log = [] ↔ ups = [] ∨ ∃ first, ups.head? = some first ∧ first.1 = time) ∧
      -- calls in the past
      ∀ past, (past < 0 ∨ ∃ w ∈ ups, past < w.1) →
        (∀ v, ∃ what, h₁.update render past v = (.error (.invalidArgument what), h₁)) ∧
        ∃ what, h₁.finalize render past = (.error (.invalidArgument what), h₁) := by
  obtain ⟨h₀, h₁, h₂, runs, hcreate, hupdates, hlogs, hwhole, hfinalize, -⟩ :=
    run_spec minusOne (show ¬ (!true && !saveToFile) = true by simp) saveFilename fileLinePrefix render
      hasc h0 hpast
  refine ⟨h₀, h₁, h₂, runs, hcreate, hupdates, hfinalize, ?_, hwhole.eq_nil_iff,
    fun past hp => hlogs.past_throws hasc hp⟩
  intro first head
  have hencodes := hwhole.encodes first head
  exact ⟨hencodes.isCanonical, fun l hl => (hl.encodes hencodes.le).unique hencodes⟩

theorem log_is_canonical_aba :
    ∃ h₀ h₁ h₂ log, create (-1 : Int) true false [] [] = .ok h₀ ∧
      h₀.updates toStr [(3, 5), (4, 6), (4, 5)] = (.ok (), h₁) ∧ h₁.finalize toStr 9 = (.ok log, h₂) ∧
      IsCanonical (lastUpdate [(3, 5), (4, 6), (4, 5)]) 3 9 log := by
  obtain ⟨h₀, h₁, h₂, log, hcreate, hupdates, hfinalize, hcanonical, -⟩ :=
    log_is_canonical (-1 : Int) false [] [] toStr
      (show AscendingFrom 0 [(3, 5), (4, 6), (4, 5)] from ⟨by decide, by decide⟩) (show (0 : Int) ≤ 9 by decide)
      (by decide)
  exact ⟨h₀, h₁, h₂, log, hcreate, hupdates, hfinalize, (hcanonical (3, 5) rfl).1⟩

/-- Pair every entry with the next one. -/
def pairUp (entries : List (Int × V)) : List (Run Int V) :=
  List.zipWith (fun x y => ⟨x.1, y.1, x.2⟩) entries entries.tail

omit [DecidableEq V] in
/-- Runs that touch are recovered from their left ends and the last right end. -/
theorem pairUp_runs {runs : List (Run Int V)} (htouch : runs.IsChain fun x y => x.right = y.left)
    {time : Int} (hlast : ∀ x, runs.getLast? = some x → x.right = time) (v : V) :
    pairUp (runs.map (fun x => (x.left, x.value)) ++ [(time, v)]) = runs := by
  induction runs with
  | nil => rfl
  | cons x runs ih =>
      cases runs with
      | nil =>
          rw [← hlast x rfl]
          rfl
      | cons y runs =>
          have hrest := ih htouch.tail fun z hz => hlast z (by rwa [List.getLast?_cons_cons])
          have hxy : x.right = y.left := (List.isChain_cons_cons.mp htouch).1
          show ⟨x.left, y.left, x.value⟩ :: pairUp (_ ++ _) = _
          rw [hrest, ← hxy]

/-- **The file holds the log.** -/
theorem file_holds_log (minusOne : V) (saveFilename fileLinePrefix : Str) (render : V → Str)
    {ups : List (Int × V)} (hasc : AscendingFrom 0 ups) {time : Int} (h0 : 0 ≤ time)
    (hpast : ∀ w ∈ ups, w.1 ≤ time) :
    ∃ h₀ h₁ h₂ log, create minusOne true true saveFilename fileLinePrefix = .ok h₀ ∧
      h₀.updates render ups = (.ok (), h₁) ∧ h₁.finalize render time = (.ok log, h₂) ∧
      (∀ x, log.getLast? = some x → h₂.saveFileStream.lines =
        log.map (fun y => formatLine render fileLinePrefix y.left y.value) ++
          [formatLine render fileLinePrefix time x.value]) ∧
      (h₂.saveFileStream.lines = [] ↔ log = []) ∧
      ∀ read : Str → Int × V, (∀ t v, read (formatLine render fileLinePrefix t v) = (t, v)) →
        pairUp (h₂.saveFileStream.lines.map read) = log := by
  obtain ⟨h₀, h₁, h₂, runs, hcreate, hupdates, -, hwhole, hfinalize, hlines⟩ :=
    run_spec minusOne (show ¬ (!true && !true) = true by decide) saveFilename fileLinePrefix render hasc h0
      hpast
  refine ⟨h₀, h₁, h₂, runs, hcreate, hupdates, hfinalize, ?_, ?_, ?_⟩
  · intro x hx
    rw [hlines, closingLines, hx]
    rfl
  · rw [hlines, if_pos rfl, List.append_eq_nil_iff, List.map_eq_nil_iff]
    exact ⟨And.left, fun hnil => ⟨hnil, by rw [hnil]; rfl⟩⟩
  · intro read hread
    rw [hlines, if_pos rfl]
    cases hlast : runs.getLast? with
    | none =>
        rw [List.getLast?_eq_none_iff.mp hlast]
        rfl
    | some x =>
        obtain ⟨first, head⟩ : ∃ first, ups.head? = some first := by
          cases ups with
          | nil => rw [hwhole.none rfl] at hlast; exact nomatch hlast
          | cons w ups => exact ⟨w, rfl⟩
        have hcanonical := (hwhole.encodes first head).isCanonical
        -- read back, the lines are the left ends, and the time of the end behind them
        have hentries : (runs.map (runLine render fileLinePrefix) ++
            closingLines render fileLinePrefix time runs).map read =
            runs.map (fun y => (y.left, y.value)) ++ [(time, x.value)] := by
          rw [closingLines, hlast, List.map_append, List.map_map]
          simp only [Option.map_some, Option.toList_some, List.map_cons, List.map_nil, hread]
          exact congrArg (· ++ _) (List.map_congr_left fun y _ => hread _ _)
        rw [hentries]
        exact pairUp_runs hcanonical.touch hcanonical.last x.value

/-- What does not last is neither in the log nor in the file. -/
theorem file_holds_log_aba :
    ∃ h₀ h₁ h₂, create (-1 : Int) true true "a.csv".toList "7,".toList = .ok h₀ ∧
      h₀.updates toStr [(3, 5), (4, 6), (4, 5), (9, 6)] = (.ok (), h₁) ∧
      h₁.finalize toStr 9 = (.ok [⟨3, 9, 5⟩], h₂) ∧
      h₂.saveFileStream.lines = ["7,3,5".toList, "7,9,5".toList] := by
  obtain ⟨h₀, h₁, h₂, log, hcreate, hupdates, hfinalize, hlines, -, -⟩ :=
    file_holds_log (-1 : Int) "a.csv".toList "7,".toList toStr
      (show AscendingFrom 0 [(3, 5), (4, 6), (4, 5), (9, 6)] from ⟨by decide, by decide⟩)
      (show (0 : Int) ≤ 9 by decide) (by decide)
  cases hcreate
  cases hupdates
  cases hfinalize
  exact ⟨_, _, _, rfl, rfl, rfl, hlines _ rfl⟩

end LogUpdateHelper

end BasicSim
