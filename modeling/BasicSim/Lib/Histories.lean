import BasicSim.Lib.Datagrams
import BasicSim.Lib.StepFunction

/-!
# `Lib.Histories` — what happened in a run, and when

A state can have more in it than a protocol needs, such as a record of what the parties did and received. Runs with the
larger states are runs of the protocol.

## Contents
- **Larger states.** `Extends`, with `Run.toInner`.
- **Records.** `History`, `History.timesOf`, `Protocol.recording`, `recording_extends`.
- **What a record tells.** `Recorded`, with the step lemma `Step.recorded` and the run lemma `Run.recorded`.
-/

namespace Datagrams

open Fallible StepFunction

variable {ε σ τ A R M : Type}

/-! ## Larger states -/

/-- A protocol on larger states does the same to the state `inner`. -/
structure Extends (P' : Protocol ε τ A R M) (P : Protocol ε σ A R M) (inner : τ → σ) : Prop where
  act : ∀ {a now s s' ms}, P'.act a now s = .ok (s', ms) → P.act a now (inner s) = .ok (inner s', ms)
  reaches : ∀ {m r}, P'.Reaches m r → P.Reaches m r
  receive : ∀ {r m now s s' ms}, P'.receive r m now s = .ok (s', ms) → P.receive r m now (inner s) = .ok (inner s', ms)

def System.inner (inner : τ → σ) (c : System τ M) : System σ M := ⟨c.now, inner c.state, c.net⟩

section Inner

variable {P' : Protocol ε τ A R M} {P : Protocol ε σ A R M} {inner : τ → σ} {c₀ c c' : System τ M} {acts : List A}
  {a : Option A}

theorem Step.toInner (hext : Extends P' P inner) (h : Step P' c a c') : Step P (c.inner inner) a (c'.inner inner) := by
  cases h with
  | act later acted => exact .act later (hext.act acted)
  | lose inFlight => exact .lose inFlight
  | deliver later inFlight reaches received =>
      exact .deliver later inFlight (hext.reaches reaches) (hext.receive received)

/-- A run with larger states is a run. -/
theorem Run.toInner (hext : Extends P' P inner) (h : Run P' c₀ acts c) :
    Run P (c₀.inner inner) acts (c.inner inner) := by
  induction h with
  | start => exact .start
  | step _ hstep ih => exact .step ih (hstep.toInner hext)

end Inner

/-! ## Records -/

/-- What the parties did, and who received what, with the times. -/
abbrev History (A R M : Type) := List (Int × (A ⊕ R × M))

namespace History

def acts (history : History A R M) : List A := history.filterMap fun e => e.2.getLeft?

def received (history : History A R M) : List M := history.filterMap fun e => e.2.getRight?.map Prod.snd

@[simp] theorem acts_nil : acts ([] : History A R M) = [] := rfl

@[simp] theorem received_nil : received ([] : History A R M) = [] := rfl

variable {history : History A R M} {now : Int}

@[simp] theorem acts_acted (a : A) : acts (history ++ [(now, .inl a)]) = history.acts ++ [a] := by
  simp [acts]

@[simp] theorem acts_received (r : R) (m : M) : acts (history ++ [(now, .inr (r, m))]) = history.acts := by
  simp [acts]

@[simp] theorem received_acted (a : A) : received (history ++ [(now, .inl a)]) = history.received := by
  simp [received]

@[simp] theorem received_received (r : R) (m : M) :
    received (history ++ [(now, .inr (r, m))]) = history.received ++ [m] := by
  simp [received]

/-- When the parties did something of a kind. -/
def timesOf (p : A → Bool) (history : History A R M) : List Int :=
  history.filterMap fun
    | (now, .inl a) => if p a = true then some now else none
    | (_, .inr _) => none

section Times

variable {p : A → Bool}

theorem timesOf_acted (a : A) : timesOf p (history ++ [(now, .inl a)])
    = if p a = true then timesOf p history ++ [now] else timesOf p history := by
  unfold timesOf
  rw [List.filterMap_append]
  split <;> simp_all

@[simp] theorem timesOf_received (r : R) (m : M) : timesOf p (history ++ [(now, .inr (r, m))]) = timesOf p history := by
  simp [timesOf]

theorem length_timesOf (p : A → Bool) (history : History A R M) :
    (timesOf p history).length = history.acts.countP p := by
  induction history using List.reverseRecOn with
  | nil => rfl
  | append_singleton history e ih =>
      obtain ⟨now, a | ⟨r, m⟩⟩ := e
      · rw [timesOf_acted, acts_acted, List.countP_append, List.countP_singleton]
        split <;> simp [ih]
      · rw [timesOf_received, acts_received, ih]

/-- The times are those of the history. -/
theorem timesOf_sublist (p : A → Bool) (history : History A R M) :
    (timesOf p history).Sublist (history.map Prod.fst) := by
  induction history using List.reverseRecOn with
  | nil => exact List.Sublist.refl _
  | append_singleton history e ih =>
      obtain ⟨now, a | ⟨r, m⟩⟩ := e
      · rw [timesOf_acted, List.map_append]
        split
        · exact ih.append (List.Sublist.refl _)
        · exact ih.trans (List.sublist_append_left _ _)
      · rw [timesOf_received, List.map_append]
        exact ih.trans (List.sublist_append_left _ _)

end Times

end History

/-- The same protocol, with a record. -/
def Protocol.recording (P : Protocol ε σ A R M) : Protocol ε (σ × History A R M) A R M where
  act a now s := do
    let (state, ms) ← P.act a now s.1
    .ok ((state, s.2 ++ [(now, .inl a)]), ms)
  Reaches := P.Reaches
  receive r m now s := do
    let (state, ms) ← P.receive r m now s.1
    .ok ((state, s.2 ++ [(now, .inr (r, m))]), ms)

section Recording

variable {P : Protocol ε σ A R M} {c₀ c c' : System (σ × History A R M) M} {acts : List A} {a : Option A}
  {s s' : σ × History A R M} {now : Int} {ms : List M}

theorem recording_act_eq_ok {a : A} : P.recording.act a now s = .ok (s', ms) ↔
    P.act a now s.1 = .ok (s'.1, ms) ∧ s'.2 = s.2 ++ [(now, .inl a)] := by
  show (P.act a now s.1 >>= fun p => _) = _ ↔ _
  rw [bind_eq_ok]
  constructor
  · rintro ⟨_, hact, heq⟩
    cases heq
    exact ⟨hact, rfl⟩
  · rintro ⟨hact, hhistory⟩
    exact ⟨_, hact, by rw [← hhistory]⟩

theorem recording_receive_eq_ok {r : R} {m : M} : P.recording.receive r m now s = .ok (s', ms) ↔
    P.receive r m now s.1 = .ok (s'.1, ms) ∧ s'.2 = s.2 ++ [(now, .inr (r, m))] := by
  show (P.receive r m now s.1 >>= fun p => _) = _ ↔ _
  rw [bind_eq_ok]
  constructor
  · rintro ⟨_, hreceive, heq⟩
    cases heq
    exact ⟨hreceive, rfl⟩
  · rintro ⟨hreceive, hhistory⟩
    exact ⟨_, hreceive, by rw [← hhistory]⟩

theorem recording_extends : Extends P.recording P Prod.fst where
  act h := (recording_act_eq_ok.mp h).1
  reaches h := h
  receive h := (recording_receive_eq_ok.mp h).1

/-! ## What a record tells -/

/-- **A record is complete and in order.** -/
structure Recorded (startNs : Int) (acts : List A) (c : System (σ × History A R M) M) : Prop where
  acts : c.state.2.acts = acts
  received : c.state.2.received = c.net.delivered
  ascending : AscendingFrom startNs c.state.2
  until_now : ∀ e ∈ c.state.2, e.1 ≤ c.now
  start_le : startNs ≤ c.now

theorem recorded_start {state : σ} {net : Net M} (hnet : net.delivered = []) (now : Int) :
    Recorded now [] (⟨now, (state, ([] : History A R M)), net⟩ : System _ M) where
  acts := rfl
  received := hnet.symm
  ascending := ⟨List.Pairwise.nil, fun _ h => nomatch h⟩
  until_now := fun _ h => nomatch h
  start_le := le_refl now

/-- Times that ascend from 0. -/
def AscendingTimes (times : List Int) : Prop := times.Pairwise (· ≤ ·) ∧ ∀ t ∈ times, 0 ≤ t

theorem Recorded.ascendingTimes {c : System (σ × History A R M) M} {acts : List A} (h : Recorded 0 acts c)
    {times : List Int} (hsub : times.Sublist (c.state.2.map Prod.fst)) : AscendingTimes times := by
  refine ⟨(List.pairwise_map.mpr h.ascending.ascending).sublist hsub, fun t ht => ?_⟩
  obtain ⟨e, he, rfl⟩ := List.mem_map.mp (hsub.subset ht)
  exact h.ascending.from_le e he

/-- One more thing happens. -/
theorem ascendingFrom_concat {startNs : Int} {history : History A R M} {x : A ⊕ R × M}
    (h : AscendingFrom startNs history) (huntil : ∀ e ∈ history, e.1 ≤ now) (hstart : startNs ≤ now) :
    AscendingFrom startNs (history ++ [(now, x)]) ∧ ∀ e ∈ history ++ [(now, x)], e.1 ≤ now := by
  refine ⟨⟨?_, ?_⟩, ?_⟩
  · rw [List.pairwise_append]
    exact ⟨h.ascending, List.pairwise_singleton _ _, fun e he e' he' => by
      rw [List.mem_singleton.mp he']
      exact huntil e he⟩
  · intro e he
    rcases List.mem_append.mp he with he | he
    · exact h.from_le e he
    · rw [List.mem_singleton.mp he]
      exact hstart
  · intro e he
    rcases List.mem_append.mp he with he | he
    · exact huntil e he
    · rw [List.mem_singleton.mp he]

/-- **Step lemma.** -/
theorem Step.recorded {startNs : Int} (hstep : Step P.recording c a c') (h : Recorded startNs acts c) :
    Recorded startNs (acts ++ a.toList) c' := by
  cases hstep with
  | @act a now s ms later acted =>
      obtain ⟨-, hhistory⟩ := recording_act_eq_ok.mp acted
      obtain ⟨hasc, huntil⟩ := ascendingFrom_concat (x := .inl a) h.ascending
        (fun e he => (h.until_now e he).trans later) (h.start_le.trans later)
      refine ⟨?_, ?_, ?_, ?_, h.start_le.trans later⟩
      · simp [hhistory, h.acts]
      · simp [hhistory, h.received, Net.send]
      · exact hhistory ▸ hasc
      · exact hhistory ▸ huntil
  | lose inFlight =>
      rw [Option.toList_none, List.append_nil]
      exact ⟨h.acts, h.received, h.ascending, h.until_now, h.start_le⟩
  | @deliver before after m r now s ms later inFlight reaches received =>
      obtain ⟨-, hhistory⟩ := recording_receive_eq_ok.mp received
      obtain ⟨hasc, huntil⟩ := ascendingFrom_concat (x := .inr (r, m)) h.ascending
        (fun e he => (h.until_now e he).trans later) (h.start_le.trans later)
      rw [Option.toList_none, List.append_nil]
      refine ⟨?_, ?_, ?_, ?_, h.start_le.trans later⟩
      · simp [hhistory, h.acts]
      · simp [hhistory, h.received, Net.send, Net.deliver]
      · exact hhistory ▸ hasc
      · exact hhistory ▸ huntil

/-- **Run lemma.** -/
theorem Run.recorded (h : Run P.recording c₀ acts c) (h₀ : Recorded c₀.now [] c₀) : Recorded c₀.now acts c :=
  h.invariant (Recorded c₀.now) (fun _ _ _ _ hc hs => hs.recorded hc) h₀

end Recording

end Datagrams
