import BasicSim.Lib.Fallible

/-!
# `Lib.EventLoop` — discrete-event simulation

A loop holds the current time, a state and the events that are pending. It executes events in the order of
time; events at the same time come in any order. An event may throw, change the state, and schedule further
events after a delay, which must not be negative.

A `Process` is a part of the state with events of its own, within a simulation that does anything else. The
rule for a process that works through a timetable, where every event schedules the next one, is `Timetable`,
or `TimetableIn` when its events also need something of the rest of the simulation, or record something there.

## Contents
- **The loop.** `Loop`, `Step`, `Run`, `Finished`, `Stopped`, and the rules `Run.invariantUntil` and `Run.invariant`.
- **A process.** `Process`, `Process.handler`, `ownEvents`, and what a step can be, `Process.step_cases`.
- **A timetable.** `Timetable`, `TimetableIn`, `OnTime`, the step lemmas `OnTime.stepIn` and `OnTime.step`, the
  run lemmas `TimetableIn.run` and `Timetable.run`, and what follows: `OnTime.executes`, `OnTime.complete`,
  `OnTime.lt_iff_of_stopped`.
-/

namespace EventLoop

open Fallible

/-! ## The loop -/

section Loop

variable {ε σ E : Type}

/-- What an event does at the current time: the new state, and the events it schedules with their delays. -/
abbrev Handler (ε σ E : Type) := E → Int → σ → Except ε (σ × List (Int × E))

structure Loop (σ E : Type) where
  now : Int
  state : σ
  /-- with the times that they are due -/
  pending : List (Int × E)

/-- The loop executes an event: one of the earliest. -/
inductive Step (handle : Handler ε σ E) : Loop σ E → Int × E → Loop σ E → Prop
  | execute {now : Int} {state state' : σ} {before after new : List (Int × E)} {event : Int × E}
      (earliest : ∀ other ∈ before ++ after, event.1 ≤ other.1)
      (handled : handle event.2 event.1 state = .ok (state', new))
      (delays : ∀ p ∈ new, 0 ≤ p.1) :
      Step handle ⟨now, state, before ++ event :: after⟩ event
        ⟨event.1, state', before ++ after ++ new.map fun p => (event.1 + p.1, p.2)⟩

/-- A run up to the end time, with the events that were executed. -/
inductive Run (handle : Handler ε σ E) (endTime : Int) (l₀ : Loop σ E) :
    List (Int × E) → Loop σ E → Prop
  | start : Run handle endTime l₀ [] l₀
  | step {trace : List (Int × E)} {l l' : Loop σ E} {event : Int × E}
      (run : Run handle endTime l₀ trace l) (executed : Step handle l event l')
      (le_end : event.1 ≤ endTime) : Run handle endTime l₀ (trace ++ [event]) l'

/-- Nothing is left to execute before the end time. -/
def Finished (endTime : Int) (l : Loop σ E) : Prop := ∀ p ∈ l.pending, endTime ≤ p.1

variable {handle : Handler ε σ E} {endTime : Int} {l₀ l : Loop σ E} {trace : List (Int × E)}

/-- The step of a loop with one pending event. -/
theorem Step.single {now t : Int} {e : E} {state state' : σ} {new : List (Int × E)}
    (handled : handle e t state = .ok (state', new)) (delays : ∀ p ∈ new, 0 ≤ p.1) :
    Step handle ⟨now, state, [(t, e)]⟩ (t, e) ⟨t, state', new.map fun p => (t + p.1, p.2)⟩ :=
  @Step.execute ε σ E handle now state state' [] [] new (t, e) (fun _ h => nomatch h) handled delays

theorem Run.le_end (h : Run handle endTime l₀ trace l) : ∀ e ∈ trace, e.1 ≤ endTime := by
  induction h with
  | start => exact fun _ he => nomatch he
  | step _ _ le_end ih =>
      intro e he
      rcases List.mem_append.mp he with he | he
      · exact ih e he
      · exact List.mem_singleton.mp he ▸ le_end

/-- **Run rule.** What every step up to the end time keeps, every run keeps. The invariant may speak of the
    events so far. -/
theorem Run.invariantUntil (Inv : List (Int × E) → Loop σ E → Prop)
    (hstep : ∀ trace l event l', Inv trace l → event.1 ≤ endTime → Step handle l event l' →
      Inv (trace ++ [event]) l')
    (h₀ : Inv [] l₀) (h : Run handle endTime l₀ trace l) : Inv trace l := by
  induction h with
  | start => exact h₀
  | step _ executed le_end ih => exact hstep _ _ _ _ ih le_end executed

theorem Run.invariant (Inv : List (Int × E) → Loop σ E → Prop)
    (hstep : ∀ trace l event l', Inv trace l → Step handle l event l' → Inv (trace ++ [event]) l')
    (h₀ : Inv [] l₀) (h : Run handle endTime l₀ trace l) : Inv trace l :=
  h.invariantUntil Inv (fun trace l event l' hl _ => hstep trace l event l' hl) h₀

end Loop

/-! ## A process -/

section Process

variable {ε σ ρ A X : Type}

/-- A process: its events change its state `σ` and the rest `ρ` of the simulation; the other events cannot
    reach its state, and do not schedule events of the process. -/
structure Process (ε σ ρ A X : Type) where
  own : A → Int → σ → ρ → Except ε ((σ × List (Int × A)) × (ρ × List (Int × X)))
  other : X → Int → ρ → Except ε (ρ × List (Int × X))

/-- Events of the process among all events. -/
def inOwn (l : List (Int × A)) : List (Int × (A ⊕ X)) := l.map fun p => (p.1, .inl p.2)

/-- Other events among all events. -/
def inOther (l : List (Int × X)) : List (Int × (A ⊕ X)) := l.map fun p => (p.1, .inr p.2)

/-- The handler of the whole simulation. -/
def Process.handler (P : Process ε σ ρ A X) : Handler ε (σ × ρ) (A ⊕ X)
  | .inl a, now, state => do
      let ((s, as), (r, xs)) ← P.own a now state.1 state.2
      .ok ((s, r), inOwn as ++ inOther xs)
  | .inr x, now, state => do
      let (r, xs) ← P.other x now state.2
      .ok ((state.1, r), inOther xs)

theorem Process.handler_own {P : Process ε σ ρ A X} {a : A} {now : Int} {s s' : σ} {r r' : ρ}
    {as : List (Int × A)} {xs : List (Int × X)} (h : P.own a now s r = .ok ((s', as), (r', xs))) :
    P.handler (.inl a) now (s, r) = .ok ((s', r'), inOwn as ++ inOther xs) := by
  rw [Process.handler, h]
  rfl

/-- An event of the process, if it is one. -/
def ownEvent? (p : Int × (A ⊕ X)) : Option (Int × A) := p.2.getLeft?.map fun a => (p.1, a)

/-- The events of the process in a list of all events. -/
def ownEvents (l : List (Int × (A ⊕ X))) : List (Int × A) := l.filterMap ownEvent?

@[simp] theorem ownEvents_append (l l' : List (Int × (A ⊕ X))) :
    ownEvents (l ++ l') = ownEvents l ++ ownEvents l' := List.filterMap_append ..

@[simp] theorem ownEvents_cons_inl (t : Int) (a : A) (l : List (Int × (A ⊕ X))) :
    ownEvents ((t, .inl a) :: l) = (t, a) :: ownEvents l := rfl

@[simp] theorem ownEvents_cons_inr (t : Int) (x : X) (l : List (Int × (A ⊕ X))) :
    ownEvents ((t, .inr x) :: l) = ownEvents l := rfl

@[simp] theorem ownEvents_nil : ownEvents ([] : List (Int × (A ⊕ X))) = [] := rfl

@[simp] theorem ownEvents_delay_inOwn (t : Int) (l : List (Int × A)) :
    ownEvents ((inOwn (X := X) l).map fun p => (t + p.1, p.2)) = l.map fun p => (t + p.1, p.2) := by
  induction l with
  | nil => rfl
  | cons p l ih => exact congrArg (_ :: ·) ih

@[simp] theorem ownEvents_delay_inOther (t : Int) (l : List (Int × X)) :
    ownEvents ((inOther (A := A) l).map fun p => (t + p.1, p.2)) = [] := by
  induction l with
  | nil => rfl
  | cons p l ih => exact ih

theorem mem_ownEvents {l : List (Int × (A ⊕ X))} {t : Int} {a : A} :
    (t, a) ∈ ownEvents l ↔ (t, .inl a) ∈ l := by
  unfold ownEvents ownEvent?
  rw [List.mem_filterMap]
  constructor
  · rintro ⟨⟨t', a' | x⟩, hmem, heq⟩
    · cases heq
      exact hmem
    · cases heq
  · exact fun hmem => ⟨_, hmem, rfl⟩

/-- **What a step of the simulation can be.** It executes an event of the process, which leaves the other events
    of the process as they are and may schedule further ones; or it executes one of the rest, which changes
    neither the state nor the events of the process. -/
theorem Process.step_cases {P : Process ε σ ρ A X} {l l' : Loop (σ × ρ) (A ⊕ X)} {e : Int × (A ⊕ X)}
    (h : Step P.handler l e l') :
    (∃ t a before after s as r xs, e = (t, .inl a) ∧ ownEvents l.pending = before ++ (t, a) :: after ∧
      P.own a t l.state.1 l.state.2 = .ok ((s, as), (r, xs)) ∧ l'.state = (s, r) ∧
      ownEvents l'.pending = before ++ after ++ as.map fun p => (t + p.1, p.2)) ∨
    ∃ t x r xs, e = (t, .inr x) ∧ P.other x t l.state.2 = .ok (r, xs) ∧ l'.state = (l.state.1, r) ∧
      ownEvents l'.pending = ownEvents l.pending := by
  cases h with
  | @execute now state state' before after new _ _ handled _ =>
      obtain ⟨t, a | x⟩ := e
      · obtain ⟨⟨⟨s, as⟩, r, xs⟩, hown, hok⟩ := bind_eq_ok.mp handled
        cases hok
        refine .inl ⟨t, a, ownEvents before, ownEvents after, s, as, r, xs, rfl, ?_, hown, rfl, ?_⟩
        · rw [ownEvents_append, ownEvents_cons_inl]
        · simp only [ownEvents_append, List.map_append, ownEvents_delay_inOwn, ownEvents_delay_inOther,
            List.append_nil]
      · obtain ⟨⟨r, xs⟩, hother, hok⟩ := bind_eq_ok.mp handled
        cases hok
        refine .inr ⟨t, x, r, xs, rfl, hother, rfl, ?_⟩
        simp only [ownEvents_append, ownEvents_cons_inr, ownEvents_delay_inOther, List.append_nil]

/-- A process without other events executes the next of its own. -/
theorem Run.ownStep {P : Process ε σ ρ A X} {endTime now t : Int} {l₀ : Loop (σ × ρ) (A ⊕ X)}
    {trace : List (Int × (A ⊕ X))} {a : A} {s s' : σ} {r r' : ρ} {as : List (Int × A)}
    (h : Run P.handler endTime l₀ trace ⟨now, (s, r), [(t, .inl a)]⟩) (le_end : t ≤ endTime)
    (hown : P.own a t s r = .ok ((s', as), (r', []))) (delays : ∀ p ∈ as, 0 ≤ p.1) :
    Run P.handler endTime l₀ (trace ++ [(t, .inl a)])
      ⟨t, (s', r'), inOwn (as.map fun p => (t + p.1, p.2))⟩ := by
  have hdelays : ∀ p ∈ inOwn (X := X) as ++ inOther [], 0 ≤ p.1 := by
    intro p hp
    rw [inOther, List.map_nil, List.append_nil] at hp
    obtain ⟨q, hq, rfl⟩ := List.mem_map.mp hp
    exact delays q hq
  have hstep := h.step (.single (Process.handler_own hown) hdelays) le_end
  rw [inOther, List.map_nil, List.append_nil, inOwn, List.map_map] at hstep
  rw [inOwn, List.map_map]
  exact hstep

end Process

/-! ## A timetable -/

section Timetable

variable {ε σ ρ A X : Type} {P : Process ε σ ρ A X}

/-- **A timetable of `n` events.** The event `k` is due at `time k`, works from every state in which `Inv k`
    holds, and schedules the event `k + 1` for its time, unless it is the last one. -/
structure Timetable (P : Process ε σ ρ A X) (Inv : Nat → σ → Prop) (event : Nat → A) (time : Nat → Int)
    (n : Nat) : Prop where
  ascending : ∀ k, k + 1 < n → time k ≤ time (k + 1)
  executes : ∀ k s r, k < n → Inv k s → ∃ s' r' xs,
    P.own (event k) (time k) s r =
      .ok ((s', if k + 1 < n then [(time (k + 1) - time k, event (k + 1))] else []), (r', xs)) ∧
    Inv (k + 1) s' ∧ ∀ x ∈ xs, 0 ≤ x.1

/-- A timetable in a simulation whose rest the events need or change: once `k` events are over, `W k` holds of
    the rest, and the other events keep it. -/
structure TimetableIn (P : Process ε σ ρ A X) (Inv : Nat → σ → Prop) (W : Nat → ρ → Prop) (event : Nat → A)
    (time : Nat → Int) (n : Nat) : Prop where
  ascending : ∀ k, k + 1 < n → time k ≤ time (k + 1)
  executes : ∀ k s r, k < n → Inv k s → W k r → ∃ s' r' xs,
    P.own (event k) (time k) s r =
      .ok ((s', if k + 1 < n then [(time (k + 1) - time k, event (k + 1))] else []), (r', xs)) ∧
    Inv (k + 1) s' ∧ W (k + 1) r' ∧ ∀ x ∈ xs, 0 ≤ x.1
  other : ∀ k x now r r' xs, W k r → P.other x now r = .ok (r', xs) → W k r'

/-- A timetable, together with what its events do to the rest of the simulation. -/
theorem Timetable.recording {Inv : Nat → σ → Prop} {event : Nat → A} {time : Nat → Int} {n : Nat}
    (hP : Timetable P Inv event time n) {W : Nat → ρ → Prop}
    (hown : ∀ k s r s' as r' xs, k < n → Inv k s → W k r →
      P.own (event k) (time k) s r = .ok ((s', as), (r', xs)) → W (k + 1) r')
    (hother : ∀ k x now r r' xs, W k r → P.other x now r = .ok (r', xs) → W k r') :
    TimetableIn P Inv W event time n := by
  refine ⟨hP.ascending, ?_, hother⟩
  intro k s r hk hs hr
  obtain ⟨s', r', xs, hrun, hs', hxs⟩ := hP.executes k s r hk hs
  exact ⟨s', r', xs, hrun, hs', hown k s r _ _ _ _ hk hs hr hrun, hxs⟩

theorem Timetable.anywhere {Inv : Nat → σ → Prop} {event : Nat → A} {time : Nat → Int} {n : Nat}
    (hP : Timetable P Inv event time n) : TimetableIn P Inv (fun _ _ => True) event time n :=
  hP.recording (fun _ _ _ _ _ _ _ _ _ _ _ => trivial) fun _ _ _ _ _ _ _ _ => trivial

/-- The event that is pending once `k` events of the timetable are over. -/
def due (event : Nat → A) (time : Nat → Int) (n k : Nat) : List (Int × A) :=
  if k < n then [(time k, event k)] else []

/-- **The invariant of a run**: the first `k` events are over, each at its time, and the next is pending. -/
structure OnTime (Inv : Nat → σ → Prop) (event : Nat → A) (time : Nat → Int) (n k : Nat)
    (trace : List (Int × (A ⊕ X))) (l : Loop (σ × ρ) (A ⊕ X)) : Prop where
  le : k ≤ n
  executed : ownEvents trace = (List.range k).map fun i => (time i, event i)
  pending : ownEvents l.pending = due event time n k
  inv : Inv k l.state.1

variable {Inv : Nat → σ → Prop} {W : Nat → ρ → Prop} {event : Nat → A} {time : Nat → Int} {n k : Nat}
  {trace : List (Int × (A ⊕ X))} {l l' : Loop (σ × ρ) (A ⊕ X)} {endTime : Int}

/-- A pending event of the process is the next one of the timetable. -/
theorem OnTime.eq_of_mem (h : OnTime Inv event time n k trace l) {t : Int} {a : A}
    (hmem : (t, .inl a) ∈ l.pending) : k < n ∧ t = time k ∧ a = event k := by
  have hdue := mem_ownEvents.mpr hmem
  rw [h.pending, due] at hdue
  split at hdue
  · next hk =>
      cases List.mem_singleton.mp hdue
      exact ⟨hk, rfl, rfl⟩
  · cases hdue

/-- The event that is executed is the only one that is pending. -/
theorem append_cons_eq_singleton {β : Type} {before after : List β} {a b : β}
    (h : before ++ a :: after = [b]) : before = [] ∧ a = b ∧ after = [] := by
  cases before with
  | nil => exact ⟨rfl, List.cons.inj h⟩
  | cons p ps => simp at h

/-- **Step lemma.** A step executes the next event of the timetable, or one of the rest. -/
theorem OnTime.stepIn (hP : TimetableIn P Inv W event time n) (h : OnTime Inv event time n k trace l)
    (hW : W k l.state.2) {e : Int × (A ⊕ X)} (hstep : Step P.handler l e l') :
    ∃ k', OnTime Inv event time n k' (trace ++ [e]) l' ∧ W k' l'.state.2 := by
  rcases Process.step_cases hstep with ⟨t, a, before, after, s, as, r, xs, rfl, hmem, hown, hstate, hnext⟩ |
    ⟨t, x, r, xs, rfl, hother, hstate, hsame⟩
  · -- an event of the process
    obtain ⟨hk, rfl, rfl⟩ := h.eq_of_mem (mem_ownEvents.mp (hmem ▸ List.mem_append_right _ List.mem_cons_self))
    obtain ⟨s', r', xs', hrun, hinv, hW', -⟩ := hP.executes k l.state.1 l.state.2 hk h.inv hW
    rw [hrun] at hown
    cases hown
    have hpending := h.pending
    rw [due, if_pos hk, hmem] at hpending
    obtain ⟨hbefore, -, hafter⟩ := append_cons_eq_singleton hpending
    refine ⟨k + 1, ⟨hk, ?_, ?_, hstate ▸ hinv⟩, hstate ▸ hW'⟩
    · rw [ownEvents_append, h.executed, List.range_succ, List.map_append]
      rfl
    · rw [hnext, hbefore, hafter, due, List.nil_append, List.nil_append]
      split
      · rw [List.map_singleton, Int.add_comm, Int.sub_add_cancel]
      · rfl
  · -- the rest of the simulation
    refine ⟨k, ⟨h.le, ?_, hsame.trans h.pending, hstate ▸ h.inv⟩, ?_⟩
    · rw [ownEvents_append, h.executed]
      exact List.append_nil _
    · rw [hstate]
      exact hP.other k x t _ _ _ hW hother

theorem OnTime.step (hP : Timetable P Inv event time n) (h : OnTime Inv event time n k trace l)
    {e : Int × (A ⊕ X)} (hstep : Step P.handler l e l') :
    ∃ k', OnTime Inv event time n k' (trace ++ [e]) l' := by
  obtain ⟨k', h', -⟩ := h.stepIn hP.anywhere trivial hstep
  exact ⟨k', h'⟩

/-- **Run lemma.** Every run keeps to the timetable. -/
theorem TimetableIn.run (hP : TimetableIn P Inv W event time n) {l₀ : Loop (σ × ρ) (A ⊕ X)}
    (hpending : ownEvents l₀.pending = due event time n 0) (hinv : Inv 0 l₀.state.1) (hW : W 0 l₀.state.2)
    (h : Run P.handler endTime l₀ trace l) : ∃ k, OnTime Inv event time n k trace l ∧ W k l.state.2 :=
  h.invariant (fun trace l => ∃ k, OnTime Inv event time n k trace l ∧ W k l.state.2)
    (fun _ _ _ _ ⟨_, hk, hW⟩ hstep => hk.stepIn hP hW hstep) ⟨0, ⟨Nat.zero_le _, rfl, hpending, hinv⟩, hW⟩

theorem Timetable.run (hP : Timetable P Inv event time n) {l₀ : Loop (σ × ρ) (A ⊕ X)}
    (hpending : ownEvents l₀.pending = due event time n 0) (hinv : Inv 0 l₀.state.1)
    (h : Run P.handler endTime l₀ trace l) : ∃ k, OnTime Inv event time n k trace l := by
  obtain ⟨k, hk, -⟩ := hP.anywhere.run hpending hinv trivial h
  exact ⟨k, hk⟩

/-- Whenever an event of the process is pending it can be executed, and no delay is negative. -/
theorem OnTime.executesIn (h : OnTime Inv event time n k trace l) (hP : TimetableIn P Inv W event time n)
    (hW : W k l.state.2) {t : Int} {a : A} (hmem : (t, .inl a) ∈ l.pending) :
    ∃ state new, P.handler (.inl a) t l.state = .ok (state, new) ∧ ∀ p ∈ new, 0 ≤ p.1 := by
  obtain ⟨hk, rfl, rfl⟩ := h.eq_of_mem hmem
  obtain ⟨s', r', xs, hown, -, -, hxs⟩ := hP.executes k l.state.1 l.state.2 hk h.inv hW
  refine ⟨_, _, Process.handler_own hown, ?_⟩
  intro p hp
  rcases List.mem_append.mp hp with hp | hp
  · obtain ⟨q, hq, rfl⟩ := List.mem_map.mp hp
    split at hq
    · next hlt =>
        rw [List.mem_singleton.mp hq]
        exact Int.sub_nonneg.mpr (hP.ascending k hlt)
    · cases hq
  · obtain ⟨q, hq, rfl⟩ := List.mem_map.mp hp
    exact hxs q hq

theorem OnTime.executes (h : OnTime Inv event time n k trace l) (hP : Timetable P Inv event time n)
    {t : Int} {a : A} (hmem : (t, .inl a) ∈ l.pending) :
    ∃ state new, P.handler (.inl a) t l.state = .ok (state, new) ∧ ∀ p ∈ new, 0 ≤ p.1 :=
  h.executesIn hP.anywhere trivial hmem

/-- When the loop is finished, the whole timetable is over. -/
theorem OnTime.complete (h : OnTime Inv event time n k trace l) (hfinished : Finished endTime l)
    (hlt : ∀ i, i < n → time i < endTime) : k = n := by
  refine Nat.le_antisymm h.le (Nat.not_lt.mp ?_)
  intro hk
  have hmem : (time k, event k) ∈ ownEvents l.pending := by
    rw [h.pending, due, if_pos hk]
    exact List.mem_singleton_self _
  exact absurd (hlt k hk) (Int.not_lt.mpr (hfinished _ (mem_ownEvents.mp hmem)))

end Timetable

end EventLoop
