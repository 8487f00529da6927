import BasicSim.Lib.Fallible
import Mathlib.Algebra.Order.Ring.Int
import Mathlib.Data.List.Perm.Subperm

/-!
# `Lib.Datagrams` — parties that exchange datagrams

The network may lose a datagram, delay it for any time and reorder it, but does not duplicate it. The parties
act on their own and react to what they receive; when they do is left open, only time does not run backwards.

## Contents
- **The network.** `Net`, and `Net.Conserved`: what was sent is in flight, lost, or delivered.
- **A protocol.** `Protocol`, `System`, `Step`, `Run`, and the rule `Run.invariant`.
- **Conservation.** `Run.conserved`.
-/

namespace Datagrams

/-! ## The network -/

/-- The datagrams that were sent, in order, and where they are. -/
structure Net (M : Type) where
  sent : List M
  inFlight : List M
  lost : List M
  delivered : List M

namespace Net

variable {M : Type} {net : Net M}

def empty : Net M := ⟨[], [], [], []⟩

def send (net : Net M) (ms : List M) : Net M :=
  { net with sent := net.sent ++ ms, inFlight := net.inFlight ++ ms }

/-- The datagram between `before` and `after` is lost. -/
def lose (net : Net M) (before : List M) (m : M) (after : List M) : Net M :=
  { net with inFlight := before ++ after, lost := net.lost ++ [m] }

/-- The datagram between `before` and `after` is delivered. -/
def deliver (net : Net M) (before : List M) (m : M) (after : List M) : Net M :=
  { net with inFlight := before ++ after, delivered := net.delivered ++ [m] }

/-- **Conservation.** Every datagram that was sent is in flight, lost or delivered, and is so once. -/
def Conserved (net : Net M) : Prop := net.sent.Perm (net.inFlight ++ net.lost ++ net.delivered)

theorem conserved_empty : (empty : Net M).Conserved := List.Perm.refl _

theorem Conserved.send (h : net.Conserved) (ms : List M) : (net.send ms).Conserved := by
  unfold Conserved Net.send
  simp only [List.append_assoc]
  refine (h.append_right ms).trans ?_
  simp only [List.append_assoc]
  refine List.Perm.append_left _ ?_
  rw [← List.append_assoc]
  exact List.perm_append_comm

theorem Conserved.lose (h : net.Conserved) {before after : List M} {m : M}
    (hm : net.inFlight = before ++ m :: after) : (net.lose before m after).Conserved := by
  unfold Conserved Net.lose at *
  rw [hm] at h
  refine h.trans ?_
  simp only [List.append_assoc, List.cons_append]
  refine List.Perm.append_left _ (List.perm_middle.symm.trans ?_)
  refine List.Perm.append_left _ ?_
  exact List.perm_middle.symm

theorem Conserved.deliver (h : net.Conserved) {before after : List M} {m : M}
    (hm : net.inFlight = before ++ m :: after) : (net.deliver before m after).Conserved := by
  unfold Conserved Net.deliver at *
  rw [hm] at h
  refine h.trans ?_
  simp only [List.append_assoc, List.cons_append]
  refine List.Perm.append_left _ (List.perm_middle.symm.trans ?_)
  refine List.Perm.append_left _ (List.perm_middle.symm.trans ?_)
  refine List.Perm.append_left _ ?_
  exact (List.perm_append_singleton m _).symm

/-- Counting the datagrams of a kind. -/
theorem Conserved.countP (h : net.Conserved) (p : M → Bool) :
    net.sent.countP p = net.inFlight.countP p + net.lost.countP p + net.delivered.countP p := by
  rw [h.countP_eq p, List.countP_append, List.countP_append]

theorem Conserved.mem_sent (h : net.Conserved) {m : M} (hm : m ∈ net.inFlight ∨ m ∈ net.delivered) :
    m ∈ net.sent := by
  rw [h.mem_iff, List.mem_append, List.mem_append]
  tauto

/-- What is different when it is sent is different when it is delivered. -/
theorem Conserved.nodup_delivered (h : net.Conserved) {α : Type} (p : M → Bool) (f : M → α)
    (hnd : ((net.sent.filter p).map f).Nodup) : ((net.delivered.filter p).map f).Nodup := by
  have hperm := (h.filter p).map f
  rw [hperm.nodup_iff, List.filter_append, List.map_append] at hnd
  exact (List.nodup_append.mp hnd).2.1

end Net

/-! ## A protocol -/

/-- What the parties do. An action, at a time, changes their state and sends datagrams; so does the receipt of
    a datagram, by a receiver that it can reach. -/
structure Protocol (ε σ A R M : Type) where
  act : A → Int → σ → Except ε (σ × List M)
  Reaches : M → R → Prop
  receive : R → M → Int → σ → Except ε (σ × List M)

/-- The time, the state of the parties, and the network between them. -/
structure System (σ M : Type) where
  now : Int
  state : σ
  net : Net M

variable {ε σ A R M : Type}

/-- A step, with the action if it is one. -/
inductive Step (P : Protocol ε σ A R M) : System σ M → Option A → System σ M → Prop
  | act {c : System σ M} {a : A} {now : Int} {s : σ} {ms : List M} (later : c.now ≤ now)
      (acted : P.act a now c.state = .ok (s, ms)) : Step P c (some a) ⟨now, s, c.net.send ms⟩
  | lose {c : System σ M} {before after : List M} {m : M} (inFlight : c.net.inFlight = before ++ m :: after) :
      Step P c none { c with net := c.net.lose before m after }
  | deliver {c : System σ M} {before after : List M} {m : M} {r : R} {now : Int} {s : σ} {ms : List M}
      (later : c.now ≤ now) (inFlight : c.net.inFlight = before ++ m :: after) (reaches : P.Reaches m r)
      (received : P.receive r m now c.state = .ok (s, ms)) :
      Step P c none ⟨now, s, (c.net.deliver before m after).send ms⟩

/-- A run, with the actions in it. -/
inductive Run (P : Protocol ε σ A R M) (c₀ : System σ M) : List A → System σ M → Prop
  | start : Run P c₀ [] c₀
  | step {acts : List A} {c c' : System σ M} {a : Option A} (run : Run P c₀ acts c) (step : Step P c a c') :
      Run P c₀ (acts ++ a.toList) c'

variable {P : Protocol ε σ A R M} {c₀ c c' : System σ M} {acts : List A} {a : Option A}

/-- **Run rule.** What every step keeps, every run keeps. The invariant may speak of the actions so far. -/
theorem Run.invariant (Inv : List A → System σ M → Prop)
    (hstep : ∀ acts c a c', Inv acts c → Step P c a c' → Inv (acts ++ a.toList) c') (h₀ : Inv [] c₀)
    (h : Run P c₀ acts c) : Inv acts c := by
  induction h with
  | start => exact h₀
  | step _ hs ih => exact hstep _ _ _ _ ih hs

/-! ## Conservation -/

theorem Step.conserved (h : Step P c a c') (hc : c.net.Conserved) : c'.net.Conserved := by
  cases h with
  | act _ _ => exact hc.send _
  | lose inFlight => exact hc.lose inFlight
  | deliver _ inFlight _ _ => exact (hc.deliver inFlight).send _

/-- **No datagram is duplicated or comes from nowhere.** -/
theorem Run.conserved (h : Run P c₀ acts c) (h₀ : c₀.net.Conserved) : c.net.Conserved :=
  h.invariant (fun _ c => c.net.Conserved) (fun _ _ _ _ hc hs => hs.conserved hc) h₀

end Datagrams
