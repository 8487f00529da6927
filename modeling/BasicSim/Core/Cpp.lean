import BasicSim.Lib.Fallible
import BasicSim.Lib.OrdSet
import Mathlib.Algebra.Order.Ring.Int
import Mathlib.Data.Prod.Lex

/-!
# `Core.Cpp` — the C++ vocabulary the sources are written in

Exceptions, strings, fixed-width integers, `std::vector` and `std::pair`, as far as the modelled
sources use them.

- An `int64_t` is an `Int`; where an operation of the source can leave the 64-bit range, the model
  performs it with `int64Add` and the like, which fail as undefined behaviour outside the range.
- A `std::string` is the list of its bytes, each written as a character.
- A `std::vector` is a list and `at` is checked access.
-/

namespace BasicSim

open Fallible

/-- What a run can end with instead of a value: the exceptions of the standard library, an abort of
    the simulator (`NS_ABORT`), a failed `NS_ASSERT`, or behaviour that C++ leaves undefined. -/
inductive Exc where
  | invalidArgument (what : String)
  | runtimeError (what : String)
  | outOfRange (what : String)
  | abort (what : String)
  | assertion (what : String)
  | undefined (what : String)
deriving DecidableEq, Repr

/-- A `std::string`. -/
abbrev Str := List Char

/-- `std::to_string` of an integer, which is also how a stream prints one. -/
def toStr (x : Int) : Str := (toString x).toList

/-! ## Fixed-width integers -/

/-- The values of an `int64_t`. -/
def InInt64 (x : Int) : Prop := -2 ^ 63 ≤ x ∧ x < 2 ^ 63

instance (x : Int) : Decidable (InInt64 x) := inferInstanceAs (Decidable (_ ∧ _))

/-- The values of an `int32_t` (and of an `int`). -/
def InInt32 (x : Int) : Prop := -2 ^ 31 ≤ x ∧ x < 2 ^ 31

instance (x : Int) : Decidable (InInt32 x) := inferInstanceAs (Decidable (_ ∧ _))

/-- The result of a signed 64-bit operation: overflow is undefined behaviour. -/
def int64 (x : Int) : Except Exc Int :=
  if InInt64 x then .ok x else .error (.undefined "signed 64-bit overflow")

/-- The result of a signed 32-bit operation: overflow is undefined behaviour. -/
def int32 (x : Int) : Except Exc Int :=
  if InInt32 x then .ok x else .error (.undefined "signed 32-bit overflow")

theorem int64_of_mem {x : Int} (h : InInt64 x) : int64 x = .ok x := if_pos h

theorem int64_of_not_mem {x : Int} (h : ¬ InInt64 x) :
    int64 x = .error (.undefined "signed 64-bit overflow") := if_neg h

theorem int64_eq_ok {x y : Int} : int64 x = .ok y ↔ InInt64 x ∧ x = y := by
  unfold int64
  split
  · rename_i h; simp [h]
  · rename_i h; simp [h]

theorem int32_eq_ok {x y : Int} : int32 x = .ok y ↔ InInt32 x ∧ x = y := by
  unfold int32
  split
  · rename_i h; simp [h]
  · rename_i h; simp [h]

theorem int32_of_mem {x : Int} (h : InInt32 x) : int32 x = .ok x := if_pos h

/-- Narrowing conversion to an `int` (two's complement wrap-around). -/
def toInt32 (x : Int) : Int := (BitVec.ofInt 32 x).toInt

/-- Conversion of a `size_t` to an `int64_t` (two's complement wrap-around). -/
def toInt64 (x : Nat) : Int := (BitVec.ofNat 64 x).toInt

/-- Conversion to a `uint32_t` (reduction modulo `2 ^ 32`). -/
def toUInt32 (x : Int) : BitVec 32 := BitVec.ofInt 32 x

/-- Conversion to a `uint64_t` (reduction modulo `2 ^ 64`). -/
def toUInt64 (x : Int) : BitVec 64 := BitVec.ofInt 64 x

theorem toInt32_of_mem {x : Int} (h : InInt32 x) : toInt32 x = x := by
  obtain ⟨hlo, hhi⟩ := h
  unfold toInt32
  rw [BitVec.toInt_ofInt, Int.bmod_eq_of_le] <;> omega

theorem toInt64_of_lt {x : Nat} (h : x < 2 ^ 63) : toInt64 x = x := by
  unfold toInt64
  rw [BitVec.toInt_eq_toNat_cond, BitVec.toNat_ofNat]
  split <;> omega

/-- A `uint32_t` converted back to an `int32_t`. -/
theorem toInt_toUInt32 {x : Int} (h0 : 0 ≤ x) (h : x < 2 ^ 31) : (toUInt32 x).toInt = x :=
  toInt32_of_mem ⟨by omega, h⟩

theorem toNat_toUInt32 {x : Int} (h0 : 0 ≤ x) (h : x < 2 ^ 32) : ((toUInt32 x).toNat : Int) = x := by
  unfold toUInt32
  rw [BitVec.toNat_ofInt]
  omega

theorem toNat_toUInt64 {x : Int} (h0 : 0 ≤ x) (h : x < 2 ^ 64) : ((toUInt64 x).toNat : Int) = x := by
  unfold toUInt64
  rw [BitVec.toNat_ofInt]
  omega

theorem toInt_toUInt64 {x : Int} (h0 : 0 ≤ x) (h : x < 2 ^ 63) : (toUInt64 x).toInt = x := by
  have htoNat := toNat_toUInt64 h0 (by omega)
  rw [BitVec.toInt_eq_toNat_cond]
  omega

/-- The values of the counter in `for (int i = 0; i < n; i++)`. -/
def upTo (n : Int) : List Int := (List.range n.toNat).map (fun i : Nat => (i : Int))

@[simp] theorem mem_upTo {n i : Int} : i ∈ upTo n ↔ 0 ≤ i ∧ i < n := by
  rw [upTo, List.mem_map]
  constructor
  · rintro ⟨k, hk, rfl⟩
    rw [List.mem_range] at hk
    omega
  · rintro ⟨h0, hn⟩
    exact ⟨i.toNat, List.mem_range.mpr (by omega), by omega⟩

theorem nodup_upTo (n : Int) : (upTo n).Nodup :=
  List.nodup_range.map fun _ _ h => Int.ofNat.inj h

theorem length_upTo (n : Int) : (upTo n).length = n.toNat := by
  rw [upTo, List.length_map, List.length_range]

/-! ## `std::vector` -/

/-- `v.at(i)`: a negative index becomes a huge unsigned one, so it is out of range too. -/
def vectorAt {α : Type} (v : List α) (i : Int) : Except Exc α :=
  if 0 ≤ i then
    match v[i.toNat]? with
    | some a => .ok a
    | none => .error (.outOfRange "vector::at")
  else .error (.outOfRange "vector::at")

/-- `v.at(i)` as a reference that is then modified by `f`. -/
def vectorModifyAt {α : Type} (v : List α) (i : Int) (f : α → α) : Except Exc (List α) := do
  let a ← vectorAt v i
  .ok (v.set i.toNat (f a))

variable {α : Type} {v : List α} {i : Int}

theorem vectorAt_eq_ok {a : α} : vectorAt v i = .ok a ↔ 0 ≤ i ∧ v[i.toNat]? = some a := by
  unfold vectorAt
  by_cases hi : 0 ≤ i
  · rw [if_pos hi]
    cases h : v[i.toNat]? with
    | none => simp
    | some b => simp [hi]
  · rw [if_neg hi]
    simp [hi]

/-- Reading inside the bounds succeeds. -/
theorem vectorAt_of_lt (h0 : 0 ≤ i) (h : i < v.length) : ∃ a, vectorAt v i = .ok a := by
  have hlt : i.toNat < v.length := by omega
  exact ⟨v[i.toNat], vectorAt_eq_ok.mpr ⟨h0, List.getElem?_eq_getElem hlt⟩⟩

theorem vectorModifyAt_of_lt (h0 : 0 ≤ i) (h : i < v.length) (f : α → α) :
    vectorModifyAt v i f = .ok (v.modify i.toNat f) := by
  have hlt : i.toNat < v.length := by omega
  have hat : vectorAt v i = .ok v[i.toNat] :=
    vectorAt_eq_ok.mpr ⟨h0, List.getElem?_eq_getElem hlt⟩
  rw [vectorModifyAt, hat, ok_bind, List.modify_eq_set_getElem? ]
  simp [hlt]

theorem vectorAt_set {j : Int} {a : α} (h0 : 0 ≤ i) (h : i < v.length) :
    vectorAt (v.set i.toNat a) j = if j = i then .ok a else vectorAt v j := by
  by_cases hj : j = i
  · subst hj
    rw [if_pos rfl, vectorAt_eq_ok]
    exact ⟨h0, List.getElem?_set_self (by omega)⟩
  · rw [if_neg hj]
    unfold vectorAt
    by_cases hj0 : 0 ≤ j
    · rw [if_pos hj0, if_pos hj0, List.getElem?_set_ne (by omega)]
    · rw [if_neg hj0, if_neg hj0]

theorem vectorModifyAt_eq_ok {f : α → α} {w : List α} :
    vectorModifyAt v i f = .ok w ↔ ∃ a, vectorAt v i = .ok a ∧ w = v.set i.toNat (f a) := by
  unfold vectorModifyAt
  rw [bind_eq_ok]
  exact exists_congr fun a => and_congr_right fun _ => by rw [Except.ok.injEq, eq_comm]

/-! ## Arrays from `new` -/

/-- An array from `new`; a cell that was not written yet has no value. -/
abbrev RawArray (α : Type) := List (Option α)

/-- `new T[n]`. -/
def newArray (α : Type) (n : Int) : RawArray α := List.replicate n.toNat none

/-- Reading outside the array or an unwritten cell is undefined. -/
def RawArray.read {α : Type} (arr : RawArray α) (i : Int) : Except Exc α :=
  if 0 ≤ i then
    match arr[i.toNat]? with
    | some (some a) => .ok a
    | _ => .error (.undefined "read of an indeterminate or out-of-bounds cell")
  else .error (.undefined "read of an indeterminate or out-of-bounds cell")

/-- Writing outside the array is undefined. -/
def RawArray.write {α : Type} (arr : RawArray α) (i : Int) (a : α) : Except Exc (RawArray α) :=
  if 0 ≤ i ∧ i < arr.length then .ok (arr.set i.toNat (some a))
  else .error (.undefined "write to an out-of-bounds cell")

theorem RawArray.read_of_getElem? {arr : RawArray α} {a : α} (h0 : 0 ≤ i)
    (h : arr[i.toNat]? = some (some a)) : arr.read i = .ok a := by
  unfold RawArray.read
  rw [if_pos h0, h]

theorem RawArray.write_of_lt {arr : RawArray α} (h0 : 0 ≤ i) (h : i < arr.length) (a : α) :
    arr.write i a = .ok (arr.set i.toNat (some a)) := if_pos ⟨h0, h⟩

/-! ## `std::pair` -/

/-- A `std::pair<int64_t, int64_t>`, compared lexicographically. -/
structure Int64Pair where
  first : Int
  second : Int
deriving DecidableEq, Repr

namespace Int64Pair

instance : LinearOrder Int64Pair :=
  LinearOrder.lift' (fun p => toLex (p.first, p.second)) fun ⟨_, _⟩ ⟨_, _⟩ h => by simpa using h

theorem lt_iff {p q : Int64Pair} :
    p < q ↔ p.first < q.first ∨ p.first = q.first ∧ p.second < q.second := by
  show toLex (p.first, p.second) < toLex (q.first, q.second) ↔ _
  rw [Prod.Lex.toLex_lt_toLex]

/-- The pair the other way round. -/
def swap (p : Int64Pair) : Int64Pair := ⟨p.second, p.first⟩

@[simp] theorem swap_first (p : Int64Pair) : p.swap.first = p.second := rfl

@[simp] theorem swap_second (p : Int64Pair) : p.swap.second = p.first := rfl

@[simp] theorem swap_swap (p : Int64Pair) : p.swap.swap = p := rfl

end Int64Pair

end BasicSim
