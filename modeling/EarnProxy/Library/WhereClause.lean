import Mathlib.Order.Lattice
import Mathlib.Order.Monotone.Basic

/-!
# `WHERE` clauses

Conditions over the columns of a row, with the three truth values of SQL. The columns are of one
ordered type, and what a condition says of other columns is a test. A clause selects the same rows
when the columns and its bounds are stored under a strictly monotone encoding.
-/

namespace Sql

/-- A truth value; `none` is `NULL`. -/
abbrev Truth := Option Bool

namespace Truth

def not : Truth → Truth
  | none => none
  | some b => some !b

def and : Truth → Truth → Truth
  | some false, _ => some false
  | some true, y => y
  | none, some false => some false
  | none, _ => none

def or (x y : Truth) : Truth := not (and (not x) (not y))

variable {x y : Truth}

@[simp] theorem not_eq_true : not x = some true ↔ x = some false := by
  rcases x with _ | _ | _ <;> decide

@[simp] theorem and_eq_true : and x y = some true ↔ x = some true ∧ y = some true := by
  rcases x with _ | _ | _ <;> rcases y with _ | _ | _ <;> decide

@[simp] theorem or_eq_true : or x y = some true ↔ x = some true ∨ y = some true := by
  rcases x with _ | _ | _ <;> rcases y with _ | _ | _ <;> decide

end Truth

inductive Comparison where
  | lt | le | gt | ge
  deriving DecidableEq, Repr

namespace Comparison

variable {α β : Type*} [LinearOrder α] [LinearOrder β]

def Holds : Comparison → α → α → Prop
  | lt, a, b => a < b
  | le, a, b => a ≤ b
  | gt, a, b => b < a
  | ge, a, b => b ≤ a

instance : (op : Comparison) → (a b : α) → Decidable (op.Holds a b)
  | lt, a, b => inferInstanceAs (Decidable (a < b))
  | le, a, b => inferInstanceAs (Decidable (a ≤ b))
  | gt, a, b => inferInstanceAs (Decidable (b < a))
  | ge, a, b => inferInstanceAs (Decidable (b ≤ a))

theorem holds_map {f : α → β} (hf : StrictMono f) (op : Comparison) (a b : α) :
    op.Holds (f a) (f b) ↔ op.Holds a b := by
  cases op with
  | lt => exact hf.lt_iff_lt
  | le => exact hf.le_iff_le
  | gt => exact hf.lt_iff_lt
  | ge => exact hf.le_iff_le

end Comparison

inductive Condition (Column Test α : Type*) where
  | test (t : Test)
  | isNull (c : Column)
  | compare (c : Column) (op : Comparison) (bound : α)
  | not (φ : Condition Column Test α)
  | and (φ ψ : Condition Column Test α)
  | or (φ ψ : Condition Column Test α)
  deriving Repr

namespace Condition

variable {Column Test α β : Type*}

def notNull (c : Column) : Condition Column Test α := .not (.isNull c)

/-- `c BETWEEN a AND b`. -/
def between (c : Column) (a b : α) : Condition Column Test α :=
  .and (.compare c .ge a) (.compare c .le b)

/-- The condition with its bounds encoded. -/
def map (f : α → β) : Condition Column Test α → Condition Column Test β
  | test t => .test t
  | isNull c => .isNull c
  | compare c op bound => .compare c op (f bound)
  | not φ => .not (φ.map f)
  | and φ ψ => .and (φ.map f) (ψ.map f)
  | or φ ψ => .or (φ.map f) (ψ.map f)

section

variable [LinearOrder α] [LinearOrder β] (row : Column → Option α) (tests : Test → Truth)

/-- The value at a row. A comparison with `NULL` is `NULL`. -/
def eval : Condition Column Test α → Truth
  | test t => tests t
  | isNull c => some (row c).isNone
  | compare c op bound => (row c).map fun a => decide (op.Holds a bound)
  | not φ => Truth.not φ.eval
  | and φ ψ => Truth.and φ.eval ψ.eval
  | or φ ψ => Truth.or φ.eval ψ.eval

/-- The row is one that a `WHERE` clause lets through. -/
def Selects (φ : Condition Column Test α) : Prop := φ.eval row tests = some true

instance (φ : Condition Column Test α) : Decidable (φ.Selects row tests) :=
  inferInstanceAs (Decidable (_ = _))

variable {row tests} {φ ψ : Condition Column Test α} {c : Column}

@[simp] theorem selects_test {t : Test} :
    (test t : Condition Column Test α).Selects row tests ↔ tests t = some true := Iff.rfl

@[simp] theorem selects_isNull :
    (isNull c : Condition Column Test α).Selects row tests ↔ row c = none := by
  simp [Selects, eval]

@[simp] theorem selects_notNull :
    (notNull c : Condition Column Test α).Selects row tests ↔ row c ≠ none := by
  simp [Selects, notNull, eval, Option.ne_none_iff_isSome]

@[simp] theorem selects_compare {op : Comparison} {bound : α} :
    (compare c op bound : Condition Column Test α).Selects row tests ↔
      ∃ a ∈ row c, op.Holds a bound := by
  simp [Selects, eval]

@[simp] theorem selects_and : (and φ ψ).Selects row tests ↔
    φ.Selects row tests ∧ ψ.Selects row tests := Truth.and_eq_true

@[simp] theorem selects_or : (or φ ψ).Selects row tests ↔
    φ.Selects row tests ∨ ψ.Selects row tests := Truth.or_eq_true

/-- The truth values are those of the values, also below a negation. -/
theorem eval_map {f : α → β} (hf : StrictMono f) (φ : Condition Column Test α) :
    (φ.map f).eval (fun c => (row c).map f) tests = φ.eval row tests := by
  induction φ with
  | test t => rfl
  | isNull c => simp [map, eval]
  | compare c op bound =>
    rw [map, eval, eval, Option.map_map]
    congr 1
    funext a
    exact decide_eq_decide.mpr (op.holds_map hf a bound)
  | not φ ih => rw [map, eval, eval, ih]
  | and φ ψ ihφ ihψ => rw [map, eval, eval, ihφ, ihψ]
  | or φ ψ ihφ ihψ => rw [map, eval, eval, ihφ, ihψ]

theorem selects_map {f : α → β} (hf : StrictMono f) (φ : Condition Column Test α) :
    (φ.map f).Selects (fun c => (row c).map f) tests ↔ φ.Selects row tests := by
  rw [Selects, Selects, eval_map hf]

end

end Condition

end Sql
