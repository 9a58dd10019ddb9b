import Mathlib.Order.Compare
import Mus.Machine.Interpret
import Mus.Proofs.Arithmetic.Placed
import Mus.Proofs.Syntax.Steps

/-! A machine evaluates the expression of a formula to its meaning, or complains
at the operator where the formula has none. Either way it is left as it was. -/
namespace Mus.Arithmetic

open Written

def operatorToken (operator : Operator) (place : Place) : Token :=
  (Symbol.operator place operator).tokenAt place

/-- What a machine answers to a formula with a meaning, or with an operator that
has no result. -/
def answer (machine : Machine) : Except Place Datum → EStateM.Result Fault Machine Value
  | .ok datum => .ok datum.value machine
  | .error place => .error (.runtime ⟨.moduloByZero, operatorToken .modulo place⟩) machine

/-! ## Operators -/

section

variable (machine : Machine) (place : Place) (a b : Datum)

/-- Every datum is a number to the operators, truth values included. -/
theorem Datum.number?_value : a.value.number? = some (.int a.count) := by
  cases a <;> rfl

/-- Two data are equal for the language when they count alike, so `true` equals 1. -/
theorem Datum.equalValue_value (store : Store) (depth : Nat) :
    store.equalValue (depth + 1) a.value b.value = some (decide (a.count = b.count)) := by
  have hEqual : store.equalValue (depth + 1) a.value b.value =
      some (some (compare a.count b.count) == some Ordering.eq) := by
    cases a <;> cases b <;> unfold Store.equalValue <;> rfl
  rw [hEqual, Option.some_inj, Bool.eq_iff_iff]
  simp

theorem Datum.isZero_count : (Number.int a.count).isZero = decide (a.count = 0) := by
  unfold Number.isZero Number.compare?
  rw [Bool.eq_iff_iff]
  simp

/-- Only `false` is not truthy. Zero is. -/
theorem Datum.isTruthy_value : (!Run.isTruthy a.value) = decide (a = .truth false) := by
  cases a with
  | number n => rfl
  | truth b => cases b <;> rfl

/-- No operator complains of an operand that is a datum. -/
theorem numbers_value (operator : Token) :
    Run.numbers operator a.value b.value machine = .ok (.int a.count, .int b.count) machine := by
  unfold Run.numbers
  rw [a.number?_value, b.number?_value]
  rfl

theorem isEqual_value :
    Run.isEqual a.value b.value machine = .ok (decide (a.count = b.count)) machine := by
  unfold Run.isEqual
  refine (bind_ok rfl).trans ?_
  rw [show Store.depthLimit = (Store.depthLimit - 1) + 1 from rfl, a.equalValue_value b]
  rfl

/-- A comparison by size is one of the counts. -/
theorem compareBy_value (operator : Token) (holds : Ordering → Bool) :
    Run.compareBy operator a.value b.value holds machine =
      .ok (.bool (holds (compare a.count b.count))) machine := by
  unfold Run.compareBy
  rw [bind_ok (numbers_value machine a b operator)]
  rfl

/-- A comparison by size that holds of the order of two operands exactly if they
are in a relation. -/
theorem compareBy_eq (operator : Token) {holds : Ordering → Bool} {relation : Prop}
    [Decidable relation] (h : holds (compare a.count b.count) = true ↔ relation) :
    Run.compareBy operator a.value b.value holds machine =
      .ok (.bool (decide relation)) machine := by
  rw [compareBy_value]
  congr 2
  rw [Bool.eq_iff_iff, h, decide_eq_true_iff]

/-- An operator of the machine yields what it should. -/
theorem binary_value (operator : Operator) :
    Run.binary (operatorToken operator place) a.value b.value machine =
      answer machine (operator.yield place a b) := by
  unfold Run.binary
  cases operator with
  | plus =>
      -- Sums come before the test for texts, so the operands are looked at directly.
      dsimp only [operatorToken, Symbol.tokenAt, Symbol.kind, Operator.kind]
      rw [a.number?_value, b.number?_value]
      rfl
  | minus => exact bind_ok (numbers_value machine a b _)
  | multiply => exact bind_ok (numbers_value machine a b _)
  | modulo =>
      refine (bind_ok (numbers_value machine a b _)).trans ?_
      unfold Operator.yield Operator.apply
      dsimp only
      rw [b.isZero_count]
      by_cases hZero : b.count = 0
      · rw [if_pos (decide_eq_true hZero), if_pos hZero]
        rfl
      · rw [if_neg (by simpa using hZero), if_neg hZero]
        rfl
  | equals => exact bind_ok (isEqual_value machine a b)
  | notEquals =>
      refine (bind_ok (isEqual_value machine a b)).trans ?_
      rw [← decide_not]
      rfl
  | greater => exact compareBy_eq machine a b _ (by simp [compare_gt_iff_gt])
  | greaterEqual => exact compareBy_eq machine a b _ (by simp [compare_ge_iff_ge])
  | less => exact compareBy_eq machine a b _ (by simp [compare_lt_iff_lt])
  | lessEqual => exact compareBy_eq machine a b _ (by simp [compare_le_iff_le])

/-- A sign of the machine yields what it should. -/
theorem unary_value (sign : Sign) :
    Run.unary ((Symbol.sign place sign).tokenAt place) a.value machine =
      .ok (sign.apply a).value machine := by
  unfold Run.unary
  cases sign with
  | minus =>
      dsimp only [Symbol.tokenAt, Symbol.kind, Sign.kind]
      rw [a.number?_value]
      rfl
  | not =>
      change EStateM.Result.ok (Value.bool (!Run.isTruthy a.value)) machine = _
      rw [a.isTruthy_value]
      rfl

end

/-! ## Formulas -/

/-- Going on with what a formula means. -/
theorem bind_answer {machine : Machine} {step : Run Value} {next : Value → Run Value}
    {result : Except Place Datum} {change : Datum → Except Place Datum}
    (hStep : step machine = answer machine result)
    (hNext : ∀ datum, next datum.value machine = answer machine (change datum)) :
    (step >>= next) machine = answer machine (result >>= change) := by
  cases result with
  | ok datum => exact (bind_ok hStep).trans (hNext datum)
  | error place => exact bind_error hStep

/-- The machine evaluates a formula to its meaning. -/
theorem evaluate_term (machine : Machine) (room : Nat) (formula : Formula Place) {fuel : Nat}
    (hFuel : formula.term.expr.size ≤ fuel) :
    Run.evaluate fuel room formula.term.expr machine = answer machine formula.meaning := by
  induction formula generalizing fuel with
  | number place numeral =>
      cases fuel with
      | zero => exact absurd hFuel (Nat.not_succ_le_zero 0)
      | succ fuel =>
          rw [Formula.term, Term.expr, Run.evaluate]
          rfl
  | truth place b =>
      cases fuel with
      | zero => exact absurd hFuel (Nat.not_succ_le_zero 0)
      | succ fuel =>
          rw [Formula.term, Term.expr, Run.evaluate]
          rfl
  | unary place sign right ih =>
      cases fuel with
      | zero => exact absurd hFuel (Nat.not_succ_le_zero _)
      | succ fuel =>
          have hRight := ih (Nat.le_of_succ_le_succ hFuel)
          rw [Formula.term, Term.expr, Run.evaluate]
          exact bind_answer hRight fun a => unary_value machine place a sign
  | binary place operator left right ihLeft ihRight =>
      cases fuel with
      | zero => exact absurd hFuel (Nat.not_succ_le_zero _)
      | succ fuel =>
          have hSizes : left.term.expr.size + right.term.expr.size ≤ fuel :=
            Nat.le_of_succ_le_succ hFuel
          have hLeft := ihLeft (Nat.le_trans (Nat.le_add_right _ _) hSizes)
          have hRight := ihRight (Nat.le_trans (Nat.le_add_left _ _) hSizes)
          rw [Formula.term, Term.expr, Run.evaluate]
          exact bind_answer hLeft fun a => bind_answer hRight fun b =>
            binary_value machine place a b operator

end Mus.Arithmetic
