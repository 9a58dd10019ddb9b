import Mathlib.Data.List.Induction
import Mathlib.Data.Nat.Digits.Defs
import Mus.Proofs.Syntax.Written
import Mus.Proofs.Token.Layout
import Mus.Proofs.Token.Scanned

/-! Arithmetic formulas: whole numbers and truth values with the operators of
arithmetic and comparison. A formula has a meaning of its own, which does not
refer to machines, and a printed form, which any blanks may spread out. -/
namespace Mus.Arithmetic

open Written

structure Numeral where
  digits : List (Fin 10)
  nonempty : digits ≠ []
  short : digits.length ≤ Integer.digitLimit

namespace Numeral

/-- The number that a numeral writes, most significant digit first. -/
def value (numeral : Numeral) : Nat :=
  Nat.ofDigits 10 (numeral.digits.reverse.map Fin.val)

def text (numeral : Numeral) : List Char :=
  numeral.digits.map fun digit => Nat.digitChar digit.val

end Numeral

inductive Sign where
  | minus | not
  deriving DecidableEq, Repr

inductive Operator where
  | plus | minus | multiply | modulo
  | equals | notEquals | greater | greaterEqual | less | lessEqual
  deriving DecidableEq, Repr

/-- A formula. Its numbers, truth values and operators have places. -/
inductive Formula (π : Type) where
  | number (place : π) (numeral : Numeral)
  | truth (place : π) (b : Bool)
  | unary (place : π) (sign : Sign) (right : Formula π)
  | binary (place : π) (operator : Operator) (left right : Formula π)

/-! ## Meaning -/

/-- What a formula can yield. -/
inductive Datum where
  | number (n : Int)
  | truth (b : Bool)
  deriving DecidableEq, Repr

namespace Datum

/-- Truth values count as zero and one. -/
def count : Datum → Int
  | number n => n
  | truth b => if b then 1 else 0

def value : Datum → Value
  | number n => .int n
  | truth b => .bool b

end Datum

/-- A sign applied to an operand. Only the truth value `false` is false. -/
def Sign.apply : Sign → Datum → Datum
  | minus, a => .number (-a.count)
  | not, a => .truth (a = .truth false)

/-- An operator applied to two operands. There is no remainder by zero; other
remainders have the sign of the divisor. -/
def Operator.apply : Operator → Datum → Datum → Option Datum
  | plus, a, b => some (.number (a.count + b.count))
  | minus, a, b => some (.number (a.count - b.count))
  | multiply, a, b => some (.number (a.count * b.count))
  | modulo, a, b => if b.count = 0 then none else some (.number (a.count.fmod b.count))
  | equals, a, b => some (.truth (a.count = b.count))
  | notEquals, a, b => some (.truth (a.count ≠ b.count))
  | greater, a, b => some (.truth (b.count < a.count))
  | greaterEqual, a, b => some (.truth (b.count ≤ a.count))
  | less, a, b => some (.truth (a.count < b.count))
  | lessEqual, a, b => some (.truth (a.count ≤ b.count))

/-- What an operator yields, or its place where there is no result. -/
def Operator.yield {π : Type} (operator : Operator) (place : π) (a b : Datum) : Except π Datum :=
  match operator.apply a b with
  | some result => .ok result
  | none => .error place

/-- The meaning of a formula, or the place of the first operator that has no
result. Both operands are evaluated, the left one first. -/
def Formula.meaning {π : Type} : Formula π → Except π Datum
  | .number _ numeral => .ok (.number numeral.value)
  | .truth _ b => .ok (.truth b)
  | .unary _ sign right => do
      let a ← right.meaning
      return sign.apply a
  | .binary place operator left right => do
      let a ← left.meaning
      let b ← right.meaning
      operator.yield place a b

/-! ## Printed forms -/

/-- A token of a printed formula, with its place unless it is a parenthesis. -/
inductive Symbol (π : Type) where
  | leftParen
  | rightParen
  | number (place : π) (numeral : Numeral)
  | truth (place : π) (b : Bool)
  | sign (place : π) (own : Sign)
  | operator (place : π) (own : Operator)

def Sign.text : Sign → List Char
  | minus => ['-']
  | not => ['!']

def Operator.text : Operator → List Char
  | plus => ['+']
  | minus => ['-']
  | multiply => ['*']
  | modulo => ['%']
  | equals => ['=', '=']
  | notEquals => ['!', '=']
  | greater => ['>']
  | greaterEqual => ['>', '=']
  | less => ['<']
  | lessEqual => ['<', '=']

/-- The level at which an operator joins its operands. -/
def Operator.level : Operator → Level
  | plus | minus => .sum
  | multiply | modulo => .product
  | equals | notEquals => .equality
  | greater | greaterEqual | less | lessEqual => .comparison

def truthText (b : Bool) : List Char :=
  if b then ['t', 'r', 'u', 'e'] else ['f', 'a', 'l', 's', 'e']

def Symbol.text {π : Type} : Symbol π → List Char
  | leftParen => ['(']
  | rightParen => [')']
  | number _ numeral => numeral.text
  | truth _ b => truthText b
  | sign _ own => own.text
  | operator _ own => own.text

def Formula.level {π : Type} : Formula π → Level
  | .number .. | .truth .. => .primary
  | .unary .. => .sign
  | .binary _ operator .. => operator.level

/-- Parentheses around what binds more loosely than its place requires. -/
def enclosed {π : Type} (required own : Level) (symbols : List (Symbol π)) : List (Symbol π) :=
  if own.rank < required.rank then .leftParen :: symbols ++ [.rightParen] else symbols

def Formula.printed {π : Type} : Formula π → List (Symbol π)
  | .number place numeral => [.number place numeral]
  | .truth place b => [.truth place b]
  | .unary place sign right => .sign place sign :: enclosed .sign right.level right.printed
  | .binary place operator left right =>
      enclosed operator.level left.level left.printed ++
        .operator place operator :: enclosed operator.level.next right.level right.printed

/-- A text that consists of these words with blanks between them. -/
inductive Spread : List (List Char) → List Char → Prop where
  | gap {text : List Char} (hGap : text.all isGap = true) : Spread [] text
  | word {gap word rest : List Char} {words : List (List Char)} (hGap : gap.all isGap = true)
      (hFree : Free rest) (hRest : Spread words rest) :
      Spread (word :: words) (gap ++ (word ++ rest))

/-! ## Tokens of a printed formula -/

namespace Numeral

variable (numeral : Numeral)

theorem isDigit_of_mem_text {c : Char} (h : c ∈ numeral.text) : c.isDigit = true := by
  have hDigits : ∀ digit : Fin 10, (Nat.digitChar digit.val).isDigit = true := by decide
  obtain ⟨digit, -, rfl⟩ := List.mem_map.mp h
  exact hDigits digit

theorem text_ne_nil : numeral.text ≠ [] :=
  fun h => numeral.nonempty (List.map_eq_nil_iff.mp h)

/-- A numeral is short enough to be read. -/
theorem length_text : numeral.text.length ≤ Integer.digitLimit := by
  unfold text
  rw [List.length_map]
  exact numeral.short

/-- The text is read as the number that the numeral writes. -/
theorem ofDigits_text :
    Integer.ofDigits (numeral.text.map fun c => c.toNat - 48) = numeral.value := by
  have hDigits : ∀ digit : Fin 10, (Nat.digitChar digit.val).toNat - 48 = digit.val := by decide
  have hFold : ∀ digits : List Nat,
      digits.foldl (fun total digit => total * 10 + digit) 0 = Nat.ofDigits 10 digits.reverse := by
    intro digits
    induction digits using List.reverseRecOn with
    | nil => rfl
    | append_singleton digits digit ih =>
        rw [List.foldl_append, ih, List.reverse_append]
        simp [Nat.ofDigits_cons, Nat.add_comm, Nat.mul_comm]
  unfold Integer.ofDigits text value
  rw [hFold, List.map_map, List.map_reverse]
  congr 2
  exact List.map_congr_left fun digit _ => hDigits digit

/-- A numeral stands for a number that is short enough to be shown. -/
theorem value_lt : numeral.value < Nat.pow 10 Integer.digitLimit := by
  rw [← ofDigits_text]
  exact Integer.ofDigits_chars_lt (fun _ => numeral.isDigit_of_mem_text) numeral.length_text

end Numeral

def Sign.kind : Sign → TokenKind
  | minus => .minus
  | not => .not

def Operator.kind : Operator → TokenKind
  | plus => .plus
  | minus => .minus
  | multiply => .multiply
  | modulo => .modulo
  | equals => .equals
  | notEquals => .notEquals
  | greater => .greater
  | greaterEqual => .greaterEqual
  | less => .less
  | lessEqual => .lessEqual

/-- A sign is scanned from its text alone. -/
theorem Sign.lexes (own : Sign) (line column : Int) :
    Token.Lexes ⟨own.kind, String.ofList own.text, .nothing, line, column⟩ := by
  cases own with
  | minus => exact Token.lexes_minus line column
  | not => exact Token.lexes_not line column

/-- An operator is scanned from its text alone, also where its first character is one itself. -/
theorem Operator.lexes (own : Operator) (line column : Int) :
    Token.Lexes ⟨own.kind, String.ofList own.text, .nothing, line, column⟩ := by
  cases own with
  | plus => exact Token.lexes_symbol line column rfl
  | minus => exact Token.lexes_minus line column
  | multiply => exact Token.lexes_symbol line column rfl
  | modulo => exact Token.lexes_symbol line column rfl
  | equals => exact Token.lexes_pair line column (by decide)
  | notEquals => exact Token.lexes_pair line column (by decide)
  | greater => exact Token.lexes_greater line column
  | greaterEqual => exact Token.lexes_pair line column (by decide)
  | less => exact Token.lexes_less line column
  | lessEqual => exact Token.lexes_pair line column (by decide)

theorem lexes_truth (b : Bool) (line column : Int) :
    Token.Lexes ⟨.boolean, String.ofList (truthText b), .bool b, line, column⟩ := by
  cases b with
  | true =>
      change Token.Lexes ⟨.boolean, String.ofList ('t' :: ['r', 'u', 'e']), .bool true, _, _⟩
      exact Token.lexes_word line column (by decide) (by decide) (by decide) (by decide) (by decide)
        (by decide) rfl
  | false =>
      change Token.Lexes ⟨.boolean, String.ofList ('f' :: ['a', 'l', 's', 'e']), .bool false, _, _⟩
      exact Token.lexes_word line column (by decide) (by decide) (by decide) (by decide) (by decide)
        (by decide) rfl

namespace Symbol

variable {π : Type}

def kind : Symbol π → TokenKind
  | leftParen => .leftParen
  | rightParen => .rightParen
  | number .. => .integer
  | truth .. => .boolean
  | sign _ own => own.kind
  | operator _ own => own.kind

def literal : Symbol π → Value
  | number _ numeral => .int numeral.value
  | truth _ b => .bool b
  | _ => .nothing

def tokenAt (symbol : Symbol π) (place : Place) : Token :=
  ⟨symbol.kind, String.ofList symbol.text, symbol.literal, place.line, place.column⟩

def replace {ρ : Type} (place : ρ) : Symbol π → Symbol ρ
  | leftParen => .leftParen
  | rightParen => .rightParen
  | number _ numeral => .number place numeral
  | truth _ b => .truth place b
  | sign _ own => .sign place own
  | operator _ own => .operator place own

/-- The piece of a printed form that a symbol is. -/
def piece : Symbol Place → Piece
  | leftParen => .mark .leftParen
  | rightParen => .mark .rightParen
  | number place numeral => .word ((number place numeral).tokenAt place)
  | truth place b => .word ((truth place b).tokenAt place)
  | sign place own => .word ((sign place own).tokenAt place)
  | operator place own => .word ((operator place own).tokenAt place)

/-- Every symbol is scanned from its text alone, wherever it stands. -/
theorem tokenAt_lexes (symbol : Symbol π) (place : Place) : (symbol.tokenAt place).Lexes := by
  cases symbol with
  | leftParen => exact Token.lexes_symbol _ _ rfl
  | rightParen => exact Token.lexes_symbol _ _ rfl
  | number label numeral =>
      have hLexes := Token.lexes_number (fun _ => numeral.isDigit_of_mem_text) numeral.text_ne_nil
        numeral.length_text place.line place.column
      rw [numeral.ofDigits_text] at hLexes
      exact hLexes
  | truth label b => exact lexes_truth b place.line place.column
  | sign label own => exact own.lexes place.line place.column
  | operator label own => exact own.lexes place.line place.column

end Symbol

end Mus.Arithmetic
