import Mus.Proofs.Arithmetic.Formula

/-! Formulas in a text. However the printed form of a formula is spread out, its
numbers, truth values and operators have places, and the formula with these
places is an expression of the language with the same printed form. -/
namespace Mus.Arithmetic

open Written

def Formula.erase {π : Type} : Formula π → Formula Unit
  | .number _ numeral => .number () numeral
  | .truth _ b => .truth () b
  | .unary _ sign right => .unary () sign right.erase
  | .binary _ operator left right => .binary () operator left.erase right.erase

/-- Places only say where there is no meaning. -/
theorem Formula.meaning_erase {π : Type} (formula : Formula π) :
    formula.erase.meaning = formula.meaning.mapError fun _ => () := by
  induction formula with
  | number place numeral => rfl
  | truth place b => rfl
  | unary place sign right ih =>
      rw [erase, meaning, meaning, ih]
      cases right.meaning <;> rfl
  | binary place operator left right ihLeft ihRight =>
      rw [erase, meaning, meaning, ihLeft, ihRight]
      cases left.meaning with
      | error first => rfl
      | ok a =>
          cases right.meaning with
          | error first => rfl
          | ok b =>
              change operator.yield () a b = (operator.yield place a b).mapError fun _ => ()
              unfold Operator.yield
              cases operator.apply a b <;> rfl

/-! ## Places -/

theorem Symbol.replace_replace (symbol : Symbol Unit) (place : Place) :
    (symbol.replace place).replace () = symbol := by
  cases symbol <;> rfl

/-- A symbol is one without place, put at a place. -/
theorem Symbol.exists_replace {placed : Symbol Place} {symbol : Symbol Unit}
    (h : placed.replace () = symbol) : ∃ place, placed = symbol.replace place := by
  cases h
  cases placed with
  | leftParen => exact ⟨⟨1, 1⟩, rfl⟩
  | rightParen => exact ⟨⟨1, 1⟩, rfl⟩
  | number place _ => exact ⟨place, rfl⟩
  | truth place _ => exact ⟨place, rfl⟩
  | sign place _ => exact ⟨place, rfl⟩
  | operator place _ => exact ⟨place, rfl⟩

/-- The piece of a symbol is matched by the token of the symbol at its place. -/
theorem Symbol.piece_matches (symbol : Symbol Unit) (place : Place) :
    (symbol.replace place).piece.Matches (symbol.tokenAt place) := by
  cases symbol <;> rfl

/-- The symbols of a text get the places where they stand in it. -/
theorem exists_placed {symbols : List (Symbol Unit)} {text : List Char}
    (h : Spread (symbols.map Symbol.text) text) (place : Place) :
    ∃ (placed : List (Symbol Place)) (tokens : List Token),
      placed.map (Symbol.replace ()) = symbols ∧ Printed (placed.map Symbol.piece) tokens ∧
        Laid place tokens text ∧ ∀ token ∈ tokens, token.Lexes := by
  -- Induction on the text, word by word; the place moves on with it.
  generalize hWords : symbols.map Symbol.text = words at h
  induction h generalizing symbols place with
  | gap hGap =>
      rw [List.map_eq_nil_iff] at hWords
      exact ⟨[], [], hWords.symm, .nil, .gap hGap, fun _ h => absurd h List.not_mem_nil⟩
  | @word gap word rest words hGap hFree _ ih =>
      obtain ⟨symbol, others, rfl, rfl, hOthers⟩ := List.map_eq_cons_iff.mp hWords
      let token := symbol.tokenAt (place.afterAll gap)
      have hText : token.lexeme.toList = symbol.text := String.toList_ofList
      obtain ⟨placed, tokens, hErase, hPrinted, hLaid, hLexes⟩ :=
        ih ((place.afterAll gap).afterAll token.lexeme.toList) hOthers
      refine ⟨symbol.replace (place.afterAll gap) :: placed, token :: tokens, ?_, ?_, ?_, ?_⟩
      · rw [List.map_cons, symbol.replace_replace, hErase]
      · exact .cons (symbol.piece_matches _) hPrinted
      · rw [← hText]
        exact .word hGap ⟨rfl, rfl⟩ hFree hLaid
      · intro other hOther
        rcases List.mem_cons.mp hOther with rfl | hOther
        · exact symbol.tokenAt_lexes _
        · exact hLexes other hOther

/-- Places for the symbols of what stands at a place that requires a level. -/
theorem exists_enclosed {required own : Level} {symbols : List (Symbol Unit)}
    {placed : List (Symbol Place)}
    (h : placed.map (Symbol.replace ()) = enclosed required own symbols) :
    ∃ inner, placed = enclosed required own inner ∧ inner.map (Symbol.replace ()) = symbols := by
  unfold enclosed at h ⊢
  split
  · next hRank =>
    rw [if_pos hRank] at h
    obtain ⟨front, back, rfl, hFront, hBack⟩ := List.map_eq_append_iff.mp h
    obtain ⟨paren, inner, rfl, hParen, hInner⟩ := List.map_eq_cons_iff.mp hFront
    obtain ⟨close, rest, rfl, hClose, hRest⟩ := List.map_eq_cons_iff.mp hBack
    cases List.map_eq_nil_iff.mp hRest
    obtain ⟨_, rfl⟩ := Symbol.exists_replace hParen
    obtain ⟨_, rfl⟩ := Symbol.exists_replace hClose
    exact ⟨inner, rfl, hInner⟩
  · next hRank =>
    rw [if_neg hRank] at h
    exact ⟨placed, rfl, h⟩

/-- Places for the symbols of a printed formula are places for the formula. -/
theorem exists_formula {formula : Formula Unit} {placed : List (Symbol Place)}
    (h : placed.map (Symbol.replace ()) = formula.printed) :
    ∃ own : Formula Place, own.erase = formula ∧ own.printed = placed := by
  have hLevel : ∀ own : Formula Place, own.erase.level = own.level := by
    intro own
    cases own <;> rfl
  induction formula generalizing placed with
  | number _ numeral =>
      obtain ⟨symbol, rest, rfl, hSymbol, hRest⟩ := List.map_eq_cons_iff.mp h
      cases List.map_eq_nil_iff.mp hRest
      obtain ⟨place, rfl⟩ := Symbol.exists_replace hSymbol
      exact ⟨.number place numeral, rfl, rfl⟩
  | truth _ b =>
      obtain ⟨symbol, rest, rfl, hSymbol, hRest⟩ := List.map_eq_cons_iff.mp h
      cases List.map_eq_nil_iff.mp hRest
      obtain ⟨place, rfl⟩ := Symbol.exists_replace hSymbol
      exact ⟨.truth place b, rfl, rfl⟩
  | unary _ sign right ih =>
      obtain ⟨symbol, rest, rfl, hSymbol, hRest⟩ := List.map_eq_cons_iff.mp h
      obtain ⟨inner, rfl, hInner⟩ := exists_enclosed hRest
      obtain ⟨own, rfl, rfl⟩ := ih hInner
      obtain ⟨place, rfl⟩ := Symbol.exists_replace hSymbol
      refine ⟨.unary place sign own, rfl, ?_⟩
      rw [Formula.printed, hLevel]
      rfl
  | binary _ operator left right ihLeft ihRight =>
      -- The symbols are those of the left operand, the operator and the right operand.
      obtain ⟨front, back, rfl, hFront, hBack⟩ := List.map_eq_append_iff.mp h
      obtain ⟨symbol, rest, rfl, hSymbol, hRest⟩ := List.map_eq_cons_iff.mp hBack
      obtain ⟨first, rfl, hFirst⟩ := exists_enclosed hFront
      obtain ⟨second, rfl, hSecond⟩ := exists_enclosed hRest
      obtain ⟨ownLeft, rfl, rfl⟩ := ihLeft hFirst
      obtain ⟨ownRight, rfl, rfl⟩ := ihRight hSecond
      obtain ⟨place, rfl⟩ := Symbol.exists_replace hSymbol
      refine ⟨.binary place operator ownLeft ownRight, rfl, ?_⟩
      rw [Formula.printed, hLevel, hLevel]
      rfl

/-! ## Expressions of the language -/

namespace Symbol

variable {π : Type}

theorem literal_plain (symbol : Symbol π) : symbol.literal.Plain := by
  cases symbol with
  | number _ numeral =>
      change (numeral.value : Int).natAbs < Nat.pow 10 Integer.digitLimit
      rw [Int.natAbs_natCast]
      exact numeral.value_lt
  | leftParen | rightParen | truth | sign | operator => exact trivial

/-- The token of a symbol of known kinds, as a word. -/
def word (symbol : Symbol π) (place : Place) {kinds : List TokenKind}
    (h : symbol.kind ∈ kinds) : Word kinds :=
  ⟨symbol.tokenAt place, h, symbol.literal_plain.described⟩

end Symbol

theorem Sign.kind_mem (sign : Sign) : sign.kind ∈ [TokenKind.not, .minus] := by
  cases sign <;> decide

/-- An operator of a formula is one of the operators that join the operands of its level. -/
theorem Operator.kind_mem (operator : Operator) : operator.kind ∈ operator.level.operators := by
  cases operator <;> decide

def Formula.term : Formula Place → Term
  | .number place numeral =>
      .literal ((Symbol.number place numeral).word place
        (show TokenKind.integer ∈ [TokenKind.integer, .string, .boolean] by decide))
  | .truth place b =>
      .literal ((Symbol.truth place b).word place
        (show TokenKind.boolean ∈ [TokenKind.integer, .string, .boolean] by decide))
  | .unary place sign right => .unary ((Symbol.sign place sign).word place sign.kind_mem) right.term
  | .binary place operator left right =>
      .binary operator.level left.term
        ((Symbol.operator place operator).word place operator.kind_mem) right.term

/-- A formula binds as tightly as the term that it stands for. -/
theorem Formula.level_term (formula : Formula Place) : formula.term.level = formula.level := by
  cases formula <;> rfl

/-- Symbols and pieces get their parentheses by the same rule. -/
theorem grouped_map_piece (required own : Level) (symbols : List (Symbol Place)) :
    grouped required own (symbols.map Symbol.piece) =
      (enclosed required own symbols).map Symbol.piece := by
  unfold grouped enclosed
  split
  · rw [List.map_append]
    rfl
  · rfl

/-- Both have the same printed form. -/
theorem Formula.body_term (formula : Formula Place) :
    formula.term.body = formula.printed.map Symbol.piece := by
  induction formula with
  | number place numeral => rfl
  | truth place b => rfl
  | unary place sign right ih =>
      rw [Formula.term, Term.body, ih, level_term, grouped_map_piece]
      rfl
  | binary place operator left right ihLeft ihRight =>
      rw [Formula.term, Term.body, ihLeft, ihRight, level_term, level_term, grouped_map_piece,
        grouped_map_piece, Formula.printed, List.map_append]
      rfl

end Mus.Arithmetic
