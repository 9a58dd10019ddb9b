import Mus.Proofs.Arithmetic.Evaluation
import Mus.Proofs.Session.Running
import Mus.Proofs.Syntax.RoundTrip

/-! Formulas from their text to their meaning: a session that runs the
declaration of a variable with a formula as initializer binds the variable to
what the formula means. -/
namespace Mus.Arithmetic

open Written

/-! ## Declarations -/

/-- There is nothing to load in a formula. -/
theorem load_term (formula : Formula Place) :
    formula.term.expr.load = pure formula.term.expr := by
  induction formula with
  | number place numeral => rfl
  | truth place b => rfl
  | unary place sign right ih =>
      rw [Formula.term, Term.expr, Expr.load, ih]
      rfl
  | binary place operator left right ihLeft ihRight =>
      rw [Formula.term, Term.expr, Expr.load, ihLeft, ihRight]
      rfl

section

variable {decl : VarDecl} {formula : Formula Place}

/-- A formula has no lists, so that loading leaves its declaration as it is. -/
theorem loadAll_varDecl (hInitializer : decl.initializer = some formula.term.expr) :
    Stmt.loadAll [.varDecl decl] = pure [.varDecl decl] := by
  obtain ⟨name, typeName, initializer, token⟩ := decl
  cases hInitializer
  have hLoad : Expr.load? (some formula.term.expr) = pure (some formula.term.expr) := by
    rw [Expr.load?, load_term]
    rfl
  rw [Stmt.loadAll, Stmt.load, VarDecl.load, hLoad]
  rfl

/-- A machine on which a variable has been declared with a value. -/
def bound (decl : VarDecl) (value : Value) (machine : Machine) : Machine :=
  { machine with
    store := machine.store.defineVariable machine.current decl.name (some decl.typeName) value }

/-- What a machine answers to the declaration of a variable with a formula. -/
def declared (decl : VarDecl) (machine : Machine) :
    Except Place Datum → EStateM.Result Fault Machine Unit
  | .ok datum => .ok () (bound decl datum.value machine)
  | .error place => .error (.runtime ⟨.moduloByZero, operatorToken .modulo place⟩) machine

/-- A declaration with a formula is executed to what the formula means. -/
theorem execute_varDecl (machine : Machine) (room : Nat) {fuel : Nat}
    (hInitializer : decl.initializer = some formula.term.expr)
    (hType : Run.elementType? decl.typeName = none) (hFuel : formula.term.expr.size ≤ fuel) :
    Run.execute (fuel + 1) room (.varDecl decl) machine =
      declared decl machine formula.meaning := by
  have hValue : ∀ value : Value, Run.initialValue decl.typeName value = pure value := by
    intro value
    unfold Run.initialValue
    rw [hType]
  have hEvaluate := evaluate_term machine room formula hFuel
  rw [Run.execute]
  dsimp only
  rw [hInitializer]
  cases hMeaning : formula.meaning with
  | ok datum =>
      rw [hMeaning] at hEvaluate
      refine (bind_ok hEvaluate).trans ?_
      rw [hValue]
      rfl
  | error place =>
      rw [hMeaning] at hEvaluate
      exact bind_error hEvaluate

/-- The bound of a whole run is large enough for any formula. -/
theorem interpret_varDecl (machine : Machine)
    (hInitializer : decl.initializer = some formula.term.expr)
    (hType : Run.elementType? decl.typeName = none) :
    Run.interpret [.varDecl decl] machine = declared decl machine formula.meaning := by
  have hSize : Stmt.sizeAll [.varDecl decl] = formula.term.expr.size + 4 := by
    rw [Stmt.sizeAll, Stmt.size, hInitializer]
    rfl
  -- One step is spent on the list of statements and one on the declaration.
  obtain ⟨fuel, hFuel, hBound⟩ : ∃ fuel, formula.term.expr.size ≤ fuel ∧
      Run.stepBound (Stmt.sizeAll [.varDecl decl]) = fuel + 2 := by
    refine ⟨1000000000000 + formula.term.expr.size + 2, by omega, ?_⟩
    rw [hSize, Run.stepBound]
    omega
  have hExecute := execute_varDecl machine Run.constructorLimit hInitializer hType hFuel
  unfold Run.interpret Run.wrapped
  rw [hBound, Run.executeAll]
  cases hMeaning : formula.meaning with
  | ok datum =>
      rw [hMeaning] at hExecute
      rw [bind_ok hExecute, Run.executeAll]
      rfl
  | error place =>
      rw [hMeaning] at hExecute
      rw [bind_error hExecute]
      rfl

/-- A session after the declaration of a variable with a formula. -/
def concluded (decl : VarDecl) (session : Session) : Except Place Datum → Session
  | .ok datum => { session with machine := bound decl datum.value session.machine }
  | .error place => session.fault (.runtime ⟨.moduloByZero, operatorToken .modulo place⟩)

/-- What a session makes of the outcome: the variable is bound, or the fault is reported. -/
theorem interpret_eq_concluded (session : Session)
    (hInitializer : decl.initializer = some formula.term.expr)
    (hType : Run.elementType? decl.typeName = none) :
    session.interpret [.varDecl decl] = concluded decl session formula.meaning := by
  have hLoad : Run.load (Stmt.loadAll [.varDecl decl]) session.machine =
      .ok [.varDecl decl] session.machine := by
    rw [loadAll_varDecl hInitializer]
    rfl
  unfold Session.interpret
  dsimp only
  rw [bind_ok hLoad, interpret_varDecl session.machine hInitializer hType]
  cases formula.meaning <;> rfl

end

/-! ## Sources -/

/-- A formula whose places are those at which it stands in a text. -/
def Formula.StandsIn (formula : Formula Place) (place : Place) (text : List Char) : Prop :=
  ∃ tokens, Printed (formula.printed.map Symbol.piece) tokens ∧ Laid place tokens text ∧
    ∀ token ∈ tokens, token.Lexes

/-- However its printed form is spread out, a formula stands in the text. -/
theorem exists_standsIn {formula : Formula Unit} {text : List Char}
    (h : Spread (formula.printed.map Symbol.text) text) (place : Place) :
    ∃ placed : Formula Place, placed.erase = formula ∧ placed.StandsIn place text := by
  obtain ⟨symbols, tokens, hSymbols, hPrinted, hLaid, hLexes⟩ := exists_placed h place
  obtain ⟨placed, hErase, rfl⟩ := exists_formula hSymbols
  exact ⟨placed, hErase, tokens, hPrinted, hLaid, hLexes⟩

def opening : List Token :=
  [⟨.varWord, "var", .nothing, 1, 1⟩, (nameAt "x" 1 5).token, ⟨.arrow, "=>", .nothing, 1, 7⟩,
    (nameAt "integer" 1 10).token, ⟨.assign, "=", .nothing, 1, 18⟩]

/-- What is laid out behind the opening of a declaration is laid out with it. -/
theorem laid_opening {tokens : List Token} {text : List Char} (h : Laid ⟨1, 20⟩ tokens text) :
    Laid ⟨1, 1⟩ (opening ++ tokens) ("var x => integer = ".toList ++ text) := by
  have hAssign := Laid.word_blank ⟨.assign, "=", .nothing, 1, 18⟩ ⟨rfl, rfl⟩ (by decide) h
  have hType := Laid.word_blank (nameAt "integer" 1 10).token ⟨rfl, rfl⟩ (by decide) hAssign
  have hArrow := Laid.word_blank ⟨.arrow, "=>", .nothing, 1, 7⟩ ⟨rfl, rfl⟩ (by decide) hType
  have hName := Laid.word_blank (nameAt "x" 1 5).token ⟨rfl, rfl⟩ (by decide) hArrow
  exact Laid.word_blank ⟨.varWord, "var", .nothing, 1, 1⟩ ⟨rfl, rfl⟩ (by decide) hName

theorem lexes_opening : ∀ token ∈ opening, token.Lexes := by
  intro token hToken
  simp only [opening, List.mem_cons, List.not_mem_nil, or_false] at hToken
  rcases hToken with rfl | rfl | rfl | rfl | rfl
  · change Token.Lexes ⟨.varWord, String.ofList ('v' :: ['a', 'r']), .nothing, _, _⟩
    exact Token.lexes_word _ _ (by decide) (by decide) (by decide) (by decide) (by decide)
      (by decide) rfl
  · change Token.Lexes ⟨.identifier, String.ofList ('x' :: []), .nothing, _, _⟩
    exact Token.lexes_word _ _ (by decide) (by decide) (by decide) (by decide) (by decide)
      (by decide) rfl
  · exact Token.lexes_pair _ _ (by decide)
  · change Token.Lexes
      ⟨.identifier, String.ofList ('i' :: ['n', 't', 'e', 'g', 'e', 'r']), .nothing, _, _⟩
    exact Token.lexes_word _ _ (by decide) (by decide) (by decide) (by decide) (by decide)
      (by decide) rfl
  · exact Token.lexes_assign _ _

def declaration (formula : Formula Place) : Declaration :=
  .variable ⟨nameAt "x" 1 5, nameAt "integer" 1 10, some formula.term⟩

/-- The opening and a printed formula are a printed declaration. -/
theorem printed_declaration {formula : Formula Place} {tokens : List Token}
    (h : Printed (formula.printed.map Symbol.piece) tokens) :
    Printed (Declaration.printAll [declaration formula]) (opening ++ tokens) := by
  have hTerm : formula.term.print .assignment = formula.printed.map Symbol.piece := by
    have hRank : ¬formula.term.level.rank < Level.assignment.rank := Nat.not_lt_zero _
    unfold Term.print grouped
    rw [if_neg hRank, formula.body_term]
  change Printed (.mark .varWord :: .word _ :: .mark .arrow :: .word _ :: .mark .assign ::
    formula.term.print .assignment ++ []) (opening ++ tokens)
  rw [List.append_nil, hTerm]
  exact .cons rfl (.cons rfl (.cons rfl (.cons rfl (.cons rfl h))))

/-- A session that runs the source concludes what the formula means. -/
theorem exists_run_declaration (session : Session) (hSession : session.hadError = false)
    {formula : Formula Place} {text : List Char} (h : formula.StandsIn ⟨1, 20⟩ text) :
    ∃ told, session.run ("var x => integer = " ++ String.ofList text) =
      concluded ⟨"x", "integer", some formula.term.expr, (nameAt "x" 1 5).token⟩
        (session.printed told) formula.meaning := by
  obtain ⟨tokens, hPrinted, hLaid, hLexes⟩ := h
  have hAll : ∀ token ∈ opening ++ tokens, token.Lexes := by
    intro token hToken
    rcases List.mem_append.mp hToken with hToken | hToken
    · exact lexes_opening token hToken
    · exact hLexes token hToken
  -- From the text to its tokens, from the tokens to the declaration, which is then run.
  obtain ⟨mark, hMark, hTokens⟩ := tokenize_laid (laid_opening hLaid) hAll
  rw [String.ofList_append, String.ofList_toList] at hTokens
  have hFits : Declaration.FitAll .eof [declaration formula] := ⟨trivial, by decide, trivial⟩
  have hParse := parse_of_reads (Parse.reads_program (printed_declaration hPrinted) hFits) hMark
  have hType : Run.elementType? "integer" = none := by decide
  obtain ⟨told, hRun⟩ := @Session.exists_run session _ _ _ hTokens hParse
  rw [hSession] at hRun
  exact ⟨told, hRun.trans (interpret_eq_concluded _ rfl hType)⟩

/-- Arithmetic from a text to its value. However the printed form of a formula
is spread out, a new session that runs the declaration of a variable with this
initializer binds the variable to what the formula means. If its evaluation
meets a remainder by zero first, the variable is not bound, and the session
complains at the token of that operator, where it stands in the text. -/
theorem run_formula (debug : Bool) {formula : Formula Unit} {text : List Char}
    (hText : Spread (formula.printed.map Symbol.text) text) :
    let after := (Session.start debug).run ("var x => integer = " ++ String.ofList text)
    let x? := (after.machine.store.scope after.machine.globals).bindings.find? "x"
    after.hadError = false ∧
      match formula.meaning with
      | .ok datum => x? = some (some "integer", datum.value) ∧ after.hadRuntimeError = false
      | .error () =>
          x? = none ∧ after.hadRuntimeError = true ∧
            ∃ (placed : Formula Place) (place : Place) (told : String),
              placed.erase = formula ∧ placed.StandsIn ⟨1, 20⟩ text ∧
                placed.meaning = .error place ∧
                after = ((Session.start debug).printed told).fault
                  (.runtime ⟨.moduloByZero, operatorToken .modulo place⟩) := by
  obtain ⟨placed, rfl, hStands⟩ := exists_standsIn hText ⟨1, 20⟩
  obtain ⟨told, hRun⟩ := exists_run_declaration (Session.start debug) rfl hStands
  dsimp only
  rw [hRun, placed.meaning_erase]
  cases hMeaning : placed.meaning with
  | ok datum => exact ⟨rfl, rfl, rfl⟩
  | error place =>
      obtain ⟨more, hFault⟩ := ((Session.start debug).printed told).exists_fault_runtime
        ⟨.moduloByZero, operatorToken .modulo place⟩
      refine ⟨?_, ?_, ?_, placed, place, told, rfl, hStands, hMeaning, rfl⟩
      · rw [concluded, hFault]
        rfl
      · rw [concluded, hFault]
        rfl
      · rw [concluded, hFault]

/-- A sum of a negative remainder and a truth value. -/
def sampleFormula : Formula Unit :=
  .binary () .plus
    (.binary () .modulo (.unary () .minus (.number () ⟨[7], by decide, by decide⟩))
      (.number () ⟨[1, 0], by decide, by decide⟩))
    (.truth () true)

def sampleText : List Char :=
  "- 7 % 10\n  + true".toList

/-- A remainder has the sign of the divisor, and true counts as one. -/
theorem run_sampleFormula :
    Spread (sampleFormula.printed.map Symbol.text) sampleText ∧
      let after := (Session.start false).run ("var x => integer = " ++ String.ofList sampleText)
      (after.machine.store.scope after.machine.globals).bindings.find? "x" =
          some (some "integer", .int 4) ∧ after.hadRuntimeError = false := by
  have hTrue := @Spread.word [' '] (truthText true) [] [] rfl (by simp [Free]) (.gap rfl)
  have hPlus := @Spread.word ['\n', ' ', ' '] ['+'] _ _ rfl (free_cons rfl _) hTrue
  have hTen := @Spread.word [' '] ['1', '0'] _ _ rfl (free_cons rfl _) hPlus
  have hModulo := @Spread.word [' '] ['%'] _ _ rfl (free_cons rfl _) hTen
  have hSeven := @Spread.word [' '] ['7'] _ _ rfl (free_cons rfl _) hModulo
  have hText : Spread (sampleFormula.printed.map Symbol.text) sampleText :=
    @Spread.word [] ['-'] _ _ rfl (free_cons rfl _) hSeven
  exact ⟨hText, (run_formula false hText).2⟩

end Mus.Arithmetic
