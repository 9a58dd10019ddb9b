import Mus.Proofs.Syntax.Progress
import Mus.Proofs.Syntax.Reading

/-! Parsing undoes printing: the printed form of a program, followed by an end
mark, is parsed to the syntax tree of the program without a syntax error, if no
declaration of the program could be taken to go on with what follows it. -/
namespace Mus.Parse

open Written

section

variable {α : Type} {parser yes no : Parse α} {tokens : List Token} {value : α}
  {behind : TokenKind → Prop}

/-- Whether a token is there is noted. -/
theorem takes_accept_there {token : Token} {kinds : List TokenKind} (hKind : token.kind ∈ kinds)
    (hEnd : .eof ∉ kinds) : Takes (accept kinds) [token] true behind :=
  fun _ _ _ _ _ => accept_of_mem _ _ _ (ne_of_mem_of_not_mem hKind hEnd) hKind

theorem takes_accept_missing (kinds : List TokenKind) :
    Takes (accept kinds) [] false (· ∉ kinds) :=
  fun _ _ _ _ hKind => accept_of_not_mem _ _ _ hKind

/-- The end of a list of declarations. -/
theorem takes_closed (hBehind : ∀ kind, behind kind → kind = .rightBrace)
    (hYes : Takes yes [] value behind) :
    Takes (do if (← check .rightBrace) || (← atEnd) then yes else no) [] value behind := by
  intro before token rest recovered hKind
  rw [← hYes _ _ _ _ hKind]
  refine (unlessClosed_cons _ _ _ _ _).trans ?_
  exact if_pos (.inl (hBehind _ hKind))

/-- Neither a closing brace nor the end mark follows, so that there is more to read. -/
theorem takes_notClosed
    (hNext : ∀ kind, Next tokens behind kind → kind ∉ [TokenKind.rightBrace, .eof])
    (hNo : Takes no tokens value behind) :
    Takes (do if (← check .rightBrace) || (← atEnd) then yes else no) tokens value behind := by
  intro before token rest recovered hKind
  rw [← hNo _ _ _ _ hKind]
  have hOpen : ∀ token : Token, token.kind ∉ [TokenKind.rightBrace, .eof] →
      ¬(token.kind = .rightBrace ∨ token.kind = .eof) := by
    intro token hToken
    simpa using hToken
  cases tokens with
  | nil => exact (unlessClosed_cons _ _ _ _ _).trans (if_neg (hOpen _ (hNext _ hKind)))
  | cons first others => exact (unlessClosed_cons _ _ _ _ _).trans (if_neg (hOpen _ (hNext _ rfl)))

theorem takes_notEnded (hNext : ∀ kind, Next tokens behind kind → kind ≠ .eof)
    (hNo : Takes no tokens value behind) :
    Takes (do if ← atEnd then yes else no) tokens value behind := by
  intro before token rest recovered hKind
  rw [← hNo _ _ _ _ hKind]
  cases tokens with
  | nil => exact (unlessEnded_cons _ _ _ _ _).trans (if_neg (hNext _ hKind))
  | cons first others => exact (unlessEnded_cons _ _ _ _ _).trans (if_neg (hNext _ rfl))

/-- What is read without an error needs no recovery. -/
theorem takes_recovering {parser : Parse Stmt} {stmt : Stmt}
    (h : Takes parser tokens stmt behind) : Takes (recovering parser) tokens stmt behind := by
  intro before token rest recovered hKind
  unfold recovering
  rw [h _ _ _ _ hKind]

end

/-! ## Parts of declarations -/

section

variable {tokens : List Token}

/-- The declaration of a variable is read back. -/
theorem reads_binding {binding : Binding} (hTokens : Printed binding.print tokens) :
    Reads varDeclaration tokens binding.decl Level.assignment.Stops := by
  obtain ⟨name, type, initializer⟩ := binding
  obtain ⟨rest, rfl, hArrow⟩ := printed_word hTokens
  obtain ⟨arrow, rest, rfl, hArrowKind, hType⟩ := printed_mark hArrow
  obtain ⟨rest, rfl, hStart⟩ := printed_word hType
  cases initializer with
  | none =>
      cases printed_nil hStart
      refine ⟨0, fun fuel _ => ?_⟩
      unfold varDeclaration
      refine takes_consume name.kind_mem (by decide) (takes_consume hArrowKind (by decide) ?_)
      refine takes_consume type.kind_mem (by decide) ?_
      refine takes_accept_not (fun kind hKind => ?_) (takes_pure _ _)
      exact hKind .assignment (Nat.le_refl _)
  | some e =>
      obtain ⟨equals, rest, rfl, hEqualsKind, hValue⟩ := printed_mark hStart
      obtain ⟨bound, hReads⟩ := (spells_print hValue).reads
      refine ⟨bound, fun fuel hFuel => ?_⟩
      unfold varDeclaration
      refine takes_consume name.kind_mem (by decide) (takes_consume hArrowKind (by decide) ?_)
      refine takes_consume type.kind_mem (by decide) (takes_accept hEqualsKind (by decide) ?_)
      exact takes_bind_nil (hReads fuel hFuel) (takes_pure _ _)

/-- Parameters are read back up to the closing parenthesis, by induction on them. -/
theorem reads_moreParameters {param : Word [.identifier] × Word [.identifier]}
    {params : List (Word [.identifier] × Word [.identifier])}
    (hTokens : Printed (separated ((param :: params).map printParam)) tokens) :
    Reads moreParameters tokens
      ((param :: params).map fun p => (p.1.token.lexeme, p.2.token.lexeme)) (· = .rightParen) := by
  induction params generalizing param tokens with
  | nil =>
      obtain ⟨rest, rfl, hArrow⟩ := printed_word hTokens
      obtain ⟨arrow, rest, rfl, hArrowKind, hType⟩ := printed_mark hArrow
      obtain ⟨rest, rfl, hEnd⟩ := printed_word hType
      cases printed_nil hEnd
      refine reads_succ fun fuel (_ : 0 ≤ fuel) => ?_
      unfold moreParameters
      refine takes_consume param.1.kind_mem (by decide) (takes_consume hArrowKind (by decide) ?_)
      refine takes_consume param.2.kind_mem (by decide) (takes_accept_not ?_ (takes_pure _ _))
      rintro kind rfl
      decide
  | cons second params ih =>
      obtain ⟨front, back, rfl, hFront, hBack⟩ := printed_append hTokens
      obtain ⟨rest, rfl, hArrow⟩ := printed_word hFront
      obtain ⟨arrow, rest, rfl, hArrowKind, hType⟩ := printed_mark hArrow
      obtain ⟨rest, rfl, hEnd⟩ := printed_word hType
      cases printed_nil hEnd
      obtain ⟨comma, rest, rfl, hCommaKind, hRest⟩ := printed_mark hBack
      obtain ⟨bound, hReads⟩ := ih hRest
      refine reads_succ fun fuel (hFuel : bound ≤ fuel) => ?_
      unfold moreParameters
      refine takes_consume param.1.kind_mem (by decide) (takes_consume hArrowKind (by decide) ?_)
      refine takes_consume param.2.kind_mem (by decide) (takes_accept hCommaKind (by decide) ?_)
      exact takes_bind_nil (hReads fuel (by omega)) (takes_pure _ _)

theorem reads_parameters {params : List (Word [.identifier] × Word [.identifier])}
    (hTokens : Printed (separated (params.map printParam)) tokens) :
    Reads parameters tokens (params.map fun p => (p.1.token.lexeme, p.2.token.lexeme))
      (· = .rightParen) := by
  cases params with
  | nil =>
      cases printed_nil hTokens
      exact ⟨0, fun fuel _ => takes_check (fun _ h => h) (by decide) (takes_pure _ _)⟩
  | cons param params =>
      obtain ⟨bound, hReads⟩ := reads_moreParameters hTokens
      obtain ⟨front, back, rfl, hFront⟩ := printed_separated hTokens
      obtain ⟨rest, rfl, -⟩ := printed_word hFront
      refine ⟨bound, fun fuel hFuel => takes_check_not (fun kind hKind => ?_) (hReads fuel hFuel)⟩
      rw [show kind = param.1.token.kind from hKind, List.mem_singleton.mp param.1.kind_mem]
      decide

/-- The name of the superclass is read back, or its absence. -/
theorem takes_superclassName {superclass : Option (Word [.identifier])}
    (hTokens : Printed (printSuperclass superclass) tokens) :
    Takes superclassName tokens (superclass.map (·.token.lexeme)) (· = .leftBrace) := by
  cases superclass with
  | none =>
      cases printed_nil hTokens
      unfold superclassName
      refine takes_accept_not ?_ (takes_pure _ _)
      rintro kind rfl
      decide
  | some name =>
      obtain ⟨word, rest, rfl, hWordKind, hName⟩ := printed_mark hTokens
      obtain ⟨rest, rfl, hEnd⟩ := printed_word hName
      cases printed_nil hEnd
      unfold superclassName
      exact takes_accept hWordKind (by decide)
        (takes_consume name.kind_mem (by decide) (takes_pure _ _))

end

/-! ## First tokens -/

section

variable {tokens : List Token} {behind : TokenKind}

theorem starts_of_mark {kind : TokenKind} {kinds : List TokenKind} {pieces : List Piece}
    (hKind : kind ∈ kinds) (h : Printed (.mark kind :: pieces) tokens) :
    ∃ token rest, tokens = token :: rest ∧ token.kind ∈ kinds := by
  obtain ⟨token, rest, hTokens, hToken, -⟩ := printed_mark h
  exact ⟨token, rest, hTokens, List.mem_singleton.mp hToken ▸ hKind⟩

/-- The first token of a printed statement is one with which a statement starts. -/
theorem statement_starts {statement : Statement} (h : Printed statement.print tokens) :
    ∃ token rest, tokens = token :: rest ∧ token.kind ∈ statementStarts := by
  cases statement with
  | expression e =>
      obtain ⟨token, rest, hTokens, hToken⟩ := (spells_print h).starts
      exact ⟨token, rest, hTokens, List.mem_append_right _ hToken⟩
  | block _ => exact starts_of_mark (by decide) h
  | branch _ _ => exact starts_of_mark (by decide) h
  | choice _ _ _ => exact starts_of_mark (by decide) h
  | loop _ _ => exact starts_of_mark (by decide) h
  | count _ _ _ _ _ _ => exact starts_of_mark (by decide) h
  | ret word value =>
      have hWord : word.token.kind ∈ statementStarts := by
        rw [List.mem_singleton.mp word.kind_mem]
        decide
      cases value with
      | none =>
          obtain ⟨rest, hTokens, -⟩ := printed_word h
          exact ⟨word.token, rest, hTokens, hWord⟩
      | some e =>
          obtain ⟨rest, hTokens, -⟩ := printed_word h
          exact ⟨word.token, rest, hTokens, hWord⟩

/-- The first token of a printed declaration is one with which a declaration starts. -/
theorem declaration_starts {declaration : Declaration} (h : Printed declaration.print tokens) :
    ∃ token rest, tokens = token :: rest ∧ token.kind ∈ declarationStarts := by
  match declaration with
  | .variable _ => exact starts_of_mark (by decide) h
  | .function _ => exact starts_of_mark (by decide) h
  | .classDef .. => exact starts_of_mark (by decide) h
  | .statement statement =>
      obtain ⟨token, rest, hTokens, hToken⟩ := statement_starts h
      exact ⟨token, rest, hTokens, List.mem_append_right _ hToken⟩

/-- A declaration does not start like the end of a list of them. -/
theorem declaration_next {declaration : Declaration} {more : List Token}
    {behind : TokenKind → Prop} {kind : TokenKind} (h : Printed declaration.print tokens)
    (hKind : Next (tokens ++ more) behind kind) : kind ∉ [TokenKind.rightBrace, .eof] := by
  have hStarts : ∀ kind ∈ declarationStarts, kind ∉ [TokenKind.rightBrace, .eof] := by decide
  obtain ⟨token, rest, rfl, hToken⟩ := declaration_starts h
  rw [show kind = token.kind from hKind]
  exact hStarts _ hToken

theorem methods_next {methods : List Routine} {kind : TokenKind}
    (h : Printed (Routine.printAll methods) tokens)
    (hKind : Next tokens (· = .rightBrace) kind) : kind ∈ [TokenKind.funWord, .rightBrace] := by
  cases methods with
  | nil =>
      cases printed_nil h
      exact List.mem_cons_of_mem _ (List.mem_singleton.mpr hKind)
  | cons method methods =>
      obtain ⟨front, back, rfl, hFront, -⟩ := printed_append h
      obtain ⟨word, rest, rfl, hWord, -⟩ := printed_mark hFront
      rw [show kind = word.kind from hKind, List.mem_singleton.mp hWord]
      decide

/-- What stands before the printed declarations is followed by their first kind. -/
theorem next_firstKind {declarations : List Declaration} {kind : TokenKind}
    (h : Printed (Declaration.printAll declarations) tokens)
    (hKind : Next tokens (· = behind) kind) : kind = firstKind declarations behind := by
  have hHead := congrArg List.head? (printed_kinds h)
  rw [List.head?_map, List.head?_map] at hHead
  unfold firstKind
  rw [← hHead]
  cases tokens with
  | nil => exact hKind
  | cons token rest => exact hKind

/-- Declarations that could not go on with what stands before them end it. -/
theorem firstKind_ends {declarations : List Declaration}
    (h : Printed (Declaration.printAll declarations) tokens)
    (hBehind : behind ∈ [TokenKind.rightBrace, .eof])
    (hFits : firstKind declarations behind ∉ [.leftParen, .leftBracket, .minus]) :
    Level.assignment.Stops (firstKind declarations behind) ∧
      firstKind declarations behind ≠ .elseWord := by
  have hAll : ∀ kind ∈ declarationStarts ++ [TokenKind.rightBrace, .eof],
      kind ∉ [TokenKind.leftParen, .leftBracket, .minus] →
        kind ∈ Level.enders ∧ kind ≠ .elseWord := by decide
  have hMem :
      firstKind declarations behind ∈ declarationStarts ++ [TokenKind.rightBrace, .eof] := by
    cases declarations with
    | nil => exact List.mem_append_right _ hBehind
    | cons first others =>
        obtain ⟨front, back, rfl, hFront, -⟩ := printed_append h
        obtain ⟨token, rest, rfl, hToken⟩ := declaration_starts hFront
        rw [← next_firstKind h (show Next _ (· = behind) token.kind from rfl)]
        exact List.mem_append_left _ hToken
  obtain ⟨hEnder, hElse⟩ := hAll _ hMem hFits
  exact ⟨Level.assignment_stops hEnder, hElse⟩

end

/-! ## Declarations and statements -/

/-- The fields of a class, before its methods. -/
theorem reads_fields {fields : List Binding} {methods : List FunDecl} {front back : List Token}
    (hFields : Printed (Binding.printAll fields) front)
    (hNext : ∀ kind, Next back (· = .rightBrace) kind → kind ∈ [TokenKind.funWord, .rightBrace])
    (hMethods : Reads members back ([], methods) (· = .rightBrace)) :
    Reads members (front ++ back) (fields.map Binding.decl, methods) (· = .rightBrace) := by
  induction fields generalizing front with
  | nil =>
      cases printed_nil hFields
      exact hMethods
  | cons field fields ih =>
      have hEnds : ∀ kind ∈ [TokenKind.funWord, .rightBrace, .varWord], kind ∈ Level.enders := by
        decide
      obtain ⟨head, rest, rfl, hHead, hRest⟩ := printed_append hFields
      obtain ⟨word, inner, rfl, hWordKind, hField⟩ := printed_mark hHead
      obtain ⟨bound, hField⟩ := reads_binding hField
      obtain ⟨bound', hOthers⟩ := ih hRest
      rw [List.append_assoc]
      refine reads_succ fun fuel (hFuel : bound + bound' ≤ fuel) => ?_
      unfold members
      refine takes_notClosed ?_ (takes_accept hWordKind (by decide) ?_)
      · rintro kind rfl
        rw [List.mem_singleton.mp hWordKind]
        decide
      refine takes_bind (hField fuel (by omega)) (fun kind hKind => ?_)
        (takes_bind_nil (hOthers fuel (by omega)) (takes_pure _ _))
      apply Level.assignment_stops
      cases fields with
      | nil =>
          cases printed_nil hRest
          exact hEnds _ (List.mem_append_left [_] (hNext kind hKind))
      | cons second fields =>
          obtain ⟨head, rest, rfl, hHead, -⟩ := printed_append hRest
          obtain ⟨word, inner, rfl, hWordKind, -⟩ := printed_mark hHead
          rw [show kind = word.kind from hKind, List.mem_singleton.mp hWordKind]
          decide

section

variable {e start increment : Expr} {value : Option Expr} {body other : Stmt}
  {stmts : List Stmt} {inner front back first second third : List Token}
  {word paren close mark name equals : Token} {behind : TokenKind}

/-- A branch without an alternative is read back, if no alternative follows that it would take for
its own. -/
theorem reads_if (hParen : paren.kind ∈ [TokenKind.leftParen])
    (hCondition : Spells .assignment inner e) (hClose : close.kind ∈ [TokenKind.rightParen])
    (hBody : Reads statement front body (· = behind)) (hElse : behind ≠ .elseWord) :
    Reads ifStatement (paren :: (inner ++ close :: front)) (.branch e body none)
      (· = behind) := by
  have hEnds : ∀ kind ∈ [TokenKind.rightParen], kind ∈ Level.enders := by decide
  obtain ⟨bound, hCondition⟩ := hCondition.reads
  obtain ⟨bound', hBody⟩ := hBody
  refine reads_succ fun fuel (hFuel : bound + bound' ≤ fuel) => ?_
  unfold ifStatement
  refine takes_consume hParen (by decide) ?_
  refine takes_then (hCondition fuel (by omega)) (Level.assignment_stops (hEnds _ hClose)) ?_
  refine takes_consume hClose (by decide) (takes_bind_nil (hBody fuel (by omega)) ?_)
  refine takes_accept_not ?_ (takes_pure _ _)
  rintro kind rfl
  exact fun hMem => hElse (List.mem_singleton.mp hMem)

/-- A branch with an alternative is read back, if its first side does not take the word for its
own. -/
theorem reads_ifElse (hParen : paren.kind ∈ [TokenKind.leftParen])
    (hCondition : Spells .assignment inner e) (hClose : close.kind ∈ [TokenKind.rightParen])
    (hBody : Reads statement front body (· = .elseWord))
    (hWord : word.kind ∈ [TokenKind.elseWord]) (hOther : Reads statement back other (· = behind)) :
    Reads ifStatement (paren :: (inner ++ close :: (front ++ word :: back)))
      (.branch e body (some other)) (· = behind) := by
  have hEnds : ∀ kind ∈ [TokenKind.rightParen], kind ∈ Level.enders := by decide
  obtain ⟨bound, hCondition⟩ := hCondition.reads
  obtain ⟨bound', hBody⟩ := hBody
  obtain ⟨bound'', hOther⟩ := hOther
  refine reads_succ fun fuel (hFuel : bound + bound' + bound'' ≤ fuel) => ?_
  unfold ifStatement
  refine takes_consume hParen (by decide) ?_
  refine takes_then (hCondition fuel (by omega)) (Level.assignment_stops (hEnds _ hClose)) ?_
  refine takes_consume hClose (by decide) ?_
  refine takes_then (hBody fuel (by omega)) (List.mem_singleton.mp hWord) ?_
  refine takes_accept hWord (by decide) ?_
  exact takes_bind_nil (hOther fuel (by omega)) (takes_pure _ _)

theorem reads_while (hParen : paren.kind ∈ [TokenKind.leftParen])
    (hCondition : Spells .assignment inner e) (hClose : close.kind ∈ [TokenKind.rightParen])
    (hBody : Reads statement front body (· = behind)) :
    Reads whileStatement (paren :: (inner ++ close :: front)) (.loop e body) (· = behind) := by
  have hEnds : ∀ kind ∈ [TokenKind.rightParen], kind ∈ Level.enders := by decide
  obtain ⟨bound, hCondition⟩ := hCondition.reads
  obtain ⟨bound', hBody⟩ := hBody
  refine reads_succ fun fuel (hFuel : bound + bound' ≤ fuel) => ?_
  unfold whileStatement
  refine takes_consume hParen (by decide) ?_
  refine takes_then (hCondition fuel (by omega)) (Level.assignment_stops (hEnds _ hClose)) ?_
  refine takes_consume hClose (by decide) ?_
  exact takes_bind_nil (hBody fuel (by omega)) (takes_pure _ _)

/-- The word that declares the iterator is read if it is there. -/
theorem takes_iteratorWord {declared : Bool}
    (h : Printed (if declared then [.mark .varWord] else []) front) :
    Takes (accept [.varWord]) front declared (· = .identifier) := by
  cases declared with
  | false =>
      cases printed_nil h
      refine (takes_accept_missing [.varWord]).mono ?_
      rintro kind rfl
      decide
  | true =>
      obtain ⟨word, rest, rfl, hWord, hEnd⟩ := printed_mark h
      cases printed_nil hEnd
      exact takes_accept_there hWord (by decide)

/-- A counting loop is read back as the block that it becomes, whether or not a word declares the
iterator. -/
theorem reads_for {declared : Bool} {semicolon semicolon' : Token}
    (hParen : paren.kind ∈ [TokenKind.leftParen])
    (hWord : Printed (if declared then [.mark .varWord] else []) front)
    (hName : name.kind ∈ [TokenKind.identifier]) (hEquals : equals.kind ∈ [TokenKind.assign])
    (hStart : Spells .assignment first start) (hFirst : semicolon.kind ∈ [TokenKind.semicolon])
    (hCondition : Spells .assignment second e) (hSecond : semicolon'.kind ∈ [TokenKind.semicolon])
    (hIncrement : Spells .assignment third increment)
    (hClose : close.kind ∈ [TokenKind.rightParen])
    (hBody : Reads statement back body (· = behind)) :
    Reads forStatement
      (paren :: (front ++ name :: equals :: (first ++ semicolon ::
        (second ++ semicolon' :: (third ++ close :: back)))))
      (countingLoop name.lexeme start e increment body) (· = behind) := by
  have hEnds : ∀ kind ∈ [TokenKind.rightParen], kind ∈ Level.enders := by decide
  have hSemi : ∀ kind ∈ [TokenKind.semicolon], kind ∈ Level.enders := by decide
  obtain ⟨bound₁, hStart⟩ := hStart.reads
  obtain ⟨bound₂, hCondition⟩ := hCondition.reads
  obtain ⟨bound₃, hIncrement⟩ := hIncrement.reads
  obtain ⟨bound₄, hBody⟩ := hBody
  refine reads_succ fun fuel (hFuel : bound₁ + bound₂ + bound₃ + bound₄ ≤ fuel) => ?_
  unfold forStatement
  refine takes_consume hParen (by decide) ?_
  refine takes_then (takes_iteratorWord hWord) (List.mem_singleton.mp hName) ?_
  refine takes_consume hName (by decide) (takes_consume hEquals (by decide) ?_)
  refine takes_then (hStart fuel (by omega)) (Level.assignment_stops (hSemi _ hFirst)) ?_
  refine takes_consume hFirst (by decide) ?_
  refine takes_then (hCondition fuel (by omega)) (Level.assignment_stops (hSemi _ hSecond)) ?_
  refine takes_consume hSecond (by decide) ?_
  refine takes_then (hIncrement fuel (by omega)) (Level.assignment_stops (hEnds _ hClose)) ?_
  refine takes_consume hClose (by decide) ?_
  exact takes_bind_nil (hBody fuel (by omega)) (takes_pure _ _)

/-- Only before a closing brace is there no value. -/
theorem reads_ret_none (hWord : word.kind ∈ [TokenKind.returnWord]) :
    Reads statement [word] (.ret none word) (· = .rightBrace) := by
  refine reads_succ fun fuel (_ : 0 ≤ fuel) => ?_
  unfold statement
  refine takes_skip hWord (by decide) (takes_skip hWord (by decide)
    (takes_skip hWord (by decide) ?_))
  refine takes_accept_previous hWord (by decide) ?_
  exact takes_check (fun _ h => h) (by decide) (takes_pure _ _)

/-- A return with a value is read back. -/
theorem reads_ret_some (hWord : word.kind ∈ [TokenKind.returnWord])
    (hValue : Spells .assignment inner e) :
    Reads statement (word :: inner) (.ret (some e) word) Level.assignment.Stops := by
  have hStarts : ∀ kind ∈ Level.assignment.starts, kind ≠ .rightBrace := by decide
  obtain ⟨bound, hReads⟩ := hValue.reads
  refine reads_succ fun fuel (hFuel : bound ≤ fuel) => ?_
  unfold statement
  refine takes_skip hWord (by decide) (takes_skip hWord (by decide)
    (takes_skip hWord (by decide) ?_))
  refine takes_accept_previous hWord (by decide) ?_
  refine takes_check_not (fun kind hKind => hStarts kind (hValue.next hKind)) ?_
  exact takes_bind_nil (hReads fuel hFuel) (takes_pure _ _)

/-- A block is read back, whatever stands behind it. -/
theorem reads_block (hBrace : paren.kind ∈ [TokenKind.leftBrace])
    (hBody : Reads declarations inner stmts (· = .rightBrace))
    (hClose : close.kind ∈ [TokenKind.rightBrace]) (behind : TokenKind → Prop) :
    Reads statement (paren :: (inner ++ [close])) (.block stmts) behind := by
  obtain ⟨bound, hBody⟩ := hBody
  have hBlock : Reads block (inner ++ [close]) stmts behind := by
    refine reads_succ fun fuel (hFuel : bound ≤ fuel) => ?_
    unfold block
    refine takes_then (hBody fuel hFuel) (List.mem_singleton.mp hClose) ?_
    exact takes_consume hClose (by decide) (takes_pure _ _)
  obtain ⟨bound', hBlock⟩ := hBlock
  refine reads_succ fun fuel (hFuel : bound' ≤ fuel) => ?_
  unfold statement
  refine takes_skip hBrace (by decide) (takes_skip hBrace (by decide)
    (takes_skip hBrace (by decide) (takes_skip hBrace (by decide) ?_)))
  refine takes_accept hBrace (by decide) ?_
  exact takes_bind_nil (hBlock fuel hFuel) (takes_pure _ _)

theorem reads_expression (hExpr : Spells .assignment inner e) :
    Reads statement inner (.expression e) Level.assignment.Stops := by
  have hStarts : ∀ kind ∈ Level.assignment.starts,
      kind ∉ [TokenKind.ifWord] ∧ kind ∉ [TokenKind.whileWord] ∧ kind ∉ [TokenKind.forWord] ∧
        kind ∉ [TokenKind.returnWord] ∧ kind ∉ [TokenKind.leftBrace] := by decide
  obtain ⟨bound, hReads⟩ := hExpr.reads
  refine reads_succ fun fuel (hFuel : bound ≤ fuel) => ?_
  unfold statement
  refine takes_accept_not (fun kind hKind => (hStarts kind (hExpr.next hKind)).1) ?_
  refine takes_accept_not (fun kind hKind => (hStarts kind (hExpr.next hKind)).2.1) ?_
  refine takes_accept_not (fun kind hKind => (hStarts kind (hExpr.next hKind)).2.2.1) ?_
  refine takes_accept_not (fun kind hKind => (hStarts kind (hExpr.next hKind)).2.2.2.1) ?_
  refine takes_accept_not (fun kind hKind => (hStarts kind (hExpr.next hKind)).2.2.2.2) ?_
  exact takes_bind_nil (hReads fuel hFuel) (takes_pure _ _)

theorem reads_statement_if {behind : TokenKind → Prop} (hWord : word.kind ∈ [TokenKind.ifWord])
    (h : Reads ifStatement inner body behind) : Reads statement (word :: inner) body behind := by
  obtain ⟨bound, h⟩ := h
  refine reads_succ fun fuel (hFuel : bound ≤ fuel) => ?_
  unfold statement
  exact takes_accept hWord (by decide) (h fuel hFuel)

theorem reads_statement_while {behind : TokenKind → Prop}
    (hWord : word.kind ∈ [TokenKind.whileWord]) (h : Reads whileStatement inner body behind) :
    Reads statement (word :: inner) body behind := by
  obtain ⟨bound, h⟩ := h
  refine reads_succ fun fuel (hFuel : bound ≤ fuel) => ?_
  unfold statement
  exact takes_skip hWord (by decide) (takes_accept hWord (by decide) (h fuel hFuel))

theorem reads_statement_for {behind : TokenKind → Prop}
    (hWord : word.kind ∈ [TokenKind.forWord]) (h : Reads forStatement inner body behind) :
    Reads statement (word :: inner) body behind := by
  obtain ⟨bound, h⟩ := h
  refine reads_succ fun fuel (hFuel : bound ≤ fuel) => ?_
  unfold statement
  exact takes_skip hWord (by decide) (takes_skip hWord (by decide)
    (takes_accept hWord (by decide) (h fuel hFuel)))

end

/-- A declaration is read like one without recovery. -/
theorem reads_declaration_of_plain {tokens : List Token} {stmt : Stmt} {behind : TokenKind → Prop}
    (h : Reads plainDeclaration tokens stmt behind) : Reads declaration tokens stmt behind := by
  obtain ⟨bound, h⟩ := h
  refine reads_succ fun fuel (hFuel : bound ≤ fuel) => ?_
  unfold declaration
  exact takes_recovering (h fuel hFuel)

/-- A class, given how its members are read. -/
theorem reads_class {name brace close : Token} {superclass : Option String}
    {front inner : List Token} {fields : List VarDecl} {methods : List FunDecl}
    (hName : name.kind ∈ [TokenKind.identifier])
    (hSuperclass : Takes superclassName front superclass (· = .leftBrace))
    (hBrace : brace.kind ∈ [TokenKind.leftBrace])
    (hMembers : Reads members inner (fields, methods) (· = .rightBrace))
    (hClose : close.kind ∈ [TokenKind.rightBrace]) (behind : TokenKind → Prop) :
    Reads classDeclaration (name :: (front ++ brace :: (inner ++ [close])))
      (.classDecl name.lexeme superclass fields methods name) behind := by
  obtain ⟨bound, hMembers⟩ := hMembers
  refine reads_succ fun fuel (hFuel : bound ≤ fuel) => ?_
  unfold classDeclaration
  refine takes_consume hName (by decide) ?_
  refine takes_then hSuperclass (List.mem_singleton.mp hBrace) (takes_consume hBrace (by decide) ?_)
  refine takes_then (hMembers fuel hFuel) (List.mem_singleton.mp hClose) ?_
  exact takes_consume hClose (by decide) (takes_pure _ _)

mutual

/-- A statement is read up to a token that ends it. -/
theorem reads_statement : (statement : Statement) → {tokens : List Token} → {behind : TokenKind} →
    Printed statement.print tokens → statement.Fits behind → Level.assignment.Stops behind →
    (statement.dangles = true → behind ≠ .elseWord) →
    Reads Parse.statement tokens statement.stmt (· = behind)
  | .expression e, tokens, behind, h, _, hStops, _ => by
      obtain ⟨bound, hReads⟩ := reads_expression (spells_print h)
      refine ⟨bound, fun fuel hFuel => (hReads fuel hFuel).mono ?_⟩
      rintro kind rfl
      exact hStops
  | .block body, tokens, behind, h, hFits, _, _ => by
      obtain ⟨front, back, rfl, hFront, hBack⟩ := printed_append h
      obtain ⟨brace, inner, rfl, hBrace, hBody⟩ := printed_mark hFront
      obtain ⟨close, rest, rfl, hClose, hEnd⟩ := printed_mark hBack
      cases printed_nil hEnd
      exact reads_block hBrace (reads_declarations body hBody hFits) hClose _
  | .branch condition thenBranch, tokens, behind, h, hFits, hStops, hElse => by
      obtain ⟨front, back, rfl, hFront, hBack⟩ := printed_append h
      obtain ⟨word, rest, rfl, hWord, hParen⟩ := printed_mark hFront
      obtain ⟨paren, inner, rfl, hParenKind, hCondition⟩ := printed_mark hParen
      obtain ⟨close, rest, rfl, hClose, hBody⟩ := printed_mark hBack
      exact reads_statement_if hWord (reads_if hParenKind (spells_print hCondition) hClose
        (reads_statement thenBranch hBody hFits hStops fun _ => hElse rfl) (hElse rfl))
  | .choice condition thenBranch elseBranch, tokens, behind, h, hFits, hStops, hElse => by
      obtain ⟨hDangles, hThen, hOther⟩ := hFits
      obtain ⟨front, back, rfl, hFront, hBack⟩ := printed_append h
      obtain ⟨front, middle, rfl, hFront, hMiddle⟩ := printed_append hFront
      obtain ⟨word, rest, rfl, hWord, hParen⟩ := printed_mark hFront
      obtain ⟨paren, inner, rfl, hParenKind, hCondition⟩ := printed_mark hParen
      obtain ⟨close, rest, rfl, hClose, hBody⟩ := printed_mark hMiddle
      obtain ⟨elseWord, rest, rfl, hElseKind, hElseBody⟩ := printed_mark hBack
      have hThenReads := reads_statement thenBranch hBody hThen
        (Level.assignment_stops (by decide)) fun h => by rw [hDangles] at h; cases h
      have hElseReads := reads_statement elseBranch hElseBody hOther hStops hElse
      have hIf := reads_statement_if hWord
        (reads_ifElse hParenKind (spells_print hCondition) hClose hThenReads hElseKind hElseReads)
      simp only [List.append_assoc, List.cons_append] at hIf ⊢
      exact hIf
  | .loop condition body, tokens, behind, h, hFits, hStops, hElse => by
      obtain ⟨front, back, rfl, hFront, hBack⟩ := printed_append h
      obtain ⟨word, rest, rfl, hWord, hParen⟩ := printed_mark hFront
      obtain ⟨paren, inner, rfl, hParenKind, hCondition⟩ := printed_mark hParen
      obtain ⟨close, rest, rfl, hClose, hBody⟩ := printed_mark hBack
      exact reads_statement_while hWord (reads_while hParenKind (spells_print hCondition) hClose
        (reads_statement body hBody hFits hStops hElse))
  | .count declared iterator start condition increment body, tokens, behind, h, hFits, hStops,
      hElse => by
      obtain ⟨front, last, rfl, hFront, hLast⟩ := printed_append h
      obtain ⟨front, third, rfl, hFront, hThird⟩ := printed_append hFront
      obtain ⟨front, second, rfl, hFront, hSecond⟩ := printed_append hFront
      obtain ⟨front, first, rfl, hFront, hFirst⟩ := printed_append hFront
      obtain ⟨word, rest, rfl, hWord, hParen⟩ := printed_mark hFront
      obtain ⟨paren, varWord, rfl, hParenKind, hVarWord⟩ := printed_mark hParen
      obtain ⟨rest, rfl, hEquals⟩ := printed_word hFirst
      obtain ⟨equals, rest, rfl, hEqualsKind, hStart⟩ := printed_mark hEquals
      obtain ⟨semicolon, rest, rfl, hSemicolon, hCondition⟩ := printed_mark hSecond
      obtain ⟨semicolon', rest, rfl, hSemicolon', hIncrement⟩ := printed_mark hThird
      obtain ⟨close, rest, rfl, hClose, hBody⟩ := printed_mark hLast
      have hFor := reads_statement_for hWord (reads_for hParenKind hVarWord iterator.kind_mem
        hEqualsKind (spells_print hStart) hSemicolon (spells_print hCondition) hSemicolon'
        (spells_print hIncrement) hClose (reads_statement body hBody hFits hStops hElse))
      rw [countingLoop_eq] at hFor
      simp only [List.append_assoc, List.cons_append] at hFor ⊢
      exact hFor
  | .ret word none, tokens, behind, h, hFits, _, _ => by
      obtain ⟨rest, rfl, hEnd⟩ := printed_word h
      cases printed_nil hEnd
      cases (show behind = .rightBrace from hFits)
      exact reads_ret_none word.kind_mem
  | .ret word (some e), tokens, behind, h, _, hStops, _ => by
      obtain ⟨rest, rfl, hValue⟩ := printed_word h
      obtain ⟨bound, hReads⟩ := reads_ret_some word.kind_mem (spells_print hValue)
      refine ⟨bound, fun fuel hFuel => (hReads fuel hFuel).mono ?_⟩
      rintro kind rfl
      exact hStops

/-- A declaration is read back in front of a token that does not go on with it. By induction over
what is written, together with statements, functions and lists of them. -/
theorem reads_declaration : (declaration : Declaration) → {tokens : List Token} →
    {behind : TokenKind} → Printed declaration.print tokens → declaration.Fits behind →
    Level.assignment.Stops behind → behind ≠ .elseWord →
    Reads Parse.declaration tokens declaration.stmt (· = behind)
  | .variable binding, tokens, behind, h, _, hStops, _ => by
      obtain ⟨word, rest, rfl, hWord, hBinding⟩ := printed_mark h
      obtain ⟨bound, hReads⟩ := reads_binding hBinding
      refine reads_declaration_of_plain (reads_succ fun fuel (hFuel : bound ≤ fuel) => ?_)
      unfold plainDeclaration
      refine takes_skip hWord (by decide) (takes_skip hWord (by decide) ?_)
      refine takes_accept hWord (by decide) (takes_bind_nil ((hReads fuel hFuel).mono ?_)
        (takes_pure _ _))
      rintro kind rfl
      exact hStops
  | .function function, tokens, behind, h, hFits, _, _ => by
      obtain ⟨word, rest, rfl, hWord, hFunction⟩ := printed_mark h
      obtain ⟨bound, hReads⟩ := reads_function function hFunction hFits
      refine reads_declaration_of_plain (reads_succ fun fuel (hFuel : bound ≤ fuel) => ?_)
      unfold plainDeclaration
      refine takes_skip hWord (by decide) (takes_accept hWord (by decide) ?_)
      exact takes_bind_nil ((hReads fuel hFuel).mono fun _ _ => trivial) (takes_pure _ _)
  | .classDef name superclass fields methods, tokens, behind, h, hFits, _, _ => by
      obtain ⟨front, last, rfl, hFront, hLast⟩ := printed_append h
      obtain ⟨front, middle, rfl, hFront, hMethods⟩ := printed_append hFront
      obtain ⟨front, inner, rfl, hFront, hInner⟩ := printed_append hFront
      obtain ⟨word, rest, rfl, hWord, hName⟩ := printed_mark hFront
      obtain ⟨rest, rfl, hSuperclass⟩ := printed_word hName
      obtain ⟨brace, rest, rfl, hBrace, hFields⟩ := printed_mark hInner
      obtain ⟨close, rest, rfl, hClose, hEnd⟩ := printed_mark hLast
      cases printed_nil hEnd
      have hMembers := reads_fields hFields (fun _ => methods_next hMethods)
        (reads_methods methods hMethods hFits)
      have hClass := reads_class name.kind_mem (takes_superclassName hSuperclass) hBrace hMembers
        hClose (· = behind)
      obtain ⟨bound, hReads⟩ := hClass
      refine reads_declaration_of_plain (reads_succ fun fuel (hFuel : bound ≤ fuel) => ?_)
      unfold plainDeclaration
      simp only [List.append_assoc, List.cons_append] at hReads ⊢
      exact takes_accept hWord (by decide) (hReads fuel hFuel)
  | .statement statement, tokens, behind, h, hFits, hStops, hElse => by
      have hStarts : ∀ kind ∈ statementStarts, kind ∉ [TokenKind.classWord] ∧
          kind ∉ [TokenKind.funWord] ∧ kind ∉ [TokenKind.varWord] := by decide
      obtain ⟨bound, hReads⟩ := reads_statement statement h hFits hStops fun _ => hElse
      obtain ⟨token, rest, rfl, hToken⟩ := statement_starts h
      refine reads_declaration_of_plain (reads_succ fun fuel (hFuel : bound ≤ fuel) => ?_)
      unfold plainDeclaration
      refine takes_skip hToken (fun kind hKind => (hStarts kind hKind).1) ?_
      refine takes_skip hToken (fun kind hKind => (hStarts kind hKind).2.1) ?_
      refine takes_skip hToken (fun kind hKind => (hStarts kind hKind).2.2) ?_
      exact hReads fuel hFuel

/-- Declarations are read back one after the other, up to the closing brace. -/
theorem reads_declarations : (declarations : List Declaration) → {tokens : List Token} →
    Printed (Declaration.printAll declarations) tokens →
    Declaration.FitAll .rightBrace declarations →
    Reads Parse.declarations tokens (Declaration.stmts declarations) (· = .rightBrace)
  | [], tokens, h, _ => by
      cases printed_nil h
      refine reads_succ fun fuel (_ : 0 ≤ fuel) => ?_
      unfold Parse.declarations
      exact takes_closed (fun _ h => h) (takes_pure _ _)
  | declaration :: others, tokens, h, hFits => by
      obtain ⟨hFirstFits, hFirstKind, hOthersFit⟩ := hFits
      obtain ⟨front, back, rfl, hFront, hBack⟩ := printed_append h
      obtain ⟨hStops, hElse⟩ := firstKind_ends hBack (by decide) hFirstKind
      obtain ⟨bound, hFirst⟩ := reads_declaration declaration hFront hFirstFits hStops hElse
      obtain ⟨bound', hOthers⟩ := reads_declarations others hBack hOthersFit
      refine reads_succ fun fuel (hFuel : bound + bound' ≤ fuel) => ?_
      unfold Parse.declarations
      refine takes_notClosed (fun kind hKind => ?_) ?_
      · exact declaration_next hFront hKind
      · exact takes_bind (hFirst fuel (by omega)) (fun kind hKind => next_firstKind hBack hKind)
          (takes_bind_nil (hOthers fuel (by omega)) (takes_pure _ _))

/-- A function is read back, whatever stands behind it. -/
theorem reads_function : (function : Routine) → {tokens : List Token} →
    Printed function.print tokens → function.Fits →
    Reads functionDeclaration tokens function.decl fun _ => True
  | .mk name params body, tokens, h, hFits => by
      obtain ⟨front, last, rfl, hFront, hLast⟩ := printed_append h
      obtain ⟨front, middle, rfl, hFront, hMiddle⟩ := printed_append hFront
      obtain ⟨rest, rfl, hParen⟩ := printed_word hFront
      obtain ⟨paren, inner, rfl, hParenKind, hParams⟩ := printed_mark hParen
      obtain ⟨close, rest, rfl, hCloseKind, hBrace⟩ := printed_mark hMiddle
      obtain ⟨brace, rest, rfl, hBraceKind, hBody⟩ := printed_mark hBrace
      obtain ⟨last, rest, rfl, hLastKind, hEnd⟩ := printed_mark hLast
      cases printed_nil hEnd
      obtain ⟨bound, hParams⟩ := reads_parameters hParams
      obtain ⟨bound', hBody⟩ := reads_declarations body hBody hFits
      refine reads_succ fun fuel (hFuel : bound + bound' ≤ fuel) => ?_
      unfold functionDeclaration
      simp only [List.append_assoc, List.cons_append]
      refine takes_consume name.kind_mem (by decide) (takes_consume hParenKind (by decide) ?_)
      refine takes_then (hParams fuel (by omega)) (List.mem_singleton.mp hCloseKind) ?_
      refine takes_consume hCloseKind (by decide) (takes_consume hBraceKind (by decide) ?_)
      refine takes_then (hBody fuel (by omega)) (List.mem_singleton.mp hLastKind) ?_
      exact takes_consume hLastKind (by decide) (takes_pure _ _)

theorem reads_methods : (methods : List Routine) → {tokens : List Token} →
    Printed (Routine.printAll methods) tokens → Routine.FitAll methods →
    Reads members tokens ([], Routine.decls methods) (· = .rightBrace)
  | [], tokens, h, _ => by
      cases printed_nil h
      refine reads_succ fun fuel (_ : 0 ≤ fuel) => ?_
      unfold members
      exact takes_closed (fun _ h => h) (takes_pure _ _)
  | method :: methods, tokens, h, hFits => by
      obtain ⟨hFirstFits, hOthersFit⟩ := hFits
      obtain ⟨front, back, rfl, hFront, hBack⟩ := printed_append h
      obtain ⟨word, rest, rfl, hWord, hMethod⟩ := printed_mark hFront
      obtain ⟨bound, hFirst⟩ := reads_function method hMethod hFirstFits
      obtain ⟨bound', hOthers⟩ := reads_methods methods hBack hOthersFit
      refine reads_succ fun fuel (hFuel : bound + bound' ≤ fuel) => ?_
      unfold members
      refine takes_notClosed ?_ (takes_skip hWord (by decide) (takes_accept hWord (by decide) ?_))
      · rintro kind rfl
        rw [List.mem_singleton.mp hWord]
        decide
      · exact takes_bind (hFirst fuel (by omega)) (fun _ _ => trivial)
          (takes_bind_nil (hOthers fuel (by omega)) (takes_pure _ _))

end

/-- A whole program is read up to the end mark. -/
theorem reads_program {declarations : List Declaration} {tokens : List Token}
    (h : Printed (Declaration.printAll declarations) tokens)
    (hFits : Declaration.FitAll .eof declarations) :
    Reads program tokens (Declaration.stmts declarations) (· = .eof) := by
  induction declarations generalizing tokens with
  | nil =>
      cases printed_nil h
      refine reads_succ fun fuel (_ : 0 ≤ fuel) => ?_
      intro before token rest recovered hKind
      unfold program
      exact (unlessEnded_cons _ _ _ _ _).trans (if_pos hKind)
  | cons declaration others ih =>
      obtain ⟨hFirstFits, hFirstKind, hOthersFit⟩ := hFits
      obtain ⟨front, back, rfl, hFront, hBack⟩ := printed_append h
      obtain ⟨hStops, hElse⟩ := firstKind_ends hBack (by decide) hFirstKind
      obtain ⟨bound, hFirst⟩ := reads_declaration declaration hFront hFirstFits hStops hElse
      obtain ⟨bound', hOthers⟩ := ih hBack hOthersFit
      refine reads_succ fun fuel (hFuel : bound + bound' ≤ fuel) => ?_
      unfold program
      refine takes_notEnded (fun kind hKind => ?_) ?_
      · intro hEnd
        exact declaration_next hFront hKind (by rw [hEnd]; decide)
      · exact takes_bind (hFirst fuel (by omega)) (fun kind hKind => next_firstKind hBack hKind)
          (takes_bind_nil (hOthers fuel (by omega)) (takes_pure _ _))

end Mus.Parse

namespace Mus

open Written

/-- What is read with a large enough bound is read with the bound of the parser. -/
theorem parse_of_reads {tokens : List Token} {statements : List Stmt} {mark : Token}
    (h : Parse.Reads Parse.program tokens statements (· = .eof)) (hMark : mark.kind = .eof) :
    parse (tokens ++ [mark]) = .ok ⟨statements, []⟩ := by
  obtain ⟨bound, h⟩ := h
  let cursor := Cursor.ofTokens (tokens ++ [mark])
  have hEnded : cursor.Ended :=
    ⟨mark, List.mem_append_right _ (List.mem_singleton.mpr rfl), hMark⟩
  -- The parser comes to an answer within its own bound, and this answer is also
  -- the one under a bound that is large enough to read the tokens.
  have hSettled : Parse.Settled (Parse.program (Parse.fuelFor cursor) cursor) :=
    Parse.settled_of_surely (Parse.surely_program_fuelFor hEnded)
  have hMore := (Parse.extends_program behindMark_id
    (Nat.le_max_left (Parse.fuelFor cursor) bound) cursor).eq_of_settled hSettled
  have hRead : Parse.program (max (Parse.fuelFor cursor) bound) cursor =
      .ok statements ⟨tokens.reverse ++ [], [mark], []⟩ :=
    h _ (Nat.le_max_right _ _) [] mark [] [] hMark
  rw [hMore] at hRead
  exact parse_of_ok hRead

/-- Parsing undoes printing. The tokens are those of the printed form, up to the
places of the tokens that the syntax tree does not keep, and an end mark stands
behind them. No syntax error is recovered from. -/
theorem parse_print {declarations : List Declaration} {tokens : List Token} {mark : Token}
    (hFits : Declaration.FitAll .eof declarations)
    (hTokens : Printed (Declaration.printAll declarations) tokens) (hMark : mark.kind = .eof) :
    parse (tokens ++ [mark]) = .ok ⟨Declaration.stmts declarations, []⟩ :=
  parse_of_reads (Parse.reads_program hTokens hFits) hMark

def nameAt (name : String) (line column : Int) : Word [.identifier] :=
  ⟨⟨.identifier, name, .nothing, line, column⟩, List.mem_singleton.mpr rfl, _, rfl⟩

/-- A branch that ends in a return without a value, with an alternative that
assigns a product of a sum to an item, before the declaration of a variable. -/
def sampleProgram : List Declaration :=
  [.statement
    (.choice (.variable (nameAt "a" 1 5))
      (.block
        [.statement (.ret ⟨⟨.returnWord, "return", .nothing, 1, 10⟩, by decide, _, rfl⟩ none)])
      (.expression
        (.setIndex (.variable (nameAt "b" 2 6)) (.variable (nameAt "i" 2 8))
          ⟨⟨.rightBracket, "]", .nothing, 2, 9⟩, by decide, _, rfl⟩
          ⟨⟨.assign, "=", .nothing, 2, 11⟩, by decide, _, rfl⟩
          (.binary .product
            (.binary .sum (.variable (nameAt "a" 2 14))
              ⟨⟨.plus, "+", .nothing, 2, 16⟩, by decide, _, rfl⟩ (.variable (nameAt "b" 2 18)))
            ⟨⟨.multiply, "*", .nothing, 2, 21⟩, by decide, _, rfl⟩
            (.unary ⟨⟨.minus, "-", .nothing, 2, 23⟩, by decide, _, rfl⟩
              (.variable (nameAt "c" 2 24))))))),
    .variable ⟨nameAt "x" 3 5, nameAt "integer" 3 10, none⟩]

/-- The sample fits, so that parsing reads it back. -/
theorem parse_print_sampleProgram :
    Declaration.FitAll .eof sampleProgram ∧
      parse ((Declaration.printAll sampleProgram).map Piece.token ++ [⟨.eof, "", .nothing, 4, 1⟩]) =
        .ok ⟨Declaration.stmts sampleProgram, []⟩ := by
  have hFits : Declaration.FitAll .eof sampleProgram :=
    ⟨⟨rfl, ⟨rfl, by decide, trivial⟩, trivial⟩, by decide, trivial, by decide, trivial⟩
  exact ⟨hFits, parse_print hFits (printed_tokens _) rfl⟩

end Mus
