import Mathlib.Algebra.Ring.Int.Defs
import Mathlib.Data.List.Infix
import Mus.Proofs.Syntax.Soundness

/-! The depth of braces at which statements start. Recovery from a syntax error does
not look at braces: it goes on before the next word that starts a declaration, or
behind the next closing brace. So each statement of a program starts at the depth
that the stretches given up before it have left open. Whatever else was read
before it opens and closes its own braces. -/
namespace Mus

/-! ## Depth -/

/-- How a token of the kind changes the depth. -/
def TokenKind.braceWeight : TokenKind → Int
  | .leftBrace => 1
  | .rightBrace => -1
  | _ => 0

/-- The number of braces that are opened less the number of those that are closed. -/
def braceDepth (tokens : List Token) : Int :=
  (tokens.map (·.kind.braceWeight)).sum

/-- Every brace is closed, and none is closed before it is opened. -/
def Balanced (tokens : List Token) : Prop :=
  (∀ front ∈ tokens.inits, 0 ≤ braceDepth front) ∧ braceDepth tokens = 0

instance (tokens : List Token) : Decidable (Balanced tokens) :=
  inferInstanceAs (Decidable (_ ∧ _))

section

variable (token : Token) (front back : List Token)

@[simp] theorem braceDepth_nil : braceDepth [] = 0 := rfl

@[simp] theorem braceDepth_cons :
    braceDepth (token :: back) = token.kind.braceWeight + braceDepth back :=
  List.sum_cons

/-- Depths add up over a list. -/
@[simp] theorem braceDepth_append :
    braceDepth (front ++ back) = braceDepth front + braceDepth back := by
  unfold braceDepth
  rw [List.map_append, List.sum_append]

@[simp] theorem braceDepth_reverse : braceDepth front.reverse = braceDepth front := by
  unfold braceDepth
  rw [List.map_reverse, List.sum_reverse]

end

/-! ## Balance -/

section

variable {token : Token} {tokens front back : List Token}

theorem balanced_iff :
    Balanced tokens ↔ (∀ part, part <+: tokens → 0 ≤ braceDepth part) ∧ braceDepth tokens = 0 := by
  simp only [Balanced, List.mem_inits]

theorem prefix_append_cases {part : List Token} (h : part <+: front ++ back) :
    part <+: front ∨ ∃ more, part = front ++ more ∧ more <+: back := by
  obtain ⟨rest, hRest⟩ := h
  rcases List.append_eq_append_iff.mp hRest with ⟨more, hFront, -⟩ | ⟨more, hPart, hBack⟩
  · exact Or.inl ⟨more, hFront.symm⟩
  · exact Or.inr ⟨more, hPart, rest, hBack.symm⟩

/-- Balanced parts are balanced together: inside the second one the depth is that of its own
part. -/
theorem balanced_append (hFront : Balanced front) (hBack : Balanced back) :
    Balanced (front ++ back) := by
  rw [balanced_iff] at hFront hBack ⊢
  refine ⟨fun part hPart => ?_, by rw [braceDepth_append, hFront.2, hBack.2]; rfl⟩
  rcases prefix_append_cases hPart with hPart | ⟨more, rfl, hMore⟩
  · exact hFront.1 part hPart
  · rw [braceDepth_append, hFront.2, Int.zero_add]
    exact hBack.1 more hMore

/-- Tokens other than braces. -/
theorem balanced_of_flat (h : ∀ token ∈ tokens, token.kind.braceWeight = 0) : Balanced tokens := by
  have hZero (part : List Token) (hPart : ∀ token ∈ part, token.kind.braceWeight = 0) :
      braceDepth part = 0 := by
    induction part with
    | nil => rfl
    | cons token part ih =>
        rw [braceDepth_cons, hPart token (List.mem_cons_self ..),
          ih fun other hOther => hPart other (List.mem_cons_of_mem _ hOther)]
        rfl
  refine balanced_iff.mpr ⟨fun part hPart => ?_, hZero tokens h⟩
  exact Int.le_of_eq (hZero part fun token hToken => h token (hPart.subset hToken)).symm

/-- A token that is no brace does not count. -/
theorem balanced_cons (hToken : token.kind.braceWeight = 0) (h : Balanced tokens) :
    Balanced (token :: tokens) :=
  balanced_append (balanced_of_flat (List.forall_mem_singleton.mpr hToken)) h

/-- Braces around what is balanced. -/
theorem balanced_enclosed {opening closing : Token} (hOpening : opening.kind.braceWeight = 1)
    (hClosing : closing.kind.braceWeight = -1) (h : Balanced tokens) :
    Balanced (opening :: (tokens ++ [closing])) := by
  rw [balanced_iff] at h ⊢
  refine ⟨fun part hPart => ?_, by simp [hOpening, hClosing, h.2]⟩
  rcases List.prefix_cons_iff.mp hPart with rfl | ⟨inner, rfl, hInner⟩
  · exact Int.le_refl 0
  · rw [braceDepth_cons, hOpening]
    rcases prefix_append_cases hInner with hInner | ⟨more, rfl, hMore⟩
    · have := h.1 inner hInner
      omega
    · rcases List.prefix_cons_iff.mp hMore with rfl | ⟨last, rfl, hLast⟩
      · simp [h.2]
      · simp [List.prefix_nil.mp hLast, h.2, hClosing]

end

namespace Grammar

theorem Terminal.weightless {kinds : List TokenKind} (word : Terminal kinds)
    (h : ∀ kind ∈ kinds, kind.braceWeight = 0) : word.token.kind.braceWeight = 0 :=
  h _ word.kind_mem

/-- No operator is a brace. -/
theorem operators_weightless (level : Written.Level) :
    ∀ kind ∈ level.operators, kind.braceWeight = 0 := by
  cases level <;> decide

def Flat (tokens : List Token) : Prop :=
  ∀ token ∈ tokens, token.kind.braceWeight = 0

@[simp] theorem flat_nil : Flat [] := fun _ h => absurd h List.not_mem_nil

@[simp] theorem flat_cons {token : Token} {tokens : List Token} :
    Flat (token :: tokens) ↔ token.kind.braceWeight = 0 ∧ Flat tokens :=
  List.forall_mem_cons

@[simp] theorem flat_append {front back : List Token} :
    Flat (front ++ back) ↔ Flat front ∧ Flat back :=
  List.forall_mem_append

mutual

/-- There are no braces in an expression. By induction on the derivation. -/
theorem Expression.flat {level : Written.Level} {tokens : List Token} {e : Expr} :
    Expression level tokens e → Flat tokens
  | .literal word => by simp [word.weightless (by decide)]
  | .this word => by simp [word.weightless (by decide)]
  | .super word dot method => by
      simp [word.weightless (by decide), dot.weightless (by decide), method.weightless (by decide)]
  | .variable name => by simp [name.weightless (by decide)]
  | .group opening inner closing => by
      simp [opening.weightless (by decide), inner.flat, closing.weightless (by decide)]
  | .array opening inner closing => by
      simp [opening.weightless (by decide), inner.flat, closing.weightless (by decide)]
  | .new word name opening inner closing => by
      simp [word.weightless (by decide), name.weightless (by decide),
        opening.weightless (by decide), inner.flat, closing.weightless (by decide)]
  | .call target opening inner closing => by
      simp [target.flat, opening.weightless (by decide), inner.flat,
        closing.weightless (by decide)]
  | .property target dot name => by
      simp [target.flat, dot.weightless (by decide), name.weightless (by decide)]
  | .index target opening inner closing _ => by
      simp [target.flat, opening.weightless (by decide), inner.flat,
        closing.weightless (by decide)]
  | .unary operator operand => by simp [operator.weightless (by decide), operand.flat]
  | .binary first operator second => by
      simp [first.flat, operator.weightless (operators_weightless _), second.flat]
  | .assign target equals source => by
      simp [target.flat, equals.weightless (by decide), source.flat]
  | .tighter inner => inner.flat

theorem Target.flat {tokens : List Token} {object : Expr} {name : String} :
    Target tokens object name → Flat tokens
  | .variable word => by simp [word.weightless (by decide)]
  | .property target dot word => by
      simp [target.flat, dot.weightless (by decide), word.weightless (by decide)]
  | .index target opening inner closing _ => by
      simp [target.flat, opening.weightless (by decide), inner.flat,
        closing.weightless (by decide)]
  | .group opening inner closing => by
      simp [opening.weightless (by decide), inner.flat, closing.weightless (by decide)]

theorem Expressions.flat {tokens : List Token} {es : List Expr} :
    Expressions tokens es → Flat tokens
  | .none => flat_nil
  | .one only => only.flat
  | .more first comma following => by
      simp [first.flat, comma.weightless (by decide), following.flat]

end

/-- There are no braces in the declaration of a variable. -/
theorem Binding.flat {tokens : List Token} {decl : VarDecl} (h : Binding tokens decl) :
    Flat tokens := by
  cases h with
  | bare name arrow type =>
      simp [name.weightless (by decide), arrow.weightless (by decide), type.weightless (by decide)]
  | initialized name arrow type equals initializer =>
      simp [name.weightless (by decide), arrow.weightless (by decide),
        type.weightless (by decide), equals.weightless (by decide), initializer.flat]

theorem Parameters.flat {tokens : List Token} {params : Params} (h : Parameters tokens params) :
    Flat tokens := by
  induction h with
  | none => exact flat_nil
  | one name arrow type =>
      simp [name.weightless (by decide), arrow.weightless (by decide), type.weightless (by decide)]
  | more name arrow type comma _ ih =>
      simp [name.weightless (by decide), arrow.weightless (by decide),
        type.weightless (by decide), comma.weightless (by decide), ih]

theorem Superclass.flat {tokens : List Token} {name : Option String}
    (h : Superclass tokens name) : Flat tokens := by
  cases h with
  | none => exact flat_nil
  | named word name => simp [word.weightless (by decide), name.weightless (by decide)]

theorem Optional.flat {tokens : List Token} (h : Optional .varWord tokens) : Flat tokens := by
  cases h with
  | missing => exact flat_nil
  | present word => simp [word.weightless (by decide)]

/-- What stands between braces that belong together is balanced with them. -/
theorem balanced_braces {opening : Terminal [.leftBrace]} {closing : Terminal [.rightBrace]}
    {tokens : List Token} (h : Balanced tokens) :
    Balanced (opening.token :: (tokens ++ [closing.token])) := by
  have hOpening := List.mem_singleton.mp opening.kind_mem
  have hClosing := List.mem_singleton.mp closing.kind_mem
  exact balanced_enclosed (by rw [hOpening]; rfl) (by rw [hClosing]; rfl) h

mutual

/-- What is derived opens and closes its braces. -/
theorem Declaration.balanced {faulty : Bool} {tokens : List Token} {stmt : Stmt} :
    Declaration faulty tokens stmt → Balanced tokens
  | .classDef word name extended opening members closing =>
      balanced_cons (word.weightless (by decide)) (balanced_cons (name.weightless (by decide))
        (balanced_append (balanced_of_flat extended.flat) (balanced_braces members.balanced)))
  | .function word routine => balanced_cons (word.weightless (by decide)) routine.balanced
  | .variable word binding =>
      balanced_cons (word.weightless (by decide)) (balanced_of_flat binding.flat)
  | .statement inner => inner.balanced
  | .placeholder _ => balanced_of_flat flat_nil

/-- Declarations are balanced one by one. -/
theorem Declarations.balanced {faulty : Bool} {tokens : List Token} {body : List Stmt} :
    Declarations faulty tokens body → Balanced tokens
  | .none => balanced_of_flat flat_nil
  | .more first following => balanced_append first.balanced following.balanced

/-- The braces of a function are those around its body and those in it. -/
theorem Routine.balanced {faulty : Bool} {tokens : List Token} {decl : FunDecl} :
    Routine faulty tokens decl → Balanced tokens
  | .intro name opening parameters closing brace inner braceEnd =>
      balanced_cons (name.weightless (by decide)) (balanced_cons (opening.weightless (by decide))
        (balanced_append (balanced_of_flat parameters.flat)
          (balanced_cons (closing.weightless (by decide)) (balanced_braces inner.balanced))))

theorem Members.balanced {faulty : Bool} {tokens : List Token} {fields : List VarDecl}
    {methods : List FunDecl} : Members faulty tokens fields methods → Balanced tokens
  | .none => balanced_of_flat flat_nil
  | .field word first following =>
      balanced_cons (word.weightless (by decide))
        (balanced_append (balanced_of_flat first.flat) following.balanced)
  | .method word first following =>
      balanced_cons (word.weightless (by decide))
        (balanced_append first.balanced following.balanced)

/-- Every brace of a statement is closed in it. By induction on the derivation, together with
declarations, functions and members. -/
theorem Statement.balanced {faulty : Bool} {tokens : List Token} {stmt : Stmt} :
    Statement faulty tokens stmt → Balanced tokens
  | .expression inner => balanced_of_flat inner.flat
  | .block opening inner closing => balanced_braces inner.balanced
  | .branch word opening test closing first =>
      balanced_cons (word.weightless (by decide)) (balanced_cons (opening.weightless (by decide))
        (balanced_append (balanced_of_flat test.flat)
          (balanced_cons (closing.weightless (by decide)) first.balanced)))
  | .choice word opening test closing first otherwise second =>
      balanced_cons (word.weightless (by decide)) (balanced_cons (opening.weightless (by decide))
        (balanced_append (balanced_of_flat test.flat)
          (balanced_cons (closing.weightless (by decide)) (balanced_append first.balanced
            (balanced_cons (otherwise.weightless (by decide)) second.balanced)))))
  | .loop word opening test closing repeated =>
      balanced_cons (word.weightless (by decide)) (balanced_cons (opening.weightless (by decide))
        (balanced_append (balanced_of_flat test.flat)
          (balanced_cons (closing.weightless (by decide)) repeated.balanced)))
  | .count word opening introduced iterator equals initial semicolon test semicolonNext step
      closing repeated => by
      have hBody := balanced_cons (closing.weightless (by decide)) repeated.balanced
      have hStep := balanced_append (balanced_of_flat step.flat) hBody
      have hTest := balanced_append (balanced_of_flat test.flat)
        (balanced_cons (semicolonNext.weightless (by decide)) hStep)
      have hInitial := balanced_append (balanced_of_flat initial.flat)
        (balanced_cons (semicolon.weightless (by decide)) hTest)
      have hIterator := balanced_append (balanced_of_flat introduced.flat)
        (balanced_cons (iterator.weightless (by decide))
          (balanced_cons (equals.weightless (by decide)) hInitial))
      exact balanced_cons (word.weightless (by decide))
        (balanced_cons (opening.weightless (by decide)) hIterator)
  | .ret word => balanced_cons (word.weightless (by decide)) (balanced_of_flat flat_nil)
  | .retValue word value =>
      balanced_cons (word.weightless (by decide)) (balanced_of_flat value.flat)

end

end Grammar

namespace Parse

/-- The depth at a place comes from what was kept and from what was given up before it. -/
theorem Moves.depth {cursor after : Cursor} {kept : List Token} {lost : List (List Token)}
    (h : Moves cursor kept lost after) :
    braceDepth after.before =
      braceDepth cursor.before + braceDepth kept + (lost.map braceDepth).sum := by
  induction h with
  | stay => simp
  | read _ _ ih =>
      rw [ih, braceDepth_cons, braceDepth_cons]
      dsimp only
      omega
  | giveUp given _ ih =>
      rw [ih, given.passes.before, braceDepth_append, braceDepth_reverse, List.map_cons,
        List.sum_cons]
      omega

/-! ## Programs -/

def startsFrom : Nat → Cursor → List (Cursor × Stmt)
  | 0, _ => []
  | fuel + 1, cursor =>
      match cursor.rest with
      | [] => []
      | token :: _ =>
          if token.kind = .eof then []
          else
            match declaration fuel cursor with
            | .ok stmt after => (cursor, stmt) :: startsFrom fuel after
            | .error _ _ => []

/-- The start of a declaration is noted before what follows it. -/
theorem startsFrom_cons {token : Token} (hEnd : token.kind ≠ .eof) {fuel : Nat}
    {before rest : List Token} {recovered : List SyntaxError} {stmt : Stmt} {after : Cursor}
    (h : declaration fuel ⟨before, token :: rest, recovered⟩ = .ok stmt after) :
    startsFrom (fuel + 1) ⟨before, token :: rest, recovered⟩ =
      (⟨before, token :: rest, recovered⟩, stmt) :: startsFrom fuel after := by
  simp only [startsFrom, if_neg hEnd, h]

/-- These are the statements that are parsed. -/
theorem map_startsFrom {fuel : Nat} {cursor after : Cursor} {statements : List Stmt}
    (h : program fuel cursor = .ok statements after) :
    (startsFrom fuel cursor).map Prod.snd = statements := by
  induction fuel generalizing cursor statements with
  | zero => cases h
  | succ fuel ih =>
      obtain ⟨before, rest, recovered⟩ := cursor
      cases rest with
      | nil => cases h
      | cons token rest =>
          by_cases hEnd : token.kind = .eof
          · rw [program_mark hEnd] at h
            cases h
            simp only [startsFrom, if_pos hEnd, List.map_nil]
          · rw [program_cons hEnd] at h
            cases hFirst : declaration fuel ⟨before, token :: rest, recovered⟩ with
            | error fault middle =>
                rw [bind_error hFirst] at h
                cases h
            | ok stmt middle =>
                rw [bind_ok hFirst] at h
                cases hRest : program fuel middle with
                | error fault finish =>
                    rw [bind_error hRest] at h
                    cases h
                | ok others finish =>
                    rw [bind_ok hRest] at h
                    cases h
                    rw [startsFrom_cons hEnd hFirst, List.map_cons, ih hRest]

/-- What is kept before a statement of the program opens and closes its braces. -/
theorem moves_startsFrom {fuel : Nat} {cursor : Cursor} :
    ∀ start ∈ startsFrom fuel cursor, ∃ kept lost,
      Moves cursor kept lost start.1 ∧ Balanced kept := by
  induction fuel generalizing cursor with
  | zero =>
      intro start hStart
      cases hStart
  | succ fuel ih =>
      intro start hStart
      obtain ⟨before, rest, recovered⟩ := cursor
      unfold startsFrom at hStart
      split at hStart
      · cases hStart
      · next token others hRest =>
        split at hStart
        · cases hStart
        · next hEnd =>
          cases hRest
          have hDerives :=
            @declaration_derives fuel _ (not_atMark_cons hEnd before others recovered)
          unfold Derives at hDerives
          split at hStart
          · next stmt after hRun =>
            rw [hRun] at hDerives
            obtain ⟨-, kept, lost, hMoves, hDerived⟩ := hDerives
            rcases List.mem_cons.mp hStart with rfl | hLater
            · exact ⟨[], [], .stay _, balanced_of_flat Grammar.flat_nil⟩
            · obtain ⟨more, further, hFurther, hMore⟩ := ih start hLater
              exact ⟨kept ++ more, lost ++ further, hMoves.trans hFurther,
                balanced_append hDerived.balanced hMore⟩
          · cases hStart

end Parse

/-- The places where the statements of a program start, with the statements. -/
def programStarts (tokens : List Token) : List (Cursor × Stmt) :=
  Parse.startsFrom (Parse.fuelFor (.ofTokens tokens)) (.ofTokens tokens)

/-- Each statement of a program starts at the depth of braces that comes from the
stretches given up before it. The other tokens before it are balanced, and an error
was noted for each stretch. So the depth is zero where no error was recovered from
before, and where all stretches are even. -/
theorem parse_starts_depth {tokens : List Token} {program : Program}
    (hParse : parse tokens = .ok program) :
    (programStarts tokens).map Prod.snd = program.statements ∧
      ∀ start ∈ programStarts tokens, start.1.before.reverse ++ start.1.rest = tokens ∧
        ∃ kept lost, Parse.Moves (.ofTokens tokens) kept lost start.1 ∧ Balanced kept ∧
          lost.length ≤ start.1.recovered.length ∧
          braceDepth start.1.before = (lost.map braceDepth).sum := by
  constructor
  · obtain ⟨-, -, after, hRun, -⟩ := parse_derives hParse
    exact Parse.map_startsFrom hRun
  · intro start hStart
    obtain ⟨kept, lost, hMoves, hKept⟩ := Parse.moves_startsFrom start hStart
    obtain ⟨read, hRead, -⟩ := hMoves.passes
    have hDepth := hMoves.depth
    have hNoted := hMoves.noted
    have hBefore : start.1.before = read.reverse :=
      hRead.before.trans (List.append_nil read.reverse)
    refine ⟨?_, kept, lost, hMoves, hKept, ?_, ?_⟩
    · rw [hBefore, List.reverse_reverse]
      exact hRead.rest.symm
    · exact Nat.le_trans (Nat.le_add_left ..) hNoted
    · rw [hDepth, hKept.2]
      exact Int.zero_add _

/-- A class with a number among its members: `class A { 1 var x => integer }`. -/
def strayNumber : List Token :=
  [bareToken .classWord "class" 1, bareToken .identifier "A" 7, bareToken .leftBrace "\x7b" 9,
    ⟨.integer, "1", .int 1, 1, 11⟩, bareToken .varWord "var" 13, bareToken .identifier "x" 17,
    bareToken .arrow "=>" 19, bareToken .identifier "integer" 22,
    bareToken .rightBrace "\x7d" 30]

/-- The number between the braces of the class starts no statement of the program. -/
theorem parse_starts_depth_strayNumber :
    ∃ program, parse (strayNumber ++ [bareToken .eof "" 31]) = .ok program ∧
      (programStarts (strayNumber ++ [bareToken .eof "" 31])).map Prod.snd = program.statements ∧
      ∀ start ∈ programStarts (strayNumber ++ [bareToken .eof "" 31]),
        start.1.before.reverse ++ start.1.rest = strayNumber ++ [bareToken .eof "" 31] ∧
          ∃ kept lost, Parse.Moves (.ofTokens (strayNumber ++ [bareToken .eof "" 31])) kept lost
              start.1 ∧ Balanced kept ∧ lost.length ≤ start.1.recovered.length ∧
            braceDepth start.1.before = (lost.map braceDepth).sum := by
  have hParsed : (parse (strayNumber ++ [bareToken .eof "" 31])).isOk = true := by
    decide +kernel
  cases hParse : parse (strayNumber ++ [bareToken .eof "" 31]) with
  | error fault =>
      rw [hParse] at hParsed
      cases hParsed
  | ok program => exact ⟨program, rfl, parse_starts_depth hParse⟩

def Stmt.declares (name : String) : Stmt → Bool
  | .varDecl decl => decl.name == name
  | _ => false

/-- The braces are balanced, and yet the field of the class becomes a variable of the
program, which starts inside the braces of the class. -/
theorem strayNumber_declares_member :
    Balanced strayNumber ∧
      ∃ program, parse (strayNumber ++ [bareToken .eof "" 31]) = .ok program ∧
        (∃ stmt ∈ program.statements, stmt.declares "x") ∧
        ∃ start ∈ programStarts (strayNumber ++ [bareToken .eof "" 31]),
          start.2.declares "x" ∧ braceDepth start.1.before = 1 := by
  have hParsed : ((parse (strayNumber ++ [bareToken .eof "" 31])).toOption.any fun program =>
      program.statements.any (·.declares "x")) = true := by
    decide +kernel
  have hStart : ∃ start ∈ programStarts (strayNumber ++ [bareToken .eof "" 31]),
      start.2.declares "x" ∧ braceDepth start.1.before = 1 := by
    decide +kernel
  refine ⟨by decide +kernel, ?_⟩
  cases hParse : parse (strayNumber ++ [bareToken .eof "" 31]) with
  | error fault =>
      rw [hParse] at hParsed
      cases hParsed
  | ok program =>
      rw [hParse] at hParsed
      exact ⟨program, rfl, List.any_eq_true.mp hParsed, hStart⟩

end Mus
