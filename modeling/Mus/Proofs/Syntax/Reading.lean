import Mus.Proofs.Syntax.Steps
import Mus.Proofs.Syntax.Written

/-! The printed form of an expression is read back: at a place that requires a
level, the parser of that level reads exactly the printed tokens and returns the
expression, if the token behind them cannot go on with it. A level that groups
from the left reads a first part of its operands and then goes on from there. -/
namespace Mus.Parse

open Written

variable {α β : Type}

/-- Before a token of such a kind, the parser reads exactly these tokens, with
this result. -/
def Takes (parser : Parse α) (tokens : List Token) (value : α) (behind : TokenKind → Prop) :
    Prop :=
  ∀ before token rest recovered, behind token.kind →
    parser ⟨before, tokens ++ token :: rest, recovered⟩ =
      .ok value ⟨tokens.reverse ++ before, token :: rest, recovered⟩

/-- The parser takes these tokens with every large enough bound. -/
def Reads (parser : Nat → Parse α) (tokens : List Token) (value : α)
    (behind : TokenKind → Prop) : Prop :=
  ∃ bound, ∀ fuel, bound ≤ fuel → Takes (parser fuel) tokens value behind

/-- One step of the bound is spent on entering the parser. -/
theorem reads_succ {parser : Nat → Parse α} {tokens : List Token} {value : α}
    {behind : TokenKind → Prop} {bound : Nat}
    (h : ∀ fuel, bound ≤ fuel → Takes (parser (fuel + 1)) tokens value behind) :
    Reads parser tokens value behind := by
  refine ⟨bound + 1, fun fuel hFuel => ?_⟩
  obtain ⟨less, rfl⟩ : ∃ less, fuel = less + 1 := ⟨fuel - 1, by omega⟩
  exact h less (by omega)

/-- The kinds that the first of these tokens can have, or the one behind them. -/
def Next (tokens : List Token) (behind : TokenKind → Prop) (kind : TokenKind) : Prop :=
  match tokens with
  | [] => behind kind
  | token :: _ => kind = token.kind

section

variable {parser yes no : Parse α} {next : α → Parse β} {tokens more : List Token} {token : Token}
  {value : α} {result : β} {behind between : TokenKind → Prop} {kinds : List TokenKind}
  {kind : TokenKind} {expectation : Expectation}

/-- Fewer tokens may be allowed behind what is taken. -/
theorem Takes.mono (h : Takes parser tokens value behind)
    (hBehind : ∀ kind, between kind → behind kind) : Takes parser tokens value between :=
  fun before token rest recovered hKind => h before token rest recovered (hBehind _ hKind)

theorem takes_pure (value : α) (behind : TokenKind → Prop) :
    Takes (pure value) [] value behind :=
  fun _ _ _ _ _ => rfl

/-- What the first parser takes stands before what the next one takes. -/
theorem takes_bind (h : Takes parser tokens value between)
    (hNext : ∀ kind, Next more behind kind → between kind)
    (hMore : Takes (next value) more result behind) :
    Takes (parser >>= next) (tokens ++ more) result behind := by
  intro before token rest recovered hKind
  rw [List.reverse_append, List.append_assoc, List.append_assoc, ← hMore _ _ _ _ hKind]
  cases more with
  | nil => exact bind_ok (h _ _ _ _ (hNext _ hKind))
  | cons first others => exact bind_ok (h _ _ _ _ (hNext _ rfl))

/-- A parser in front of a known token. -/
theorem takes_then (h : Takes parser tokens value between) (hToken : between token.kind)
    (hMore : Takes (next value) (token :: more) result behind) :
    Takes (parser >>= next) (tokens ++ token :: more) result behind :=
  takes_bind h (fun _ hKind => hKind ▸ hToken) hMore

/-- The last parser of several, which reads no token. -/
theorem takes_bind_nil (h : Takes parser tokens value behind)
    (hMore : Takes (next value) [] result behind) :
    Takes (parser >>= next) tokens result behind := by
  have hBoth : Takes (parser >>= next) (tokens ++ []) result behind :=
    takes_bind h (fun _ hKind => hKind) hMore
  rwa [List.append_nil] at hBoth

/-- A parser that begins with a known token. -/
theorem takes_cons {parser : Parse α}
    (h : ∀ before rest recovered, parser ⟨before, token :: rest, recovered⟩ =
      yes ⟨token :: before, rest, recovered⟩)
    (hMore : Takes yes more value behind) : Takes parser (token :: more) value behind := by
  intro before after rest recovered hKind
  rw [List.cons_append, h, hMore _ _ _ _ hKind, List.reverse_cons, List.append_assoc]
  rfl

/-- The expected token is taken, and the rest by what comes next. -/
theorem takes_consume {next : Token → Parse β} (hKind : token.kind ∈ [kind])
    (hEnd : kind ≠ .eof) (hMore : Takes (next token) more result behind) :
    Takes (consume kind expectation >>= next) (token :: more) result behind := by
  have hEq := List.mem_singleton.mp hKind
  exact takes_cons (fun _ _ _ => bind_ok (consume_of_kind _ _ _ _ (hEq ▸ hEnd) hEq)) hMore

/-- A token of one of the kinds is taken, and the parser goes on with yes. -/
theorem takes_accept (hKind : token.kind ∈ kinds) (hEnd : .eof ∉ kinds)
    (hYes : Takes yes more value behind) :
    Takes (do if ← accept kinds then yes else no) (token :: more) value behind := by
  have hNe := ne_of_mem_of_not_mem hKind hEnd
  exact takes_cons (fun _ _ _ => bind_ok (accept_of_mem _ _ _ hNe hKind)) hYes

/-- The accepted token is used. -/
theorem takes_accept_previous {next : Token → Parse α} (hKind : token.kind ∈ kinds)
    (hEnd : .eof ∉ kinds) (hNext : Takes (next token) more value behind) :
    Takes (do if ← accept kinds then (previous >>= next) else no) (token :: more) value behind := by
  have hNe := ne_of_mem_of_not_mem hKind hEnd
  refine takes_cons (fun before rest recovered => ?_) hNext
  exact (bind_ok (accept_of_mem _ _ _ hNe hKind)).trans (bind_ok (previous_cons _ _ _ _))

/-- If no token of the kinds can follow, the parser goes on with no. -/
theorem takes_accept_not (hNext : ∀ kind, Next tokens behind kind → kind ∉ kinds)
    (hNo : Takes no tokens value behind) :
    Takes (do if ← accept kinds then yes else no) tokens value behind := by
  intro before token rest recovered hKind
  rw [← hNo _ _ _ _ hKind]
  cases tokens with
  | nil => exact bind_ok (accept_of_not_mem _ _ _ (hNext _ hKind))
  | cons first others => exact bind_ok (accept_of_not_mem _ _ _ (hNext _ rfl))

/-- A known token is of none of these kinds. -/
theorem takes_skip {own : List TokenKind} (hKind : token.kind ∈ own)
    (hSkip : ∀ kind ∈ own, kind ∉ kinds) (hNo : Takes no (token :: more) value behind) :
    Takes (do if ← accept kinds then yes else no) (token :: more) value behind := by
  refine takes_accept_not (fun kind hNext => ?_) hNo
  rw [show kind = token.kind from hNext]
  exact hSkip _ hKind

/-- The next token is looked at and is not of this kind. -/
theorem takes_check_not (hNext : ∀ next, Next tokens behind next → next ≠ kind)
    (hNo : Takes no tokens value behind) :
    Takes (do if ← check kind then yes else no) tokens value behind := by
  have hFalse : ∀ token : Token, token.kind ≠ kind →
      (token.kind != .eof && token.kind == kind) = false := by
    intro token hToken
    rw [beq_eq_false_iff_ne.mpr hToken, Bool.and_false]
  intro before token rest recovered hKind
  rw [← hNo _ _ _ _ hKind]
  cases tokens with
  | nil =>
      refine (bind_ok (check_cons _ _ _ _ _)).trans ?_
      rw [hFalse _ (hNext _ hKind)]
      rfl
  | cons first others =>
      refine (bind_ok (check_cons _ _ _ _ _)).trans ?_
      rw [hFalse _ (hNext _ rfl)]
      rfl

/-- The token behind is of the kind that is looked for. -/
theorem takes_check (hBehind : ∀ next, behind next → next = kind) (hEnd : kind ≠ .eof)
    (hYes : Takes yes [] value behind) :
    Takes (do if ← check kind then yes else no) [] value behind := by
  intro before token rest recovered hKind
  rw [← hYes _ _ _ _ hKind]
  refine (bind_ok (check_cons _ _ _ _ _)).trans ?_
  rw [hBehind _ hKind, beq_self_eq_true, bne_iff_ne.mpr hEnd]
  rfl

end

/-! ## Levels -/

def atLevel : Level → Nat → Parse Expr
  | .assignment, fuel => assignment fuel
  | .equality, fuel => equality (unary fuel) fuel
  | .comparison, fuel => comparison (unary fuel) fuel
  | .sum, fuel => sum (unary fuel) fuel
  | .product, fuel => product (unary fuel) fuel
  | .sign, fuel => unary fuel
  | .call, fuel => call fuel
  | .primary, fuel => primary fuel

end Mus.Parse

namespace Mus.Written.Level

/-- The kinds of tokens with which an expression of a level goes on. -/
def continuations : Level → List TokenKind
  | assignment => [.assign]
  | call => [.leftParen, .dot, .leftBracket]
  | level => level.operators

/-- A token that ends an expression: no level that binds at least as tightly
goes on with it. -/
def Stops (level : Level) (kind : TokenKind) : Prop :=
  ∀ other : Level, level.rank ≤ other.rank → kind ∉ other.continuations

/-- A level that groups from the left, by going on from a first expression. -/
def GoesOn (level : Level) : Prop :=
  level ≠ assignment ∧ level ≠ sign ∧ level ≠ primary

/-- What ends an expression of a level ends one that binds more tightly. -/
theorem Stops.mono {level other : Level} {kind : TokenKind} (h : level.Stops kind)
    (hRank : level.rank ≤ other.rank) : other.Stops kind :=
  fun third hThird => h third (Nat.le_trans hRank hThird)

theorem rank_le_rank_next (level : Level) : level.rank ≤ level.next.rank := by
  cases level <;> decide

/-- There is no level between one and the next. -/
theorem rank_next_le {level own : Level} (h : level.rank < own.rank) :
    level.next.rank ≤ own.rank := by
  cases level <;> simp only [rank, next] at h ⊢ <;> omega

theorem rank_injective {level own : Level} (h : level.rank = own.rank) : level = own := by
  cases level <;> cases own <;> simp [rank] at h ⊢

/-- What starts a tighter expression also starts a looser one. -/
theorem starts_subset {level own : Level} (h : level.rank ≤ own.rank) :
    own.starts ⊆ level.starts := by
  cases level <;> cases own <;> simp [rank, starts] at h ⊢

theorem primary_stops (kind : TokenKind) : primary.Stops kind := by
  intro other hRank
  cases other <;> simp [rank, continuations, operators] at hRank ⊢

/-- An operator ends its left operand. -/
theorem next_stops_operator {level : Level} {kind : TokenKind} (h : kind ∈ level.operators) :
    level.next.Stops kind := by
  intro other
  have hOther : ∀ kind ∈ level.operators, level.next.rank ≤ other.rank →
      kind ∉ other.continuations := by
    cases level <;> cases other <;> decide
  exact hOther kind h

/-- The kinds of tokens that end every expression. -/
def enders : List TokenKind :=
  [.rightParen, .rightBracket, .comma, .semicolon, .rightBrace, .leftBrace, .eof, .elseWord,
    .classWord, .funWord, .varWord, .ifWord, .whileWord, .forWord, .returnWord, .integer, .string,
    .boolean, .thisWord, .superWord, .identifier, .newWord, .not]

/-- A token that goes on with no expression ends one of every level. -/
theorem assignment_stops {kind : TokenKind} (h : kind ∈ enders) : assignment.Stops kind := by
  intro other _
  have hOther : ∀ kind ∈ enders, kind ∉ other.continuations := by
    cases other <;> decide
  exact hOther kind h

end Mus.Written.Level

namespace Mus.Parse

open Written

/-- Goes on from an expression, at a level that groups from the left. -/
def goOn : Level → Nat → Nat → Expr → Parse Expr
  | .call, _, steps, e => suffixes steps e
  | level, fuel, steps, e => operators level.operators (atLevel level.next fuel) steps e

/-- The parser of the level reads these tokens first and goes on from the
expression. -/
def Begins (level : Level) (tokens : List Token) (e : Expr) : Prop :=
  ∃ bound used, ∀ fuel, bound ≤ fuel → ∀ more value behind,
    (∀ kind, Next more behind kind → level.next.Stops kind) →
    Takes (goOn level fuel (fuel - used) e) more value behind →
    Takes (atLevel level fuel) (tokens ++ more) value behind

/-- The tokens spell an expression at a place that requires a level. -/
structure Spells (level : Level) (tokens : List Token) (e : Expr) : Prop where
  starts : ∃ token rest, tokens = token :: rest ∧ token.kind ∈ level.starts
  begins : level.GoesOn → Begins level tokens e
  reads : Reads (atLevel level) tokens e level.Stops

variable {level own : Level} {tokens more : List Token} {token : Token} {e : Expr}

/-- The first token is of a kind with which an expression starts. -/
theorem Spells.next_append {behind : TokenKind → Prop} {kind : TokenKind}
    (h : Spells level tokens e) (hKind : Next (tokens ++ more) behind kind) :
    kind ∈ level.starts := by
  obtain ⟨token, rest, rfl, hToken⟩ := h.starts
  rwa [show kind = token.kind from hKind]

/-- The first token of an expression is one with which its level starts. -/
theorem Spells.next {behind : TokenKind → Prop} {kind : TokenKind} (h : Spells level tokens e)
    (hKind : Next tokens behind kind) : kind ∈ level.starts := by
  rw [← List.append_nil tokens] at hKind
  exact h.next_append hKind

/-- A token that ends an expression is not gone on with. -/
theorem takes_goOn (h : level.GoesOn) (fuel steps : Nat) (e : Expr) :
    Takes (goOn level fuel (steps + 1) e) [] e level.Stops := by
  have hOwn : ∀ kind, Next [] level.Stops kind → kind ∉ level.continuations :=
    fun kind hKind => hKind level (Nat.le_refl _)
  cases level with
  | assignment => exact absurd rfl h.1
  | sign => exact absurd rfl h.2.1
  | primary => exact absurd rfl h.2.2
  | call =>
      unfold goOn suffixes
      refine takes_accept_not (fun kind hKind => ?_) (takes_accept_not (fun kind hKind => ?_)
        (takes_accept_not (fun kind hKind => ?_) (takes_pure e _))) <;>
      · have := hOwn kind hKind
        simp_all [Level.continuations]
  | equality | comparison | sum | product =>
      unfold goOn operators
      exact takes_accept_not hOwn (takes_pure e _)

/-- A level that groups from the left reads an expression that it begins with, up to a token that
ends it. -/
theorem Begins.reads (hLevel : level.GoesOn) (h : Begins level tokens e) :
    Reads (atLevel level) tokens e level.Stops := by
  obtain ⟨bound, used, h⟩ := h
  refine ⟨bound + used + 1, fun fuel hFuel => ?_⟩
  have hStep : fuel - used = (fuel - used - 1) + 1 := by omega
  have hAll : Takes (atLevel level fuel) (tokens ++ []) e level.Stops := by
    refine h fuel (by omega) [] e _ (fun kind hKind => ?_) ?_
    · exact Level.Stops.mono hKind level.rank_le_rank_next
    · rw [hStep]
      exact takes_goOn hLevel _ _ e
  rwa [List.append_nil] at hAll

/-- At a level that groups from the left it is enough to begin. -/
theorem Begins.spells (hLevel : level.GoesOn) (h : Begins level tokens e)
    (hStarts : ∃ token rest, tokens = token :: rest ∧ token.kind ∈ level.starts) :
    Spells level tokens e :=
  ⟨hStarts, fun _ => h, h.reads hLevel⟩

/-- An expression of a level that groups from the left begins with one of the
next level. -/
theorem begins_of_next (hLevel : level.GoesOn)
    (h : Reads (atLevel level.next) tokens e level.next.Stops) : Begins level tokens e := by
  obtain ⟨bound, h⟩ := h
  cases level with
  | assignment => exact absurd rfl hLevel.1
  | sign => exact absurd rfl hLevel.2.1
  | primary => exact absurd rfl hLevel.2.2
  | call =>
      refine ⟨bound + 1, 1, fun fuel hFuel more value behind hNext hMore => ?_⟩
      obtain ⟨fuel, rfl⟩ : ∃ less, fuel = less + 1 := ⟨fuel - 1, by omega⟩
      unfold atLevel call
      exact takes_bind (h fuel (by omega)) hNext hMore
  | equality | comparison | sum | product =>
      refine ⟨bound, 0, fun fuel hFuel more value behind hNext hMore => ?_⟩
      exact takes_bind (h fuel hFuel) hNext hMore

/-- What a place accepts, each place that requires a looser level accepts. -/
theorem Spells.lower (h : Spells level.next tokens e) : Spells level tokens e := by
  have hStarts : ∃ token rest, tokens = token :: rest ∧ token.kind ∈ level.starts := by
    obtain ⟨token, rest, hTokens, hKind⟩ := h.starts
    exact ⟨token, rest, hTokens, Level.starts_subset level.rank_le_rank_next hKind⟩
  by_cases hLevel : level.GoesOn
  · exact (begins_of_next hLevel h.reads).spells hLevel hStarts
  · refine ⟨hStarts, fun hGoesOn => absurd hGoesOn hLevel, ?_⟩
    obtain ⟨bound, hReads⟩ := h.reads
    cases level with
    | equality | comparison | sum | product | call =>
        exact absurd ⟨by decide, by decide, by decide⟩ hLevel
    | primary => exact h.reads
    | sign =>
        refine reads_succ fun fuel (hFuel : bound ≤ fuel) => ?_
        have hCall : Takes (call fuel) tokens e Level.sign.Stops :=
          (hReads fuel (by omega)).mono fun kind hKind => hKind.mono (by decide)
        have hFirst : ∀ kind ∈ Level.call.starts, kind ∉ [TokenKind.not, .minus] := by decide
        unfold atLevel unary
        exact takes_accept_not (fun kind hKind => hFirst kind (h.next hKind)) hCall
    | assignment =>
        refine reads_succ fun fuel (hFuel : bound ≤ fuel) => ?_
        have hTarget : Takes (equality (unary fuel) fuel) tokens e Level.assignment.Stops :=
          (hReads fuel (by omega)).mono fun kind hKind => hKind.mono (by decide)
        unfold atLevel assignment
        refine takes_bind_nil hTarget (takes_accept_not (fun kind hKind => ?_) (takes_pure e _))
        exact hKind .assignment (Nat.le_refl _)

/-- An expression binds tightly enough for every place that requires no more. -/
theorem Spells.of_rank_le (h : Spells own tokens e) (hRank : level.rank ≤ own.rank) :
    Spells level tokens e := by
  -- Induction on the number of levels between the two.
  generalize hGap : own.rank - level.rank = gap
  induction gap generalizing level with
  | zero =>
      have hEq : level = own := Level.rank_injective (by omega)
      exact hEq ▸ h
  | succ gap ih =>
      have hLt : level.rank < own.rank := by omega
      have hLess : level.rank < level.next.rank := by
        cases level <;> cases own <;> simp_all [Level.rank, Level.next]
      have hNext := Level.rank_next_le hLt
      have hStep : level.next.rank ≤ level.rank + 1 := by cases level <;> decide
      exact (ih hNext (by omega)).lower

/-! ## Expressions -/

section

variable {left right value object : Expr} {operator name close equals : Token}
  {items : List Expr} {inner : List Token}

/-- At the tightest level it does not matter what stands behind. -/
theorem spells_primary {rest : List Token} (hKind : token.kind ∈ Level.primary.starts)
    (h : ∃ bound, ∀ fuel, bound ≤ fuel →
      Takes (primary (fuel + 1)) (token :: rest) e fun _ => True) :
    Spells .primary (token :: rest) e := by
  obtain ⟨bound, h⟩ := h
  refine ⟨⟨token, rest, rfl, hKind⟩, fun hLevel => absurd rfl hLevel.2.2, ?_⟩
  exact reads_succ fun fuel hFuel => (h fuel hFuel).mono fun _ _ => trivial

theorem spells_literal (hKind : token.kind ∈ [TokenKind.integer, .string, .boolean]) :
    Spells .primary [token] (.literal token.literal token) := by
  have hStarts : ∀ kind ∈ [TokenKind.integer, .string, .boolean],
      kind ∈ Level.primary.starts := by decide
  refine spells_primary (hStarts _ hKind) ⟨0, fun fuel _ => ?_⟩
  unfold primary
  exact takes_accept_previous hKind (by decide) (takes_pure _ _)

theorem spells_this (hKind : token.kind ∈ [TokenKind.thisWord]) :
    Spells .primary [token] (.this token) := by
  have hStarts : ∀ kind ∈ [TokenKind.thisWord], kind ∈ Level.primary.starts := by decide
  refine spells_primary (hStarts _ hKind) ⟨0, fun fuel _ => ?_⟩
  unfold primary
  refine takes_skip hKind (by decide) ?_
  exact takes_accept_previous hKind (by decide) (takes_pure _ _)

/-- The method of a superclass is spelled by three tokens, and only the first is kept as a token. -/
theorem spells_super {dot method : Token} (hKind : token.kind ∈ [TokenKind.superWord])
    (hDot : dot.kind ∈ [TokenKind.dot]) (hMethod : method.kind ∈ [TokenKind.identifier]) :
    Spells .primary [token, dot, method] (.super method.lexeme token) := by
  have hStarts : ∀ kind ∈ [TokenKind.superWord], kind ∈ Level.primary.starts := by decide
  refine spells_primary (hStarts _ hKind) ⟨0, fun fuel _ => ?_⟩
  unfold primary
  refine takes_skip hKind (by decide) (takes_skip hKind (by decide) ?_)
  refine takes_accept_previous hKind (by decide) ?_
  exact takes_consume hDot (by decide) (takes_consume hMethod (by decide) (takes_pure _ _))

theorem spells_variable (hKind : token.kind ∈ [TokenKind.identifier]) :
    Spells .primary [token] (.variable token.lexeme token) := by
  have hStarts : ∀ kind ∈ [TokenKind.identifier], kind ∈ Level.primary.starts := by decide
  refine spells_primary (hStarts _ hKind) ⟨0, fun fuel _ => ?_⟩
  unfold primary
  refine takes_skip hKind (by decide) (takes_skip hKind (by decide)
    (takes_skip hKind (by decide) ?_))
  exact takes_accept_previous hKind (by decide) (takes_pure _ _)

/-- An expression of any level is read by the loosest parser, which leads down to its own level. -/
theorem Spells.reads_assignment (h : Spells level tokens e) :
    Reads assignment tokens e Level.assignment.Stops :=
  (h.of_rank_le (show Level.assignment.rank ≤ level.rank from Nat.zero_le _)).reads

/-- An expression in parentheses is a primary one, and the parentheses leave no trace. -/
theorem spells_group {paren : Token} (hParen : paren.kind ∈ [TokenKind.leftParen])
    (hInner : Spells level inner e) (hClose : close.kind ∈ [TokenKind.rightParen]) :
    Spells .primary (paren :: (inner ++ [close])) e := by
  have hStarts : ∀ kind ∈ [TokenKind.leftParen], kind ∈ Level.primary.starts := by decide
  have hEnds : ∀ kind ∈ [TokenKind.rightParen], kind ∈ Level.enders := by decide
  obtain ⟨bound, hInner⟩ := hInner.reads_assignment
  refine spells_primary (hStarts _ hParen) ⟨bound, fun fuel hFuel => ?_⟩
  unfold primary
  refine takes_skip hParen (by decide) (takes_skip hParen (by decide)
    (takes_skip hParen (by decide) (takes_skip hParen (by decide) ?_)))
  refine takes_accept hParen (by decide) ?_
  refine takes_then (hInner fuel hFuel) (Level.assignment_stops (hEnds _ hClose)) ?_
  exact takes_consume hClose (by decide) (takes_pure _ _)

/-- A printed form at a place that requires a level, given what the form without
parentheses spells. -/
theorem Spells.of_grouped {pieces : List Piece}
    (h : ∀ tokens, Printed pieces tokens → Spells own tokens e)
    (hTokens : Printed (grouped level own pieces) tokens) : Spells level tokens e := by
  unfold grouped at hTokens
  split at hTokens
  · obtain ⟨paren, rest, rfl, hParen, hRest⟩ := printed_mark hTokens
    obtain ⟨inner, back, rfl, hInner, hBack⟩ := printed_append hRest
    obtain ⟨close, back, rfl, hClose, hBack⟩ := printed_mark hBack
    cases printed_nil hBack
    refine (spells_group hParen (h inner hInner) hClose).of_rank_le ?_
    cases level <;> decide
  · exact (h tokens hTokens).of_rank_le (by omega)

/-- Expressions with commas between them, before a token that ends them. -/
theorem reads_moreItems {es : List Term} {e : Term} {close : TokenKind}
    (h : ∀ e' ∈ e :: es, ∀ tokens, Printed e'.body tokens → Spells e'.level tokens e'.expr)
    (hClose : close ∈ [TokenKind.rightParen, .rightBracket])
    (hTokens : Printed (separated (Term.bodies (e :: es))) tokens) :
    Reads moreItems tokens (Term.exprs (e :: es)) (· = close) := by
  have hEnds : ∀ kind ∈ [TokenKind.rightParen, .rightBracket], kind ∈ Level.enders := by decide
  have hLast : ∀ kind ∈ [TokenKind.rightParen, .rightBracket], kind ∉ [TokenKind.comma] := by
    decide
  induction es generalizing e tokens with
  | nil =>
      obtain ⟨bound, hFirst⟩ := (h e (List.mem_cons_self ..) tokens hTokens).reads_assignment
      refine reads_succ fun fuel (hFuel : bound ≤ fuel) => ?_
      unfold moreItems
      refine takes_bind_nil ((hFirst fuel (by omega)).mono ?_) ?_
      · rintro kind rfl
        exact Level.assignment_stops (hEnds _ hClose)
      · refine takes_accept_not ?_ (takes_pure _ _)
        rintro kind rfl
        exact hLast _ hClose
  | cons second es ih =>
      obtain ⟨front, back, rfl, hFront, hBack⟩ := printed_append hTokens
      obtain ⟨comma, rest, rfl, hComma, hRest⟩ := printed_mark hBack
      obtain ⟨bound, hFirst⟩ := (h e (List.mem_cons_self ..) front hFront).reads_assignment
      obtain ⟨bound', hOthers⟩ :=
        ih (fun e' hMem => h e' (List.mem_cons_of_mem _ hMem)) hRest
      have hComma' : ∀ kind ∈ [TokenKind.comma], kind ∈ Level.enders := by decide
      refine reads_succ fun fuel (hFuel : bound + bound' ≤ fuel) => ?_
      unfold moreItems
      refine takes_then (hFirst fuel (by omega))
        (Level.assignment_stops (hComma' _ hComma)) ?_
      refine takes_accept hComma (by decide) ?_
      exact takes_bind_nil (hOthers fuel (by omega)) (takes_pure _ _)

/-- Expressions with commas between them are read up to the closing token. -/
theorem reads_items {es : List Term} {close : TokenKind}
    (h : ∀ e ∈ es, ∀ tokens, Printed e.body tokens → Spells e.level tokens e.expr)
    (hClose : close ∈ [TokenKind.rightParen, .rightBracket])
    (hTokens : Printed (separated (Term.bodies es)) tokens) :
    Reads (Parse.items close) tokens (Term.exprs es) (· = close) := by
  have hEnd : ∀ kind ∈ [TokenKind.rightParen, .rightBracket], kind ≠ .eof := by decide
  cases es with
  | nil =>
      cases printed_nil hTokens
      refine reads_succ fun fuel (_ : 0 ≤ fuel) => ?_
      unfold Parse.items
      exact takes_check (fun _ h => h) (hEnd _ hClose) (takes_pure _ _)
  | cons e es =>
      have hFirst : ∀ kind ∈ e.level.starts, kind ≠ close := by
        intro kind hKind hEq
        have hStarts : ∀ kind ∈ Level.assignment.starts,
            kind ∉ [TokenKind.rightParen, .rightBracket] := by decide
        exact hStarts kind (Level.starts_subset (Nat.zero_le _) hKind) (hEq ▸ hClose)
      obtain ⟨bound, hMore⟩ := reads_moreItems h hClose hTokens
      obtain ⟨front, back, rfl, hFront⟩ := printed_separated hTokens
      refine reads_succ fun fuel (hFuel : bound ≤ fuel) => ?_
      have hSpells := h e (List.mem_cons_self ..) front hFront
      unfold Parse.items
      exact takes_check_not (fun kind hKind => hFirst kind (hSpells.next_append hKind))
        (hMore fuel (by omega))

theorem spells_array {bracket : Token} (hBracket : bracket.kind ∈ [TokenKind.leftBracket])
    (hItems : Reads (Parse.items .rightBracket) inner items (· = .rightBracket))
    (hClose : close.kind ∈ [TokenKind.rightBracket]) :
    Spells .primary (bracket :: (inner ++ [close]))
      (.literal (.list (.constant (items.map .code))) close) := by
  have hStarts : ∀ kind ∈ [TokenKind.leftBracket], kind ∈ Level.primary.starts := by decide
  obtain ⟨bound, hItems⟩ := hItems
  refine spells_primary (hStarts _ hBracket) ⟨bound, fun fuel hFuel => ?_⟩
  unfold primary
  refine takes_skip hBracket (by decide) (takes_skip hBracket (by decide)
    (takes_skip hBracket (by decide) (takes_skip hBracket (by decide)
    (takes_skip hBracket (by decide) ?_))))
  refine takes_accept hBracket (by decide) ?_
  refine takes_then (hItems fuel hFuel) (List.mem_singleton.mp hClose) ?_
  exact takes_consume hClose (by decide) (takes_pure _ _)

/-- A new instance is spelled as a word, a name and the arguments. -/
theorem spells_new {word paren : Token} (hWord : word.kind ∈ [TokenKind.newWord])
    (hName : name.kind ∈ [TokenKind.identifier]) (hParen : paren.kind ∈ [TokenKind.leftParen])
    (hItems : Reads (Parse.items .rightParen) inner items (· = .rightParen))
    (hClose : close.kind ∈ [TokenKind.rightParen]) :
    Spells .primary (word :: name :: paren :: (inner ++ [close]))
      (.call (.variable name.lexeme name) items close) := by
  have hStarts : ∀ kind ∈ [TokenKind.newWord], kind ∈ Level.primary.starts := by decide
  obtain ⟨bound, hItems⟩ := hItems
  refine spells_primary (hStarts _ hWord) ⟨bound, fun fuel hFuel => ?_⟩
  unfold primary
  refine takes_skip hWord (by decide) (takes_skip hWord (by decide)
    (takes_skip hWord (by decide) (takes_skip hWord (by decide)
    (takes_skip hWord (by decide) (takes_skip hWord (by decide) ?_)))))
  refine takes_accept hWord (by decide) ?_
  refine takes_consume hName (by decide) (takes_consume hParen (by decide) ?_)
  refine takes_then (hItems fuel hFuel) (List.mem_singleton.mp hClose) ?_
  exact takes_consume hClose (by decide) (takes_pure _ _)

/-- A sign binds what comes after it more tightly than any operator does. -/
theorem spells_unary (hOperator : operator.kind ∈ [TokenKind.not, .minus])
    (hRight : Spells .sign tokens right) :
    Spells .sign (operator :: tokens) (.unary operator right) := by
  have hStarts : ∀ kind ∈ [TokenKind.not, .minus], kind ∈ Level.sign.starts := by decide
  obtain ⟨bound, hRight⟩ := hRight.reads
  refine ⟨⟨operator, tokens, rfl, hStarts _ hOperator⟩, fun hLevel => absurd rfl hLevel.2.1,
    reads_succ fun fuel (hFuel : bound ≤ fuel) => ?_⟩
  unfold atLevel unary
  refine takes_accept_previous hOperator (by decide) ?_
  exact takes_bind_nil (hRight fuel (by omega)) (takes_pure _ _)

/-- A level with operators goes on with them. -/
theorem goesOn_of_operator {kind : TokenKind} (h : kind ∈ level.operators) : level.GoesOn := by
  cases level <;> simp [Level.operators, Level.GoesOn] at h ⊢

/-- A level with operators goes on by them. -/
theorem goOn_of_operator {kind : TokenKind} (h : kind ∈ level.operators) (fuel steps : Nat)
    (e : Expr) :
    goOn level fuel steps e = operators level.operators (atLevel level.next fuel) steps e := by
  cases level with
  | call => exact absurd h List.not_mem_nil
  | assignment | equality | comparison | sum | product | sign | primary => rfl

/-- Operands group from the left: the level begins with the left operand, then
reads the operator and an operand of the next level, and goes on from there. -/
theorem spells_binary (hLeft : Spells level tokens left)
    (hOperator : operator.kind ∈ level.operators) (hRight : Spells level.next more right) :
    Spells level (tokens ++ operator :: more) (.binary left operator right) := by
  have hLevel := goesOn_of_operator hOperator
  have hEnd : .eof ∉ level.operators := by cases level <;> decide
  obtain ⟨bound, used, hBegins⟩ := hLeft.begins hLevel
  obtain ⟨bound', hRight⟩ := hRight.reads
  refine Begins.spells hLevel ⟨bound + bound' + used + 1, used + 1, ?_⟩ ?_
  · intro fuel hFuel rest value behind hNext hRest
    have hStep : fuel - used = (fuel - (used + 1)) + 1 := by omega
    rw [List.append_assoc]
    refine hBegins fuel (by omega) _ value behind (fun kind hKind => ?_) ?_
    · rw [show kind = operator.kind from hKind]
      exact Level.next_stops_operator hOperator
    · rw [goOn_of_operator hOperator, hStep]
      rw [goOn_of_operator hOperator] at hRest
      unfold operators
      refine takes_accept_previous hOperator hEnd ?_
      exact takes_bind (hRight fuel (by omega)) hNext hRest
  · obtain ⟨first, rest, rfl, hFirst⟩ := hLeft.starts
    exact ⟨first, rest ++ operator :: more, rfl, hFirst⟩

/-- One more call, property or index after an expression. -/
theorem Spells.suffix {suffix : List Token} (hObject : Spells .call tokens object)
    (hSuffix : ∃ bound, ∀ fuel, bound ≤ fuel → ∀ more value behind,
      Takes (suffixes fuel e) more value behind →
      Takes (suffixes (fuel + 1) object) (suffix ++ more) value behind) :
    Spells .call (tokens ++ suffix) e := by
  have hLevel : Level.call.GoesOn := ⟨by decide, by decide, by decide⟩
  obtain ⟨bound, used, hBegins⟩ := hObject.begins hLevel
  obtain ⟨bound', hSuffix⟩ := hSuffix
  refine Begins.spells hLevel ⟨bound + bound' + used + 1, used + 1, ?_⟩ ?_
  · intro fuel hFuel more value behind hNext hMore
    have hStep : fuel - used = (fuel - (used + 1)) + 1 := by omega
    rw [List.append_assoc]
    refine hBegins fuel (by omega) _ value behind (fun kind _ => Level.primary_stops kind) ?_
    rw [hStep]
    exact hSuffix _ (by omega) more value behind hMore
  · obtain ⟨first, rest, rfl, hFirst⟩ := hObject.starts
    exact ⟨first, rest ++ suffix, rfl, hFirst⟩

/-- A call is spelled behind what it is applied to. -/
theorem spells_call {paren : Token} (hCallee : Spells .call tokens object)
    (hParen : paren.kind ∈ [TokenKind.leftParen])
    (hItems : Reads (Parse.items .rightParen) inner items (· = .rightParen))
    (hClose : close.kind ∈ [TokenKind.rightParen]) :
    Spells .call (tokens ++ paren :: (inner ++ [close])) (.call object items close) := by
  obtain ⟨bound, hItems⟩ := hItems
  refine hCallee.suffix ⟨bound, fun fuel hFuel more value behind hMore => ?_⟩
  rw [List.cons_append, List.append_assoc]
  unfold suffixes
  refine takes_accept hParen (by decide) ?_
  refine takes_then (hItems fuel hFuel) (List.mem_singleton.mp hClose) ?_
  exact takes_consume hClose (by decide) hMore

theorem spells_property {dot : Token} (hObject : Spells .call tokens object)
    (hDot : dot.kind ∈ [TokenKind.dot]) (hName : name.kind ∈ [TokenKind.identifier]) :
    Spells .call (tokens ++ [dot, name]) (.get object name.lexeme name) := by
  refine hObject.suffix ⟨0, fun fuel hFuel more value behind hMore => ?_⟩
  rw [List.cons_append, List.cons_append, List.nil_append]
  unfold suffixes
  refine takes_skip hDot (by decide) (takes_accept hDot (by decide) ?_)
  exact takes_consume hName (by decide) hMore

/-- An index that has a description is named by it. -/
theorem indexName_eq (h : e.Described) : indexName e = pure (describe e) := by
  obtain ⟨text, hText⟩ := h
  unfold indexName describe
  rw [hText]

/-- An index is spelled in brackets behind what it is applied to, and stays in the tree by its
description. -/
theorem spells_index {bracket : Token} (hObject : Spells .call tokens object)
    (hBracket : bracket.kind ∈ [TokenKind.leftBracket]) (hIndex : Spells level inner e)
    (hDescribed : e.Described) (hClose : close.kind ∈ [TokenKind.rightBracket]) :
    Spells .call (tokens ++ bracket :: (inner ++ [close])) (.get object (describe e) close) := by
  have hEnds : ∀ kind ∈ [TokenKind.rightBracket], kind ∈ Level.enders := by decide
  obtain ⟨bound, hIndex⟩ := hIndex.reads_assignment
  refine hObject.suffix ⟨bound, fun fuel hFuel more value behind hMore => ?_⟩
  rw [List.cons_append, List.append_assoc]
  unfold suffixes
  refine takes_skip hBracket (by decide) (takes_skip hBracket (by decide) ?_)
  refine takes_accept hBracket (by decide) ?_
  refine takes_then (hIndex fuel hFuel) (Level.assignment_stops (hEnds _ hClose)) ?_
  refine takes_consume hClose (by decide) ?_
  rw [indexName_eq hDescribed]
  exact hMore

/-- Assignments group from the right: the value reaches as far as it can. -/
theorem spells_assignment (hTarget : Spells level tokens e)
    (hLevel : Level.equality.rank ≤ level.rank) (hEquals : equals.kind ∈ [TokenKind.assign])
    (hValue : Spells own more value) (hAssign : assignTo e value equals = pure object) :
    Spells .assignment (tokens ++ equals :: more) object := by
  have hStops : ∀ kind ∈ [TokenKind.assign], Level.equality.Stops kind := by
    intro kind hKind other
    cases List.mem_singleton.mp hKind
    cases other <;> decide
  have hTarget := hTarget.of_rank_le hLevel
  obtain ⟨bound, hReads⟩ := hTarget.reads
  obtain ⟨bound', hValue⟩ := hValue.reads_assignment
  refine ⟨?_, fun hLevel => absurd rfl hLevel.1,
    reads_succ fun fuel (hFuel : bound + bound' ≤ fuel) => ?_⟩
  · obtain ⟨first, rest, rfl, hFirst⟩ := hTarget.starts
    exact ⟨first, rest ++ equals :: more, rfl, hFirst⟩
  · unfold atLevel assignment
    refine takes_then (hReads fuel (by omega)) (hStops _ hEquals) ?_
    refine takes_accept_previous hEquals (by decide) ?_
    refine takes_bind_nil (hValue fuel (by omega)) ?_
    rw [hAssign]
    exact takes_pure _ _

end

mutual

/-- The printed form of a term, without parentheses around it, spells the
expression at its own level. -/
theorem spells_body : (e : Term) → {tokens : List Token} → Printed e.body tokens →
    Spells e.level tokens e.expr
  | .literal word, tokens, h => by
      obtain ⟨rest, rfl, hRest⟩ := printed_word h
      cases printed_nil hRest
      exact spells_literal word.kind_mem
  | .variable name, tokens, h => by
      obtain ⟨rest, rfl, hRest⟩ := printed_word h
      cases printed_nil hRest
      exact spells_variable name.kind_mem
  | .this word, tokens, h => by
      obtain ⟨rest, rfl, hRest⟩ := printed_word h
      cases printed_nil hRest
      exact spells_this word.kind_mem
  | .super word method, tokens, h => by
      obtain ⟨rest, rfl, hDot⟩ := printed_word h
      obtain ⟨dot, rest, rfl, hDotKind, hMethod⟩ := printed_mark hDot
      obtain ⟨rest, rfl, hEnd⟩ := printed_word hMethod
      cases printed_nil hEnd
      exact spells_super word.kind_mem hDotKind method.kind_mem
  | .unary operator right, tokens, h => by
      obtain ⟨rest, rfl, hRest⟩ := printed_word h
      exact spells_unary operator.kind_mem (.of_grouped (fun _ => spells_body right) hRest)
  | .binary level left operator right, tokens, h => by
      obtain ⟨front, back, rfl, hFront, hBack⟩ := printed_append h
      obtain ⟨rest, rfl, hRest⟩ := printed_word hBack
      exact spells_binary (.of_grouped (fun _ => spells_body left) hFront) operator.kind_mem
        (.of_grouped (fun _ => spells_body right) hRest)
  | .call callee arguments close, tokens, h => by
      obtain ⟨front, back, rfl, hFront, hClose⟩ := printed_append h
      obtain ⟨callee', paren', rfl, hCallee, hParen⟩ := printed_append hFront
      obtain ⟨paren, inner, rfl, hParenKind, hInner⟩ := printed_mark hParen
      obtain ⟨rest, rfl, hEnd⟩ := printed_word hClose
      cases printed_nil hEnd
      rw [List.append_assoc, List.cons_append]
      exact spells_call (.of_grouped (fun _ => spells_body callee) hCallee) hParenKind
        (reads_items (spells_bodies arguments) (by decide) hInner) close.kind_mem
  | .property object name, tokens, h => by
      obtain ⟨front, back, rfl, hObject, hDot⟩ := printed_append h
      obtain ⟨dot, rest, rfl, hDotKind, hName⟩ := printed_mark hDot
      obtain ⟨rest, rfl, hEnd⟩ := printed_word hName
      cases printed_nil hEnd
      exact spells_property (.of_grouped (fun _ => spells_body object) hObject) hDotKind
        name.kind_mem
  | .index object place close, tokens, h => by
      obtain ⟨front, back, rfl, hFront, hClose⟩ := printed_append h
      obtain ⟨object', bracket', rfl, hObject, hBracket⟩ := printed_append hFront
      obtain ⟨bracket, inner, rfl, hBracketKind, hPlace⟩ := printed_mark hBracket
      obtain ⟨rest, rfl, hEnd⟩ := printed_word hClose
      cases printed_nil hEnd
      rw [List.append_assoc, List.cons_append]
      exact spells_index (.of_grouped (fun _ => spells_body object) hObject) hBracketKind
        (spells_body place hPlace) place.described close.kind_mem
  | .setVariable name equals value, tokens, h => by
      obtain ⟨rest, rfl, hEquals⟩ := printed_word h
      obtain ⟨rest, rfl, hValue⟩ := printed_word hEquals
      exact spells_assignment (spells_variable name.kind_mem) (by decide) equals.kind_mem
        (spells_body value hValue) rfl
  | .setProperty object name equals value, tokens, h => by
      obtain ⟨front, back, rfl, hObject, hDot⟩ := printed_append h
      obtain ⟨dot, rest, rfl, hDotKind, hName⟩ := printed_mark hDot
      obtain ⟨rest, rfl, hEquals⟩ := printed_word hName
      obtain ⟨rest, rfl, hValue⟩ := printed_word hEquals
      have hTarget := spells_property (.of_grouped (fun _ => spells_body object) hObject)
        hDotKind name.kind_mem
      have hAll := spells_assignment hTarget (by decide) equals.kind_mem
        (spells_body value hValue) rfl
      rwa [List.append_assoc] at hAll
  | .setIndex object place close equals value, tokens, h => by
      obtain ⟨front, back, rfl, hFront, hClose⟩ := printed_append h
      obtain ⟨object', bracket', rfl, hObject, hBracket⟩ := printed_append hFront
      obtain ⟨bracket, inner, rfl, hBracketKind, hPlace⟩ := printed_mark hBracket
      obtain ⟨rest, rfl, hEquals⟩ := printed_word hClose
      obtain ⟨rest, rfl, hValue⟩ := printed_word hEquals
      have hTarget := spells_index (.of_grouped (fun _ => spells_body object) hObject)
        hBracketKind (spells_body place hPlace) place.described close.kind_mem
      have hAll := spells_assignment hTarget (by decide) equals.kind_mem
        (spells_body value hValue) rfl
      simp only [List.append_assoc, List.cons_append, List.nil_append] at hAll ⊢
      exact hAll
  | .array elements close, tokens, h => by
      obtain ⟨front, back, rfl, hFront, hClose⟩ := printed_append h
      obtain ⟨bracket, inner, rfl, hBracketKind, hInner⟩ := printed_mark hFront
      obtain ⟨rest, rfl, hEnd⟩ := printed_word hClose
      cases printed_nil hEnd
      exact spells_array hBracketKind (reads_items (spells_bodies elements) (by decide) hInner)
        close.kind_mem
  | .new name arguments close, tokens, h => by
      obtain ⟨front, back, rfl, hFront, hClose⟩ := printed_append h
      obtain ⟨word, rest, rfl, hWordKind, hName⟩ := printed_mark hFront
      obtain ⟨rest, rfl, hParen⟩ := printed_word hName
      obtain ⟨paren, inner, rfl, hParenKind, hInner⟩ := printed_mark hParen
      obtain ⟨rest, rfl, hEnd⟩ := printed_word hClose
      cases printed_nil hEnd
      exact spells_new hWordKind name.kind_mem hParenKind
        (reads_items (spells_bodies arguments) (by decide) hInner) close.kind_mem

/-- Every term of a list is spelled by its printed form, by induction over terms. -/
theorem spells_bodies : (es : List Term) → ∀ e ∈ es, ∀ tokens, Printed e.body tokens →
    Spells e.level tokens e.expr
  | [], _, h => absurd h List.not_mem_nil
  | first :: rest, e, h => by
      rcases List.mem_cons.mp h with hFirst | hRest
      · rw [hFirst]
        exact fun _ => spells_body first
      · exact spells_bodies rest e hRest

end

/-- The printed form of a term spells the expression at the level that its place
requires. -/
theorem spells_print {level : Level} {e : Term} {tokens : List Token}
    (h : Printed (e.print level) tokens) : Spells level tokens e.expr :=
  .of_grouped (fun _ => spells_body e) h

end Mus.Parse
