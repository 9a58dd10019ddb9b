import Mus.Proofs.Syntax.Bound
import Mus.Proofs.Syntax.Deriving

/-! Where a parser stops. There is no mark at the end of a statement, so each
parser decides by the next token. Where it stops before the end mark, it stops as
well before any token that starts a declaration, unless that token is an opening
parenthesis or bracket or a minus sign, with which an expression can go on. So the
answer of a parser stays the same if other tokens stand in the place of the end
mark and others in front of all, as long as no error is recovered from. -/
namespace Mus

/-! ## A list inside a longer one -/

/-- The tokens with others in the place of the end mark and all behind it. -/
def prolonged (following : List Token) : List Token → List Token
  | [] => []
  | token :: rest => if token.kind = .eof then following else token :: prolonged following rest

theorem prolonged_cons (following : List Token) {token : Token} (h : token.kind ≠ .eof)
    (rest : List Token) :
    prolonged following (token :: rest) = token :: prolonged following rest :=
  if_neg h

theorem prolonged_mark (following : List Token) {mark : Token} (h : mark.kind = .eof)
    (rest : List Token) : prolonged following (mark :: rest) = following :=
  if_pos h

/-- Only the end mark and what lies behind it is replaced. -/
theorem prolonged_append {front : List Token} {mark : Token}
    (hFront : ∀ token ∈ front, token.kind ≠ .eof) (hMark : mark.kind = .eof)
    (following : List Token) : prolonged following (front ++ [mark]) = front ++ following := by
  induction front with
  | nil => exact prolonged_mark following hMark []
  | cons token front ih =>
      rw [List.cons_append, prolonged_cons following (hFront token (List.mem_cons_self ..)),
        ih fun other hOther => hFront other (List.mem_cons_of_mem _ hOther)]
      rfl

/-- The same place in a longer list, which has other tokens in front of it and
others in the place of the end mark. -/
def Cursor.within (base following : List Token) (cursor : Cursor) : Cursor :=
  ⟨cursor.before ++ base, prolonged following cursor.rest, cursor.recovered⟩

namespace Parse

open Grammar

variable {α β : Type}

def reached : EStateM.Result ParseFault Cursor α → Cursor
  | .ok _ after | .error _ after => after

def answerWithin (base following : List Token) :
    EStateM.Result ParseFault Cursor α → EStateM.Result ParseFault Cursor α
  | .ok value after => .ok value (after.within base following)
  | .error fault after => .error fault (after.within base following)

/-- The tokens that follow start with one that ends every declaration. -/
def Ends (following : List Token) : Prop :=
  ∃ next behind, following = next :: behind ∧ next.kind ∈ declarationEnds

/-- An answer that can be the same in a longer list: a result, or the fault of an
index. A list that is closed by a brace may not have run into the end mark. -/
def Lasting (closed : Prop) : EStateM.Result ParseFault Cursor α → Prop
  | .ok _ after => closed → ¬after.AtMark
  | .error (.indexText _) _ => True
  | .error _ _ => False

/-- From the cursor on, the parser only adds to the errors that were recovered
from. If it adds none, a lasting answer stays the same in a longer list. -/
structure Carries (base following : List Token) (closed : Prop) (parser : Parse α)
    (cursor : Cursor) : Prop where
  adds : cursor.recovered <:+ (reached (parser cursor)).recovered
  carried : Lasting closed (parser cursor) →
    (reached (parser cursor)).recovered = cursor.recovered →
    parser (cursor.within base following) = answerWithin base following (parser cursor)

/-! ## Tokens that start nothing -/

/-- The parser ends where it stands, with a fault other than that of an index. -/
def Refuses (parser : Parse α) (cursor : Cursor) : Prop :=
  ∃ fault, parser cursor = .error fault cursor ∧ ∀ text, fault ≠ .indexText text

/-- Where a parser refuses, nothing that comes after it is tried. -/
theorem Refuses.bind {parser : Parse α} {cursor : Cursor} (h : Refuses parser cursor)
    (next : α → Parse β) : Refuses (parser >>= next) cursor := by
  obtain ⟨fault, hRun, hText⟩ := h
  exact ⟨fault, bind_error hRun, hText⟩

section

variable {base following : List Token} {closed : Prop} {cursor : Cursor}

/-! ## The steps of the parsers -/

theorem Lasting.mono {closed' : Prop} {answer : EStateM.Result ParseFault Cursor α}
    (h : Lasting closed' answer) (hClosed : closed → closed') : Lasting closed answer := by
  cases answer with
  | ok value after => exact fun hHas => h (hClosed hHas)
  | error fault after => cases fault <;> exact h

/-- Fewer answers are lasting under a stricter condition. -/
theorem Carries.mono {closed' : Prop} {parser : Parse α}
    (h : Carries base following closed parser cursor) (hClosed : closed → closed') :
    Carries base following closed' parser cursor :=
  ⟨h.adds, fun hLasting => h.carried (hLasting.mono hClosed)⟩

theorem carries_pure (value : α) : Carries base following closed (pure value) cursor :=
  ⟨List.suffix_refl _, fun _ _ => rfl⟩

/-- A refusal is no lasting answer, so that there is nothing to carry over. -/
theorem Refuses.carries {parser : Parse α} (h : Refuses parser cursor) :
    Carries base following closed parser cursor := by
  obtain ⟨fault, hRun, hText⟩ := h
  constructor
  · rw [hRun]
    exact List.suffix_refl _
  · intro hLasting
    rw [hRun] at hLasting
    cases fault with
    | indexText text => exact absurd rfl (hText text)
    | rejected | pastEnd | outOfFuel => exact absurd hLasting id

/-- Parsers only add to the errors that were recovered from, one after the other. -/
theorem adds_bind {parser : Parse α} {next : α → Parse β}
    (hParser : cursor.recovered <:+ (reached (parser cursor)).recovered)
    (hNext : ∀ value after, after.recovered <:+ (reached (next value after)).recovered) :
    cursor.recovered <:+ (reached ((parser >>= next) cursor)).recovered := by
  cases hRun : parser cursor with
  | ok value after =>
      rw [hRun] at hParser
      rw [bind_ok hRun]
      exact hParser.trans (hNext value after)
  | error fault after =>
      rw [hRun] at hParser
      rw [bind_error hRun]
      exact hParser

/-- Wrapping a result makes no difference to the place that is reached. -/
theorem reached_map {parser : Parse α} (wrap : α → β) (cursor : Cursor) :
    reached ((do return wrap (← parser)) cursor) = reached (parser cursor) := by
  cases hRun : parser cursor with
  | ok value after =>
      rw [bind_ok hRun]
      rfl
  | error fault after =>
      rw [bind_error hRun]
      rfl

theorem lasting_of_map {parser : Parse α} {wrap : α → β}
    (h : Lasting closed ((do return wrap (← parser)) cursor)) : Lasting closed (parser cursor) := by
  cases hRun : parser cursor with
  | ok value after =>
      rw [bind_ok hRun] at h
      exact h
  | error fault after =>
      rw [bind_error hRun] at h
      cases fault <;> exact h

/-- If nothing is added in the end, nothing is added on the way. -/
theorem eq_of_suffixes {first middle last : List SyntaxError} (h₁ : first <:+ middle)
    (h₂ : middle <:+ last) (h : last = first) : middle = first ∧ last = middle := by
  have hMiddle : first = middle := h₁.eq_of_length (by
    have := h₁.length_le
    have := h₂.length_le
    rw [h] at this
    omega)
  exact ⟨hMiddle.symm, h.trans hMiddle⟩

/-- One parser after another. If the first one may not run into the end mark, the
second one must fail there. -/
theorem carries_bind_of {first : Prop} {parser : Parse α} {next : α → Parse β}
    (hParser : Carries base following first parser cursor)
    (hNext : ∀ value after, Carries base following closed (next value) after)
    (hMark : ∀ value after, first → after.AtMark → ¬Lasting closed (next value after)) :
    Carries base following closed (parser >>= next) cursor := by
  refine ⟨adds_bind hParser.adds fun value after => (hNext value after).adds, ?_⟩
  intro hLasting hQuiet
  obtain ⟨hAdds, hCarried⟩ := hParser
  cases hRun : parser cursor with
  | error fault after =>
      rw [hRun] at hCarried
      rw [bind_error hRun] at hLasting hQuiet ⊢
      refine bind_error (hCarried ?_ hQuiet)
      cases fault <;> exact hLasting
  | ok value middle =>
      rw [hRun] at hAdds hCarried
      rw [bind_ok hRun] at hLasting hQuiet ⊢
      obtain ⟨hMore, hMoreCarried⟩ := hNext value middle
      obtain ⟨hMiddle, hLast⟩ := eq_of_suffixes hAdds hMore hQuiet
      rw [bind_ok (hCarried (fun h hAt => hMark value middle h hAt hLasting) hMiddle)]
      exact hMoreCarried hLasting hLast

/-- Parsers that carry their answers over, one after the other, do so together. -/
theorem carries_bind {parser : Parse α} {next : α → Parse β}
    (hParser : Carries base following False parser cursor)
    (hNext : ∀ value after, Carries base following closed (next value) after) :
    Carries base following closed (parser >>= next) cursor :=
  carries_bind_of hParser hNext fun _ _ h => absurd h id

/-- The parser goes on as another one does at a later place. -/
theorem carries_step {parser next : Parse α} {after : Cursor}
    (hNext : Carries base following closed next after)
    (hRecovered : after.recovered = cursor.recovered) (hRun : parser cursor = next after)
    (hWithin : parser (cursor.within base following) = next (after.within base following)) :
    Carries base following closed parser cursor := by
  constructor
  · rw [hRun, ← hRecovered]
    exact hNext.adds
  · intro hLasting hQuiet
    rw [hRun] at hLasting hQuiet
    rw [hRun, hWithin]
    exact hNext.carried hLasting (hQuiet.trans hRecovered.symm)

/-- The token before the cursor is the same in the longer list. -/
theorem carries_previous {next : Token → Parse α} {token : Token} {before rest : List Token}
    {recovered : List SyntaxError}
    (hNext : Carries base following closed (next token) ⟨token :: before, rest, recovered⟩) :
    Carries base following closed (previous >>= next) ⟨token :: before, rest, recovered⟩ :=
  carries_step hNext rfl rfl rfl

/-- A token in front of the end mark is next in the longer list, too. -/
theorem within_cons {token : Token} (hEnd : token.kind ≠ .eof) (before rest : List Token)
    (recovered : List SyntaxError) :
    Cursor.within base following ⟨before, token :: rest, recovered⟩ =
      ⟨before ++ base, token :: prolonged following rest, recovered⟩ := by
  unfold Cursor.within
  rw [prolonged_cons following hEnd]

/-- Where the end mark was next, the first of the tokens that follow is. -/
theorem within_mark {mark : Token} (hMark : mark.kind = .eof) (before rest : List Token)
    (recovered : List SyntaxError) :
    Cursor.within base following ⟨before, mark :: rest, recovered⟩ =
      ⟨before ++ base, following, recovered⟩ := by
  unfold Cursor.within
  rw [prolonged_mark following hMark]

/-- A token that is consumed is the same one in the longer list. -/
theorem carries_consume {kind : TokenKind} {expectation : Expectation} {next : Token → Parse α}
    (hNext : ∀ (word : Terminal [kind]) before rest recovered,
      Carries base following closed (next word.token) ⟨word.token :: before, rest, recovered⟩) :
    Carries base following closed (consume kind expectation >>= next) cursor := by
  obtain ⟨before, rest, recovered⟩ := cursor
  cases rest with
  | nil => exact Refuses.carries ⟨_, rfl, fun _ h => by cases h⟩
  | cons token rest =>
      by_cases hKind : token.kind ≠ .eof ∧ token.kind = kind
      · refine carries_step (hNext ⟨token, List.mem_singleton.mpr hKind.2⟩ before rest recovered)
          rfl (bind_ok (consume_of_kind _ _ _ _ hKind.1 hKind.2)) ?_
        rw [within_cons hKind.1]
        exact bind_ok (consume_of_kind _ _ _ _ hKind.1 hKind.2)
      · exact Refuses.carries ⟨_, bind_error (consume_of_not _ _ _ _ hKind), fun _ h => by cases h⟩

/-- A list that is closed by a token has not run into the end mark. -/
theorem carries_closing {parser : Parse α} {kind : TokenKind} {expectation : Expectation}
    {wrap : α → β} (hParser : Carries base following True parser cursor) :
    Carries base following closed (do
      let value ← parser
      let _ ← consume kind expectation
      return wrap value) cursor := by
  refine carries_bind_of hParser (fun value _ => carries_consume fun _ _ _ _ => carries_pure _) ?_
  rintro value ⟨before, _, recovered⟩ - ⟨mark, rest, rfl, hMark⟩ hLasting
  have hKind : ¬(mark.kind ≠ .eof ∧ mark.kind = kind) := fun h => h.1 hMark
  rw [bind_error (consume_of_not before rest recovered expectation hKind)] at hLasting
  exact hLasting

/-- The description of an index does not depend on the place. -/
theorem carries_indexName {index : Expr} {next : String → Parse α}
    (hNext : ∀ name, Carries base following closed (next name) cursor) :
    Carries base following closed (indexName index >>= next) cursor := by
  unfold indexName
  cases index.describe .none with
  | ok name => exact carries_step (hNext name) rfl rfl rfl
  | error fault => exact ⟨List.suffix_refl _, fun _ _ => rfl⟩

/-- A result that is only wrapped up. -/
theorem carries_bind_pure {parser : Parse α} {wrap : α → β}
    (hParser : Carries base following closed parser cursor) :
    Carries base following closed (do return wrap (← parser)) cursor :=
  carries_bind_of hParser (fun _ _ => carries_pure _) fun _ _ hClosed hMark hLasting =>
    hLasting hClosed hMark

/-- If nothing has to be recovered from, a recovering parser answers as the parser itself. -/
theorem carries_recovering {parser : Parse Stmt}
    (hParser : Carries base following False parser cursor) :
    Carries base following False (recovering parser) cursor := by
  obtain ⟨hAdds, hCarried⟩ := hParser
  have hPass (h : ∀ error after, parser cursor ≠ .error (.rejected error) after) :
      Carries base following False (recovering parser) cursor := by
    have hSame := recovering_of_not_rejected rfl h
    constructor
    · rwa [hSame]
    · intro hLasting hQuiet
      rw [hSame] at hLasting hQuiet ⊢
      refine recovering_of_not_rejected (hCarried hLasting hQuiet) fun error after hError => ?_
      cases hRun : parser cursor with
      | ok stmt finish =>
          rw [hRun] at hError
          cases hError
      | error fault finish =>
          rw [hRun] at hError
          cases hError
          exact h error finish hRun
  cases hRun : parser cursor with
  | ok stmt after => exact hPass fun _ _ h => by rw [hRun] at h; cases h
  | error fault after =>
      cases fault with
      | rejected error =>
          rw [hRun] at hAdds
          rcases recovering_of_rejected hRun with
            ⟨-, finish, hAnswer, -, hRecovered, -⟩ | ⟨finish, hAnswer, hRecovered, -⟩
          · constructor
            · rw [hAnswer]
              exact hRecovered ▸ hAdds.trans (List.suffix_cons error _)
            · intro _ hQuiet
              rw [hAnswer] at hQuiet
              have hLonger := congrArg List.length (hRecovered.symm.trans hQuiet)
              have hLength := hAdds.length_le
              rw [List.length_cons] at hLonger
              refine absurd hLength ?_
              change ¬cursor.recovered.length ≤ after.recovered.length
              omega
          · constructor
            · rw [hAnswer]
              exact hRecovered ▸ hAdds
            · intro hLasting
              rw [hAnswer] at hLasting
              exact absurd hLasting id
      | pastEnd | indexText | outOfFuel =>
          exact hPass fun _ _ h => by rw [hRun] at h; cases h

end

/-! ## The rules -/

section

variable {base following : List Token} {spec : Spec α} {cursor : Cursor}

/-- The parser carries its answers over, and it ends before a token with which nothing
can start. -/
structure Follows (base following : List Token) (spec : Spec α) (parser : Parse α)
    (cursor : Cursor) : Prop where
  carries : Carries base following spec.closed parser cursor
  refuses : ∀ token rest, cursor.rest = token :: rest → ¬spec.starts token.kind →
    Refuses parser cursor

/-- A refusal is an end before the next token. -/
theorem Refuses.follows {parser : Parse α} (h : Refuses parser cursor) :
    Follows base following spec parser cursor :=
  ⟨h.carries, fun _ _ _ _ => h⟩

/-- The parser goes on as another one does at the same place. -/
theorem follows_same {parser next : Parse α} (hNext : Follows base following spec next cursor)
    (hRun : parser cursor = next cursor)
    (hWithin : parser (cursor.within base following) = next (cursor.within base following)) :
    Follows base following spec parser cursor where
  carries := carries_step hNext.carries rfl hRun hWithin
  refuses token rest hRest hStart := by
    obtain ⟨fault, hFault, hText⟩ := hNext.refuses token rest hRest hStart
    exact ⟨fault, hRun.trans hFault, hText⟩

/-- A parser that starts with a token of one kind ends before any other token. -/
theorem follows_consume {kind : TokenKind} {expectation : Expectation} {next : Token → Parse α}
    (hStart : spec.starts kind)
    (hNext : ∀ (word : Terminal [kind]) before rest recovered,
      Carries base following spec.closed (next word.token)
        ⟨word.token :: before, rest, recovered⟩) :
    Follows base following spec (consume kind expectation >>= next) cursor where
  carries := carries_consume hNext
  refuses := by
    intro token rest hRest hNot
    obtain ⟨before, _, recovered⟩ := cursor
    cases hRest
    have hKind : ¬(token.kind ≠ .eof ∧ token.kind = kind) := fun h => hNot (h.2 ▸ hStart)
    exact ⟨_, bind_error (consume_of_not _ _ _ _ hKind), fun _ h => by cases h⟩

theorem follows_rejectNext (expectation : Expectation) :
    Follows base following spec (peek >>= reject expectation) cursor := by
  obtain ⟨before, rest, recovered⟩ := cursor
  cases rest with
  | nil => exact Refuses.follows ⟨_, rfl, fun _ h => by cases h⟩
  | cons token rest => exact Refuses.follows ⟨_, rfl, fun _ h => by cases h⟩

/-- Reading on until a token at which the list may be closed. The end mark is no place to
stop, as the brace is missing there. -/
theorem follows_unless {enough : Prop} {yields : Bool → List Token → α → Prop} {value : α}
    {parser no : Parse α} {stops : Token → Prop} [DecidablePred stops]
    (hMark : ∀ token, token.kind = .eof → stops token)
    (hRun : ∀ before token rest recovered, parser ⟨before, token :: rest, recovered⟩ =
      if stops token then .ok value ⟨before, token :: rest, recovered⟩
      else no ⟨before, token :: rest, recovered⟩)
    (hPast : ∀ before recovered, Refuses parser ⟨before, [], recovered⟩)
    (hNo : ¬cursor.AtMark →
      Follows base following ⟨enough, True, anything, 0, yields⟩ no cursor) :
    Follows base following ⟨enough, True, anything, 0, yields⟩ parser cursor := by
  obtain ⟨before, rest, recovered⟩ := cursor
  cases rest with
  | nil => exact (hPast before recovered).follows
  | cons token rest =>
      have hHere := hRun before token rest recovered
      by_cases hEnd : token.kind = .eof
      · refine ⟨⟨?_, fun hLasting => ?_⟩, fun _ _ _ hNot => absurd trivial hNot⟩
        · rw [hHere, if_pos (hMark token hEnd)]
          exact List.suffix_refl _
        · rw [hHere, if_pos (hMark token hEnd)] at hLasting
          exact absurd ⟨token, rest, rfl, hEnd⟩ (hLasting trivial)
      · have hThere := hRun (before ++ base) token (prolonged following rest) recovered
        rw [← within_cons hEnd] at hThere
        by_cases hStop : stops token
        · rw [if_pos hStop] at hHere hThere
          exact ⟨carries_step (carries_pure value) rfl hHere hThere,
            fun _ _ _ hNot => absurd trivial hNot⟩
        · rw [if_neg hStop] at hHere hThere
          exact follows_same (hNo (not_atMark_cons hEnd _ _ _)) hHere hThere

variable (hEnds : Ends following)

include hEnds

/-- Whether the next token is of one of these kinds. Where the parser can stop before the
end mark, none of them may be the kind of a token that ends a declaration. -/
theorem follows_accept {kinds : List TokenKind} {next : Bool → Parse α}
    (hStarts : ∀ kind ∈ kinds, spec.starts kind)
    (hKinds : spec.starts .eof → cursor.AtMark → ∀ kind ∈ declarationEnds, kind ∉ kinds)
    (hYes : ∀ (word : Terminal kinds) before rest recovered,
      Carries base following spec.closed (next true) ⟨word.token :: before, rest, recovered⟩)
    (hNo : Follows base following spec (next false) cursor) :
    Follows base following spec (accept kinds >>= next) cursor := by
  obtain ⟨before, rest, recovered⟩ := cursor
  cases rest with
  | nil => exact Refuses.follows ⟨_, rfl, fun _ h => by cases h⟩
  | cons token rest =>
      by_cases hKind : token.kind ≠ .eof ∧ token.kind ∈ kinds
      · constructor
        · refine carries_step (hYes ⟨token, hKind.2⟩ before rest recovered) rfl
            (bind_ok (accept_of_mem _ _ _ hKind.1 hKind.2)) ?_
          rw [within_cons hKind.1]
          exact bind_ok (accept_of_mem _ _ _ hKind.1 hKind.2)
        · intro first others hRest hNot
          cases hRest
          exact absurd (hStarts _ hKind.2) hNot
      · have hRun : accept kinds ⟨before, token :: rest, recovered⟩ =
            .ok false ⟨before, token :: rest, recovered⟩ := if_neg hKind
        by_cases hMark : token.kind = .eof
        · by_cases hStart : spec.starts .eof
          · refine follows_same hNo (bind_ok hRun) (bind_ok ?_)
            obtain ⟨first, behind, rfl, hFirst⟩ := hEnds
            rw [within_mark hMark]
            exact accept_of_not_mem _ _ _ (hKinds hStart ⟨token, rest, rfl, hMark⟩ _ hFirst)
          · obtain ⟨fault, hFault, hText⟩ := hNo.refuses token rest rfl (hMark ▸ hStart)
            exact Refuses.follows ⟨fault, (bind_ok hRun).trans hFault, hText⟩
        · refine follows_same hNo (bind_ok hRun) (bind_ok ?_)
          rw [within_cons hMark]
          exact if_neg hKind

/-- Looking for a token of a kind that ends no declaration. -/
theorem check_within {kind : TokenKind} (hKind : kind ∉ declarationEnds) (token : Token)
    (before rest : List Token) (recovered : List SyntaxError) :
    ∃ answer,
      check kind ⟨before, token :: rest, recovered⟩ =
        .ok answer ⟨before, token :: rest, recovered⟩ ∧
      check kind (Cursor.within base following ⟨before, token :: rest, recovered⟩) =
        .ok answer (Cursor.within base following ⟨before, token :: rest, recovered⟩) := by
  by_cases hMark : token.kind = .eof
  · have hNot : ∀ first : Token, first.kind ∈ declarationEnds →
        (first.kind != .eof && first.kind == kind) = false := by
      intro first hFirst
      have hNe : first.kind ≠ kind := fun h => hKind (h ▸ hFirst)
      rw [beq_eq_false_iff_ne.mpr hNe, Bool.and_false]
    obtain ⟨first, behind, rfl, hFirst⟩ := hEnds
    refine ⟨false, ?_, ?_⟩
    · rw [check_cons, hNot token (hMark ▸ by decide)]
    · rw [within_mark hMark, check_cons, hNot first hFirst]
  · rw [within_cons hMark]
    exact ⟨_, check_cons _ _ _ _ _, check_cons _ _ _ _ _⟩

/-- Looking for a token that ends no declaration gives the same answer in the longer list. -/
theorem follows_check {kind : TokenKind} {next : Bool → Parse α} (hKind : kind ∉ declarationEnds)
    (hNext : ∀ answer, Follows base following spec (next answer) cursor) :
    Follows base following spec (check kind >>= next) cursor := by
  obtain ⟨before, rest, recovered⟩ := cursor
  cases rest with
  | nil => exact Refuses.follows ⟨_, rfl, fun _ h => by cases h⟩
  | cons token rest =>
      obtain ⟨answer, hHere, hThere⟩ :=
        @check_within base following hEnds kind hKind token before rest recovered
      exact follows_same (hNext answer) (bind_ok hHere) (bind_ok hThere)

end

section

variable {base following : List Token} (hEnds : Ends following)

include hEnds

/-- All parsers carry their answers over, as far as they are lasting. -/
theorem rules_follows :
    Rules fun spec parser _ cursor => Follows base following spec parser cursor where
  pure _ := ⟨carries_pure _, fun _ _ _ hNot => absurd trivial hNot⟩
  exhausted _ := Refuses.follows ⟨_, rfl, fun _ h => by cases h⟩
  reject _ _ _ := Refuses.follows ⟨_, rfl, fun _ h => by cases h⟩
  rejectNext expectation _ := follows_rejectNext expectation
  weaken h _ hClosed hStarts _ _ :=
    ⟨h.carries.mono hClosed, fun token rest hRest hNot => h.refuses token rest hRest fun hStart =>
      hNot (hStarts _ hStart)⟩
  bind hParser hNext :=
    ⟨carries_bind hParser.carries fun value after => (hNext value false [] after).carries,
      fun token rest hRest hNot => (hParser.refuses token rest hRest hNot).bind _⟩
  map hParser _ :=
    ⟨carries_bind_pure hParser.carries,
      fun token rest hRest hNot => (hParser.refuses token rest hRest hNot).bind _⟩
  closing hParser _ := ⟨carries_closing hParser.carries, fun _ _ _ hNot => absurd trivial hNot⟩
  consume hNext := follows_consume rfl fun word before rest recovered =>
    (hNext word before rest recovered).carries
  accept hStarts _ hMark hYes hNo :=
    follows_accept hEnds hStarts hMark
      (fun word before rest recovered => (hYes word before rest recovered).carries) hNo
  previous hNext := ⟨carries_previous hNext.carries, hNext.refuses⟩
  check hKind hNext := follows_check hEnds hKind hNext
  unlessClosed _ hNo := follows_unless (fun _ h => Or.inr h)
    (fun before token rest recovered => unlessClosed_cons before rest recovered _ _)
    (fun _ _ => ⟨_, rfl, fun _ h => by cases h⟩) hNo
  unlessEnded _ hNo := follows_unless (fun _ h => h)
    (fun before token rest recovered => unlessEnded_cons before rest recovered _ _)
    (fun _ _ => ⟨_, rfl, fun _ h => by cases h⟩) hNo
  index hIndex hNext := by
    refine ⟨carries_bind hIndex.carries fun index after => ?_,
      fun _ _ _ hNot => absurd trivial hNot⟩
    refine carries_consume fun word before rest recovered => carries_indexName fun name => ?_
    exact (hNext index [] word name before rest recovered).carries
  recovering _ hPlain := by
    unfold declaration
    exact ⟨carries_recovering hPlain.carries, fun _ _ _ hNot => absurd trivial hNot⟩

/-- A declaration that is parsed without an error is parsed to the same in a longer list. -/
theorem carries_declaration (fuel : Nat) {cursor : Cursor} (hOff : ¬cursor.AtMark) :
    Carries base following False (declaration fuel) cursor :=
  ((rules_follows hEnds).declaration (Nat.le_refl fuel) hOff).carries

/-- A program carries its answer over unless it has run into the end mark. -/
theorem carries_program (fuel : Nat) (cursor : Cursor) :
    Carries base following True (program fuel) cursor :=
  ((rules_follows hEnds).program (Nat.le_refl fuel) cursor).carries

omit hEnds in
/-- A lasting answer has not run against the bound. -/
theorem Lasting.settled {closed : Prop} {answer : EStateM.Result ParseFault Cursor α}
    (h : Lasting closed answer) : Settled (answerWithin base following answer) := by
  intro after hAnswer
  cases answer with
  | ok value finish => cases hAnswer
  | error fault finish =>
      cases hAnswer
      exact h

/-- A lasting declaration is the same in a longer list and under a larger bound. -/
theorem declaration_within {fuel more : Nat} {token : Token} (hEnd : token.kind ≠ .eof)
    {before rest : List Token} {recovered : List SyntaxError} (hLe : fuel ≤ more)
    (hLasting : Lasting False (declaration fuel ⟨before, token :: rest, recovered⟩))
    (hQuiet : (reached (declaration fuel ⟨before, token :: rest, recovered⟩)).recovered =
      recovered) :
    declaration more (Cursor.within base following ⟨before, token :: rest, recovered⟩) =
      answerWithin base following (declaration fuel ⟨before, token :: rest, recovered⟩) := by
  have hOff : ¬Cursor.AtMark ⟨before, token :: rest, recovered⟩ := not_atMark_cons hEnd _ _ _
  have hSame := (@carries_declaration base following hEnds fuel _ hOff).carried hLasting hQuiet
  have hSettled : Settled (answerWithin base following
      (declaration fuel ⟨before, token :: rest, recovered⟩)) := hLasting.settled
  rw [← hSame] at hSettled ⊢
  rw [within_cons hEnd] at hSettled ⊢
  exact (extends_declaration behindMark_id hLe (not_atMark_cons hEnd _ _ _)).eq_of_settled hSettled

end

/-- A declaration is refused before a token with which none starts. -/
theorem refuses_plainDeclaration {token : Token} {before rest : List Token}
    {recovered : List SyntaxError} (fuel : Nat) (hKind : token.kind ∉ declarationStarts) :
    Refuses (plainDeclaration fuel) ⟨before, token :: rest, recovered⟩ := by
  have hEnds : Ends [Token.nowhere] := ⟨_, _, rfl, by decide⟩
  have hFollows := (@rules_follows [] _ hEnds).plainDeclaration (Nat.le_refl fuel)
    ⟨before, token :: rest, recovered⟩
  exact hFollows.refuses token rest rfl hKind

end Parse

end Mus
