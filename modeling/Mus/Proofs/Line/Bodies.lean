import Mus.Proofs.Line.Shapes
import Mus.Proofs.Line.Typed

/-! Bodies of functions. The lines of a body are carried out in turn up to the first that is
seen to return, and what follows that line is never looked at. A line is seen to return when
the word is followed by a space. Written alone, or with another blank behind it, the word is
taken for a statement like any other, and as a rule such a statement has no effect. -/
namespace Mus.Line

open Mus.Text

namespace Shape

/-- A line that returns, blanks at its ends aside: the word, and then nothing or a blank and
an expression. -/
def Returns (text : String) (rest : List Char) : Prop :=
  (trimmed text).toList = "return".toList ++ rest ∧ ∀ c ∈ rest.head?, isBlank c = true

variable {text : String} {rest : List Char}

/-- A blank at the start is trimmed away. -/
theorem trimmed_ofList_cons {c : Char} (h : isBlank c = true) (rest : List Char) :
    trimmed (String.ofList (c :: rest)) = trimmed (String.ofList rest) := by
  simp [trimmed, stripBlanks, h]

theorem return_space_append (rest : List Char) :
    "return ".toList ++ rest = "return".toList ++ ' ' :: rest := rfl

/-- A line with a space behind its word returns what stands behind it. -/
theorem returned?_of_space (h : Returns text (' ' :: rest)) :
    returned? (trimmed text) = some (trimmed (String.ofList (' ' :: rest))) := by
  have hSpace : (trimmed text).toList = "return ".toList ++ rest :=
    h.1.trans (return_space_append rest).symm
  have hBlank : isBlank ' ' = true := by decide
  simp only [returned?, hSpace, after?_append, trimmed_ofList_cons hBlank, Option.map_some]

/-- Only a line with a space behind the word is seen to return. -/
theorem exists_returns_of_returned? {expression : String}
    (h : returned? (trimmed text) = some expression) : ∃ rest, Returns text (' ' :: rest) := by
  cases hAfter : after? "return " (trimmed text).toList with
  | none => simp [returned?, hAfter] at h
  | some rest =>
      refine ⟨rest, (eq_append_of_after? hAfter).trans (return_space_append rest), ?_⟩
      intro c hNext
      cases Option.some.inj hNext
      decide

/-- A line that returns is not recognised if its word is followed by anything but a space. -/
theorem returned?_eq_none (h : Returns text rest) (hSpace : rest.head? ≠ some ' ') :
    returned? (trimmed text) = none := by
  by_contra hSome
  obtain ⟨expression, hExpression⟩ := Option.ne_none_iff_exists'.mp hSome
  obtain ⟨tail, hTail⟩ := exists_returns_of_returned? hExpression
  have hRest : rest = ' ' :: tail := List.append_cancel_left (h.1.symm.trans hTail.1)
  simp [hRest] at hSpace

/-- A line that does not return is never taken for one that does. -/
theorem returned?_eq_none_of_not (h : ∀ rest, ¬Returns text rest) :
    returned? (trimmed text) = none := by
  by_contra hSome
  obtain ⟨expression, hExpression⟩ := Option.ne_none_iff_exists'.mp hSome
  obtain ⟨tail, hTail⟩ := exists_returns_of_returned? hExpression
  exact h _ hTail

/-- The word of a line that returns ends with the word. -/
theorem word?_of_returns (h : Returns text rest) :
    word? (trimmed text).toList = some ("return".toList, rest) := by
  rw [h.1]
  apply word?_append (by decide) (by decide)
  intro c hNext
  exact isWordChar_of_isBlank (h.2 c hNext)

theorem not_point_of_returns (h : Returns text rest) : rest.head? ≠ some '.' := by
  intro hPoint
  have hBlank := h.2 '.' hPoint
  revert hBlank
  decide

end Shape

namespace Run

/-- Carries out lines in turn, whatever they answer. -/
def lines (statement : String → Run Bool) : List String → Run Unit
  | [] => return ()
  | text :: rest => do
      let _ ← statement (Shape.trimmed text)
      lines statement rest

section

variable {statement : String → Run Bool} {before after : List String} {text : String}

/-- What stands behind a line that is seen to return is never carried out. -/
theorem body_returned {expression : String}
    (hText : Shape.returned? (Shape.trimmed text) = some expression) (evaluator : Evaluator)
    (line : Int) :
    body evaluator statement line (text :: after) = evaluate evaluator expression line := by
  simp [body, hText]

/-- A line that is not recognised as returning is carried out as a statement, and the body goes on
behind it. -/
theorem body_not_returned (hText : Shape.returned? (Shape.trimmed text) = none)
    (evaluator : Evaluator) (line : Int) :
    body evaluator statement line (text :: after) = (do
      let _ ← statement (Shape.trimmed text)
      body evaluator statement line after) := by
  simp [body, hText]

/-- Lines that are not seen to return are carried out before the others. -/
theorem body_append (hBefore : ∀ text ∈ before, Shape.returned? (Shape.trimmed text) = none)
    (evaluator : Evaluator) (line : Int) (texts : List String) :
    body evaluator statement line (before ++ texts) = (do
      lines statement before
      body evaluator statement line texts) := by
  induction before with
  | nil => rfl
  | cons text before ih =>
      have hText := hBefore text (List.mem_cons_self ..)
      have hRest := ih fun text hMem => hBefore text (List.mem_cons_of_mem _ hMem)
      rw [List.cons_append, body_not_returned hText, hRest, lines, bind_assoc]

end

def printers : List String := ["out", "error", "warn"]

/-- What carries out the lines of a body that are not seen to return. -/
def bodyStatement (evaluator : Evaluator) (depth : Nat) (line : Int) (text : String) : Run Bool :=
  statementWith evaluator (callFunction evaluator depth) text line

/-- A call that is accepted carries out the body in the scope of the call. -/
theorem callFunction_body {name : String} {values : List Value} {state : State}
    {function : Function} (hName : name ∉ printers)
    (hFunction : state.function? name = some function)
    (hCount : values.length = function.params.length) (evaluator : Evaluator) (depth : Nat)
    (line : Int) :
    callFunction evaluator (depth + 1) name values line state =
      inNewScope (callScope function.params values)
        (body evaluator (bodyStatement evaluator depth line) line function.body) state := by
  simp only [printers, List.mem_cons, List.not_mem_nil, or_false, not_or] at hName
  rw [callFunction, if_neg hName.1, if_neg hName.2.1, if_neg hName.2.2, get_bind, hFunction]
  dsimp only
  rw [if_neg (not_not.mpr hCount)]
  rfl

/-- A line that returns, as the first of its body. If a space follows the word, the call is
over with the value of the expression, and no line behind it is carried out. Otherwise the
line is taken for a statement and the call goes on with the lines behind it. If moreover no
equals sign and no opening parenthesis follows the word, blanks aside, and above all if the
word stands alone, the call is the same as without the line. -/
theorem callFunction_first_return {name text : String} {values : List Value} {state : State}
    {function : Function} {before after : List String} {rest : List Char}
    (hName : name ∉ printers) (hFunction : state.function? name = some function)
    (hCount : values.length = function.params.length)
    (hBody : function.body = before ++ text :: after)
    (hBefore : ∀ earlier ∈ before, ∀ rest, ¬Shape.Returns earlier rest)
    (hReturns : Shape.Returns text rest) (evaluator : Evaluator) (depth : Nat) (line : Int) :
    (rest.head? = some ' ' → callFunction evaluator (depth + 1) name values line state =
      inNewScope (callScope function.params values) (do
        lines (bodyStatement evaluator depth line) before
        evaluate evaluator (Shape.trimmed (String.ofList rest)) line) state) ∧
    (rest.head? ≠ some ' ' → callFunction evaluator (depth + 1) name values line state =
      inNewScope (callScope function.params values) (do
        lines (bodyStatement evaluator depth line) before
        let _ ← bodyStatement evaluator depth line (Shape.trimmed text)
        body evaluator (bodyStatement evaluator depth line) line after) state) ∧
    (rest.head? ≠ some ' ' → (Shape.dropBlanks rest).head? ≠ some '=' →
      (Shape.dropBlanks rest).head? ≠ some '(' →
      callFunction evaluator (depth + 1) name values line state =
        inNewScope (callScope function.params values)
          (body evaluator (bodyStatement evaluator depth line) line (before ++ after)) state) := by
  have hEarlier : ∀ earlier ∈ before, Shape.returned? (Shape.trimmed earlier) = none :=
    fun earlier hMem => Shape.returned?_eq_none_of_not (hBefore earlier hMem)
  rw [callFunction_body hName hFunction hCount, hBody, body_append hEarlier,
    body_append hEarlier]
  refine ⟨fun hSpace => ?_, fun hSpace => ?_, fun hSpace hAssign hCall => ?_⟩
  · obtain ⟨tail, rfl⟩ := List.head?_eq_some_iff.mp hSpace
    rw [body_returned (Shape.returned?_of_space hReturns)]
  · rw [body_not_returned (Shape.returned?_eq_none hReturns hSpace)]
  · have hIdle : bodyStatement evaluator depth line (Shape.trimmed text) = pure _ :=
      statementWith_idle (Shape.word?_of_returns hReturns) hAssign hCall
        (Shape.not_point_of_returns hReturns) evaluator _ line
    rw [body_not_returned (Shape.returned?_eq_none hReturns hSpace), hIdle]
    simp

end Run

/-- A function that sets a variable twice, and is meant to return in between. -/
def State.withReturn : State :=
  { scopes := [{
      bindings := [("x", "integer", .int 1)]
      functions := [("f", ⟨"f", [], ["x = two", "  return", "x = three"]⟩)] }] }

/-- Knows two numbers by name. -/
def Evaluator.counting : Evaluator := .ofTable [("two", .int 2), ("three", .int 3)] .str

/-- The word alone does not end the call: both values have been asked for. -/
theorem Run.callFunction_first_return_alone :
    Shape.Returns "  return" [] ∧
      callFunction .counting 1 "f" [] 7 State.withReturn =
        inNewScope {} (body .counting (bodyStatement .counting 0 7) 7 ["x = two", "x = three"])
          State.withReturn ∧
      (stateAfter (callFunction .counting 1 "f" [] 7 State.withReturn)).asked =
        [("two", 7), ("three", 7)] := by
  have hReturns : Shape.Returns "  return" [] := ⟨rfl, by simp⟩
  have hBefore : ∀ earlier ∈ ["x = two"], ∀ rest, ¬Shape.Returns earlier rest := by
    intro earlier hMem rest hReturns
    cases List.mem_singleton.mp hMem
    cases congrArg List.head? hReturns.1
  have hName : "f" ∉ printers := by decide
  have hFunction : State.withReturn.function? "f" =
      some ⟨"f", [], ["x = two"] ++ "  return" :: ["x = three"]⟩ := rfl
  have hCount : ([] : List Value).length = ([] : Params).length := rfl
  obtain ⟨-, -, hSame⟩ :=
    callFunction_first_return hName hFunction hCount rfl hBefore hReturns .counting 0 7
  have hCall := hSame (by simp) (by simp [Shape.dropBlanks]) (by simp [Shape.dropBlanks])
  exact ⟨hReturns, hCall, by decide +kernel⟩

end Mus.Line
