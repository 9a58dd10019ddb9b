import Mus.Proofs.Line.Shapes
import Mus.Proofs.Line.Typed

/-! Lines that compare. A line that starts with a word and an equals sign is an assignment,
whatever follows, so a comparison for equality sets its variable to the value of a text that
starts with the second equals sign. The other comparisons do nothing. -/
namespace Mus.Line

open Mus.Text

namespace Shape

/-- What is evaluated for a comparison for equality: the second equals sign and the rest of the
line. -/
def compared (rest : String) : String := String.ofList ('=' :: firstLine rest.toList)

variable {name blanks : String}

theorem toList_spaced (name blanks mark rest : String) :
    (name ++ blanks ++ mark ++ rest).toList =
      name.toList ++ (blanks.toList ++ (mark.toList ++ rest.toList)) := by
  simp

/-- An expression that starts with a visible character goes on to the end of the line. -/
theorem expression?_cons {c : Char} (hBlank : isBlank c = false) (hEnd : c ≠ '\n')
    (rest : List Char) : expression? (c :: rest) = some (c :: firstLine rest) := by
  simp [expression?, dropBlanks_cons hBlank, firstLine, hEnd]

section

variable (hName : name ≠ "") (hWord : name.toList.all isWordChar = true)
  (hBlanks : blanks.toList.all isBlank = true)
include hName hWord hBlanks

/-- The name in front of the mark is the word that a line starts with. -/
theorem word?_line {mark : String} {c : Char} {more : List Char} (hMark : mark.toList = c :: more)
    (hNext : isWordChar c = false) (rest : String) :
    word? (name ++ blanks ++ mark ++ rest).toList =
      some (name.toList, blanks.toList ++ c :: (more ++ rest.toList)) := by
  have hNonempty : name.toList ≠ [] := by simpa using hName
  rw [toList_spaced, hMark]
  exact word?_spaced hNonempty hWord hBlanks hNext _

/-- A second equals sign belongs to the expression. -/
theorem assignment?_comparison (rest : String) :
    assignment? (name ++ blanks ++ "==" ++ rest) = some (name, compared rest) := by
  have hFirst := word?_line hName hWord hBlanks (show "==".toList = ['=', '='] from rfl)
    (by decide) rest
  have hDrop : dropBlanks (blanks.toList ++ '=' :: (['='] ++ rest.toList)) =
      "=".toList ++ '=' :: rest.toList := dropBlanks_spaced hBlanks (by decide) _
  have hExpression := expression?_cons (show isBlank '=' = false by decide) (by decide)
    rest.toList
  simp only [assignment?, hFirst, Option.bind_eq_bind, Option.bind_some, hDrop, after?_append,
    hExpression, String.ofList_toList]
  rfl

end

end Shape

namespace Run

variable {evaluator : Evaluator} {name type expression : String} {old : Value} {state : State}

/-- Assigning to a name that is nowhere declared is a complaint, before anything is evaluated. -/
theorem assignment_missing (h : lookUp state.scopes name = none) (evaluator : Evaluator)
    (expression : String) (line : Int) :
    assignment evaluator name expression line state =
      .error (.complaint (.variableMissing name) line) state := by
  simp only [assignment, get_bind, h]
  rfl

/-- The value is evaluated, and the variable is set unless its type keeps the value out. -/
theorem assignment_found (h : lookUp state.scopes name = some (type, old))
    (evaluator : Evaluator) (expression : String) (line : Int) :
    assignment evaluator name expression line state =
      (do
        checkAssignable type (evaluator expression line state).1 line
        modify fun (later : State) =>
          { later with scopes := assign name (evaluator expression line state).1 later.scopes })
        (state.afterAsking evaluator expression line) := by
  simp only [assignment, get_bind, h]
  rfl

/-- A value that the declared type keeps out is complained of after it has been evaluated,
and the variable stays as it is. -/
theorem assignment_barred {target : Target} {line : Int}
    (h : lookUp state.scopes name = some (type, old))
    (hBar : assignmentBar? type (evaluator expression line state).1 = some target) :
    assignment evaluator name expression line state =
      .error (.complaint (.notAssignable (evaluator expression line state).1.typeName target) line)
        (state.afterAsking evaluator expression line) := by
  rw [assignment_found h]
  apply bind_error
  simp only [checkAssignable, hBar]
  rfl

/-- A value that the declared type lets in is what the variable holds then. -/
theorem assignment_unbarred {line : Int} (h : lookUp state.scopes name = some (type, old))
    (hBar : assignmentBar? type (evaluator expression line state).1 = none) :
    assignment evaluator name expression line state =
      .ok () { state.afterAsking evaluator expression line with
        scopes := assign name (evaluator expression line state).1 state.scopes } := by
  have hCheck : checkAssignable type (evaluator expression line state).1 line
      (state.afterAsking evaluator expression line) =
        .ok () (state.afterAsking evaluator expression line) := by
    simp only [checkAssignable, hBar]
    rfl
  rw [assignment_found h, bind_ok hCheck]
  rfl

/-- The signs of the comparisons other than that for equality. -/
def otherComparisons : List String := ["!=", "<", "<=", ">", ">="]

/-- The other comparisons change nothing and evaluate nothing. -/
theorem statement_otherComparison {blanks mark : String} (hName : name ≠ "")
    (hWord : name.toList.all isWordChar = true) (hBlanks : blanks.toList.all isBlank = true)
    (hMark : mark ∈ otherComparisons) (evaluator : Evaluator) (rest : String) (line : Int) :
    statement evaluator (name ++ blanks ++ mark ++ rest) line = pure false := by
  have hMarks : ∀ mark ∈ otherComparisons, ∃ c more, mark.toList = c :: more ∧
      c ∈ ['!', '<', '>'] := by
    simp [otherComparisons]
  obtain ⟨c, more, hChars, hFirst⟩ := hMarks mark hMark
  have hSigns : ['!', '<', '>'].all (fun c => !isWordChar c && !isBlank c &&
      c != '=' && c != '(' && c != '[' && c != '.') = true := by
    decide +kernel
  have hSign := List.all_eq_true.mp hSigns c hFirst
  simp only [Bool.and_eq_true, Bool.not_eq_true', bne_iff_ne] at hSign
  obtain ⟨⟨⟨⟨⟨hNoWord, hNoBlank⟩, hAssign⟩, hCall⟩, hAccess⟩, hPoint⟩ := hSign
  have hLine := Shape.word?_line hName hWord hBlanks hChars hNoWord rest
  have hNext : (Shape.dropBlanks (blanks.toList ++ c :: (more ++ rest.toList))).head? = some c := by
    rw [Shape.dropBlanks_spaced hBlanks hNoBlank]
    rfl
  have hNoPoint := Shape.head?_spaced_ne hBlanks (show isBlank '.' = false by decide) hPoint
    (more ++ rest.toList)
  rw [statement, statementWith_idle hLine (by simpa [hNext] using hAssign)
    (by simpa [hNext] using hCall) hNoPoint,
    Shape.isAccess_eq_false hLine (by simpa [hNext] using hAccess)]

/-- A line that compares for equality is carried out as an assignment whose expression starts with
the second equals sign. -/
theorem statement_comparison {blanks : String} (hName : name ≠ "")
    (hWord : name.toList.all isWordChar = true) (hBlanks : blanks.toList.all isBlank = true)
    (evaluator : Evaluator) (rest : String) (line : Int) :
    statement evaluator (name ++ blanks ++ "==" ++ rest) line = (do
      assignment evaluator name (Shape.compared rest) line
      return true) := by
  rw [statement, statementWith, Shape.assignment?_comparison hName hWord hBlanks]

/-- A comparison for equality. A variable that is missing is complained about. Otherwise the
second equals sign and what follows it are evaluated, and the value is assigned: it is complained
about, or the variable holds it from now on. No other variable changes, so all are as before
exactly if the variable is missing, or its type keeps the value out, or it held that value
already. The other comparisons do nothing. -/
theorem equality_line_assigns {blanks rest text : String} (hName : name ≠ "")
    (hWord : name.toList.all isWordChar = true) (hBlanks : blanks.toList.all isBlank = true)
    (hText : text = name ++ blanks ++ "==" ++ rest) (evaluator : Evaluator) (line : Int)
    (state : State) {value : Value}
    (hValue : value = (evaluator (Shape.compared rest) line state).1) :
    (lookUp state.scopes name = none → statement evaluator text line state =
      .error (.complaint (.variableMissing name) line) state) ∧
    (∀ type old target, lookUp state.scopes name = some (type, old) →
      assignmentBar? type value = some target → statement evaluator text line state =
        .error (.complaint (.notAssignable value.typeName target) line)
          (state.afterAsking evaluator (Shape.compared rest) line)) ∧
    (∀ type old, lookUp state.scopes name = some (type, old) → assignmentBar? type value = none →
      statement evaluator text line state =
        .ok true { state.afterAsking evaluator (Shape.compared rest) line with
          scopes := assign name value state.scopes } ∧
      lookUp (assign name value state.scopes) name = some (type, value)) ∧
    (∀ other ≠ name, lookUp (stateAfter (statement evaluator text line state)).scopes other =
      lookUp state.scopes other) ∧
    ((∀ other, lookUp (stateAfter (statement evaluator text line state)).scopes other =
        lookUp state.scopes other) ↔
      ∀ type old, lookUp state.scopes name = some (type, old) →
        assignmentBar? type value = none → value = old) ∧
    ∀ mark ∈ otherComparisons,
      statement evaluator (name ++ blanks ++ mark ++ rest) line = pure false := by
  subst hText hValue
  have hOthers : ∀ mark ∈ otherComparisons,
      statement evaluator (name ++ blanks ++ mark ++ rest) line = pure false :=
    fun mark hMark => statement_otherComparison hName hWord hBlanks hMark evaluator rest line
  rw [statement_comparison hName hWord hBlanks]
  cases hFound : lookUp state.scopes name with
  | none =>
      rw [bind_error (assignment_missing hFound evaluator _ line)]
      exact ⟨fun _ => rfl, by simp, by simp, fun _ _ => rfl, by simp [stateAfter], hOthers⟩
  | some entry =>
      obtain ⟨type, old⟩ := entry
      cases hBar : assignmentBar? type (evaluator (Shape.compared rest) line state).1 with
      | some target =>
          rw [bind_error (assignment_barred hFound hBar)]
          refine ⟨by simp, ?_, ?_, fun _ _ => rfl, ⟨fun _ => ?_, fun _ _ => rfl⟩, hOthers⟩
          · rintro _ _ _ ⟨⟩ hTarget
            cases hBar.symm.trans hTarget
            rfl
          · rintro _ _ ⟨⟩ hNone
            cases hBar.symm.trans hNone
          · rintro _ _ ⟨⟩ hNone
            cases hBar.symm.trans hNone
      | none =>
          rw [bind_ok (assignment_unbarred hFound hBar)]
          refine ⟨by simp, ?_, ?_, fun other hOther => lookUp_assign_of_ne hOther _ _,
            ⟨fun hKept => ?_, fun hSame other => ?_⟩, hOthers⟩
          · rintro _ _ _ ⟨⟩ hTarget
            cases hBar.symm.trans hTarget
          · rintro _ _ ⟨⟩ -
            exact ⟨rfl, lookUp_assign hFound _⟩
          · rintro _ _ ⟨⟩ -
            have hEntry := (lookUp_assign hFound _).symm.trans ((hKept name).trans hFound)
            simpa using hEntry
          · by_cases hOther : other = name
            · subst hOther
              rw [hFound, ← hSame type old rfl hBar]
              exact lookUp_assign hFound _
            · exact lookUp_assign_of_ne hOther _ _

end Run

def State.withNumber : State :=
  { scopes := [{ bindings := [("x", "integer", .int 1)] }] }

/-- Knows the value of a text that no expression should be. -/
def Evaluator.knowingEquals : Evaluator := .ofTable [("= 3", .int 3)] .str

/-- Comparing the variable sets it. -/
theorem Run.equality_line_assigns_withNumber :
    statement .knowingEquals "x == 3" 1 State.withNumber =
        .ok true { State.withNumber.afterAsking .knowingEquals "= 3" 1 with
          scopes := assign "x" (.int 3) State.withNumber.scopes } ∧
      lookUp (assign "x" (.int 3) State.withNumber.scopes) "x" = some ("integer", .int 3) := by
  have hLaw := @equality_line_assigns "x" " " " 3" "x == 3" (by decide) (by decide) (by decide)
    (by decide) .knowingEquals 1 State.withNumber (.int 3) rfl
  exact hLaw.2.2.1 "integer" (.int 1) rfl rfl

end Mus.Line
