import Mus.Proofs.Line.Shapes
import Mus.Proofs.Line.Typed
import Mus.Proofs.Store.PairedChanges

/-! Making values fit. A conversion yields a value that the type accepts, and a value that
the type accepts already stays as it is. Where no conversion is possible there should be a
complaint about the line, but some faults of operations on values get through: asking a
whole number of what is neither a number nor a text, or of an infinite number, and asking a
text of what has none. Adding to an array hands these on, and leaves the array alone. -/
namespace Mus.Line

/-! ## Conversions -/

/-- Is a value of a kind that whole numbers are made of? -/
def isNumeric : Value → Bool
  | .int _ | .bool _ | .float _ | .str _ => true
  | _ => false

/-- A complaint about types, for a line. -/
def Fault.IsTypeComplaint (fault : Fault) (line : Int) : Prop :=
  ∃ what : Complaint, what.kind = .typeError ∧ fault = .complaint what line

/-- The faults of operations on values with which a conversion ends. They know no line. -/
inductive Escapes (store : Store) : Value → String → Fault → Prop where
  | notNumeric {value : Value} (h : isNumeric value = false) :
      Escapes store value "integer" (.notNumeric value.typeName)
  | infinite {x : Float} {negative : Bool} (h : Real.view x = .infinite negative) :
      Escapes store (.float x) "integer" .infinite
  | textless {value : Value} {fault : TextFault} (h : store.shown value = .error fault) :
      Escapes store value "string" (.text fault)

variable {store : Store} {value converted : Value} {type : String} {line : Int} {fault : Fault}

theorem exists_of_isText (h : isText value = true) : ∃ text, value = .str text := by
  cases value <;> simp [isText] at h ⊢

theorem exists_of_isList (h : isList value = true) : ∃ items, value = .list items := by
  cases value <;> simp [isList] at h ⊢

/-- A whole number stands for itself. -/
theorem toInteger_of_isInteger (h : isInteger value = true) (line : Int) :
    toInteger value line = .ok value := by
  cases value <;> simp [isInteger, toInteger] at h ⊢

/-- What is converted to a whole number is one. -/
theorem isInteger_of_toInteger (h : toInteger value line = .ok converted) :
    isInteger converted = true := by
  unfold toInteger at h
  split at h
  · cases h; rfl
  · cases h; rfl
  · split at h <;> cases h
    rfl
  · split at h <;> cases h
    rfl
  · cases h

/-- A value that the type accepts stays as it is. -/
theorem convert_of_isCompatible (h : isCompatible value type = true) (store : Store)
    (line : Int) : convert store value type line = .ok value := by
  unfold isCompatible at h
  unfold convert
  split_ifs at h ⊢ with hInteger hString hBoolean hArray hAny
  · exact toInteger_of_isInteger h line
  · obtain ⟨text, rfl⟩ := exists_of_isText h
    rfl
  · rfl
  · rfl
  · rfl
  · exact absurd (by simpa using h) hAny

/-- What comes out of a conversion is accepted. -/
theorem isCompatible_of_convert (h : convert store value type line = .ok converted) :
    isCompatible converted type = true := by
  unfold convert at h
  unfold isCompatible
  split_ifs at h ⊢ with hInteger hString hBoolean hValue hArray hValue hAny
  · exact isInteger_of_toInteger h
  · split at h <;> cases h
    rfl
  · cases h
    exact hValue
  · cases h
    exact hValue
  · simpa using hAny

/-- A fault that is no complaint about the line comes from an operation on the value. -/
theorem escapes_of_toInteger (h : toInteger value line = .error fault)
    (hFault : ¬fault.IsTypeComplaint line) : Escapes store value "integer" fault := by
  cases value with
  | int n => cases h
  | bool b => cases h
  | str text =>
      unfold toInteger at h
      dsimp only at h
      split at h <;> cases h
      exact absurd ⟨_, rfl, rfl⟩ hFault
  | float x =>
      unfold toInteger at h
      dsimp only at h
      split at h <;> cases h
      · exact .infinite ‹_›
      · exact absurd ⟨_, rfl, rfl⟩ hFault
  | _ =>
      cases h
      exact .notNumeric rfl

/-- A failed conversion is a complaint about types or one of the escapes. -/
theorem escapes_of_convert (h : convert store value type line = .error fault)
    (hFault : ¬fault.IsTypeComplaint line) : Escapes store value type fault := by
  unfold convert at h
  split_ifs at h with hInteger hString hBoolean hValue hArray hValue hAny
  · subst hInteger
    exact escapes_of_toInteger h hFault
  · subst hString
    split at h <;> cases h
    exact .textless ‹_›
  · cases h
    exact absurd ⟨_, rfl, rfl⟩ hFault
  · cases h
    exact absurd ⟨_, rfl, rfl⟩ hFault
  · cases h
    exact absurd ⟨_, rfl, rfl⟩ hFault

namespace Escapes

/-- Each escape is the outcome of its conversion, so that none of them is listed in vain. -/
theorem convert_eq (h : Escapes store value type fault) (line : Int) :
    convert store value type line = .error fault := by
  cases h with
  | notNumeric h => cases value <;> simp [isNumeric, convert, toInteger] at h ⊢
  | infinite h => simp [convert, toInteger, h]
  | textless h => simp [convert, h]

/-- An escape is no complaint about types. -/
theorem not_isTypeComplaint (h : Escapes store value type fault) (line : Int) :
    ¬fault.IsTypeComplaint line := by
  rintro ⟨what, -, rfl⟩
  cases h

end Escapes

/-! ## Adding to arrays -/

/-- The array that a variable holds has got one more element at its end. All other variables
and lists are as before, and so is what has been printed and asked. -/
structure Appended (name : String) (element : Value) (before after : State) : Prop where
  array : ∃ type old new, lookUp before.scopes name = some (type, .list old) ∧
    lookUp after.scopes name = some (type, .list new) ∧
    after.store.items new = before.store.items old ++ [element]
  variables_kept : ∀ other ≠ name, lookUp after.scopes other = lookUp before.scopes other
  lists_kept : ∀ place, (∀ type, lookUp before.scopes name ≠ some (type, .list (.cell place))) →
    after.store.cell place = before.store.cell place
  printed : after.printed = before.printed
  asked : after.asked = before.asked

/-- Adding the value of an expression to an array has failed. All variables are as before, and
the lists are as they were or as evaluating the expression has left them. The fault is a
complaint about the line, or one that the conversion lets through, or the variable holds no
list although it is declared as an array. -/
structure NotAppended (evaluator : Evaluator) (name expression : String) (line : Int)
    (before : State) (fault : Fault) (after : State) : Prop where
  variables_kept : after.scopes = before.scopes
  lists_kept : after.store = before.store ∨
    after.store = (before.afterAsking evaluator expression line).store
  reason : (∃ what, fault = .complaint what line) ∨
    ∃ type array, lookUp before.scopes name = some (type, array) ∧ isArrayType type = true ∧
      (Escapes (before.afterAsking evaluator expression line).store
          (evaluator expression line before).1 (elementType type) fault ∨
        isList array = false ∧ fault = .unsupported array.typeName "append")

namespace Run

variable {evaluator : Evaluator} {text name expression : String} {array : Value} {state : State}

/-- Adding an item to a list of a variable appends it, for a written list and for one in a cell
alike. -/
theorem changeItems_appends {items : Items}
    (hFound : lookUp state.scopes name = some (type, .list items))
    (hThere : ∀ place, items = .cell place → place < state.store.cells.size) (operation : String)
    (element : Value) :
    ∃ after, changeItems name operation (.list items) (· ++ [element]) state = .ok () after ∧
      Appended name element state after := by
  cases items with
  | cell place =>
      refine ⟨_, rfl, ⟨type, _, _, hFound, hFound, ?_⟩, fun _ _ => rfl, ?_, rfl, rfl⟩
      · simp [Store.items, Store.cell_changeCell_of_lt (hThere place rfl)]
      · intro other hOther
        have hNe : place ≠ other := by
          rintro rfl
          exact hOther type hFound
        simp [Store.cell_changeCell_of_lt (hThere place rfl), hNe]
  | constant values =>
      refine ⟨_, rfl, ⟨type, _, _, hFound, lookUp_assign hFound _, rfl⟩, ?_, fun _ _ => rfl, rfl,
        rfl⟩
      intro other hOther
      exact lookUp_assign_of_ne hOther _ _

/-- A value that is no list has no items to change. -/
theorem changeItems_unsupported (h : isList array = false) (name operation : String)
    (change : List Value → List Value) (state : State) :
    changeItems name operation array change state =
      .error (.unsupported array.typeName operation) state := by
  cases array with
  | list items => cases h
  | _ => rfl

/-- Adding to a name that is nowhere declared is a complaint. -/
theorem push_missing (h : lookUp state.scopes name = none) (evaluator : Evaluator)
    (expression : String) (line : Int) :
    push evaluator name expression line state =
      .error (.complaint (.arrayMissing name) line) state := by
  apply bind_error
  simp only [arrayVariable, get_bind, h]
  rfl

/-- Adding to a variable of another type than an array is a complaint. -/
theorem push_notArray (hFound : lookUp state.scopes name = some (type, array))
    (hArray : isArrayType type = false) (evaluator : Evaluator) (expression : String)
    (line : Int) :
    push evaluator name expression line state =
      .error (.complaint (.notArray name) line) state := by
  apply bind_error
  simp only [arrayVariable, get_bind, hFound, hArray]
  rfl

/-- With an array at hand the value is evaluated, made to fit and added. -/
theorem push_array (hFound : lookUp state.scopes name = some (type, array))
    (hArray : isArrayType type = true) (evaluator : Evaluator) (expression : String)
    (line : Int) :
    push evaluator name expression line state =
      (do
        let element ← convert (evaluator expression line state).1 (elementType type) line
        changeItems name "append" array (· ++ [element]))
        (state.afterAsking evaluator expression line) := by
  have hVariable : arrayVariable name line state = .ok (type, array) state := by
    simp only [arrayVariable, get_bind, hFound, hArray]
    rfl
  unfold push
  rw [bind_ok hVariable]
  rfl

section

variable (hFound : lookUp state.scopes name = some (type, array)) (hArray : isArrayType type = true)
include hFound hArray

/-- Where the conversion to the element type fails, nothing is added, and its fault is the one of
the line. -/
theorem push_refused
    (hConvert : Line.convert (state.afterAsking evaluator expression line).store
      (evaluator expression line state).1 (elementType type) line = .error fault) :
    push evaluator name expression line state =
      .error fault (state.afterAsking evaluator expression line) := by
  rw [push_array hFound hArray]
  apply bind_error
  simp only [convert, get_bind, hConvert]
  rfl

/-- Where the conversion to the element type succeeds, the converted value is added. -/
theorem push_converted {element : Value}
    (hConvert : Line.convert (state.afterAsking evaluator expression line).store
      (evaluator expression line state).1 (elementType type) line = .ok element) :
    push evaluator name expression line state =
      changeItems name "append" array (· ++ [element])
        (state.afterAsking evaluator expression line) := by
  rw [push_array hFound hArray]
  apply bind_ok
  simp only [convert, get_bind, hConvert]
  rfl

end

/-- A list to which the value can be added, or a failure. -/
theorem push_cases (evaluator : Evaluator) (name expression : String) (line : Int)
    (state : State) :
    (∃ type items element, lookUp state.scopes name = some (type, .list items) ∧
      isArrayType type = true ∧
      Line.convert (state.afterAsking evaluator expression line).store
        (evaluator expression line state).1 (elementType type) line = .ok element) ∨
    ∃ fault after, push evaluator name expression line state = .error fault after ∧
      NotAppended evaluator name expression line state fault after := by
  cases hFound : lookUp state.scopes name with
  | none => exact .inr ⟨_, _, push_missing hFound _ _ _, rfl, .inl rfl, .inl ⟨_, rfl⟩⟩
  | some entry =>
      obtain ⟨type, array⟩ := entry
      cases hArray : isArrayType type with
      | false => exact .inr ⟨_, _, push_notArray hFound hArray _ _ _, rfl, .inl rfl, .inl ⟨_, rfl⟩⟩
      | true =>
          cases hConvert : Line.convert (state.afterAsking evaluator expression line).store
              (evaluator expression line state).1 (elementType type) line with
          | error fault =>
              refine .inr ⟨_, _, push_refused hFound hArray hConvert, rfl, .inr rfl, ?_⟩
              by_cases hComplaint : fault.IsTypeComplaint line
              · obtain ⟨what, -, rfl⟩ := hComplaint
                exact .inl ⟨what, rfl⟩
              · exact .inr ⟨type, array, hFound, hArray,
                  .inl (escapes_of_convert hConvert hComplaint)⟩
          | ok element =>
              cases hList : isList array with
              | true =>
                  obtain ⟨items, rfl⟩ := exists_of_isList hList
                  exact .inl ⟨type, items, element, rfl, hArray, hConvert⟩
              | false =>
                  refine .inr ⟨_, state.afterAsking evaluator expression line, ?_, rfl, .inr rfl,
                    .inr ⟨type, array, hFound, hArray, .inr ⟨hList, rfl⟩⟩⟩
                  rw [push_converted hFound hArray hConvert, changeItems_unsupported hList]

section

variable (hText : Shape.push? text = some (name, expression))
include hText

/-- A line of the shape of an addition is carried out as one. -/
theorem arrayOperation_push (evaluator : Evaluator) (line : Int) :
    arrayOperation evaluator text line = (do
      push evaluator name expression line
      return true) := by
  obtain ⟨word, rest, hWord⟩ := Shape.exists_word_of_push? hText
  have hAccess : Shape.isAccess text = false := by
    apply Shape.isAccess_eq_false hWord
    simp [Shape.dropBlanks_cons (show Text.isBlank '.' = false by decide)]
  simp [arrayOperation, hAccess, hText]

/-- A line that adds to an array is nothing else. -/
theorem statement_push (evaluator : Evaluator) (line : Int) :
    statement evaluator text line = arrayOperation evaluator text line := by
  obtain ⟨word, rest, hWord⟩ := Shape.exists_word_of_push? hText
  have hBlanks : Shape.dropBlanks ('.' :: rest) = '.' :: rest :=
    Shape.dropBlanks_cons (by decide) rest
  have hAssign : Shape.assignment? text = none :=
    Shape.assignment?_eq_none hWord (by simp [hBlanks])
  have hCall : Shape.call? text = none := Shape.call?_eq_none hWord (by simp [hBlanks])
  simp [statement, statementWith, hAssign, hCall, arrayOperation_push hText]

/-- A line that adds to an array appends the converted value, wherever the items are kept. -/
theorem arrayOperation_appends
    (hThere : ∀ type place, lookUp state.scopes name = some (type, .list (.cell place)) →
      place < (state.afterAsking evaluator expression line).store.cells.size)
    {items : Items} {element : Value}
    (hFound : lookUp state.scopes name = some (type, .list items))
    (hArray : isArrayType type = true)
    (hConvert : Line.convert (state.afterAsking evaluator expression line).store
      (evaluator expression line state).1 (elementType type) line = .ok element) :
    ∃ after, arrayOperation evaluator text line state = .ok true after ∧
      Appended name element (state.afterAsking evaluator expression line) after := by
  obtain ⟨after, hChange, hAppended⟩ :=
    @changeItems_appends type name (state.afterAsking evaluator expression line) items hFound
      (fun place hItems => hThere type place (hItems ▸ hFound)) "append" element
  refine ⟨after, ?_, hAppended⟩
  rw [arrayOperation_push hText,
    bind_ok ((push_converted hFound hArray hConvert).trans hChange)]
  rfl

end

/-- Conversion and adding to arrays. For every type and value: a value that the type accepts
is converted to itself, what a conversion yields is accepted, and a conversion fails with a
complaint about the types and the line, except exactly where an operation on the value fails.
A line that adds to an array, of which the list is there when the expression has been
evaluated, succeeds where the variable holds a list and the value is converted. It adds one
element that the element type accepts, or it fails and adds nothing. -/
theorem push_appends_or_fails (evaluator : Evaluator)
    (hText : Shape.push? text = some (name, expression)) (line : Int) (state : State)
    (hThere : ∀ type place, lookUp state.scopes name = some (type, .list (.cell place)) →
      place < (state.afterAsking evaluator expression line).store.cells.size) :
    (∀ store value type,
      (isCompatible value type = true → Line.convert store value type line = .ok value) ∧
      (∀ converted, Line.convert store value type line = .ok converted →
        isCompatible converted type = true) ∧
      ∀ fault, Line.convert store value type line = .error fault ∧ ¬fault.IsTypeComplaint line ↔
        Escapes store value type fault) ∧
    statement evaluator text line = arrayOperation evaluator text line ∧
    (∀ type items element, lookUp state.scopes name = some (type, .list items) →
      isArrayType type = true →
      Line.convert (state.afterAsking evaluator expression line).store
        (evaluator expression line state).1 (elementType type) line = .ok element →
      ∃ after, arrayOperation evaluator text line state = .ok true after ∧
        Appended name element (state.afterAsking evaluator expression line) after) ∧
    ((∃ type items element after, lookUp state.scopes name = some (type, .list items) ∧
        isCompatible element (elementType type) = true ∧
        arrayOperation evaluator text line state = .ok true after ∧
        Appended name element (state.afterAsking evaluator expression line) after) ∨
      ∃ fault after, arrayOperation evaluator text line state = .error fault after ∧
        NotAppended evaluator name expression line state fault after) := by
  refine ⟨fun store value type => ⟨fun h => convert_of_isCompatible h store line,
    fun converted => isCompatible_of_convert, fun fault => ⟨fun h => escapes_of_convert h.1 h.2,
      fun h => ⟨h.convert_eq line, h.not_isTypeComplaint line⟩⟩⟩,
    statement_push hText evaluator line, fun _ _ _ => arrayOperation_appends hText hThere, ?_⟩
  rcases push_cases evaluator name expression line state with
    ⟨type, items, element, hFound, hArray, hConvert⟩ | ⟨fault, after, hPush, hFails⟩
  · obtain ⟨after, hRun, hAppended⟩ := arrayOperation_appends hText hThere hFound hArray hConvert
    exact .inl ⟨type, items, element, after, hFound, isCompatible_of_convert hConvert, hRun,
      hAppended⟩
  · refine .inr ⟨fault, after, ?_, hFails⟩
    rw [arrayOperation_push hText, bind_error hPush]

end Run

def State.withNumbers : State :=
  { scopes := [{ bindings := [("a", "array<integer>", .list (.cell 0))] }]
    store := { cells := #[[.int 1]] } }

/-- Knows an expression without a value. -/
def Evaluator.knowingNone : Evaluator := .ofTable [("none", .nothing)] .str

/-- A missing value cannot be added to numbers, and the fault is not about the line. -/
theorem Run.push_appends_or_fails_knowingNone :
    Shape.push? "a.push(none)" = some ("a", "none") ∧
      ∃ fault after, ¬fault.IsTypeComplaint 3 ∧
        arrayOperation .knowingNone "a.push(none)" 3 State.withNumbers = .error fault after ∧
        NotAppended .knowingNone "a" "none" 3 State.withNumbers fault after := by
  have hText : Shape.push? "a.push(none)" = some ("a", "none") := rfl
  have hThere : ∀ type place,
      lookUp State.withNumbers.scopes "a" = some (type, .list (.cell place)) →
      place < (State.withNumbers.afterAsking .knowingNone "none" 3).store.cells.size := by
    intro type place hFound
    cases hFound
    decide
  obtain ⟨hConversion, -, -, hEnds⟩ :=
    push_appends_or_fails .knowingNone hText 3 State.withNumbers hThere
  have hEscapes : Escapes {} .nothing "integer" (.notNumeric "NoneType") := .notNumeric rfl
  have hRun : arrayOperation .knowingNone "a.push(none)" 3 State.withNumbers =
      .error (.notNumeric "NoneType") (State.withNumbers.afterAsking .knowingNone "none" 3) := rfl
  refine ⟨hText, _, _, (((hConversion _ _ _).2.2 _).mpr hEscapes).2, hRun, ?_⟩
  rcases hEnds with ⟨_, _, _, _, -, -, hOk, -⟩ | ⟨fault, after, hError, hFails⟩
  · cases hRun.symm.trans hOk
  · cases hRun.symm.trans hError
    exact hFails

end Mus.Line
