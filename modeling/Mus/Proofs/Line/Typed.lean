import Mus.Line.Execute
import Mus.Proofs.Store.References
import Mus.Proofs.Syntax.Steps

/-! Variables keep to their declared types. A declaration and an assignment look at the
type of the variable first, and an operation on an array leaves a list a list. The
parameters of a function hold whatever is given for them, but they are in a scope of their
own, and from there too a variable outside is only reached by these ways. So the scope in
which lines are carried out stays well typed, however deep calls nest and wherever they
fail. -/
namespace Mus.Line

/-! ## Values and types -/

/-- A value that a variable of a type may hold. Whole numbers, texts and arrays are
watched, a variable of any other type holds anything. -/
structure Fits (type : String) (value : Value) : Prop where
  integer : type = "integer" → isInteger value = true
  text : type = "string" → isText value = true
  array : isArrayType type = true → isList value = true

theorem ne_of_isArrayType {type : String} (h : isArrayType type = true) :
    type ≠ "integer" ∧ type ≠ "string" := by
  constructor
  · rintro rfl
    revert h
    decide
  · rintro rfl
    revert h
    decide

/-- What a check lets through fits. -/
theorem fits_of_unbarred {type : String} {value : Value} (h : assignmentBar? type value = none) :
    Fits type value := by
  unfold assignmentBar? at h
  constructor
  · rintro rfl
    simpa using h
  · rintro rfl
    simpa using h
  · intro hArray
    obtain ⟨hInteger, hString⟩ := ne_of_isArrayType hArray
    simpa [hInteger, hString, hArray] using h

/-- A list fits into an array. -/
theorem fits_list {type : String} (h : isArrayType type = true) (items : Items) :
    Fits type (.list items) where
  integer hInteger := absurd hInteger (ne_of_isArrayType h).1
  text hString := absurd hString (ne_of_isArrayType h).2
  array _ := rfl

/-! ## What can happen to scopes -/

/-- What carrying out lines can do to the scopes: set a variable that is found to what fits
its type, declare one with what fits its type, and all this with a further scope inside,
which is gone afterwards and may hold anything. -/
inductive Rewritten : List Scope → List Scope → Prop where
  | refl (scopes : List Scope) : Rewritten scopes scopes
  | trans {first second third : List Scope} (h₁ : Rewritten first second)
      (h₂ : Rewritten second third) : Rewritten first third
  | assign {scopes : List Scope} {name type : String} {old value : Value}
      (hFound : lookUp scopes name = some (type, old)) (hFits : Fits type value) :
      Rewritten scopes (assign name value scopes)
  | declare {scopes : List Scope} (name : String) {type : String} {value : Value}
      (hFits : Fits type value) :
      Rewritten scopes (changeInner
        (fun scope => { scope with bindings := scope.bindings.insert name (type, value) }) scopes)
  | call {scopes after : List Scope} (scope : Scope) (h : Rewritten (scope :: scopes) after) :
      Rewritten scopes after.tail

def Scope.Typed (scope : Scope) : Prop := ∀ entry ∈ scope.bindings, Fits entry.2.1 entry.2.2

/-- A scope stays typed when a variable of it gets a value that fits its type. -/
theorem Scope.Typed.insert {scope : Scope} (h : scope.Typed) (name : String) {type : String}
    {value : Value} (hFits : Fits type value) :
    Scope.Typed { scope with bindings := scope.bindings.insert name (type, value) } := by
  intro entry hEntry
  rcases Table.snd_mem_insert hEntry with hNew | hOld
  · rw [hNew]
    exact hFits
  · exact h entry hOld

/-- Setting a variable changes the scope in which it is found, and no other one. -/
theorem getElem?_assign (name : String) (value : Value) (scopes : List Scope) (place : Nat) :
    (assign name value scopes)[place]? = scopes[place]? ∨
      ∃ scope type old, scopes[place]? = some scope ∧ lookUp scopes name = some (type, old) ∧
        (assign name value scopes)[place]? =
          some { scope with bindings := scope.bindings.insert name (type, value) } := by
  induction scopes generalizing place with
  | nil => exact Or.inl rfl
  | cons scope rest ih =>
      cases hFind : scope.bindings.find? name with
      | some entry =>
          obtain ⟨type, old⟩ := entry
          cases place with
          | zero =>
              right
              exact ⟨scope, type, old, rfl, by simp [lookUp, hFind], by simp [assign, hFind]⟩
          | succ place =>
              left
              simp [assign, hFind]
      | none =>
          have hAssign : assign name value (scope :: rest) = scope :: assign name value rest := by
            simp [assign, hFind]
          have hLookUp : lookUp (scope :: rest) name = lookUp rest name := by
            simp [lookUp, hFind]
          rw [hAssign, hLookUp]
          cases place with
          | zero => exact Or.inl rfl
          | succ place => exact ih place

/-- Assigning opens and closes no scope. -/
theorem length_assign (name : String) (value : Value) (scopes : List Scope) :
    (assign name value scopes).length = scopes.length := by
  induction scopes with
  | nil => rfl
  | cons scope rest ih =>
      cases hFind : scope.bindings.find? name with
      | some entry => simp [assign, hFind]
      | none => simp [assign, hFind, ih]

/-- A variable that is set is found with its type and its new value. -/
theorem lookUp_assign {scopes : List Scope} {name type : String} {old : Value}
    (h : lookUp scopes name = some (type, old)) (value : Value) :
    lookUp (assign name value scopes) name = some (type, value) := by
  induction scopes with
  | nil => cases h
  | cons scope rest ih =>
      cases hFind : scope.bindings.find? name with
      | some entry =>
          simp only [lookUp, List.findSome?_cons, hFind] at h
          cases h
          simp [lookUp, assign, hFind]
      | none =>
          simp only [lookUp, List.findSome?_cons, hFind] at h
          simpa [lookUp, assign, hFind] using ih h

/-- Assigning concerns no other name. -/
theorem lookUp_assign_of_ne {name other : String} (hOther : other ≠ name) (value : Value)
    (scopes : List Scope) : lookUp (assign name value scopes) other = lookUp scopes other := by
  induction scopes with
  | nil => rfl
  | cons scope rest ih =>
      cases hFind : scope.bindings.find? name with
      | some entry =>
          simp [lookUp, assign, hFind, List.findSome?_cons, Table.find?_insert_of_ne hOther]
      | none =>
          simp only [lookUp, assign, hFind, List.findSome?_cons] at ih ⊢
          rw [ih]

namespace Rewritten

variable {scopes after : List Scope}

/-- As many scopes are there as before. -/
theorem length_eq (h : Rewritten scopes after) : after.length = scopes.length := by
  induction h with
  | refl => rfl
  | trans _ _ ih₁ ih₂ => exact ih₂.trans ih₁
  | assign => exact length_assign ..
  | @declare scopes => cases scopes <;> rfl
  | call scope _ ih => simp [ih]

/-- A scope that is well typed stays so, also while others are inside it. -/
theorem typed (h : Rewritten scopes after) {place : Nat}
    (hTyped : ∀ scope, scopes[place]? = some scope → scope.Typed) :
    ∀ scope, after[place]? = some scope → scope.Typed := by
  induction h generalizing place with
  | refl => exact hTyped
  | trans _ _ ih₁ ih₂ => exact ih₂ (ih₁ hTyped)
  | @assign scopes name type old value hFound hFits =>
      intro scope hScope
      rcases getElem?_assign name value scopes place with
        hSame | ⟨found, type', old', hOld, hType, hNew⟩
      · exact hTyped scope (hSame ▸ hScope)
      · cases hNew.symm.trans hScope
        cases hFound.symm.trans hType
        exact (hTyped found hOld).insert name hFits
  | @declare scopes name type value hFits =>
      intro scope hScope
      cases scopes with
      | nil => cases hScope
      | cons inner rest =>
          cases place with
          | zero =>
              cases hScope
              exact (hTyped inner rfl).insert name hFits
          | succ place => exact hTyped scope hScope
  | @call scopes after inner _ ih =>
      -- One more scope is inside, so the same scope is one place further out.
      intro scope hScope
      have hFurther : ∀ scope, (inner :: scopes)[place + 1]? = some scope → scope.Typed := hTyped
      rw [List.getElem?_tail] at hScope
      exact ih hFurther scope hScope

end Rewritten

def State.afterAsking (evaluator : Evaluator) (expression : String) (line : Int) (state : State) :
    State :=
  { state with
    store := (evaluator expression line state).2
    asked := state.asked ++ [(expression, line)] }

/-! ## What steps do to scopes -/

/-- The state in which steps end, with a result or with a fault. -/
def stateAfter {α : Type} : EStateM.Result Fault State α → State
  | .ok _ state => state
  | .error _ state => state

namespace Run

variable {α β : Type} {scopes : List Scope}

/-- Steps that leave the scopes as they are. -/
def Keeps (steps : Run α) : Prop := ∀ state, (stateAfter (steps state)).scopes = state.scopes

/-- Steps that rewrite the scopes, starting from given ones, however they end. -/
def Rewrites (scopes : List Scope) (steps : Run α) : Prop :=
  ∀ state, state.scopes = scopes → Rewritten scopes (stateAfter (steps state)).scopes

/-- Steps that leave the scopes alone rewrite them in no way. -/
theorem Keeps.rewrites {steps : Run α} (h : Keeps steps) : Rewrites scopes steps := by
  rintro state rfl
  rw [h state]
  exact .refl _

theorem keeps_pure (value : α) : Keeps (pure value : Run α) := fun _ => rfl

theorem keeps_throw (fault : Fault) : Keeps (throw fault : Run α) := fun _ => rfl

/-- Steps in turn end where the second ones end, or where the first ones fail. -/
theorem stateAfter_bind (steps : Run α) (next : α → Run β) (state : State) :
    (∃ value, stateAfter ((steps >>= next) state) =
      stateAfter (next value (stateAfter (steps state)))) ∨
    stateAfter ((steps >>= next) state) = stateAfter (steps state) := by
  cases hRun : steps state with
  | ok value middle =>
      left
      exact ⟨value, by rw [bind_ok hRun]; rfl⟩
  | error fault middle =>
      right
      rw [bind_error hRun]
      rfl

/-- Steps that leave the scopes alone, one after the other, do so together. -/
theorem keeps_bind {steps : Run α} {next : α → Run β} (hSteps : Keeps steps)
    (hNext : ∀ value, Keeps (next value)) : Keeps (steps >>= next) := by
  intro state
  rcases stateAfter_bind steps next state with ⟨value, hEnd⟩ | hEnd
  · rw [hEnd, hNext value, hSteps state]
  · rw [hEnd, hSteps state]

theorem keeps_get : Keeps (get : Run State) := fun _ => rfl

/-- Steps that look at the state see the one that they start from. -/
theorem get_bind (next : State → Run α) (state : State) :
    (get >>= next) state = next state state := rfl

/-- Going on after steps that leave the scopes as they are. -/
theorem rewrites_after {steps : Run α} {next : α → Run β} (hSteps : Keeps steps)
    (hNext : ∀ value, Rewrites scopes (next value)) : Rewrites scopes (steps >>= next) := by
  rintro state rfl
  rcases stateAfter_bind steps next state with ⟨value, hEnd⟩ | hEnd
  · rw [hEnd]
    exact hNext value _ (hSteps state)
  · rw [hEnd, hSteps state]
    exact .refl _

/-- Going on after any steps. -/
theorem rewrites_bind {steps : Run α} {next : α → Run β} (hSteps : Rewrites scopes steps)
    (hNext : ∀ value later, Rewrites later (next value)) : Rewrites scopes (steps >>= next) := by
  intro state hState
  have hFirst := hSteps state hState
  rcases stateAfter_bind steps next state with ⟨value, hEnd⟩ | hEnd
  · rw [hEnd]
    exact hFirst.trans (hNext value _ _ rfl)
  · rw [hEnd]
    exact hFirst

/-- Making an answer of what the steps answer. -/
theorem Rewrites.answer {steps : Run α} (h : Rewrites scopes steps) (make : α → β) :
    Rewrites scopes (steps >>= fun value => pure (make value)) :=
  rewrites_bind h fun value _ => (keeps_pure (make value)).rewrites

/-- Going on from what is seen of the state. -/
theorem rewrites_look {next : State → Run α}
    (h : ∀ state, state.scopes = scopes → Rewrites scopes (next state)) :
    Rewrites scopes (get >>= next) :=
  fun state hState => h state hState state hState

/-! Printing and evaluating leave the scopes alone. -/

theorem keeps_print (channel : Channel) (text : String) : Keeps (print channel text) :=
  fun _ => rfl

theorem keeps_shown (value : Value) : Keeps (shown value) := by
  apply keeps_bind keeps_get
  intro state
  cases state.store.shown value with
  | ok text => exact keeps_pure text
  | error fault => exact keeps_throw _

theorem keeps_printAfter (channel : Channel) (values : List Value) :
    Keeps (printAfter channel values) := by
  induction values with
  | nil => exact keeps_print channel _
  | cons value rest ih =>
      apply keeps_bind (keeps_print channel _)
      intro _
      apply keeps_bind (keeps_shown value)
      intro text
      apply keeps_bind (keeps_print channel text)
      intro _
      exact ih

theorem keeps_printAll (channel : Channel) (values : List Value) :
    Keeps (printAll channel values) := by
  cases values with
  | nil => exact keeps_print channel _
  | cons value rest =>
      apply keeps_bind (keeps_shown value)
      intro text
      apply keeps_bind (keeps_print channel text)
      intro _
      exact keeps_printAfter channel rest

variable (evaluator : Evaluator)

/-- The evaluator changes no variable. -/
theorem keeps_evaluate (expression : String) (line : Int) :
    Keeps (evaluate evaluator expression line) :=
  fun _ => rfl

theorem keeps_evaluateAll (line : Int) (expressions : List String) :
    Keeps (evaluateAll evaluator line expressions) := by
  induction expressions with
  | nil => exact keeps_pure _
  | cons expression rest ih =>
      apply keeps_bind (keeps_evaluate evaluator expression line)
      intro value
      apply keeps_bind ih
      intro values
      exact keeps_pure _

/-- Evaluating the arguments of a call changes no variable. -/
theorem keeps_arguments (text : String) (line : Int) : Keeps (arguments evaluator text line) := by
  unfold arguments
  split
  · exact keeps_pure _
  · exact keeps_evaluateAll evaluator line _

/-- A conversion changes no variable, also where it fails. -/
theorem keeps_convert (value : Value) (type : String) (line : Int) :
    Keeps (convert value type line) := by
  apply keeps_bind keeps_get
  intro state
  cases Line.convert state.store value type line with
  | ok converted => exact keeps_pure converted
  | error fault => exact keeps_throw fault

/-! ## Variables -/

/-- Going on after a check, with what the check has shown. -/
theorem rewrites_checked {type : String} {value : Value} {steps : Run α}
    (h : Fits type value → Rewrites scopes steps) (line : Int) :
    Rewrites scopes (do checkAssignable type value line; steps) := by
  unfold checkAssignable
  cases hBar : assignmentBar? type value with
  | none => exact rewrites_after (keeps_pure ()) fun _ => h (fits_of_unbarred hBar)
  | some target =>
      rintro state rfl
      exact .refl _

/-- A declared variable gets what has been made to fit its type. -/
theorem rewrites_declaration (text : String) (line : Int) :
    Rewrites scopes (declaration evaluator text line) := by
  unfold declaration
  split
  · exact (keeps_print _ _).rewrites
  · split
    · exact (keeps_throw _).rewrites
    · apply rewrites_after (keeps_evaluate evaluator _ line)
      intro value
      apply rewrites_checked
      intro hFits state hState
      subst hState
      exact .declare _ hFits

/-- An assignment sets a variable only to what its type lets in. -/
theorem rewrites_assignment (name expression : String) (line : Int) :
    Rewrites scopes (assignment evaluator name expression line) := by
  apply rewrites_look
  rintro state rfl
  cases hFound : lookUp state.scopes name with
  | none => exact (keeps_throw _).rewrites
  | some entry =>
      obtain ⟨type, old⟩ := entry
      apply rewrites_after (keeps_evaluate evaluator expression line)
      intro value
      apply rewrites_checked
      intro hFits later hLater
      rw [← hLater] at hFound ⊢
      exact .assign hFound hFits

/-! ## Arrays -/

/-- Going on with a variable that is declared as an array. -/
theorem rewrites_arrayVariable {name : String} {next : String × Value → Run α}
    (h : ∀ type value, lookUp scopes name = some (type, value) → isArrayType type = true →
      Rewrites scopes (next (type, value))) (line : Int) :
    Rewrites scopes (arrayVariable name line >>= next) := by
  unfold arrayVariable
  rw [bind_assoc]
  apply rewrites_look
  rintro state rfl
  cases hFound : lookUp state.scopes name with
  | none => exact (keeps_throw _).rewrites
  | some entry =>
      obtain ⟨type, value⟩ := entry
      dsimp only
      cases hArray : isArrayType type with
      | false => exact (keeps_throw _).rewrites
      | true => exact h type value hFound hArray

/-- A list that is changed is a list. -/
theorem rewrites_changeItems {name type : String} {old : Value}
    (hFound : lookUp scopes name = some (type, old)) (hArray : isArrayType type = true)
    (operation : String) (value : Value) (change : List Value → List Value) :
    Rewrites scopes (changeItems name operation value change) := by
  unfold changeItems
  split
  · rintro state rfl
    exact .refl _
  · rintro state rfl
    exact .assign hFound (fits_list hArray _)
  · exact (keeps_throw _).rewrites

/-- Adding to an array sets the variable to an array again. -/
theorem rewrites_push (name expression : String) (line : Int) :
    Rewrites scopes (push evaluator name expression line) := by
  apply rewrites_arrayVariable
  intro type array hFound hArray
  apply rewrites_after (keeps_evaluate evaluator expression line)
  intro value
  apply rewrites_after (keeps_convert value _ line)
  intro converted
  exact rewrites_changeItems hFound hArray _ _ _

/-- Dropping from an array sets the variable to an array again. -/
theorem rewrites_pop (name : String) (line : Int) : Rewrites scopes (pop name line) := by
  apply rewrites_arrayVariable
  intro type array hFound hArray
  apply rewrites_look
  intro state _
  split
  · exact (keeps_throw _).rewrites
  · exact rewrites_changeItems hFound hArray _ _ _

theorem rewrites_arrayOperation (text : String) (line : Int) :
    Rewrites scopes (arrayOperation evaluator text line) := by
  unfold arrayOperation
  split
  · exact (keeps_pure _).rewrites
  · split
    · exact (rewrites_push evaluator _ _ line).answer _
    · split
      · exact (rewrites_pop _ line).answer _
      · exact (keeps_pure _).rewrites

/-! ## Statements and calls -/

/-- Every statement rewrites the scopes if calls do. -/
theorem rewrites_statementWith {call : String → List Value → Int → Run Value}
    (hCall : ∀ name values line scopes, Rewrites scopes (call name values line)) (text : String)
    (line : Int) : Rewrites scopes (statementWith evaluator call text line) := by
  unfold statementWith
  split
  · exact (rewrites_assignment evaluator _ _ line).answer _
  · split
    · apply rewrites_after (keeps_arguments evaluator _ line)
      intro values
      exact (hCall _ values line scopes).answer _
    · exact (rewrites_arrayOperation evaluator text line).answer _

/-- What is done in a new scope inside counts outside without that scope. -/
theorem rewrites_inNewScope {scope : Scope} {steps : Run α}
    (h : Rewrites (scope :: scopes) steps) : Rewrites scopes (inNewScope scope steps) := by
  rintro state rfl
  have hInside := h { state with scopes := scope :: state.scopes } rfl
  unfold inNewScope
  cases hRun : steps { state with scopes := scope :: state.scopes } with
  | ok value after =>
      rw [hRun] at hInside
      exact .call scope hInside
  | error fault after =>
      rw [hRun] at hInside
      exact .call scope hInside

/-- The lines of a body rewrite the scopes if each of them does, by induction on the lines. -/
theorem rewrites_body {statement : String → Run Bool} (line : Int)
    (hStatement : ∀ text scopes, Rewrites scopes (statement text)) (texts : List String) :
    Rewrites scopes (body evaluator statement line texts) := by
  induction texts generalizing scopes with
  | nil => exact (keeps_pure _).rewrites
  | cons text rest ih =>
      unfold body
      dsimp only
      split
      · exact (keeps_evaluate evaluator _ line).rewrites
      · apply rewrites_bind (hStatement _ scopes)
        intro _ later
        exact ih

/-- However deep calls may nest. -/
theorem rewrites_callFunction (depth : Nat) (name : String) (values : List Value) (line : Int) :
    Rewrites scopes (callFunction evaluator depth name values line) := by
  induction depth using Nat.strongRecOn generalizing scopes name values line with
  | ind depth ih =>
      unfold callFunction
      split
      · exact (keeps_printAll .output values).rewrites.answer _
      · split
        · exact (keeps_printAll .errors values).rewrites.answer _
        · split
          · apply rewrites_after (keeps_print .errors _)
            intro _
            exact (keeps_printAfter .errors values).rewrites.answer _
          · apply rewrites_look
            rintro state rfl
            split
            · exact (keeps_throw _).rewrites
            · split
              · exact (keeps_throw _).rewrites
              · cases depth with
                | zero => exact (keeps_throw _).rewrites
                | succ depth =>
                    apply rewrites_inNewScope
                    apply rewrites_body
                    intro text scopes
                    apply rewrites_statementWith
                    intro name values line scopes
                    exact ih depth (Nat.lt_succ_self depth) name values line

end Run

/-! ## Sequences of requests -/

/-- What the host can ask for: to carry out a line in one of three ways, or to call a
function with values. -/
inductive Request where
  | declaration (text : String) (line : Int)
  | statement (text : String) (line : Int)
  | arrayOperation (text : String) (line : Int)
  | call (name : String) (values : List Value) (line : Int)

def Request.run (evaluator : Evaluator) : Request → Run Unit
  | .declaration text line => Run.declaration evaluator text line
  | .statement text line => do
      let _ ← Run.statement evaluator text line
  | .arrayOperation text line => do
      let _ ← Run.arrayOperation evaluator text line
  | .call name values line => do
      let _ ← Run.call evaluator name values line

/-- The state after requests in turn. The next one is carried out also where one fails. -/
def State.afterRequests (evaluator : Evaluator) (requests : List Request) (state : State) :
    State :=
  requests.foldl (fun state request => stateAfter (request.run evaluator state)) state

/-- Every request rewrites the scopes, whether it fails or not. -/
theorem Request.rewrites_run (evaluator : Evaluator) (request : Request) (scopes : List Scope) :
    Run.Rewrites scopes (request.run evaluator) := by
  have hCall (name : String) (values : List Value) (line : Int) (scopes : List Scope) :
      Run.Rewrites scopes (Run.call evaluator name values line) :=
    Run.rewrites_callFunction evaluator Run.callLimit name values line
  cases request with
  | declaration text line => exact Run.rewrites_declaration evaluator text line
  | statement text line =>
      exact (Run.rewrites_statementWith evaluator hCall text line).answer _
  | arrayOperation text line =>
      exact (Run.rewrites_arrayOperation evaluator text line).answer _
  | call name values line =>
      exact (hCall name values line scopes).answer _

/-- Any number of requests rewrite the scopes, by induction on them. -/
theorem State.rewritten_afterRequests (evaluator : Evaluator) (requests : List Request)
    (state : State) :
    Rewritten state.scopes (state.afterRequests evaluator requests).scopes := by
  induction requests generalizing state with
  | nil => exact .refl _
  | cons request rest ih =>
      exact (request.rewrites_run evaluator state.scopes state rfl).trans (ih _)

/-- Whatever requests are made in a scope that has no variables at first, with whatever
functions and scopes around it and whatever the expressions evaluate to, the variables of
that scope hold what their declared types say. -/
theorem State.variables_keep_types (evaluator : Evaluator) (requests : List Request)
    {state : State} {scope : Scope} {outer : List Scope} (hScopes : state.scopes = scope :: outer)
    (hEmpty : scope.bindings = []) :
    ∃ scope' outer', (state.afterRequests evaluator requests).scopes = scope' :: outer' ∧
      outer'.length = outer.length ∧
      ∀ name type value, (name, type, value) ∈ scope'.bindings → Fits type value := by
  have hRewritten := state.rewritten_afterRequests evaluator requests
  have hTyped : ∀ first, state.scopes[0]? = some first → first.Typed := by
    intro first hFirst
    rw [hScopes] at hFirst
    cases hFirst
    intro entry hEntry
    rw [hEmpty] at hEntry
    cases hEntry
  have hLength := hRewritten.length_eq
  rw [hScopes, List.length_cons] at hLength
  cases hAfter : (state.afterRequests evaluator requests).scopes with
  | nil =>
      rw [hAfter] at hLength
      cases hLength
  | cons scope' outer' =>
      rw [hAfter] at hLength
      refine ⟨scope', outer', rfl, Nat.succ.inj hLength, fun name type value hEntry => ?_⟩
      exact hRewritten.typed hTyped scope' (by rw [hAfter]; rfl) (name, type, value) hEntry

/-- A scope with one function, which sets a variable of the scope to what it is given. -/
def State.withSetter : State :=
  { scopes := [{ functions := [("set", ⟨"set", [("given", "integer")], ["x = given"]⟩)] }] }

/-- Declares a number, has it set to another one, and gives a text for a third one. -/
def Request.settings : List Request :=
  [.declaration "var x => integer = 1" 1, .call "set" [.int 2] 2, .call "set" [.str "two"] 3]

/-- The last call fails, and the variable holds a number as before. -/
theorem State.variables_keep_types_withSetter :
    ∃ scope, (withSetter.afterRequests (.ofTable [("1", .int 1)] .str) Request.settings).scopes =
        [scope] ∧
      scope.bindings.map (fun entry => (entry.1, entry.2.1)) = [("x", "integer")] ∧
      ∀ name type value, (name, type, value) ∈ scope.bindings → Fits type value := by
  obtain ⟨scope, outer, hScopes, hOuter, hFits⟩ :=
    @variables_keep_types (.ofTable [("1", .int 1)] .str) Request.settings withSetter _ _ rfl rfl
  cases List.eq_nil_of_length_eq_zero hOuter
  have hNames : ((withSetter.afterRequests (.ofTable [("1", .int 1)] .str)
      Request.settings).scopes.map fun scope =>
        scope.bindings.map fun entry => (entry.1, entry.2.1)) = [[("x", "integer")]] := by
    decide +kernel
  rw [hScopes] at hNames
  exact ⟨scope, hScopes, (List.cons.inj hNames).1, hFits⟩

end Mus.Line
