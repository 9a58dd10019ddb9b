import Mus.Machine.Eval
import Mus.Proofs.Syntax.Steps
import Mus.Syntax.Size

/-! Steps that only look at a machine. They leave it as it is, and two machines
that are alike, in whatever sense is asked for, get the same outcome. The operators
are of this kind as soon as alike machines show and compare their operands alike.
So is the evaluation of an expression that finds nothing to call and no object or
array to ask; its outcome does not depend on the bounds either, if they are ample. -/
namespace Mus

/-- A value that holds no other one: nothing, a truth value, a number or a text. -/
def Value.IsScalar : Value → Prop
  | .nothing | .bool _ | .int _ | .float _ | .str _ => True
  | _ => False

/-- What a call, or an expression that reads or sets a property, is applied to. -/
def Expr.target? : Expr → Option Expr
  | .call callee _ _ => some callee
  | .get object _ _ => some object
  | .set object _ _ _ => some object
  | _ => none

theorem Expr.size_pos (e : Expr) : 0 < e.size := by
  cases e <;> exact Nat.succ_pos _

/-- What a call is applied to is smaller than the call. -/
theorem Expr.size_target_lt {e target : Expr} (hTarget : e.target? = some target) :
    target.size < e.size := by
  cases e with
  | call | get | set =>
      cases hTarget
      simp only [Expr.size]
      omega
  | _ => cases hTarget

namespace Run

variable {α β : Type}

/-- Ends with an outcome that is already known. -/
def give : Except Fault α → Run α
  | .ok value => pure value
  | .error fault => throw fault

/-- A good value, or a fault that with an ample bound is not the want of steps. -/
def Decent (ample : Prop) (good : α → Prop) : Except Fault α → Prop
  | .ok value => good value
  | .error fault => ample → fault ≠ .outOfFuel

/-- Steps that leave a machine as it is and give alike machines the same decent
outcome. -/
def Looks (alike : Machine → Machine → Prop) (ample : Prop) (good : α → Prop)
    (steps : Run α) : Prop :=
  ∀ machine machine' : Machine, alike machine machine' →
    ∃ outcome, Decent ample good outcome ∧ steps machine = give outcome machine ∧
      steps machine' = give outcome machine'

variable {alike : Machine → Machine → Prop} {ample : Prop}

theorem looks_pure {good : α → Prop} {value : α} (h : good value) :
    Looks alike ample good (pure value : Run α) :=
  fun _ _ _ => ⟨.ok value, h, rfl, rfl⟩

theorem looks_throw {good : α → Prop} {fault : Fault} (h : fault ≠ .outOfFuel) :
    Looks alike ample good (throw fault : Run α) :=
  fun _ _ _ => ⟨.error fault, fun _ => h, rfl, rfl⟩

/-- Running out of fuel is no decent outcome, unless the bound was not ample. -/
theorem looks_outOfFuel {good : α → Prop} (h : ¬ample) :
    Looks alike ample good (throw .outOfFuel : Run α) :=
  fun _ _ _ => ⟨.error .outOfFuel, fun hAmple => absurd hAmple h, rfl, rfl⟩

theorem looks_complain {good : α → Prop} (complaint : Complaint) (token : Token) :
    Looks alike ample good (complain complaint token : Run α) :=
  looks_throw nofun

/-- A look after a look is one look, since the machine is the same in between. -/
theorem looks_bind {good : α → Prop} {good' : β → Prop} {steps : Run α} {next : α → Run β}
    (hSteps : Looks alike ample good steps)
    (hNext : ∀ value, good value → Looks alike ample good' (next value)) :
    Looks alike ample good' (steps >>= next) := by
  intro machine machine' hAlike
  obtain ⟨outcome, hDecent, hFirst, hSecond⟩ := hSteps machine machine' hAlike
  cases outcome with
  | ok value =>
      rw [bind_ok hFirst, bind_ok hSecond]
      exact hNext value hDecent machine machine' hAlike
  | error fault =>
      rw [bind_error hFirst, bind_error hSecond]
      exact ⟨.error fault, hDecent, rfl, rfl⟩

/-- Going on from what is seen of a machine, if the same is seen of alike ones. -/
theorem looks_get_bind {good : α → Prop} {next : Machine → Run α}
    (hSame : ∀ machine machine', alike machine machine' → next machine = next machine')
    (hNext : ∀ machine machine', alike machine machine' →
      Looks alike ample good (next machine)) :
    Looks alike ample good (get >>= next) := by
  intro machine machine' hAlike
  change ∃ outcome, Decent ample good outcome ∧ next machine machine = give outcome machine ∧
    next machine' machine' = give outcome machine'
  rw [← hSame machine machine' hAlike]
  exact hNext machine machine' hAlike machine machine' hAlike

/-- An ample bound may be required for less, and more results may be good. -/
theorem Looks.mono {ample' : Prop} {good good' : α → Prop} {steps : Run α}
    (h : Looks alike ample good steps) (hAmple : ample' → ample)
    (hGood : ∀ value, good value → good' value) : Looks alike ample' good' steps := by
  intro machine machine' hAlike
  obtain ⟨outcome, hDecent, hFirst, hSecond⟩ := h machine machine' hAlike
  refine ⟨outcome, ?_, hFirst, hSecond⟩
  cases outcome with
  | ok value => exact hGood value hDecent
  | error fault => exact fun h => hDecent (hAmple h)

/-- A look that ends with a result has left the machine and given a good value. -/
theorem Looks.of_ok {good : α → Prop} {steps : Run α} {machine after : Machine} {value : α}
    (h : Looks alike ample good steps) (hAlike : alike machine machine)
    (hRun : steps machine = .ok value after) : after = machine ∧ good value := by
  obtain ⟨outcome, hDecent, hOutcome, -⟩ := h machine machine hAlike
  rw [hRun] at hOutcome
  cases outcome with
  | ok found =>
      cases hOutcome
      exact ⟨rfl, hDecent⟩
  | error fault => cases hOutcome

/-! ## Operators -/

/-- Showing a value is a look if alike machines show it alike. -/
theorem looks_shown {value : Value}
    (hShown : ∀ machine machine', alike machine machine' →
      machine.store.shown value = machine'.store.shown value) :
    Looks alike ample (fun _ => True) (shown value) := by
  refine looks_get_bind (fun machine machine' hAlike => ?_) fun machine _ _ => ?_
  · rw [hShown machine machine' hAlike]
  · cases machine.store.shown value with
    | ok text => exact looks_pure trivial
    | error fault => exact looks_throw nofun

/-- Comparing values is a look if alike machines compare them alike. -/
theorem looks_isEqual {a b : Value}
    (hEqual : ∀ machine machine', alike machine machine' →
      machine.store.equalValue Store.depthLimit a b =
        machine'.store.equalValue Store.depthLimit a b) :
    Looks alike ample (fun _ => True) (isEqual a b) := by
  refine looks_get_bind (fun machine machine' hAlike => ?_) fun machine _ _ => ?_
  · rw [hEqual machine machine' hAlike]
  · unfold compared
    split
    · exact looks_pure trivial
    · exact looks_throw nofun

theorem isScalar_ofNumber (number : Number) : (ofNumber number).IsScalar := by
  cases number <;> exact trivial

/-- A calculation yields a scalar or a fault of its own. -/
theorem looks_calculate (result : Except Number.Fault Number) :
    Looks alike ample Value.IsScalar (calculate result) := by
  cases result with
  | ok number => exact looks_pure (isScalar_ofNumber number)
  | error fault => cases fault <;> exact looks_throw nofun

theorem looks_numbers (operator : Token) (left right : Value) :
    Looks alike ample (fun _ => True) (numbers operator left right) := by
  unfold numbers
  split
  · exact looks_pure trivial
  · exact looks_complain _ _

theorem looks_compareBy (operator : Token) (left right : Value) (holds : Ordering → Bool) :
    Looks alike ample Value.IsScalar (compareBy operator left right holds) :=
  looks_bind (looks_numbers operator left right) fun _ _ => looks_pure trivial

/-- An operator is a look if alike machines show and compare its operands alike. -/
theorem looks_binary (operator : Token) {left right : Value}
    (hLeft : ∀ machine machine', alike machine machine' →
      machine.store.shown left = machine'.store.shown left)
    (hRight : ∀ machine machine', alike machine machine' →
      machine.store.shown right = machine'.store.shown right)
    (hEqual : ∀ machine machine', alike machine machine' →
      machine.store.equalValue Store.depthLimit left right =
        machine'.store.equalValue Store.depthLimit left right) :
    Looks alike ample Value.IsScalar (binary operator left right) := by
  have hNumbers : Looks alike ample (fun _ => True) (numbers operator left right) :=
    looks_numbers operator left right
  have hJoined : Looks alike ample Value.IsScalar (do
      let first ← shown left
      let second ← shown right
      return Value.str (first ++ second)) :=
    looks_bind (looks_shown hLeft) fun _ _ => looks_bind (looks_shown hRight)
      fun _ _ => looks_pure trivial
  unfold binary
  split
  · split
    · exact looks_calculate _
    · split
      · exact hJoined
      · exact hJoined
      · exact looks_complain _ _
  · exact looks_bind hNumbers fun _ _ => looks_calculate _
  · exact looks_bind hNumbers fun _ _ => looks_calculate _
  · refine looks_bind hNumbers fun pair _ => ?_
    split
    split
    · exact looks_complain _ _
    · exact looks_calculate _
  · refine looks_bind hNumbers fun pair _ => ?_
    split
    split
    · exact looks_complain _ _
    · exact looks_calculate _
  · exact looks_compareBy _ _ _ _
  · exact looks_compareBy _ _ _ _
  · exact looks_compareBy _ _ _ _
  · exact looks_compareBy _ _ _ _
  · exact looks_bind (looks_isEqual hEqual) fun _ _ => looks_pure trivial
  · exact looks_bind (looks_isEqual hEqual) fun _ _ => looks_pure trivial
  · exact looks_complain _ _

theorem looks_unary (operator : Token) (right : Value) :
    Looks alike ample Value.IsScalar (unary operator right) := by
  unfold unary
  split
  · split
    · exact looks_pure (isScalar_ofNumber _)
    · exact looks_complain _ _
  · exact looks_pure trivial
  · exact looks_complain _ _

/-! ## Names

With an empty resolution table a name is looked for in the global scope only. -/

section

variable (hLocals : ∀ machine machine', alike machine machine' →
  machine.locals = [] ∧ machine'.locals = [])

include hLocals

/-- Nothing is noted, so that no distance is found. -/
theorem looks_distance? (e : Expr) : Looks alike ample (· = none) (distance? e) := by
  unfold distance?
  split
  · exact looks_throw nofun
  · refine looks_get_bind (fun machine machine' hAlike => ?_) fun machine machine' hAlike => ?_
    · rw [(hLocals machine machine' hAlike).1, (hLocals machine machine' hAlike).2]
      rfl
    · rw [(hLocals machine machine' hAlike).1]
      exact looks_pure rfl

/-- A variable is read from the global scope, since nothing is noted for it. -/
theorem looks_readVariable {good : Value → Prop} {name : String}
    (hRead : ∀ machine machine', alike machine machine' →
      machine.store.readVariable machine.globals name =
          machine'.store.readVariable machine'.globals name ∧
        good (machine.store.readVariable machine.globals name)) (e : Expr) :
    Looks alike ample good (readVariable name e) := by
  refine looks_bind (looks_distance? hLocals e) fun found hFound => ?_
  subst hFound
  refine looks_get_bind (fun machine machine' hAlike => ?_) fun machine machine' hAlike => ?_
  · rw [(hRead machine machine' hAlike).1]
  · exact looks_pure (hRead machine machine' hAlike).2

/-- Without a note, there is no superclass to find, and the outcome is a complaint. -/
theorem looks_superMethod {good : Value → Prop} (e : Expr) (method : String) (token : Token) :
    Looks alike ample good (superMethod e method token) := by
  refine looks_bind (looks_distance? hLocals e) fun found hFound => ?_
  subst hFound
  exact looks_complain _ _

end

/-! ## Arrays -/

section

variable (hStore : ∀ machine machine', alike machine machine' → machine.store = machine'.store)

include hStore

/-- Finding the place of an item does not change anything. -/
theorem looks_itemIndex (items : Items) (index : Value) :
    Looks alike ample (fun _ => True) (itemIndex items index) := by
  refine looks_get_bind (fun machine machine' hAlike => ?_) fun machine _ _ => ?_
  · rw [hStore machine machine' hAlike]
  have hInside : ∀ n : Int, Looks alike ample (fun _ => True) (do
      if 0 ≤ n ∧ n < (machine.store.items items).length then return n.toNat
      else throw (Fault.indexBounds (← shown index)) : Run Nat) := by
    intro n
    split
    · exact looks_pure trivial
    · refine looks_bind (looks_shown fun m m' hAlike => ?_) fun _ _ => looks_throw nofun
      rw [hStore m m' hAlike]
  split
  · exact hInside _
  · exact hInside _
  · exact looks_throw nofun

theorem looks_readItem (items : Items) (index : Value) :
    Looks alike ample (fun _ => True) (readItem items index) := by
  refine looks_bind (looks_itemIndex hStore items index) fun place _ => ?_
  refine looks_get_bind (fun machine machine' hAlike => ?_) fun _ _ _ => looks_pure trivial
  rw [hStore machine machine' hAlike]

theorem looks_arrayProperty (items : Items) (name : String) (token : Token) :
    Looks alike ample (fun _ => True) (arrayProperty items name token) := by
  unfold arrayProperty
  split
  · refine looks_get_bind (fun machine machine' hAlike => ?_) fun _ _ _ => looks_pure trivial
    rw [hStore machine machine' hAlike]
  · split
    · exact looks_readItem hStore _ _
    · exact looks_complain _ _

end

/-! ## Expressions -/

/-- What makes the evaluation of plain expressions a look at the machine: the values
in reach are good, alike machines show, compare and bind them alike, and none of
them is a function, a class, an object or an array. -/
structure Views (alike : Machine → Machine → Prop) (good : Value → Prop) (plain : Expr → Prop) :
    Prop where
  locals : ∀ machine machine', alike machine machine' → machine.locals = [] ∧ machine'.locals = []
  read : ∀ name machine machine', alike machine machine' →
    machine.store.readVariable machine.globals name =
        machine'.store.readVariable machine'.globals name ∧
      good (machine.store.readVariable machine.globals name)
  shown : ∀ value, good value → ∀ machine machine', alike machine machine' →
    machine.store.shown value = machine'.store.shown value
  equal : ∀ a b, good a → good b → ∀ machine machine', alike machine machine' →
    machine.store.equalValue Store.depthLimit a b = machine'.store.equalValue Store.depthLimit a b
  scalar : ∀ value : Value, value.IsScalar → good value
  inert : ∀ value, good value → (∀ items element, value ≠ .array items element) ∧
    (∀ place, value ≠ .function place) ∧ (∀ place, value ≠ .classDef place) ∧
    ∀ place, value ≠ .object place
  literal : ∀ value token, plain (.literal value token) → good value
  binary : ∀ left operator right, plain (.binary left operator right) → plain left ∧ plain right
  unary : ∀ operator right, plain (.unary operator right) → plain right
  target : ∀ e target, plain e → e.target? = some target → plain target

namespace Views

variable {good : Value → Prop} {plain : Expr → Prop}

/-- Nothing can be made of a value that is no function, class, object or array. -/
theorem looks_target (hViews : Views alike good plain) {fuel room : Nat} {e target : Expr}
    (hTarget : e.target? = some target)
    (hLooks : Looks alike ample good (evaluate fuel room target)) :
    Looks alike ample (fun _ => False) (evaluate (fuel + 1) room e) := by
  unfold evaluate
  cases e with
  | call | get | set =>
      cases hTarget
      refine looks_bind hLooks fun value hValue => ?_
      obtain ⟨hArray, hFunction, hClass, hObject⟩ := hViews.inert value hValue
      cases value with
      | array items element => exact absurd rfl (hArray items element)
      | function place => exact absurd rfl (hFunction place)
      | classDef place => exact absurd rfl (hClass place)
      | object place => exact absurd rfl (hObject place)
      | _ => exact looks_complain _ _
  | _ => cases hTarget

/-- Plain expressions are evaluated by looking. By induction on the fuel, which is ample if it is at
least the size of the expression. -/
theorem looks_evaluate (hViews : Views alike good plain) (fuel room : Nat) {e : Expr}
    (h : plain e) : Looks alike (e.size ≤ fuel) good (evaluate fuel room e) := by
  induction fuel generalizing e with
  | zero =>
      unfold evaluate
      exact looks_outOfFuel (Nat.not_le.mpr e.size_pos)
  | succ fuel ih =>
      -- What the parts are granted is enough for them.
      have hPart {part : Expr} (hPart : plain part) (hSize : part.size < e.size) :
          Looks alike (e.size ≤ fuel + 1) good (evaluate fuel room part) :=
        (ih hPart).mono (by omega) fun _ => id
      cases hTarget : e.target? with
      | some target =>
          have hLooks := hPart (hViews.target e target h hTarget) (Expr.size_target_lt hTarget)
          exact (hViews.looks_target hTarget hLooks).mono id fun _ hFalse => absurd hFalse id
      | none =>
          unfold evaluate
          match e, h with
          | .base, _ | .stray _, _ => exact looks_complain _ _
          | .literal value token, h => exact looks_pure (hViews.literal value token h)
          | .variable name token, _ => exact looks_readVariable hViews.locals (hViews.read name) _
          | .this token, _ => exact looks_readVariable hViews.locals (hViews.read "this") _
          | .super method token, _ => exact looks_superMethod hViews.locals _ _ _
          | .binary left operator right, h =>
              obtain ⟨hLeft, hRight⟩ := hViews.binary left operator right h
              refine looks_bind (hPart hLeft (by simp only [Expr.size]; omega)) fun a ha => ?_
              refine looks_bind (hPart hRight (by simp only [Expr.size]; omega)) fun b hb => ?_
              exact (looks_binary operator (hViews.shown a ha) (hViews.shown b hb)
                (hViews.equal a b ha hb)).mono id hViews.scalar
          | .unary operator right, h =>
              refine looks_bind (hPart (hViews.unary operator right h)
                (by simp only [Expr.size]; omega)) fun a _ => ?_
              exact (looks_unary operator a).mono id hViews.scalar

end Views

/-! ## Bounds -/

/-- On the machine, the first steps fail for want of steps or do what the second
ones do. -/
def Approximates (machine : Machine) (steps steps' : Run α) : Prop :=
  (∃ after, steps machine = .error .outOfFuel after) ∨ steps machine = steps' machine

theorem approximates_refl (machine : Machine) (steps : Run α) :
    Approximates machine steps steps :=
  Or.inr rfl

/-- The second steps go on where the first ones do, as long as these have had fuel enough. -/
theorem approximates_bind {machine : Machine} {steps steps' : Run α} {next next' : α → Run β}
    (hSteps : Approximates machine steps steps')
    (hNext : ∀ value after, steps' machine = .ok value after →
      Approximates after (next value) (next' value)) :
    Approximates machine (steps >>= next) (steps' >>= next') := by
  rcases hSteps with ⟨after, hRun⟩ | hSame
  · exact Or.inl ⟨after, bind_error hRun⟩
  · cases hRun : steps' machine with
    | ok value after =>
        have hAfter := hNext value after hRun
        unfold Approximates at hAfter ⊢
        rwa [bind_ok (hSame.trans hRun), bind_ok hRun]
    | error fault after =>
        right
        rw [bind_error (hSame.trans hRun), bind_error hRun]

namespace Views

variable {good : Value → Prop} {plain : Expr → Prop} {machine : Machine}

/-- A call approximates another if the evaluation of its target does, since a good value is nothing
that could be called or have properties. -/
theorem approximates_target (hViews : Views alike good plain) (hAlike : alike machine machine)
    {fuel fuel' room room' : Nat} {e target : Expr} (hTarget : e.target? = some target)
    (h : plain target)
    (hApproximates : Approximates machine (evaluate fuel room target)
      (evaluate fuel' room' target)) :
    Approximates machine (evaluate (fuel + 1) room e) (evaluate (fuel' + 1) room' e) := by
  have hLooks := hViews.looks_evaluate fuel' room' h
  unfold evaluate
  cases e with
  | call | get | set =>
      cases hTarget
      refine approximates_bind hApproximates fun value after hRun => ?_
      obtain ⟨-, hValue⟩ := hLooks.of_ok hAlike hRun
      obtain ⟨hArray, hFunction, hClass, hObject⟩ := hViews.inert value hValue
      cases value with
      | array items element => exact absurd rfl (hArray items element)
      | function place => exact absurd rfl (hFunction place)
      | classDef place => exact absurd rfl (hClass place)
      | object place => exact absurd rfl (hObject place)
      | _ => exact approximates_refl _ _
  | _ => cases hTarget

/-- A larger bound, or one that is ample for the expression, gives the same outcome,
unless the smaller one is not enough. How many constructors may run is of no
account. -/
theorem approximates_evaluate (hViews : Views alike good plain) (hAlike : alike machine machine)
    (room room' : Nat) {fuel fuel' : Nat} {e : Expr} (h : plain e)
    (hFuel : e.size ≤ fuel' ∨ fuel ≤ fuel') :
    Approximates machine (evaluate fuel room e) (evaluate fuel' room' e) := by
  have hPos := e.size_pos
  induction fuel' generalizing fuel e with
  | zero =>
      obtain rfl : fuel = 0 := by omega
      unfold evaluate
      exact approximates_refl _ _
  | succ fuel' ih =>
      cases fuel with
      | zero =>
          unfold evaluate
          exact Or.inl ⟨machine, rfl⟩
      | succ fuel =>
          have hPart {part : Expr} (hPart : plain part) (hSize : part.size < e.size) :
              Approximates machine (evaluate fuel room part) (evaluate fuel' room' part) :=
            ih hPart (by omega) part.size_pos
          cases hTarget : e.target? with
          | some target =>
              have hPlain := hViews.target e target h hTarget
              exact hViews.approximates_target hAlike hTarget hPlain
                (hPart hPlain (Expr.size_target_lt hTarget))
          | none =>
              unfold evaluate
              match e, h with
              | .base, _ | .stray _, _ | .literal _ _, _ | .variable _ _, _ | .this _, _
              | .super _ _, _ => exact approximates_refl _ _
              | .binary left operator right, h =>
                  obtain ⟨hLeft, hRight⟩ := hViews.binary left operator right h
                  refine approximates_bind (hPart hLeft (by simp only [Expr.size]; omega))
                    fun a after ha => ?_
                  obtain ⟨rfl, -⟩ := (hViews.looks_evaluate fuel' room' hLeft).of_ok hAlike ha
                  exact approximates_bind (hPart hRight (by simp only [Expr.size]; omega))
                    fun _ _ _ => approximates_refl _ _
              | .unary operator right, h =>
                  exact approximates_bind (hPart (hViews.unary operator right h)
                    (by simp only [Expr.size]; omega)) fun _ _ _ => approximates_refl _ _

end Views

end Run

end Mus
