import Mus.Proofs.Machine.Ancestry

/-! Returns. A return ends the statements around it, at any depth, up to the body of a
constructor. It goes no further: no expression ends by a return, and a constructor that
ends by one yields its object like one that runs to its end. -/
namespace Mus

namespace Run

variable {α β : Type}

/-! ## Expressions -/

def Contained (steps : Run α) : Prop :=
  ∀ {machine after : Machine} {fault : Fault}, steps machine = .error fault after →
    fault.isReturn = false

/-- Steps that never end by a return, one after the other, do not do so together. -/
theorem contained_bind {steps : Run α} {next : α → Run β} (hSteps : Contained steps)
    (hNext : ∀ value, Contained (next value)) : Contained (steps >>= next) := by
  intro machine after fault hFault
  cases hRun : steps machine with
  | ok value between =>
      rw [bind_ok hRun] at hFault
      exact hNext value hFault
  | error other between =>
      rw [bind_error hRun] at hFault
      cases hFault
      exact hSteps hRun

/-- Steps may depend on the machine that they find. -/
theorem contained_look {next : Machine → Run α} (hNext : ∀ machine, Contained (next machine)) :
    Contained (get >>= next) :=
  fun {machine} _ _ hFault => hNext machine hFault

theorem contained_withStore (change : Store → α × Store) : Contained (withStore change) := by
  intro machine after fault hFault
  cases hFault

theorem contained_changeStore (change : Store → Store) : Contained (changeStore change) := by
  intro machine after fault hFault
  cases hFault

/-- The only place where a return is caught. -/
theorem contained_constructing (object : Nat) (body : Run Unit) :
    Contained (constructing object body) := by
  intro machine after fault hFault
  unfold constructing at hFault
  cases hRun : body machine with
  | ok value between =>
      rw [hRun] at hFault
      cases hFault
  | error other between =>
      rw [hRun] at hFault
      cases other <;> cases hFault <;> rfl

/-- A number with too many digits is blamed on the index, which is no return. -/
theorem contained_blaming (name : String) (token : Token) {steps : Run Value}
    (hSteps : Contained steps) : Contained (blaming name token steps) := by
  intro machine after fault hFault
  unfold blaming at hFault
  cases hRun : steps machine with
  | ok value between =>
      rw [hRun] at hFault
      cases hFault
  | error other between =>
      have hOther := hSteps hRun
      rw [hRun] at hFault
      cases other with
      | text failure => cases failure <;> cases hFault <;> rfl
      | _ =>
          cases hFault
          exact hOther

/-- No expression ends by a return. About statements nothing is said. -/
theorem rules_contained : Rules Contained (fun _ => True) where
  pure _ := fun hFault => by cases hFault
  fault hFault := fun hRun => by
    cases hRun
    exact hFault
  bind := contained_bind
  look _ hNext := contained_look hNext
  print _ := fun hFault => by cases hFault
  addCell _ := contained_withStore _
  setItem _ _ _ := contained_changeStore _
  readField object name := by
    intro machine after fault hFault
    unfold readField at hFault
    split at hFault <;> cases hFault
    rfl
  writeField object name value := by
    intro machine after fault hFault
    unfold writeField at hFault
    split at hFault <;> cases hFault
    rfl
  createInstance _ := contained_withStore _
  bindMethod _ _ := contained_withStore _
  blaming name token _ hSteps := contained_blaming name token hSteps
  enter bound object values _ _ :=
    contained_look fun _ => contained_bind (contained_withStore _) fun _ =>
      contained_bind (contained_changeStore _) fun _ => contained_constructing object _
  lift _ := trivial
  returned _ := trivial
  sequence _ _ := trivial
  observe _ _ := trivial
  declareVariable _ _ _ := trivial
  declareFunction _ _ _ := trivial
  declareClass _ _ _ _ _ _ := trivial
  block _ := trivial
  turn _ _ _ _ := trivial

/-! ## Constructors -/

/-- Steps that end with a certain value if they end without a fault. -/
def Yields (value : α) (steps : Run α) : Prop :=
  ∀ {machine after : Machine} {result : α}, steps machine = .ok result after → result = value

/-- What steps yield is what the last of them yield. -/
theorem yields_bind {value : β} {steps : Run α} {next : α → Run β}
    (hNext : ∀ result, Yields value (next result)) : Yields value (steps >>= next) := by
  intro machine after result hResult
  cases hRun : steps machine with
  | ok first between =>
      rw [bind_ok hRun] at hResult
      exact hNext first hResult
  | error fault between =>
      rw [bind_error hRun] at hResult
      cases hResult

theorem yields_throw (value : α) (fault : Fault) : Yields value (throw fault : Run α) := by
  intro machine after result hResult
  cases hResult

/-- The value of a constructor's body does not matter: the object is what a call yields. -/
theorem yields_constructing (object : Nat) (body : Run Unit) :
    Yields (.object object) (constructing object body) := by
  intro machine after result hResult
  unfold constructing at hResult
  cases hRun : body machine with
  | ok value between =>
      rw [hRun] at hResult
      cases hResult
      rfl
  | error fault between =>
      rw [hRun] at hResult
      cases fault <;> cases hResult
      rfl

theorem look_ok (machine : Machine) : (get : Run Machine) machine = .ok machine machine := rfl

theorem withStore_ok {change : Store → α × Store} {machine : Machine} {result : α} {store : Store}
    (h : change machine.store = (result, store)) :
    withStore change machine = .ok result { machine with store := store } := by
  unfold withStore
  rw [h]

/-- Runs a bound constructor if there is still room for one. -/
def enterWithin (fuel room bound object : Nat) (values : List Value) : Run Value :=
  match room with
  | 0 => throw .tooDeep
  | inner + 1 => enter bound object values (executeAll fuel inner)

section

variable {fuel room place object : Nat} {arguments : List Expr} {machine : Machine}
  {created : Store} (hCreate : machine.store.createInstance place = (object, created))

include hCreate

/-- A class without a constructor is called without evaluating the arguments. -/
theorem construct_of_none (hInit : created.method? place "init" = none) :
    construct (fuel + 1) room place arguments machine =
      .ok (.object object) { machine with store := created } := by
  rw [construct, bind_ok (withStore_ok hCreate), bind_ok (look_ok _), hInit]
  rfl

/-- A class with a constructor evaluates the arguments, after the object is there and before the
body runs. -/
theorem construct_of_init {init bound : Nat} {ready : Store}
    (hInit : created.method? place "init" = some init)
    (hBind : created.bind init object = (bound, ready)) :
    construct (fuel + 1) room place arguments machine =
      (evaluateAll fuel room arguments >>= enterWithin fuel room bound object)
        { machine with store := ready } := by
  rw [construct, bind_ok (withStore_ok hCreate), bind_ok (look_ok _), hInit]
  dsimp only
  rw [bind_ok (withStore_ok hBind)]
  cases room <;> rfl

end

/-- Running a bound constructor only adds to the store. -/
theorem builds_enterWithin (fuel room bound object : Nat) (values : List Value) :
    Builds (enterWithin fuel room bound object values) := by
  cases room with
  | zero => exact fun machine => .refl machine
  | succ inner => exact builds_enter bound object values (rules_builds.executeAll fuel inner)

theorem yields_enterWithin (fuel room bound object : Nat) (values : List Value) :
    Yields (.object object) (enterWithin fuel room bound object values) := by
  cases room with
  | zero => exact yields_throw _ _
  | succ inner =>
      exact yields_bind fun _ => yields_bind fun _ => yields_bind fun _ =>
        yields_constructing object _

/-- A class that is called yields a new object of that class, if it yields anything. -/
theorem construct_ok {fuel room place : Nat} {arguments : List Expr} {machine after : Machine}
    {value : Value} (h : construct fuel room place arguments machine = .ok value after) :
    value = .object machine.store.objects.size ∧
    machine.store.objects.size < after.store.objects.size ∧
    (after.store.object machine.store.objects.size).classDef = place := by
  cases fuel with
  | zero =>
      rw [construct] at h
      cases h
  | succ fuel =>
      obtain ⟨hNew, hClass⟩ := machine.store.object_createInstance place
      have hPlace := machine.store.fst_createInstance place
      rcases hCreate : machine.store.createInstance place with ⟨object, created⟩
      rw [hCreate] at hNew hClass hPlace
      cases hPlace
      -- What is there after the object has been made is there after its constructor.
      suffices hKept : value = .object machine.store.objects.size ∧ created.Extends after.store from
        ⟨hKept.1, Nat.lt_of_lt_of_le hNew hKept.2.objects,
          (hKept.2.objectClass _ hNew).trans hClass⟩
      cases hInit : created.method? place "init" with
      | none =>
          rw [construct_of_none hCreate hInit] at h
          cases h
          exact ⟨rfl, .refl created⟩
      | some init =>
          rcases hBind : created.bind init machine.store.objects.size with ⟨bound, ready⟩
          have hBound := @Store.builds_bind machine.current created init machine.store.objects.size
          rw [hBind] at hBound
          rw [construct_of_init hCreate hInit hBind] at h
          refine ⟨yields_bind (yields_enterWithin fuel room bound _) h, hBound.kept.trans ?_⟩
          exact ((builds_bind (rules_builds.evaluateAll fuel room arguments)
            (builds_enterWithin fuel room bound _)).ok h).kept

/-- The end of a call of a class by the end of the body of its constructor. The current
scope is the one of the call again. -/
def settled (object current : Nat) :
    EStateM.Result Fault Machine Unit → EStateM.Result Fault Machine Value
  | .ok _ after => .ok (.object object) { after with current := current }
  | .error (.returned _) after => .ok (.object object) { after with current := current }
  | .error fault after => .error fault { after with current := current }

/-- The end of a constructor's body is settled back in the scope of the call. -/
theorem constructing_inScope (object scope : Nat) (body : Run Unit) (machine : Machine) :
    constructing object (inScope scope body) machine =
      settled object machine.current (body { machine with current := scope }) := by
  unfold constructing inScope
  cases body { machine with current := scope } with
  | ok value after => rfl
  | error fault after => cases fault <;> rfl

/-- To call what evaluates to a class is to construct an object of it. -/
theorem evaluate_call_class {fuel room place : Nat} {callee : Expr} {arguments : List Expr}
    {token : Token} {machine called : Machine}
    (h : evaluate fuel room callee machine = .ok (.classDef place) called) :
    evaluate (fuel + 1) room (.call callee arguments token) machine =
      construct fuel room place arguments called := by
  rw [evaluate, bind_ok h]

end Run

/-- The body of a constructor settles what the call comes to. -/
theorem Starts.construct_eq {fuel room inner place : Nat} {arguments : List Expr}
    {machine entered : Machine} {body : List Stmt}
    (h : Starts fuel room machine (.construct place arguments)
      ⟨fuel, inner, .executeAll body, entered⟩) :
    Run.construct (fuel + 1) room place arguments machine =
      Run.settled machine.store.objects.size machine.current
        (Run.executeAll fuel inner body entered) := by
  cases h with
  | @initBody _ _ object _ bound scope _ values _ ready opened after hCreate hInit hBind hArguments
      hRoom hScope =>
      have hPlace := machine.store.fst_createInstance place
      rw [hCreate] at hPlace
      have hStays := Run.rules_stays.evaluateAll fuel room arguments { machine with store := ready }
      rw [hArguments] at hStays
      have hCurrent : after.current = machine.current := hStays.current
      subst hRoom
      rw [Run.construct_of_init hCreate hInit hBind, bind_ok hArguments, ← hPlace, ← hCurrent]
      cases hScope
      exact Run.constructing_inScope object _ _ _

/-! ## Statements -/

/-- The moment is one of statements that end by a return. -/
inductive Moment.Returns (value : Value) : Moment → Prop where
  | execute {fuel room : Nat} {stmt : Stmt} {machine after : Machine}
      (hRun : Run.execute fuel room stmt machine = .error (.returned value) after) :
      Returns value ⟨fuel, room, .execute stmt, machine⟩
  | executeAll {fuel room : Nat} {body : List Stmt} {machine after : Machine}
      (hRun : Run.executeAll fuel room body machine = .error (.returned value) after) :
      Returns value ⟨fuel, room, .executeAll body, machine⟩
  | repeatWhile {fuel room : Nat} {condition : Expr} {body : Stmt} {machine after : Machine}
      (hRun : Run.repeatWhile fuel room condition body machine = .error (.returned value) after) :
      Returns value ⟨fuel, room, .repeatWhile condition body, machine⟩
  | repeatFor {fuel room index : Nat} {iterator : String} {items : Items} {body : Stmt}
      {machine after : Machine}
      (hRun : Run.repeatFor fuel room iterator items index body machine =
        .error (.returned value) after) :
      Returns value ⟨fuel, room, .repeatFor iterator items index body, machine⟩

/-- The second moment is started from the first one within the same constructor, or
outside of all of them. -/
def Moment.NextInBody (first second : Moment) : Prop :=
  first.Next second ∧ ∀ place arguments, first.task ≠ .construct place arguments

/-- The second moment comes from the first one within the same constructor. -/
abbrev Moment.LeadsInBody : Moment → Moment → Prop := Relation.ReflTransGen Moment.NextInBody

theorem Run.inScope_error {α : Type} {scope : Nat} {steps : Run α} {machine after : Machine}
    {fault : Fault} (h : steps { machine with current := scope } = .error fault after) :
    Run.inScope scope steps machine = .error fault { after with current := machine.current } := by
  unfold Run.inScope
  rw [h]

theorem Run.innerScope_bind {α : Type} (next : Nat → Run α) (machine : Machine) :
    (Run.innerScope >>= next) machine =
      next (machine.store.addScope { parent := some machine.current }).1
        { machine with store := (machine.store.addScope { parent := some machine.current }).2 } :=
  rfl

/-- A turn of a loop over a list, in a scope that holds the item. -/
theorem Run.repeatFor_turn {fuel room index scope : Nat} {iterator : String} {items : Items}
    {body : Stmt} {machine : Machine} {item : Value} {entered : Store}
    (hItem : (machine.store.items items)[index]? = some item)
    (hScope : machine.store.addScope { parent := some machine.current } = (scope, entered)) :
    Run.repeatFor (fuel + 1) room iterator items index body machine =
      (do
        Run.inScope scope (Run.execute fuel room body)
        Run.repeatFor fuel room iterator items (index + 1) body)
        { machine with store := entered.defineVariable scope iterator (some "any") item } := by
  rw [Run.repeatFor, bind_ok (Run.look_ok machine), hItem]
  dsimp only
  rw [Run.innerScope_bind, hScope]
  rfl

/-- A return ends the statement around it. -/
theorem Starts.returns {fuel room : Nat} {machine : Machine} {task : Task} {next : Moment}
    {value : Value} (h : Starts fuel room machine task next) (hNext : next.Returns value)
    (hTask : ∀ place arguments, task ≠ .construct place arguments) :
    Moment.Returns value ⟨fuel + 1, room, task, machine⟩ := by
  cases h with
  | initBody => exact absurd rfl (hTask _ _)
  | firstStatement =>
      cases hNext with
      | execute hRun => exact .executeAll (by rw [Run.executeAll, bind_error hRun])
  | moreStatements hFirst =>
      cases hNext with
      | executeAll hRun => exact .executeAll (by rw [Run.executeAll, bind_ok hFirst, hRun])
  | block hScope =>
      cases hNext with
      | executeAll hRun =>
          apply Moment.Returns.execute
          rw [Run.execute, Run.innerScope_bind, hScope]
          exact Run.inScope_error hRun
  | @thenBranch _ _ elseBranch _ _ hCondition hTrue =>
      cases hNext with
      | execute hRun =>
          apply Moment.Returns.execute
          cases elseBranch <;>
          · rw [Run.execute, bind_ok hCondition, if_pos hTrue]
            exact hRun
  | elseBranch hCondition hFalse =>
      cases hNext with
      | execute hRun =>
          apply Moment.Returns.execute
          rw [Run.execute, bind_ok hCondition, hFalse, if_neg Bool.false_ne_true]
          exact hRun
  | loop =>
      cases hNext with
      | repeatWhile hRun => exact .execute (by rw [Run.execute, hRun])
  | each hIterable =>
      cases hNext with
      | repeatFor hRun =>
          apply Moment.Returns.execute
          rw [Run.execute, bind_ok hIterable]
          exact hRun
  | whileBody hCondition hTrue =>
      cases hNext with
      | execute hRun =>
          exact .repeatWhile
            (by rw [Run.repeatWhile, bind_ok hCondition, if_pos hTrue, bind_error hRun])
  | whileAgain hCondition hTrue hBody =>
      cases hNext with
      | repeatWhile hRun =>
          exact .repeatWhile
            (by rw [Run.repeatWhile, bind_ok hCondition, if_pos hTrue, bind_ok hBody, hRun])
  | forBody hItem hScope =>
      cases hNext with
      | execute hRun =>
          apply Moment.Returns.repeatFor
          rw [Run.repeatFor_turn hItem hScope]
          exact bind_error (Run.inScope_error hRun)
  | forAgain hItem hScope hBody =>
      cases hNext with
      | repeatFor hRun =>
          apply Moment.Returns.repeatFor
          rw [Run.repeatFor_turn hItem hScope, bind_ok hBody]
          exact hRun
  | _ => cases hNext

/-- A return ends all statements around it that are in the same constructor. -/
theorem Moment.LeadsInBody.returns {first last : Moment} {value : Value}
    (h : first.LeadsInBody last) (hLast : last.Returns value) : first.Returns value := by
  induction h using Relation.ReflTransGen.head_induction_on with
  | refl => exact hLast
  | head hStep _ ih =>
      obtain ⟨⟨hStarts⟩, hTask⟩ := hStep
      exact hStarts.returns ih hTask

/-- A constructor with a return in its body, at any depth, yields its object. -/
theorem Starts.construct_of_returns {fuel room place : Nat} {arguments : List Expr}
    {machine : Machine} {start last : Moment} {value : Value}
    (h : Starts fuel room machine (.construct place arguments) start)
    (hInside : start.LeadsInBody last) (hLast : last.Returns value) :
    ∃ after, Run.construct (fuel + 1) room place arguments machine =
      .ok (.object machine.store.objects.size) after := by
  have hReturns := Moment.LeadsInBody.returns hInside hLast
  cases hReturns with
  | executeAll hRun =>
      cases h.fuel_eq
      exact ⟨_, h.construct_eq.trans (congrArg (Run.settled _ _) hRun)⟩
  | execute hRun => cases h
  | repeatWhile hRun => cases h
  | repeatFor hRun => cases h

/-- No expression ends by a return. A class that is called yields a new object of that
class if it yields anything. It does so if the body of its constructor runs to its end
and if a return ends it, however many blocks, branches and loops are around the return;
any other fault of the body is one of the call. -/
theorem Run.return_ends_constructor (fuel room : Nat) :
    (∀ e machine value after, evaluate fuel room e machine ≠ .error (.returned value) after) ∧
    ∀ callee arguments token machine place called,
      evaluate (fuel + 1) room callee machine = .ok (.classDef place) called →
      (∀ value after,
        evaluate (fuel + 2) room (.call callee arguments token) machine = .ok value after →
        value = .object called.store.objects.size ∧
        called.store.objects.size < after.store.objects.size ∧
        (after.store.object called.store.objects.size).classDef = place) ∧
      (∀ inner body entered,
        Starts fuel room called (.construct place arguments)
          ⟨fuel, inner, .executeAll body, entered⟩ →
        evaluate (fuel + 2) room (.call callee arguments token) machine =
          settled called.store.objects.size called.current
            (executeAll fuel inner body entered)) ∧
      ∀ start last value, Starts fuel room called (.construct place arguments) start →
        start.LeadsInBody last → last.Returns value →
        ∃ after, evaluate (fuel + 2) room (.call callee arguments token) machine =
          .ok (.object called.store.objects.size) after := by
  constructor
  · intro e machine value after hRun
    exact Bool.noConfusion (rules_contained.evaluate fuel room e hRun)
  · intro callee arguments token machine place called hCallee
    rw [evaluate_call_class hCallee]
    exact ⟨fun _ _ hCall => construct_ok hCall, fun _ _ _ hStarts => hStarts.construct_eq,
      fun _ _ _ hStarts hInside hLast => hStarts.construct_of_returns hInside hLast⟩

def Run.finishes {α : Type} : EStateM.Result Fault Machine α → Bool
  | .ok _ _ => true
  | .error _ _ => false

/-- A machine with a class whose constructor returns from within a block in a branch of
an endless loop. -/
def Machine.returning : Machine :=
  let always : Expr := .literal (.bool true) .nowhere
  let leave : Stmt := .branch always (.block [.ret none .nowhere]) none
  let body : List Stmt := [.loop always (.block [leave]), .expression (.variable "x" .nowhere)]
  Run.machineAfter
    (Run.execute 2 0 (.classDecl "A" none [] [⟨"init", [], body, .nowhere⟩] .nowhere) .initial)

def Machine.newReturning : Expr := .call (.literal (.classDef 0) .nowhere) [] .nowhere

/-- The return inside of loop, branch and block ends the constructor alone, and the call yields the
object. -/
theorem Run.return_ends_constructor_in_loop :
    ∃ after, evaluate 20 1 Machine.newReturning Machine.returning = .ok (.object 0) after ∧
      (after.store.object 0).classDef = 0 ∧
      ∀ value left, evaluate 20 1 Machine.newReturning Machine.returning ≠
        .error (.returned value) left := by
  have hCallee : evaluate 19 1 (.literal (.classDef 0) .nowhere) Machine.returning =
      .ok (.classDef 0) Machine.returning := by
    rw [evaluate]
    rfl
  have hEmpty : Machine.returning.store.objects.size = 0 := by decide +kernel
  have hFinishes : finishes (evaluate 20 1 Machine.newReturning Machine.returning) = true := by
    decide +kernel
  obtain ⟨hYields, -⟩ := (return_ends_constructor 18 1).2 _ [] .nowhere _ _ _ hCallee
  rw [hEmpty] at hYields
  cases hRun : evaluate 20 1 Machine.newReturning Machine.returning with
  | error fault left =>
      rw [hRun] at hFinishes
      cases hFinishes
  | ok value after =>
      obtain ⟨rfl, -, hClass⟩ := hYields value after hRun
      rw [← hRun]
      exact ⟨after, hRun, hClass, (return_ends_constructor 20 1).1 _ _⟩

end Mus
