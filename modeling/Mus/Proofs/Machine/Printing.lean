import Mus.Proofs.Machine.Moment

/-! A program prints through the builtin functions only. Whatever a machine is to
do, it prints nothing unless one of the moments that this leads to is the call of a
builtin function. So no way to such a call is left out of those moments. -/
namespace Mus

/-- The machine after it has carried out a task, however this ends. -/
def Task.after (fuel room : Nat) (machine : Machine) : Task → Machine
  | .evaluate e => Run.machineAfter (Run.evaluate fuel room e machine)
  | .evaluateAll arguments => Run.machineAfter (Run.evaluateAll fuel room arguments machine)
  | .assignItem items name value token =>
      Run.machineAfter (Run.assignItem fuel room items name value token machine)
  | .construct classPlace arguments =>
      Run.machineAfter (Run.construct fuel room classPlace arguments machine)
  | .executeAll body => Run.machineAfter (Run.executeAll fuel room body machine)
  | .execute stmt => Run.machineAfter (Run.execute fuel room stmt machine)
  | .fieldDefault decl => Run.machineAfter (Run.fieldDefault fuel room decl machine)
  | .evaluateFields fields table =>
      Run.machineAfter (Run.evaluateFields fuel room fields table machine)
  | .repeatWhile condition body =>
      Run.machineAfter (Run.repeatWhile fuel room condition body machine)
  | .repeatFor iterator items index body =>
      Run.machineAfter (Run.repeatFor fuel room iterator items index body machine)
  | .builtin native arguments => Run.machineAfter (Run.builtin native arguments machine)

/-- Without any steps nothing is done, unless the task is a builtin function. -/
theorem Task.after_zero {room : Nat} {machine : Machine} (task : Task)
    (h : ∀ native arguments, task ≠ .builtin native arguments) :
    task.after 0 room machine = machine := by
  cases task with
  | builtin native arguments => exact absurd rfl (h native arguments)
  | _ =>
      simp only [Task.after, Run.evaluate, Run.evaluateAll, Run.assignItem, Run.construct,
        Run.executeAll, Run.execute, Run.fieldDefault, Run.evaluateFields, Run.repeatWhile,
        Run.repeatFor]
      rfl

/-- Nothing is printed from the moment on until its task has been carried out. -/
def Moment.Silent (moment : Moment) : Prop :=
  (moment.task.after moment.fuel moment.room moment.machine).output = moment.machine.output

namespace Run

variable {α β : Type} {fuel room : Nat} {machine : Machine}

def Quiet (steps : Run α) (machine : Machine) : Prop :=
  (machineAfter (steps machine)).output = machine.output

/-- What changes the store alone prints nothing. -/
theorem StoreOnly.quiet {steps : Run α} (h : StoreOnly steps) (machine : Machine) :
    Quiet steps machine := by
  obtain ⟨store, hAfter⟩ := h machine
  unfold Quiet
  rw [hAfter]

/-- Steps that print nothing, one after the other, print nothing together. -/
theorem quiet_bind {steps : Run α} {next : α → Run β} (hSteps : Quiet steps machine)
    (hNext : ∀ value after, steps machine = .ok value after → Quiet (next value) after) :
    Quiet (steps >>= next) machine := by
  unfold Quiet at hSteps ⊢
  cases hRun : steps machine with
  | ok value after =>
      rw [hRun] at hSteps
      rw [bind_ok hRun]
      exact (hNext value after hRun).trans hSteps
  | error fault after =>
      rw [hRun] at hSteps
      rw [bind_error hRun]
      exact hSteps

/-- Going on after steps on the store. -/
theorem quiet_store_bind {steps : Run α} {next : α → Run β} (hSteps : StoreOnly steps)
    (hNext : ∀ value after, steps machine = .ok value after → Quiet (next value) after) :
    Quiet (steps >>= next) machine :=
  quiet_bind (hSteps.quiet machine) hNext

/-- Going on with the machine as it is. -/
theorem quiet_get_bind {next : Machine → Run β} (hNext : Quiet (next machine) machine) :
    Quiet (get >>= next) machine :=
  hNext

/-- Going on with a changed store. -/
theorem quiet_withStore_bind {change : Store → α × Store} {next : α → Run β}
    (hNext : ∀ value store, change machine.store = (value, store) →
      Quiet (next value) { machine with store := store }) :
    Quiet (withStore change >>= next) machine :=
  hNext _ _ rfl

theorem quiet_changeStore_bind {change : Store → Store} {next : Unit → Run β}
    (hNext : Quiet (next ()) { machine with store := change machine.store }) :
    Quiet (changeStore change >>= next) machine :=
  hNext

/-- Going on with a scope inside the current one. -/
theorem quiet_innerScope_bind {next : Nat → Run β}
    (hNext : ∀ scope entered,
      machine.store.addScope { parent := some machine.current } = (scope, entered) →
      Quiet (next scope) { machine with store := entered }) :
    Quiet (innerScope >>= next) machine :=
  hNext _ _ rfl

/-- Printing does not depend on where the machine stands. -/
theorem quiet_inScope {scope : Nat} {steps : Run α}
    (h : Quiet steps { machine with current := scope }) : Quiet (inScope scope steps) machine := by
  unfold Quiet inScope at *
  cases hRun : steps { machine with current := scope } with
  | ok value after | error fault after =>
      rw [hRun] at h
      exact h

/-! ## One step

Each of the functions prints nothing if the moments that it starts print nothing. -/

/-- An evaluation prints nothing by itself: only the moments that it starts could. -/
theorem quiet_evaluate {e : Expr}
    (h : ∀ next, Starts fuel room machine (.evaluate e) next → next.Silent) :
    Quiet (evaluate (fuel + 1) room e) machine := by
  unfold evaluate
  match e with
  | .literal value token => exact (storeOnly_pure _).quiet _
  | .variable name token | .this token => exact (storeOnly_readVariable _ _).quiet _
  | .super method token => exact (storeOnly_superMethod _ _ _).quiet _
  | .binary left operator right =>
      exact quiet_bind (h _ .binaryLeft) fun _ _ hLeft =>
        quiet_bind (h _ (.binaryRight hLeft)) fun _ _ _ => (storeOnly_binary _ _ _).quiet _
  | .unary operator right =>
      exact quiet_bind (h _ .unary) fun _ _ _ => (storeOnly_unary _ _).quiet _
  | .call callee arguments token =>
      refine quiet_bind (h _ .callee) fun target after hCallee => ?_
      split
      · refine quiet_bind (h _ (.callArguments hCallee)) fun values later hArguments => ?_
        refine quiet_get_bind ?_
        split
        · next native hNative => exact h _ (.callBuiltin hCallee hArguments hNative)
        · exact (storeOnly_throw _).quiet _
      · exact h _ (.callClass hCallee)
      · exact (storeOnly_complain _ _).quiet _
  | .get object name token =>
      refine quiet_bind (h _ .getObject) fun target after _ => ?_
      split
      · exact (storeOnly_arrayProperty _ _ _).quiet _
      · exact (storeOnly_readField _ _).quiet _
      · exact (storeOnly_complain _ _).quiet _
  | .set object name value token =>
      refine quiet_bind (h _ .setObject) fun target after hObject => ?_
      split
      · exact h _ (.setItem hObject)
      · exact quiet_bind (h _ (.setField hObject)) fun _ _ _ =>
          quiet_store_bind (storeOnly_writeField _ _ _) fun _ _ _ => (storeOnly_pure _).quiet _
      · exact (storeOnly_complain _ _).quiet _
  | .base | .stray _ => exact (storeOnly_complain _ _).quiet _

theorem quiet_evaluateAll {arguments : List Expr}
    (h : ∀ next, Starts fuel room machine (.evaluateAll arguments) next → next.Silent) :
    Quiet (evaluateAll (fuel + 1) room arguments) machine := by
  unfold evaluateAll
  cases arguments with
  | nil => exact (storeOnly_pure _).quiet _
  | cons e rest =>
      exact quiet_bind (h _ .firstArgument) fun _ _ hFirst =>
        quiet_bind (h _ (.moreArguments hFirst)) fun _ _ _ => (storeOnly_pure _).quiet _

theorem quiet_assignItem {items : Items} {name : String} {value : Expr} {token : Token}
    (h : ∀ next, Starts fuel room machine (.assignItem items name value token) next →
      next.Silent) :
    Quiet (assignItem (fuel + 1) room items name value token) machine := by
  unfold assignItem
  dsimp only
  split
  · exact (storeOnly_complain _ _).quiet _
  · next index hIndex =>
    have hSteps : Quiet (do
        let result ← evaluate fuel room value
        writeItem items (.int index) result
        return result) machine :=
      quiet_bind (h _ (.itemValue hIndex)) fun _ _ _ =>
        quiet_store_bind (storeOnly_writeItem _ _ _) fun _ _ _ => (storeOnly_pure _).quiet _
    unfold Quiet at hSteps ⊢
    dsimp only
    split
    · next after hRun =>
      rw [hRun] at hSteps
      exact hSteps
    · exact hSteps

/-- A call of a class prints nothing by itself, nor does the binding of its constructor. -/
theorem quiet_construct {classPlace : Nat} {arguments : List Expr}
    (h : ∀ next, Starts fuel room machine (.construct classPlace arguments) next →
      next.Silent) :
    Quiet (construct (fuel + 1) room classPlace arguments) machine := by
  unfold construct
  refine quiet_withStore_bind fun object created hCreate => quiet_get_bind ?_
  split
  · exact (storeOnly_pure _).quiet _
  · next init hInit =>
    refine quiet_withStore_bind fun bound ready hBind => ?_
    refine quiet_bind (h _ (.initArguments hCreate hInit hBind)) fun values after hArguments => ?_
    cases room with
    | zero => exact (storeOnly_throw _).quiet _
    | succ room =>
        refine quiet_get_bind (quiet_withStore_bind fun scope entered hScope =>
          quiet_changeStore_bind ?_)
        have hBody := h _ (.initBody hCreate hInit hBind hArguments rfl hScope)
        have hInner : Quiet (inScope scope (executeAll fuel room (after.store.function bound).body))
            { after with
              store := defineParameters scope (after.store.function bound).params values
                entered } :=
          quiet_inScope hBody
        unfold Quiet at hInner ⊢
        dsimp only
        split
        · next finish hRun =>
          rw [hRun] at hInner
          exact hInner
        · next value finish hRun =>
          rw [hRun] at hInner
          exact hInner
        · next fault finish hFault hRun =>
          rw [hRun] at hInner
          exact hInner

theorem quiet_executeAll {body : List Stmt}
    (h : ∀ next, Starts fuel room machine (.executeAll body) next → next.Silent) :
    Quiet (executeAll (fuel + 1) room body) machine := by
  unfold executeAll
  cases body with
  | nil => exact (storeOnly_pure _).quiet _
  | cons stmt rest =>
      exact quiet_bind (h _ .firstStatement) fun _ _ hFirst => h _ (.moreStatements hFirst)

/-- A statement prints nothing by itself. -/
theorem quiet_execute {stmt : Stmt}
    (h : ∀ next, Starts fuel room machine (.execute stmt) next → next.Silent) :
    Quiet (execute (fuel + 1) room stmt) machine := by
  unfold execute
  match stmt with
  | .expression e => exact quiet_bind (h _ .expression) fun _ _ _ => (storeOnly_pure _).quiet _
  | .varDecl decl =>
      have hDefine (value : Value) : StoreOnly (do
          let scope := (← get).current
          changeStore fun store =>
            store.defineVariable scope decl.name (some decl.typeName) value) :=
        storeOnly_bind storeOnly_get fun _ => storeOnly_changeStore _
      dsimp only
      split
      · next e hInitializer =>
        exact quiet_bind (h _ (.initializer hInitializer)) fun _ _ _ =>
          (storeOnly_bind (storeOnly_initialValue _ _) hDefine).quiet _
      · exact (storeOnly_bind (storeOnly_pure _) hDefine).quiet _
  | .funDecl decl =>
      exact (storeOnly_bind storeOnly_get fun _ => storeOnly_changeStore _).quiet _
  | .classDecl name superclass fields methods token =>
      exact quiet_store_bind (storeOnly_parentClass superclass token) fun _ _ hParent =>
        quiet_bind (h _ (.classFields hParent)) fun _ _ _ =>
          (storeOnly_bind storeOnly_get fun _ => storeOnly_changeStore _).quiet _
  | .block body =>
      exact quiet_innerScope_bind fun _ _ hScope => quiet_inScope (h _ (.block hScope))
  | .branch condition thenBranch elseBranch =>
      refine quiet_bind (h _ .condition) fun value after hCondition => ?_
      split
      · next hTrue => exact h _ (.thenBranch hCondition hTrue)
      · next hFalse =>
        cases elseBranch with
        | some other => exact h _ (.elseBranch hCondition (Bool.not_eq_true _ ▸ hFalse))
        | none => exact (storeOnly_pure _).quiet _
  | .loop condition body => exact h _ .loop
  | .each iterator iterable body =>
      refine quiet_bind (h _ .iterable) fun value after hIterable => ?_
      split
      · exact h _ (.each hIterable)
      · exact (storeOnly_complain _ _).quiet _
  | .ret (some e) token => exact quiet_bind (h _ .returned) fun _ _ _ => (storeOnly_throw _).quiet _
  | .ret none token => exact (storeOnly_throw _).quiet _
  | .base | .stray _ => exact (storeOnly_complain _ _).quiet _

theorem quiet_fieldDefault {decl : VarDecl}
    (h : ∀ next, Starts fuel room machine (.fieldDefault decl) next → next.Silent) :
    Quiet (fieldDefault (fuel + 1) room decl) machine := by
  unfold fieldDefault
  split
  · next e hInitializer => exact h _ (.fieldInitializer hInitializer)
  · exact (storeOnly_pure _).quiet _

theorem quiet_evaluateFields {fields : List VarDecl} {table : Table (String × Value)}
    (h : ∀ next, Starts fuel room machine (.evaluateFields fields table) next → next.Silent) :
    Quiet (evaluateFields (fuel + 1) room fields table) machine := by
  unfold evaluateFields
  cases fields with
  | nil => exact (storeOnly_pure _).quiet _
  | cons field rest =>
      exact quiet_bind (h _ .firstField) fun _ _ hField => h _ (.moreFields hField)

/-- A loop prints nothing by itself: each turn is a moment that it starts. -/
theorem quiet_repeatWhile {condition : Expr} {body : Stmt}
    (h : ∀ next, Starts fuel room machine (.repeatWhile condition body) next → next.Silent) :
    Quiet (repeatWhile (fuel + 1) room condition body) machine := by
  unfold repeatWhile
  refine quiet_bind (h _ .whileCondition) fun value after hCondition => ?_
  split
  · next hTrue =>
    exact quiet_bind (h _ (.whileBody hCondition hTrue)) fun _ _ hBody =>
      h _ (.whileAgain hCondition hTrue hBody)
  · exact (storeOnly_pure _).quiet _

theorem quiet_repeatFor {iterator : String} {items : Items} {index : Nat} {body : Stmt}
    (h : ∀ next, Starts fuel room machine (.repeatFor iterator items index body) next →
      next.Silent) :
    Quiet (repeatFor (fuel + 1) room iterator items index body) machine := by
  unfold repeatFor
  refine quiet_get_bind ?_
  split
  · exact (storeOnly_pure _).quiet _
  · next item hItem =>
    exact quiet_innerScope_bind fun _ _ hScope => quiet_changeStore_bind
      (quiet_bind (quiet_inScope (h _ (.forBody hItem hScope))) fun _ _ hBody =>
        h _ (.forAgain hItem hScope hBody))

end Run

/-! ## A whole run -/

/-- Nothing is printed unless a builtin function is called. The induction is on the
bound, which each start lowers by one. -/
theorem Moment.silent_of_no_builtin {moment : Moment}
    (h : ∀ last, moment.LeadsTo last →
      ∀ native arguments, last.task ≠ .builtin native arguments) : moment.Silent := by
  obtain ⟨fuel, room, task, machine⟩ := moment
  induction fuel generalizing room task machine with
  | zero => exact congrArg Machine.output (Task.after_zero task (h _ .refl))
  | succ fuel ih =>
      have hNext : ∀ next, Starts fuel room machine task next → next.Silent := by
        intro next hStarts
        have hFuel := hStarts.fuel_eq
        obtain ⟨fuel', room', task', machine'⟩ := next
        subst hFuel
        exact ih _ _ _ fun last hLast => h last (.head ⟨hStarts⟩ hLast)
      cases task with
      | evaluate => exact Run.quiet_evaluate hNext
      | evaluateAll => exact Run.quiet_evaluateAll hNext
      | assignItem => exact Run.quiet_assignItem hNext
      | construct => exact Run.quiet_construct hNext
      | executeAll => exact Run.quiet_executeAll hNext
      | execute => exact Run.quiet_execute hNext
      | fieldDefault => exact Run.quiet_fieldDefault hNext
      | evaluateFields => exact Run.quiet_evaluateFields hNext
      | repeatWhile => exact Run.quiet_repeatWhile hNext
      | repeatFor => exact Run.quiet_repeatFor hNext
      | builtin native arguments => exact absurd rfl (h _ .refl native arguments)

/-- A program of a source prints nothing. -/
theorem Moment.Sourced.silent {moment : Moment} (h : moment.Sourced) : moment.Silent :=
  Moment.silent_of_no_builtin fun _ hLeads => (h.leadsTo hLeads).tame.ne_builtin

end Mus
