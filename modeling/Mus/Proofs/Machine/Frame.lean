import Mus.Proofs.Machine.Steady

/-! The frame of a statement of a source: what executing it leaves as it was. A
declaration changes the current scope and no other. Any other statement changes no
scope that exists; what is declared inside its blocks is declared in scopes that are
new. Either way functions and classes are only added, and objects and lists stay the
same. -/
namespace Mus

/-! ## Stores that grow -/

/-- The second store is the first one with scopes, functions and classes added. Of
the scopes that were there, the fixed ones are as they were, and a store of sources
is still one. -/
structure Store.Grows (fixed : Nat → Prop) (before after : Store) : Prop where
  size : before.scopes.size ≤ after.scopes.size
  scopes : ∀ place < before.scopes.size, fixed place → after.scopes[place]? = before.scopes[place]?
  functions : before.functions.toList <+: after.functions.toList
  classes : before.classes.toList <+: after.classes.toList
  objects : after.objects = before.objects
  cells : after.cells = before.cells
  sourced : before.Sourced → after.Sourced

namespace Store

variable {fixed : Nat → Prop} {store : Store}

namespace Grows

theorem refl (fixed : Nat → Prop) (store : Store) : store.Grows fixed store :=
  ⟨Nat.le_refl _, fun _ _ _ => rfl, List.prefix_refl _, List.prefix_refl _, rfl, rfl, id⟩

theorem trans {first second third : Store} (h₁ : first.Grows fixed second)
    (h₂ : second.Grows fixed third) : first.Grows fixed third where
  size := Nat.le_trans h₁.size h₂.size
  scopes place hPlace hFixed :=
    (h₂.scopes place (Nat.lt_of_lt_of_le hPlace h₁.size) hFixed).trans
      (h₁.scopes place hPlace hFixed)
  functions := h₁.functions.trans h₂.functions
  classes := h₁.classes.trans h₂.classes
  objects := h₂.objects.trans h₁.objects
  cells := h₂.cells.trans h₁.cells
  sourced h := h₂.sourced (h₁.sourced h)

/-- Fewer scopes may be required to stay as they are. -/
theorem mono {fixed' : Nat → Prop} {before after : Store} (h : before.Grows fixed after)
    (hFixed : ∀ place < before.scopes.size, fixed' place → fixed place) :
    before.Grows fixed' after :=
  { h with scopes := fun place hPlace h' => h.scopes place hPlace (hFixed place hPlace h') }

/-- What is at a fixed place. -/
theorem scope_eq {before after : Store} (h : before.Grows fixed after) {place : Nat}
    (hPlace : place < before.scopes.size) (hFixed : fixed place) :
    after.scope place = before.scope place := by
  unfold scope
  rw [h.scopes place hPlace hFixed]

end Grows

/-- A new scope leaves the others as they are. -/
theorem grows_addScope (fixed : Nat → Prop) (store : Store) (parent : Option Nat) :
    store.Grows fixed (store.addScope { parent := parent }).2 where
  size := by
    simp only [addScope, Array.size_push]
    omega
  scopes place hPlace _ := by
    simp only [addScope, Array.getElem?_push, Nat.ne_of_lt hPlace, if_false]
  functions := List.prefix_refl _
  classes := List.prefix_refl _
  objects := rfl
  cells := rfl
  sourced h := by
    refine ⟨fun scope hScope => ?_, h.defaults, h.cells, ?_⟩
    · rcases Array.mem_push.mp hScope with hOld | rfl
      · exact h.bindings scope hOld
      · exact fun _ hEntry => nomatch hEntry
    · simp only [addScope, Array.size_push]
      omega

theorem grows_addFunction (fixed : Nat → Prop) (store : Store) (function : Function) :
    store.Grows fixed (store.addFunction function).2 where
  size := Nat.le_refl _
  scopes _ _ _ := rfl
  functions := by simp [addFunction]
  classes := List.prefix_refl _
  objects := rfl
  cells := rfl
  sourced h := ⟨h.bindings, h.defaults, h.cells, h.global⟩

/-- A new class whose defaults come from a source leaves all scopes as they are. -/
theorem grows_addClass (fixed : Nat → Prop) (store : Store) {classDef : ClassDef}
    (hFields : ∀ entry ∈ classDef.fields, entry.2.2.Sourced) :
    store.Grows fixed (store.addClass classDef).2 where
  size := Nat.le_refl _
  scopes _ _ _ := rfl
  functions := List.prefix_refl _
  classes := by simp [addClass]
  objects := rfl
  cells := rfl
  sourced h := by
    refine ⟨h.bindings, fun other hClass => ?_, h.cells, h.global⟩
    rcases Array.mem_push.mp hClass with hOld | rfl
    · exact h.defaults other hOld
    · exact hFields

/-- A change of a scope that adds no variable but those of sources. -/
theorem grows_changeScope (store : Store) {place : Nat} {change : Scope → Scope}
    (hChange : ∀ scope, ∀ entry ∈ (change scope).bindings,
      entry ∈ scope.bindings ∨ entry.2.2.Sourced) :
    store.Grows (· ≠ place) (store.changeScope place change) where
  size := by simp [changeScope]
  scopes other _ hOther := by
    rw [changeScope, Array.getElem?_modify, if_neg (Ne.symm hOther)]
  functions := List.prefix_refl _
  classes := List.prefix_refl _
  objects := rfl
  cells := rfl
  sourced h := by
    refine ⟨fun scope hScope entry hEntry => ?_, h.defaults, h.cells, ?_⟩
    · rcases mem_of_mem_modify hScope with hOld | ⟨old, hOld, rfl⟩
      · exact h.bindings scope hOld entry hEntry
      · rcases hChange old entry hEntry with hSame | hSourced
        · exact h.bindings old hOld entry hSame
        · exact hSourced
    · simpa [changeScope] using h.global

/-- Declaring a variable changes the one scope that it is declared in. -/
theorem grows_defineVariable (store : Store) (place : Nat) (name : String) (type : Option String)
    {value : Value} (hValue : value.Sourced) :
    store.Grows (· ≠ place) (store.defineVariable place name type value) := by
  refine store.grows_changeScope fun scope entry hEntry => ?_
  rcases Table.snd_mem_insert hEntry with hNew | hOld
  · right
    rw [hNew]
    exact hValue
  · exact Or.inl hOld

theorem grows_defineFunction (store : Store) (place : Nat) (name : String) (params : Params)
    (body : List Stmt) : store.Grows (· ≠ place) (store.defineFunction place name params body) :=
  (store.grows_addFunction _ _).trans
    (grows_changeScope _ fun _ _ hEntry => Or.inl hEntry)

/-- Methods are only added as functions, by induction on them. -/
theorem grows_addMethods (fixed : Nat → Prop) (store : Store) (scope : Nat)
    (methods : List FunDecl) (table : Table Nat) :
    store.Grows fixed (Run.addMethods scope methods table store).2 := by
  induction methods generalizing store table with
  | nil => exact .refl fixed store
  | cons decl rest ih => exact (store.grows_addFunction fixed _).trans (ih _ _)

theorem grows_defineClass (store : Store) (place : Nat) (name : String)
    {fields : Table (String × Value)} (hFields : ∀ entry ∈ fields, entry.2.2.Sourced)
    (methods : Table Nat) (parent : Option Nat) :
    store.Grows (· ≠ place) (store.defineClass place name fields methods parent).2 :=
  (store.grows_addClass _ hFields).trans
    (grows_changeScope _ fun _ _ hEntry => Or.inl hEntry)

end Store

/-! ## Steps with a frame -/

/-- The second machine stands where the first one does, and its store has grown from
that of the first. If things are settled, all scopes are as they were, otherwise all
but the current one. -/
structure Machine.Frame (settled : Prop) (before after : Machine) : Prop where
  standpoint : before.SameStandpoint after
  store : before.store.Grows (fun place => settled ∨ place ≠ before.current) after.store

namespace Machine.Frame

variable {settled : Prop} {before middle after : Machine}

theorem refl (settled : Prop) (machine : Machine) : machine.Frame settled machine :=
  ⟨.refl machine, .refl _ _⟩

theorem trans (h₁ : before.Frame settled middle) (h₂ : middle.Frame settled after) :
    before.Frame settled after := by
  refine ⟨h₁.standpoint.trans h₂.standpoint, h₁.store.trans ?_⟩
  have hStore := h₂.store
  rw [h₁.standpoint.current] at hStore
  exact hStore

/-- If things are settled by less, the frame says more. -/
theorem mono {settled' : Prop} (h : before.Frame settled after) (hSettled : settled' → settled) :
    before.Frame settled' after :=
  ⟨h.standpoint, h.store.mono fun _ _ => Or.imp_left hSettled⟩

/-- A machine of sources stays one over a frame. -/
theorem sourced (h : before.Frame settled after) (hBefore : before.Sourced) : after.Sourced :=
  ⟨h.store.sourced hBefore.store, h.standpoint.locals.trans hBefore.locals,
    h.standpoint.globals.trans hBefore.globals⟩

end Machine.Frame

namespace Run

variable {α β : Type} {settled : Prop}

/-- Steps that keep the frame of every machine of sources, however they end. -/
def Frames (settled : Prop) (steps : Run α) : Prop :=
  ∀ machine : Machine, machine.Sourced → machine.Frame settled (machineAfter (steps machine))

theorem frames_pure (value : α) : Frames settled (pure value : Run α) :=
  fun machine _ => .refl settled machine

theorem frames_throw (fault : Fault) : Frames settled (throw fault : Run α) :=
  fun machine _ => .refl settled machine

theorem Frames.mono {settled' : Prop} {steps : Run α} (h : Frames settled steps)
    (hSettled : settled' → settled) : Frames settled' steps :=
  fun machine hMachine => (h machine hMachine).mono hSettled

/-- Steps that end with a result keep the frame, in particular. -/
theorem Frames.of_ok {steps : Run α} {machine after : Machine} {value : α}
    (h : Frames settled steps) (hMachine : machine.Sourced)
    (hRun : steps machine = .ok value after) : machine.Frame settled after := by
  have hSteps := h machine hMachine
  rw [hRun] at hSteps
  exact hSteps

/-- Steps that keep the frame, one after the other, keep it together. -/
theorem frames_bind {steps : Run α} {next : α → Run β} (hSteps : Frames settled steps)
    (hNext : ∀ value, Frames settled (next value)) : Frames settled (steps >>= next) := by
  intro machine hMachine
  have hFirst := hSteps machine hMachine
  cases hRun : steps machine with
  | ok value after =>
      rw [hRun] at hFirst
      rw [bind_ok hRun]
      exact hFirst.trans (hNext value after (hFirst.sourced hMachine))
  | error fault after =>
      rw [hRun] at hFirst
      rw [bind_error hRun]
      exact hFirst

/-- Machines that are one and the same machine of sources. -/
def SameSourced (machine machine' : Machine) : Prop := machine = machine' ∧ machine.Sourced

/-- What looks the same on alike machines does so on one and the same. -/
theorem Looks.same {ample : Prop} {good : α → Prop} {steps : Run α}
    (h : Looks Machine.Alike ample good steps) : Looks SameSourced ample good steps := by
  rintro machine _ ⟨rfl, hMachine⟩
  exact h machine machine hMachine.alike

/-- Going on with a good value after a look at the machine. -/
theorem frames_looks_bind {ample : Prop} {good : α → Prop} {steps : Run α} {next : α → Run β}
    (hSteps : Looks SameSourced ample good steps)
    (hNext : ∀ value, good value → Frames settled (next value)) :
    Frames settled (steps >>= next) := by
  intro machine hMachine
  obtain ⟨outcome, hDecent, hRun, -⟩ := hSteps machine machine ⟨rfl, hMachine⟩
  cases outcome with
  | ok value =>
      rw [bind_ok hRun]
      exact hNext value hDecent machine hMachine
  | error fault =>
      rw [bind_error hRun]
      exact .refl settled machine

/-- A change of the current scope. -/
theorem frames_declare (change : Nat → Store → Store)
    (h : ∀ (place : Nat) (store : Store), store.Grows (· ≠ place) (change place store)) :
    Frames False (do
      let scope := (← get).current
      changeStore (change scope)) := by
  intro machine _
  exact ⟨⟨rfl, rfl, rfl⟩, (h machine.current machine.store).mono fun _ _ => (Or.resolve_left · id)⟩

/-- Whatever a block does to the scope that it has entered, the scopes that were
there before it stay. -/
theorem frames_block {steps : Run α} (h : Frames False steps) :
    Frames settled (do
      let scope ← innerScope
      inScope scope steps) := by
  intro machine hMachine
  let entered : Machine :=
    { machine with
      store := (machine.store.addScope { parent := some machine.current }).2
      current := machine.store.scopes.size }
  have hAdded : machine.store.Grows (fun place => False ∨ place ≠ entered.current) entered.store :=
    machine.store.grows_addScope _ _
  have hInside := h entered ⟨hAdded.sourced hMachine.store, hMachine.locals, hMachine.globals⟩
  have hStore : machine.store.Grows (fun place => settled ∨ place ≠ machine.current)
      (machineAfter (steps entered)).store :=
    (hAdded.trans hInside.store).mono fun place hPlace _ => Or.inr (Nat.ne_of_lt hPlace)
  change machine.Frame settled (machineAfter (inScope machine.store.scopes.size steps
    { machine with store := (machine.store.addScope { parent := some machine.current }).2 }))
  rw [machineAfter_inScope]
  exact ⟨⟨rfl, hInside.standpoint.globals, hInside.standpoint.locals⟩, hStore⟩

/-! ## Statements -/

theorem looks_parentClass (superclass : Option String) (token : Token) :
    Looks SameSourced True (fun _ => True) (parentClass superclass token) := by
  unfold parentClass
  split
  · exact looks_pure trivial
  · split
    · exact looks_pure trivial
    · refine looks_get_bind (fun _ _ h => h.1 ▸ rfl) fun machine _ _ => ?_
      split
      · exact looks_pure trivial
      · exact looks_complain _ _

/-- Expressions of a source are evaluated without any change of the machine. -/
theorem looks_expression (fuel room : Nat) {e : Expr} (h : e.Runnable) :
    Looks SameSourced False Value.Sourced (evaluate fuel room e) :=
  ((views_sourced.looks_evaluate fuel room h).mono False.elim fun _ => id).same

theorem looks_fieldDefault (fuel room : Nat) {decl : VarDecl} (h : decl.Sourced) :
    Looks SameSourced False Value.Sourced (fieldDefault fuel room decl) := by
  unfold fieldDefault
  cases fuel with
  | zero => exact looks_outOfFuel id
  | succ fuel =>
      dsimp only
      split
      · next e hInitializer => exact looks_expression fuel room (h.initializer e hInitializer)
      · exact looks_pure trivial

/-- The defaults of the fields are evaluated in turn without any change of the machine. -/
theorem looks_evaluateFields (fuel room : Nat) {fields : List VarDecl}
    (hFields : ∀ field ∈ fields, field.Sourced) {table : Table (String × Value)}
    (hTable : ∀ entry ∈ table, entry.2.2.Sourced) :
    Looks SameSourced False (fun table => ∀ entry ∈ table, entry.2.2.Sourced)
      (evaluateFields fuel room fields table) := by
  induction fuel generalizing fields table with
  | zero =>
      unfold evaluateFields
      exact looks_outOfFuel id
  | succ fuel ih =>
      unfold evaluateFields
      cases fields with
      | nil => exact looks_pure hTable
      | cons field rest =>
          obtain ⟨hField, hRest⟩ := List.forall_mem_cons.mp hFields
          refine looks_bind (looks_fieldDefault fuel room hField) fun value hValue => ?_
          refine ih hRest fun entry hEntry => ?_
          rcases Table.snd_mem_insert hEntry with hNew | hOld
          · rw [hNew]
            exact hValue
          · exact hTable entry hOld

/-- A variable of no array type starts with the value itself. -/
theorem looks_initialValue {type : String} (hType : elementType? type = none) {value : Value}
    (h : value.Sourced) : Looks SameSourced True Value.Sourced (initialValue type value) := by
  unfold initialValue
  rw [hType]
  exact looks_pure h

/-- Declaring a variable concerns the current scope, which is not settled. -/
theorem frames_defineVariable (name type : String) {value : Value} (h : value.Sourced) :
    Frames False (do
      let scope := (← get).current
      changeStore fun store => store.defineVariable scope name (some type) value) :=
  frames_declare _ fun place store => store.grows_defineVariable place name (some type) h

mutual

/-- Statements of a source keep the frame of a block, in which they may declare something. By
induction on the fuel, together with single statements and loops. -/
theorem frames_executeAll (fuel room : Nat) {body : List Stmt} (h : Stmt.AllSourced body) :
    Frames False (executeAll fuel room body) := by
  unfold executeAll
  match fuel, body, h with
  | 0, _, _ => exact frames_throw _
  | _ + 1, [], _ => exact frames_pure _
  | fuel + 1, stmt :: rest, ⟨hFirst, hRest⟩ =>
      exact frames_bind ((frames_execute fuel room hFirst).mono False.elim) fun _ =>
        frames_executeAll fuel room hRest

/-- Only a declaration changes a scope, and only the current one. -/
theorem frames_execute (fuel room : Nat) {stmt : Stmt} (h : stmt.Sourced) :
    Frames (stmt.isDeclaration = false) (execute fuel room stmt) := by
  unfold execute
  match fuel, stmt, h with
  | 0, _, _ => exact frames_throw _
  | fuel + 1, .expression e, h =>
      exact frames_looks_bind (looks_expression fuel room h) fun _ _ => frames_pure _
  | fuel + 1, .varDecl ⟨name, type, initializer, token⟩, h =>
      refine Frames.mono (?_ : Frames False _) nofun
      dsimp only
      cases hInitializer : initializer with
      | none => exact frames_defineVariable name type trivial
      | some e =>
          have hStart := looks_expression fuel room (h.initializer e hInitializer)
          exact frames_looks_bind hStart fun _ hStart =>
            frames_looks_bind (looks_initialValue h.type hStart) fun _ hValue =>
              frames_defineVariable name type hValue
  | fuel + 1, .funDecl decl, _ =>
      refine Frames.mono (?_ : Frames False _) nofun
      exact frames_declare _ fun place store => store.grows_defineFunction place _ _ _
  | fuel + 1, .classDecl name superclass fields methods token, ⟨hFields, _⟩ =>
      refine Frames.mono (?_ : Frames False _) nofun
      refine frames_looks_bind (looks_parentClass superclass token) fun parent _ => ?_
      refine frames_looks_bind (looks_evaluateFields fuel room hFields
        fun _ hEntry => nomatch hEntry) fun table hTable => ?_
      refine frames_declare (fun place store =>
        ((addMethods place methods [] store).2.defineClass place name table
          (addMethods place methods [] store).1 parent).2) fun place store => ?_
      exact (store.grows_addMethods _ place methods []).trans
        (Store.grows_defineClass _ place name hTable _ parent)
  | fuel + 1, .block body, h => exact frames_block (frames_executeAll fuel room h)
  | fuel + 1, .branch condition thenBranch elseBranch, ⟨hCondition, hThen, hElse⟩ =>
      refine frames_looks_bind (looks_expression fuel room hCondition) fun value _ => ?_
      split
      · exact (frames_execute fuel room hThen.1).mono fun _ => hThen.2
      · cases elseBranch with
        | some other => exact (frames_execute fuel room hElse.1).mono fun _ => hElse.2
        | none => exact frames_pure _
  | fuel + 1, .loop condition body, ⟨hCondition, hBody⟩ =>
      exact (frames_repeatWhile fuel room hCondition hBody.1 hBody.2).mono fun _ => trivial
  | fuel + 1, .ret value token, h =>
      cases value with
      | some e =>
          exact frames_looks_bind (looks_expression fuel room (h e rfl)) fun _ _ => frames_throw _
      | none => exact frames_throw _

/-- The body of a loop is no declaration, so that each turn leaves all scopes as they are. -/
theorem frames_repeatWhile (fuel room : Nat) {condition : Expr} {body : Stmt}
    (hCondition : condition.Runnable) (hBody : body.Sourced)
    (hNested : body.isDeclaration = false) :
    Frames True (repeatWhile fuel room condition body) := by
  unfold repeatWhile
  match fuel with
  | 0 => exact frames_throw _
  | fuel + 1 =>
      refine frames_looks_bind (looks_expression fuel room hCondition) fun value _ => ?_
      split
      · exact frames_bind ((frames_execute fuel room hBody).mono fun _ => hNested) fun _ =>
          frames_repeatWhile fuel room hCondition hBody hNested
      · exact frames_pure _

end

end Run

end Mus
