import Mus.Proofs.Session.DataOnly

/-! Evaluation from different scopes. A name is looked for in the current scope only
where the resolution table says so. With an empty table, evaluating an expression
from one scope or from another is the same: it comes to the same value or fault,
prints the same and changes the store in the same way. The body of a constructor is
executed in the scope of the call, whichever one was current before. -/
namespace Mus

def Machine.movedTo (scope : Nat) (machine : Machine) : Machine :=
  { machine with current := scope }

namespace Run

variable {α β : Type}

def movedTo (scope : Nat) : EStateM.Result Fault Machine α → EStateM.Result Fault Machine α
  | .ok value after => .ok value (after.movedTo scope)
  | .error fault after => .error fault (after.movedTo scope)

/-- Steps that do the same from every scope when the resolution table is empty. -/
def Blind (steps : Run α) : Prop :=
  ∀ (machine : Machine) (scope : Nat), machine.locals = [] →
    steps (machine.movedTo scope) = movedTo scope (steps machine)

theorem blind_pure (value : α) : Blind (pure value : Run α) :=
  fun _ _ _ => rfl

theorem blind_throw (fault : Fault) : Blind (throw fault : Run α) :=
  fun _ _ _ => rfl

theorem blind_complain (complaint : Complaint) (token : Token) :
    Blind (complain complaint token : Run α) :=
  blind_throw _

/-- The table must still be empty when the second part begins. -/
theorem blind_bind {steps : Run α} {next : α → Run β} (hSteps : Blind steps)
    (hStays : Stays steps) (hNext : ∀ value, Blind (next value)) : Blind (steps >>= next) := by
  intro machine scope hLocals
  have hMoved := hSteps machine scope hLocals
  have hKept := hStays machine
  cases hRun : steps machine with
  | ok value after =>
      rw [hRun] at hMoved hKept
      rw [bind_ok hRun, bind_ok hMoved]
      exact hNext value after scope (hKept.locals.trans hLocals)
  | error fault after =>
      rw [hRun] at hMoved
      rw [bind_error hRun, bind_error hMoved]
      rfl

/-- Going on from what is seen of a machine apart from its current scope. -/
theorem blind_get_bind {next : Machine → Run α}
    (hSame : ∀ machine scope, next (machine.movedTo scope) = next machine)
    (hNext : ∀ machine, Blind (next machine)) : Blind (get >>= next) := by
  intro machine scope hLocals
  change next (machine.movedTo scope) (machine.movedTo scope) =
    movedTo scope (next machine machine)
  rw [hSame]
  exact hNext machine machine scope hLocals

/-- The store does not know which scope is the current one. -/
theorem blind_withStore (change : Store → α × Store) : Blind (withStore change) :=
  fun _ _ _ => rfl

theorem blind_changeStore (change : Store → Store) : Blind (changeStore change) :=
  fun _ _ _ => rfl

/-- Steps in a scope of their own do not see the one they are called from, whatever
they do. -/
theorem blind_inScope (scope : Nat) (steps : Run α) : Blind (inScope scope steps) := by
  intro machine outside _
  have hInside : steps { machine.movedTo outside with current := scope } =
      steps { machine with current := scope } := rfl
  unfold inScope
  rw [hInside]
  cases steps { machine with current := scope } <;> rfl

/-! ## The operations of the language -/

/-- The machines have the same store and globals, and nothing is noted in their
resolution tables. -/
structure SameView (machine machine' : Machine) : Prop where
  store : machine.store = machine'.store
  globals : machine.globals = machine'.globals
  locals : machine.locals = [] ∧ machine'.locals = []

/-- What looks the same from every scope is blind. -/
theorem Looks.blind {good : α → Prop} {steps : Run α} (h : Looks SameView True good steps) :
    Blind steps := by
  intro machine scope hLocals
  obtain ⟨outcome, -, hRun, hMoved⟩ :=
    h machine (machine.movedTo scope) ⟨rfl, rfl, hLocals, hLocals⟩
  rw [hRun, hMoved]
  cases outcome <;> rfl

theorem blind_shown (value : Value) : Blind (shown value) :=
  (looks_shown fun _ _ (h : SameView _ _) => by rw [h.store]).blind

theorem blind_binary (operator : Token) (left right : Value) :
    Blind (binary operator left right) := by
  refine (looks_binary operator ?_ ?_ ?_).blind
  all_goals
    intro machine machine' h
    rw [h.store]

/-- With an empty table, variables are read from the global scope. -/
theorem blind_readVariable (name : String) (e : Expr) : Blind (readVariable name e) := by
  have hLooks : Looks SameView True (fun _ => True) (readVariable name e) := by
    refine looks_readVariable (fun _ _ h => h.locals) (fun machine machine' h => ?_) e
    rw [h.store, h.globals]
    exact ⟨rfl, trivial⟩
  exact hLooks.blind

/-- With an empty table, there is no superclass from any scope. -/
theorem blind_superMethod (e : Expr) (method : String) (token : Token) :
    Blind (superMethod e method token) := by
  have hLooks : Looks SameView True (fun _ => True) (superMethod e method token) :=
    looks_superMethod (fun _ _ h => h.locals) e method token
  exact hLooks.blind

theorem blind_arrayProperty (items : Items) (name : String) (token : Token) :
    Blind (arrayProperty items name token) :=
  Looks.blind (looks_arrayProperty (fun _ _ h => h.store) items name token)

theorem blind_writeItem (items : Items) (index value : Value) :
    Blind (writeItem items index value) :=
  blind_bind (Looks.blind (looks_itemIndex (fun _ _ h => h.store) items index))
    (storeOnly_itemIndex items index).stays fun _ => blind_changeStore _

/-- A method is bound in its own scope and not in the current one. -/
theorem blind_readField (object : Nat) (name : String) : Blind (readField object name) := by
  intro machine scope _
  unfold readField Machine.movedTo
  cases machine.store.readField object name <;> rfl

theorem blind_writeField (object : Nat) (name : String) (value : Value) :
    Blind (writeField object name value) := by
  intro machine scope _
  unfold writeField Machine.movedTo
  cases machine.store.writeField object name value <;> rfl

theorem blind_builtin (native : Builtin) (arguments : List Value) :
    Blind (builtin native arguments) := by
  unfold builtin
  split
  · refine blind_bind (blind_shown _) (storeOnly_shown _).stays fun text => ?_
    exact fun _ _ _ => rfl
  · exact blind_throw _
  · exact blind_get_bind (fun _ _ => rfl) fun _ => blind_pure _
  · exact blind_throw _
  · exact blind_throw _

/-- A builtin function does not look at scopes. -/
theorem blind_callFunction (place : Nat) (arguments : List Value) :
    Blind (callFunction place arguments) := by
  refine blind_get_bind (fun _ _ => rfl) fun machine => ?_
  cases (machine.store.function place).builtin with
  | some native => exact blind_builtin native arguments
  | none => exact blind_throw _

/-! ## Evaluation

By induction on the bound. Statements are only met in the bodies of constructors,
and nothing has to be known about them. -/

mutual

/-- With an empty table, no expression depends on the scope that it is evaluated in. By induction on
the fuel. -/
theorem blind_evaluate (fuel room : Nat) (e : Expr) : Blind (evaluate fuel room e) := by
  unfold evaluate
  match fuel, e with
  | 0, _ => exact blind_throw _
  | fuel + 1, .literal value token => exact blind_pure _
  | fuel + 1, .variable name token => exact blind_readVariable _ _
  | fuel + 1, .this token => exact blind_readVariable _ _
  | fuel + 1, .super method token => exact blind_superMethod _ _ _
  | fuel + 1, .binary left operator right =>
      exact blind_bind (blind_evaluate fuel room left) (rules_stays.evaluate fuel room left)
        fun _ => blind_bind (blind_evaluate fuel room right)
          (rules_stays.evaluate fuel room right) fun _ => blind_binary _ _ _
  | fuel + 1, .unary operator right =>
      exact blind_bind (blind_evaluate fuel room right) (rules_stays.evaluate fuel room right)
        fun _ => (looks_unary operator _).blind
  | fuel + 1, .call callee arguments token =>
      refine blind_bind (blind_evaluate fuel room callee) (rules_stays.evaluate fuel room callee)
        fun target => ?_
      split
      · exact blind_bind (blind_evaluateAll fuel room arguments)
          (rules_stays.evaluateAll fuel room arguments) fun _ => blind_callFunction _ _
      · exact blind_construct fuel room _ arguments
      · exact blind_complain _ _
  | fuel + 1, .get object name token =>
      refine blind_bind (blind_evaluate fuel room object) (rules_stays.evaluate fuel room object)
        fun target => ?_
      split
      · exact blind_arrayProperty _ _ _
      · exact blind_readField _ _
      · exact blind_complain _ _
  | fuel + 1, .set object name value token =>
      refine blind_bind (blind_evaluate fuel room object) (rules_stays.evaluate fuel room object)
        fun target => ?_
      split
      · exact blind_assignItem fuel room _ name value token
      · exact blind_bind (blind_evaluate fuel room value) (rules_stays.evaluate fuel room value)
          fun _ => blind_bind (blind_writeField _ _ _) (storeOnly_writeField _ _ _).stays
            fun _ => blind_pure _
      · exact blind_complain _ _
  | fuel + 1, .base => exact blind_complain _ _
  | fuel + 1, .stray kind => exact blind_complain _ _

theorem blind_evaluateAll (fuel room : Nat) (arguments : List Expr) :
    Blind (evaluateAll fuel room arguments) := by
  unfold evaluateAll
  match fuel, arguments with
  | 0, _ => exact blind_throw _
  | _ + 1, [] => exact blind_pure _
  | fuel + 1, e :: rest =>
      exact blind_bind (blind_evaluate fuel room e) (rules_stays.evaluate fuel room e) fun _ =>
        blind_bind (blind_evaluateAll fuel room rest) (rules_stays.evaluateAll fuel room rest)
          fun _ => blind_pure _

theorem blind_assignItem (fuel room : Nat) (items : Items) (name : String) (value : Expr)
    (token : Token) : Blind (assignItem fuel room items name value token) := by
  unfold assignItem
  match fuel with
  | 0 => exact blind_throw _
  | fuel + 1 =>
      dsimp only
      split
      · exact blind_complain _ _
      · next index _ =>
        intro machine scope hLocals
        have hSteps := blind_bind (blind_evaluate fuel room value)
          (rules_stays.evaluate fuel room value) (fun result =>
            blind_bind (blind_writeItem items (.int index) result)
              (storeOnly_writeItem items (.int index) result).stays fun _ => blind_pure result)
          machine scope hLocals
        dsimp only
        rw [hSteps]
        -- One fault is replaced by a complaint, in the same machine.
        generalize (do
          let result ← evaluate fuel room value
          writeItem items (.int index) result
          return result) machine = result
        cases result with
        | ok value after => rfl
        | error fault after =>
            cases fault with
            | text failure => cases failure <;> rfl
            | _ => rfl

/-- The body of a constructor runs in a scope inside that of the bound constructor, wherever the
call stands. -/
theorem blind_construct (fuel room classPlace : Nat) (arguments : List Expr) :
    Blind (construct fuel room classPlace arguments) := by
  unfold construct
  match fuel with
  | 0 => exact blind_throw _
  | fuel + 1 =>
      refine blind_bind (blind_withStore _) (storeOnly_withStore _).stays fun object =>
        blind_get_bind (fun _ _ => rfl) fun machine => ?_
      split
      · exact blind_pure _
      · refine blind_bind (blind_withStore _) (storeOnly_withStore _).stays fun bound =>
          blind_bind (blind_evaluateAll fuel room arguments)
            (rules_stays.evaluateAll fuel room arguments) fun values => ?_
        match room with
        | 0 => exact blind_throw _
        | room + 1 =>
            refine blind_get_bind (fun _ _ => rfl) fun ready =>
              blind_bind (blind_withStore _) (storeOnly_withStore _).stays fun scope =>
              blind_bind (blind_changeStore _) (storeOnly_changeStore _).stays fun _ => ?_
            intro start outside hLocals
            have hBody := blind_inScope scope
              (executeAll fuel room (ready.store.function bound).body) start outside hLocals
            dsimp only
            rw [hBody]
            generalize inScope scope
              (executeAll fuel room (ready.store.function bound).body) start = result
            cases result with
            | ok value after => rfl
            | error fault after => cases fault <;> rfl

end

end Run

/-- Two machines that differ only in their current scope, with nothing noted in their
resolution tables, evaluate an expression to the same value or the same fault, and
the machines that this leaves differ again only in the current scope: the same has
been printed, and the scopes, functions, classes, objects and lists are the same.
The table is empty after any sources that a session has run and at every moment of
a further run. -/
theorem evaluation_ignores_scope :
    (∀ (fuel room : Nat) (e : Expr) (machine : Machine) (scope : Nat), machine.locals = [] →
      Run.evaluate fuel room e (machine.movedTo scope) =
        Run.movedTo scope (Run.evaluate fuel room e machine)) ∧
    ∀ (debug : Bool) (sources : List String),
      (Session.afterRuns debug sources).machine.locals = [] ∧
        ∀ source moment, (Session.afterRuns debug sources).Visits source moment →
          moment.machine.locals = [] := by
  refine ⟨fun fuel room e machine scope => Run.blind_evaluate fuel room e machine scope,
    fun debug sources => ?_⟩
  have hTame := Session.tame_afterRuns debug sources
  exact ⟨hTame.machine.locals, fun source moment hVisits => (hVisits.tame hTame).machine.locals⟩

/-- A machine with a block inside the global scope. A class is in reach whose
constructor declares a variable, prints and returns. -/
def scopeSample : Machine :=
  let word : Token := ⟨.identifier, "x", .nothing, 1, 1⟩
  let body : List Stmt := [
    .varDecl ⟨"k", "integer", some (.literal (.int 7) word), word⟩,
    .expression (.call (.variable "show" word) [.literal (.str "made") word] word),
    .ret none word]
  { store :=
      { scopes := #[
          { bindings := [("show", (none, .function 0)), ("Box", (none, .classDef 0))] },
          { parent := some 0 }]
        functions := #[
          ⟨"show", [("value", "any")], [], none, some .out⟩, ⟨"init", [], body, some 0, none⟩]
        classes := #[⟨"Box", [("size", ("integer", .int 1))], [("init", 1)], none, some 0⟩] }
    globals := 0
    current := 0
    locals := []
    output := "" }

def newBox : Expr :=
  let word : Token := ⟨.identifier, "Box", .nothing, 1, 1⟩
  .call (.variable "Box" word) [] word

/-- The call in the sample prints, declares and makes an object, and does the same from the inner
scope. -/
theorem evaluation_ignores_scope_newBox :
    scopeSample.locals = [] ∧
      (Run.machineAfter (Run.evaluate 10 1 newBox scopeSample)).output = "made\n" ∧
      (Run.machineAfter (Run.evaluate 10 1 newBox scopeSample)).store.objects.size = 1 ∧
      Run.evaluate 10 1 newBox (scopeSample.movedTo 1) =
        Run.movedTo 1 (Run.evaluate 10 1 newBox scopeSample) :=
  ⟨rfl, by decide +kernel, by decide +kernel,
    evaluation_ignores_scope.1 10 1 newBox scopeSample 1 rfl⟩

end Mus
