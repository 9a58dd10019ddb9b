import Mus.Proofs.Machine.Rules
import Mus.Proofs.Machine.Standpoint

/-! What has been printed does not matter to a running program. Whatever a machine has
printed before, it goes on in the same way and prints the same behind it. So two
machines that differ in nothing else do the same. -/
namespace Mus

namespace Machine

/-- The machine, had it printed a text before all that it has printed. -/
def preceded (text : String) (machine : Machine) : Machine :=
  { machine with output := text ++ machine.output }

def silent (machine : Machine) : Machine :=
  { machine with output := "" }

/-- A machine is its silent form with what it has printed put back. -/
theorem preceded_silent (machine : Machine) :
    machine.silent.preceded machine.output = machine := by
  unfold silent preceded
  rw [String.append_empty]

end Machine

namespace Run

variable {α β : Type}

def preceded (text : String) : EStateM.Result Fault Machine α → EStateM.Result Fault Machine α
  | .ok value after => .ok value (after.preceded text)
  | .error fault after => .error fault (after.preceded text)

/-- Steps that do the same whatever has been printed before. -/
def Echoes (steps : Run α) : Prop :=
  ∀ (machine : Machine) (text : String),
    steps (machine.preceded text) = preceded text (steps machine)

/-- Steps that echo, one after the other, echo together. -/
theorem echoes_bind {steps : Run α} {next : α → Run β} (hSteps : Echoes steps)
    (hNext : ∀ value, Echoes (next value)) : Echoes (steps >>= next) := by
  intro machine text
  have hEcho := hSteps machine text
  cases hRun : steps machine with
  | ok value after =>
      rw [hRun] at hEcho
      rw [bind_ok hRun, bind_ok hEcho]
      exact hNext value after text
  | error fault after =>
      rw [hRun] at hEcho
      rw [bind_error hRun, bind_error hEcho]
      rfl

/-- Steps may depend on a machine in everything but what it has printed. -/
theorem echoes_look {next : Machine → Run α}
    (hSame : ∀ machine output, next { machine with output := output } = next machine)
    (hNext : ∀ machine, Echoes (next machine)) : Echoes (get >>= next) := by
  intro machine text
  have hEcho := hNext machine machine text
  change next (machine.preceded text) (machine.preceded text) = preceded text (next machine machine)
  rw [← hEcho]
  exact congrFun (hSame machine _) _

theorem echoes_withStore (change : Store → α × Store) : Echoes (withStore change) :=
  fun _ _ => rfl

theorem echoes_changeStore (change : Store → Store) : Echoes (changeStore change) :=
  fun _ _ => rfl

theorem echoes_inScope (scope : Nat) {steps : Run α} (hSteps : Echoes steps) :
    Echoes (inScope scope steps) := by
  intro machine text
  have hEcho : steps { machine.preceded text with current := scope } =
      preceded text (steps { machine with current := scope }) :=
    hSteps { machine with current := scope } text
  unfold inScope
  rw [hEcho]
  cases steps { machine with current := scope } <;> rfl

/-- The new scope is the same one whatever has been printed. -/
theorem echoes_within (change : Nat → Store → Store) {steps : Run α} (hSteps : Echoes steps) :
    Echoes (within change steps) :=
  echoes_bind (echoes_look (fun _ _ => rfl) fun _ => echoes_withStore _) fun scope =>
    echoes_bind (echoes_changeStore _) fun _ => echoes_inScope scope hSteps

theorem echoes_declare (change : Nat → Store → Store) : Echoes (declare change) :=
  echoes_look (fun _ _ => rfl) fun _ => echoes_changeStore _

theorem echoes_parentClass (superclass : Option String) (token : Token) :
    Echoes (parentClass superclass token) := by
  unfold parentClass
  split
  · exact fun _ _ => rfl
  · split
    · exact fun _ _ => rfl
    · refine echoes_look (fun _ _ => rfl) fun machine => ?_
      split <;> exact fun _ _ => rfl

theorem echoes_blaming (name : String) (token : Token) {steps : Run Value}
    (hSteps : Echoes steps) : Echoes (blaming name token steps) := by
  intro machine text
  unfold blaming
  rw [hSteps machine text]
  cases steps machine with
  | ok value after => rfl
  | error fault after =>
      cases fault with
      | text failure => cases failure <;> rfl
      | _ => rfl

/-- The body of a constructor may end by a return without printing more. -/
theorem echoes_constructing (object : Nat) {body : Run Unit} (hBody : Echoes body) :
    Echoes (constructing object body) := by
  intro machine text
  unfold constructing
  rw [hBody machine text]
  cases body machine with
  | ok value after => rfl
  | error fault after => cases fault <;> rfl

/-- No step of a program depends on what has been printed. -/
theorem rules_echoes : Rules Echoes Echoes where
  pure _ := fun _ _ => rfl
  fault _ := fun _ _ => rfl
  bind := echoes_bind
  look := echoes_look
  print text machine before := by
    change EStateM.Result.ok () _ = EStateM.Result.ok () _
    unfold Machine.preceded Machine.print
    rw [String.append_assoc]
  addCell _ := echoes_withStore _
  setItem _ _ _ := echoes_changeStore _
  readField object name machine text := by
    unfold readField Machine.preceded
    cases machine.store.readField object name <;> rfl
  writeField object name value machine text := by
    unfold writeField Machine.preceded
    cases machine.store.writeField object name value <;> rfl
  createInstance _ := echoes_withStore _
  bindMethod _ _ := echoes_withStore _
  blaming name token _ hSteps := echoes_blaming name token hSteps
  enter bound object values body hBody := by
    refine echoes_look (fun _ _ => rfl) fun machine =>
      echoes_bind (echoes_withStore _) fun scope =>
      echoes_bind (echoes_changeStore _) fun _ => echoes_constructing object ?_
    exact echoes_inScope scope (hBody _)
  lift h := h
  returned _ := fun _ _ => rfl
  sequence := echoes_bind
  observe := echoes_look
  declareVariable _ _ _ := echoes_declare _
  declareFunction _ _ _ := echoes_declare _
  declareClass name superclass methods token _ hFields :=
    echoes_bind (echoes_parentClass superclass token) fun _ =>
      echoes_bind hFields fun _ => echoes_declare _
  block hSteps := echoes_within _ hSteps
  turn _ _ _ hSteps := echoes_within _ hSteps

theorem echoes_wrapped {steps : Run α} (hSteps : Echoes steps) : Echoes (wrapped steps) := by
  intro machine text
  unfold wrapped
  rw [hSteps machine text]
  cases steps machine <;> rfl

/-- What a program does and prints does not depend on what has been printed before. -/
theorem echoes_interpret (statements : List Stmt) : Echoes (interpret statements) :=
  echoes_wrapped (rules_echoes.executeAll _ _ statements)

/-- The machine that is left, apart from what it has printed, is settled by the machine
apart from what it has printed. -/
theorem Echoes.silent {steps : Run α} (h : Echoes steps) (machine : Machine) :
    (machineAfter (steps machine)).silent = (machineAfter (steps machine.silent)).silent := by
  have hEcho := h machine.silent machine.output
  rw [machine.preceded_silent] at hEcho
  rw [hEcho]
  cases steps machine.silent <;> rfl

end Run

end Mus
