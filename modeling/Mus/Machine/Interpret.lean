import Mus.Machine.Eval
import Mus.Syntax.Size

/-! Running whole programs on a machine. -/
namespace Mus.Run

/-- The bound on chains of evaluations that a tree of some size is run with:
what the tree needs itself, and a large number of turns and constructors. -/
def stepBound (size : Nat) : Nat := 1000000000000 + size

/-- How many constructors may run within each other. The language sets no number: a host
counts the calls of its own that are open, of which each constructor takes several. So only
programs whose constructors call each other without end may depend on this one. -/
def constructorLimit : Nat := 400

def load {α : Type} (loading : Loading α) : Run α := withStore fun store => loading.run store

/-- A fault as a whole program reports it: complaints stay, all else becomes a
complaint at no token with the text of the fault. A fault without a text gives
way to the fault of its text. -/
def wrapFault (store : Store) : Fault → Fault
  | .runtime error => .runtime error
  | .outOfFuel => .outOfFuel
  | fault =>
      match fault.message store with
      | .ok text => .runtime ⟨.escaped text, .nowhere⟩
      | .error textFault => .text textFault

/-- Runs steps, with their fault as a whole program reports it. -/
def wrapped {α : Type} (steps : Run α) : Run α := fun machine =>
  match steps machine with
  | .ok result after => .ok result after
  | .error fault after => .error (wrapFault after.store fault) after

def interpret (statements : List Stmt) : Run Unit :=
  wrapped (executeAll (stepBound (Stmt.sizeAll statements)) constructorLimit statements)

def executeOne (stmt : Stmt) : Run Unit :=
  execute (stepBound stmt.size) constructorLimit stmt

def evaluateOne (e : Expr) : Run Value :=
  evaluate (stepBound e.size) constructorLimit e

end Mus.Run
