import Mus.Proofs.Machine.Standpoint
import Mus.Proofs.Store.References

/-! Data. A variable that holds a function, a class, an object or an array could be
called or asked for its properties; data cannot. Tame expressions have no literal
that would introduce anything but data. On a machine that holds data only,
evaluating one leaves the machine as it is and yields data. So a call, and an
expression that reads or sets a property, always fails, and not for want of steps:
what it is applied to is no function, class, object or array. -/
namespace Mus

/-! ## Data -/

mutual

/-- Nothing, a truth value, a number, a text, or a list of expressions that are
not evaluated. -/
def Value.IsData : Value → Prop
  | .nothing | .bool _ | .int _ | .float _ | .str _ => True
  | .list (.cell _) => True
  | .list (.constant values) => Value.AllCode values
  | _ => False

def Value.IsCode : Value → Prop
  | .code e => e.Tame
  | _ => False

def Value.AllCode : List Value → Prop
  | [] => True
  | value :: rest => value.IsCode ∧ Value.AllCode rest

/-- The literals of the expression are data, and its names can be looked for. -/
def Expr.Tame : Expr → Prop
  | .base | .stray _ => True
  | .literal value _ => value.IsData
  | .variable _ token | .this token | .super _ token => token.keyFault? = none
  | .binary left _ right => left.Tame ∧ right.Tame
  | .unary _ right => right.Tame
  | .call callee arguments _ => callee.Tame ∧ Expr.AllTame arguments
  | .get object _ _ => object.Tame
  | .set object _ value _ => object.Tame ∧ value.Tame

def Expr.AllTame : List Expr → Prop
  | [] => True
  | e :: rest => e.Tame ∧ Expr.AllTame rest

end

/-- Every variable, in whatever scope, and every default of a field is data, and
the lists hold expressions only. -/
structure Store.HoldsData (store : Store) : Prop where
  bindings : ∀ scope ∈ store.scopes, ∀ entry ∈ scope.bindings, entry.2.2.IsData
  defaults : ∀ classDef ∈ store.classes, ∀ entry ∈ classDef.fields, entry.2.2.IsData
  cells : ∀ items ∈ store.cells, Value.AllCode items

/-- The store holds data, nothing is noted in the resolution table, and the
global scope is the first one. -/
structure Machine.Tame (machine : Machine) : Prop where
  store : machine.store.HoldsData
  locals : machine.locals = []
  globals : machine.globals = 0

/-! ## Scopes and arrays -/

/-- What is found from a scope on is found in one scope. -/
theorem exists_of_inScopes {α : Type} {store : Store} {find : Scope → Option α} {place : Nat}
    {entry : α} (h : store.inScopes find place = some entry) :
    ∃ found, find (store.scope found) = some entry := by
  fun_induction Store.inScopes store find place with
  | case1 place found hFound => exact ⟨place, hFound.trans h⟩
  | case2 place hNone parent hParent hLess ih => exact ih h
  | case3 => cases h
  | case4 => cases h

/-- There is nothing around the first scope. -/
theorem Store.inScopes_zero {α : Type} (store : Store) (find : Scope → Option α) :
    store.inScopes find 0 = find (store.scope 0) := by
  unfold inScopes
  cases find (store.scope 0) with
  | some entry => rfl
  | none => cases (store.scope 0).parent <;> rfl

/-- What an array holds after a change of one item is an old item or the changed one. -/
theorem mem_of_mem_modify {α : Type} {xs : Array α} {i : Nat} {f : α → α} {x : α}
    (h : x ∈ xs.modify i f) : x ∈ xs ∨ ∃ y ∈ xs, x = f y := by
  obtain ⟨j, hj⟩ := Array.mem_iff_getElem?.mp h
  rw [Array.getElem?_modify] at hj
  split at hj
  · obtain ⟨y, hy, rfl⟩ := Option.map_eq_some_iff.mp hj
    exact Or.inr ⟨y, Array.mem_iff_getElem?.mpr ⟨j, hy⟩, rfl⟩
  · exact Or.inl (Array.mem_iff_getElem?.mpr ⟨j, hj⟩)

/-- What is read from a scope and those around it is good, if all variables are. -/
theorem Store.good_readVariable {good : Value → Prop} {store : Store} (hNothing : good .nothing)
    (hBindings : ∀ scope ∈ store.scopes, ∀ entry ∈ scope.bindings, good entry.2.2)
    (place : Nat) (name : String) : good (store.readVariable place name) := by
  unfold Store.readVariable
  cases hFind : store.findVariable? place name with
  | none => exact hNothing
  | some value =>
      obtain ⟨found, hFound⟩ := exists_of_inScopes hFind
      obtain ⟨entry, hEntry, rfl⟩ := Option.map_eq_some_iff.mp hFound
      cases hPlace : store.scopes[found]? with
      | none =>
          rw [Store.scope, hPlace] at hEntry
          cases hEntry
      | some scope =>
          rw [Store.scope, hPlace] at hEntry
          exact hBindings scope (Array.mem_of_getElem? hPlace) _ (Table.mem_of_find? hEntry)

/-- Whatever scope a variable is read from, it is data. -/
theorem Store.HoldsData.readVariable {store : Store} (h : store.HoldsData) (place : Nat)
    (name : String) : (store.readVariable place name).IsData :=
  Store.good_readVariable trivial h.bindings place name

/-! ## Tame expressions -/

/-- What a tame call is applied to is tame. -/
theorem Expr.Tame.target {e target : Expr} (h : e.Tame) (hTarget : e.target? = some target) :
    target.Tame := by
  cases e with
  | call | set =>
      cases hTarget
      exact h.1
  | get =>
      cases hTarget
      exact h
  | _ => cases hTarget

theorem Value.IsScalar.isData {value : Value} (h : value.IsScalar) : value.IsData := by
  cases value with
  | nothing | bool | int | float | str => exact trivial
  | _ => exact absurd h id

/-- Data is no array, function, class or object. -/
theorem Value.IsData.inert {value : Value} (h : value.IsData) :
    (∀ items element, value ≠ .array items element) ∧ (∀ place, value ≠ .function place) ∧
      (∀ place, value ≠ .classDef place) ∧ ∀ place, value ≠ .object place := by
  cases value with
  | array | function | classDef | object => exact absurd h id
  | _ => exact ⟨nofun, nofun, nofun, nofun⟩

namespace Run

/-- Machines that are one and the same tame machine. -/
def SameTame (machine machine' : Machine) : Prop := machine = machine' ∧ machine.Tame

/-- Evaluating a tame expression on a tame machine is a look at it. -/
theorem views_tame : Views SameTame Value.IsData Expr.Tame where
  locals := by
    rintro machine _ ⟨rfl, hMachine⟩
    exact ⟨hMachine.locals, hMachine.locals⟩
  read := by
    rintro name machine _ ⟨rfl, hMachine⟩
    exact ⟨rfl, hMachine.store.readVariable _ _⟩
  shown := by
    rintro value _ machine _ ⟨rfl, -⟩
    rfl
  equal := by
    rintro a b _ _ machine _ ⟨rfl, -⟩
    rfl
  scalar := fun _ h => h.isData
  inert := fun _ h => h.inert
  literal := fun _ _ h => h
  binary := fun _ _ _ h => h
  unary := fun _ _ h => h
  target := fun _ _ h hTarget => h.target hTarget

/-- A call, and an expression that reads or sets a property, always fails. With a
bound that is ample for the expression it does not fail for want of steps. -/
theorem evaluate_target_fails (fuel room : Nat) {e target : Expr} (h : e.Tame)
    (hTarget : e.target? = some target) {machine : Machine} (hMachine : machine.Tame) :
    ∃ fault, evaluate fuel room e machine = .error fault machine ∧
      (e.size ≤ fuel → fault ≠ .outOfFuel) := by
  cases fuel with
  | zero =>
      unfold evaluate
      exact ⟨.outOfFuel, rfl, fun hAmple => absurd hAmple (Nat.not_le.mpr e.size_pos)⟩
  | succ fuel =>
      have hSize := Expr.size_target_lt hTarget
      have hLooks := views_tame.looks_evaluate fuel room (h.target hTarget)
      obtain ⟨outcome, hDecent, hRun, -⟩ :=
        views_tame.looks_target hTarget hLooks machine machine ⟨rfl, hMachine⟩
      cases outcome with
      | ok value => exact absurd hDecent id
      | error fault => exact ⟨fault, hRun, fun hAmple => hDecent (by omega)⟩

end Run

end Mus
