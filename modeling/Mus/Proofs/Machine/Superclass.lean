import Mus.Proofs.Machine.Fields
import Mus.Proofs.Machine.Looking

/-! The superclass. A method that is bound to an object finds, as `super`, the class that
the class of the object extends, whichever class of the line the method comes from. What it
finds is the class itself, while a method of the superclass is looked up by a name, so that
the look-up fails. -/
namespace Mus

/-! ## Which class `super` is -/

def Scope.super? (scope : Scope) : Option Value := (scope.bindings.find? "super").map Prod.snd

/-- A scope for an object declares what the class of the object extends. -/
theorem Store.super?_of_self {store : Store} {scope : Scope} {classPlace object : Nat}
    (h : scope.bindings = store.selfBindings classPlace object) :
    scope.super? = (store.classParent classPlace).map .classDef := by
  rw [Scope.super?, h, find?_selfBindings_super, Option.map_map]
  rfl

/-- Of the classes of a line only the first one extends what the first one extends. -/
theorem Store.Lineage.classParent_eq_iff {store : Store} {classPlace root owner : Nat}
    {line : List Nat} (h : store.Lineage classPlace line root) (hOwner : owner ∈ line) :
    store.classParent classPlace = store.classParent owner ↔ owner = classPlace := by
  constructor
  · intro hSame
    cases h.ancestry with
    | root => exact List.mem_singleton.mp hOwner
    | step hParent hAbove =>
        rcases List.mem_cons.mp hOwner with rfl | hHigher
        · rfl
        · have hBelow := h.older.le_of_mem hAbove hHigher
          have hAgain := h.older owner _ (hSame.symm.trans hParent)
          omega
  · rintro rfl
    rfl

/-- A bound method has as `super` what the class of the object extends. That is what the
class extends that the method comes from only if the object is of this very class. A method
that comes from the class above has this class as `super`, where it is found again. -/
theorem Machine.bound_super_iff_own {machine : Machine} {object root owner method : Nat}
    {line : List Nat} {name : String}
    (hLine : machine.store.Lineage (machine.store.object object).classDef line root)
    (hField : (machine.store.object object).fields.find? name = none)
    (hNearest : Nearest line (fun place => (machine.store.classDef place).methods.find? name)
      owner method) :
    ∃ bound scope after,
      Run.readField object name machine = .ok (.function bound) { machine with store := after } ∧
      machine.store.Binds after method object bound scope ∧
      (after.scope scope).super? =
        (machine.store.classParent (machine.store.object object).classDef).map .classDef ∧
      ((after.scope scope).super? = (machine.store.classParent owner).map .classDef ↔
        owner = (machine.store.object object).classDef) ∧
      (machine.store.classParent (machine.store.object object).classDef = some owner →
        (after.scope scope).super? = some (.classDef owner) ∧
        after.method? owner name = some method) := by
  have hMethod : machine.store.method? (machine.store.object object).classDef name =
      some method := by
    rw [hLine.method?_eq]
    exact findSome?_eq_some_iff_nearest.mpr ⟨owner, hNearest⟩
  have hSuper : ((machine.store.bind method object).2.scope machine.store.scopes.size).super? =
      (machine.store.classParent (machine.store.object object).classDef).map .classDef := by
    rw [Store.scope_bind_new]
    exact Store.super?_of_self rfl
  refine ⟨_, _, _, Run.readField_of_method hField hMethod, machine.store.binds_bind method object,
    hSuper, ?_, ?_⟩
  · rw [hSuper, ← hLine.classParent_eq_iff hNearest.mem]
    exact (Option.map_injective fun _ _ => Value.classDef.inj).eq_iff
  · intro hExtends
    have hFound : (machine.store.classDef owner).methods.find? name = some method :=
      hNearest.find_eq
    refine ⟨by rw [hSuper, hExtends]; rfl, ?_⟩
    rw [Store.method?_of_classes (machine.store.classes_bind method object), Store.method?, hFound]

/-- The method of the first class is bound to an object of the third one: it has the second
class as `super`, though the first one extends none. -/
theorem Machine.bound_super_iff_own_relative :
    relative.store.classParent 0 = none ∧ ∃ bound scope after,
      Run.readField 0 "m" relative = .ok (.function bound) { relative with store := after } ∧
      relative.store.Binds after 2 0 bound scope ∧
      (after.scope scope).super? = some (.classDef 1) := by
  have hField : (relative.store.object 0).fields.find? "m" = none :=
    Table.has_eq_false.mp (by decide +kernel)
  have hNearest : Nearest [2, 1, 0]
      (fun place => (relative.store.classDef place).methods.find? "m") 0 2 :=
    ⟨[2, 1], [], rfl, by decide +kernel, by decide +kernel⟩
  have hParent : relative.store.classParent (relative.store.object 0).classDef = some 1 := by
    decide +kernel
  obtain ⟨bound, scope, after, hRead, hBinds, hSuper, -⟩ :=
    bound_super_iff_own relative_lineage hField hNearest
  rw [hParent] at hSuper
  exact ⟨by decide +kernel, bound, scope, after, hRead, hBinds, hSuper⟩

/-! ## Looking up a method of the superclass -/

/-- What the current scope declares as `super` is what is found. -/
theorem Store.findVariable?_of_super? {store : Store} {place : Nat} {value : Value}
    (h : (store.scope place).super? = some value) :
    store.findVariable? place "super" = some value :=
  inScopes_of_some h

namespace Run

variable {machine : Machine} {method : String} {token : Token} {distance : Int}

theorem readVariable_super {key : Value}
    (h : machine.store.findVariable? machine.current "super" = some key) :
    machine.store.readVariable machine.current "super" = key := by
  simp [Store.readVariable, h]

/-- A class is no name of a class. -/
theorem superclass?_of_classDef {parent : Nat}
    (h : machine.store.findVariable? machine.current "super" = some (.classDef parent)) :
    superclass? machine = .error (.unhashable "MusClass") machine := by
  have hGet : (get : Run Machine) machine = .ok machine machine := rfl
  unfold superclass?
  rw [bind_ok hGet, readVariable_super h]
  rfl

/-- The name that `super` is bound to is looked up as a class from the current scope. -/
theorem superclass?_of_name {name : String}
    (h : machine.store.findVariable? machine.current "super" = some (.str name)) :
    superclass? machine = .ok (machine.store.class? machine.current name) machine := by
  have hGet : (get : Run Machine) machine = .ok machine machine := rfl
  unfold superclass?
  rw [bind_ok hGet, readVariable_super h]
  rfl

/-- What the resolution table has first is found in it. -/
theorem distance?_of_head {e key : Expr} {rest : List (Expr × Int)} (hKey : e.keyFault? = none)
    (hLocals : machine.locals = (key, distance) :: rest)
    (hEqual : (machine.store.equalExpr Store.depthLimit key e == some true) = true) :
    distance? e machine = .ok (some distance) machine := by
  have hGet : (get : Run Machine) machine = .ok machine machine := rfl
  have hFind : (machine.locals.find? fun entry =>
      machine.store.equalExpr Store.depthLimit entry.1 e == some true) = some (key, distance) := by
    rw [hLocals]
    exact List.find?_cons_of_pos hEqual
  unfold distance?
  rw [hKey]
  refine (bind_ok hGet).trans ?_
  rw [hFind]
  rfl

/-- The node is looked for in the resolution table, then the class, then its method. -/
theorem evaluate_super_of_error {fault : Fault}
    (hNoted : distance? (.super method token) machine = .ok (some distance) machine)
    (hClass : superclass? machine = .error fault machine) (fuel room : Nat) :
    evaluate (fuel + 1) room (.super method token) machine = .error fault machine := by
  rw [evaluate, superMethod]
  refine (bind_ok hNoted).trans ?_
  exact bind_error hClass

/-- With a note and a superclass, an expression with `super` ends with the method of the superclass,
or with a complaint that there is none. -/
theorem evaluate_super_of_ok {classPlace : Nat}
    (hNoted : distance? (.super method token) machine = .ok (some distance) machine)
    (hClass : superclass? machine = .ok (some classPlace) machine) (fuel room : Nat) :
    (∀ found, machine.store.method? classPlace method = some found →
      evaluate (fuel + 1) room (.super method token) machine = .ok (.function found) machine) ∧
    (machine.store.method? classPlace method = none →
      evaluate (fuel + 1) room (.super method token) machine =
        .error (.runtime ⟨.methodMissing method, token⟩) machine) := by
  have hGet : (get : Run Machine) machine = .ok machine machine := rfl
  rw [evaluate, superMethod]
  constructor
  · intro found hFound
    refine (bind_ok hNoted).trans ((bind_ok hClass).trans ((bind_ok hGet).trans ?_))
    rw [hFound]
    rfl
  · intro hNone
    refine (bind_ok hNoted).trans ((bind_ok hClass).trans ((bind_ok hGet).trans ?_))
    rw [hNone]
    rfl

end Run

/-- No method of a superclass is ever found. Binding a method to an object and creating an
object declare `super` as the class that the class of the object extends; from any scope
that sees this declaration, evaluating a method of `super` fails since a class cannot be the
name of a class, whether the class has the method or not. Only where `super` is the name of
a class that is found is the method that of this class or of the nearest ancestor that has
it, or else missing. -/
theorem Run.super_method_unreached {machine : Machine} {method : String} {token : Token}
    {distance : Int} {parent : Nat}
    (hNoted : distance? (.super method token) machine = .ok (some distance) machine)
    (hSuper : machine.store.findVariable? machine.current "super" = some (.classDef parent))
    (fuel room : Nat) :
    evaluate (fuel + 1) room (.super method token) machine =
      .error (.unhashable "MusClass") machine ∧
    (∀ (store : Store) (function object above : Nat),
      store.classParent (store.object object).classDef = some above →
      ((store.bind function object).2.function store.functions.size).closure =
        some store.scopes.size ∧
      (store.bind function object).2.findVariable? store.scopes.size "super" =
        some (.classDef above)) ∧
    (∀ (store : Store) (classPlace above : Nat), store.classParent classPlace = some above →
      ((store.createInstance classPlace).2.object store.objects.size).scope =
        some store.scopes.size ∧
      (store.createInstance classPlace).2.findVariable? store.scopes.size "super" =
        some (.classDef above)) ∧
    ∀ (named : Machine) (name : String) (classPlace : Nat),
      distance? (.super method token) named = .ok (some distance) named →
      named.store.findVariable? named.current "super" = some (.str name) →
      named.store.class? named.current name = some classPlace →
      (∀ found, named.store.method? classPlace method = some found →
        evaluate (fuel + 1) room (.super method token) named = .ok (.function found) named) ∧
      (named.store.method? classPlace method = none →
        evaluate (fuel + 1) room (.super method token) named =
          .error (.runtime ⟨.methodMissing method, token⟩) named) := by
  refine ⟨evaluate_super_of_error hNoted (superclass?_of_classDef hSuper) fuel room, ?_, ?_, ?_⟩
  · intro store function object above hAbove
    refine ⟨?_, Store.findVariable?_of_super? ?_⟩
    · rw [Store.function_bind_new]
      rfl
    · rw [Store.scope_bind_new, Store.super?_of_self rfl, hAbove]
      rfl
  · intro store classPlace above hAbove
    obtain ⟨hOwn, hScope⟩ := store.scope_createInstance classPlace
    refine ⟨hOwn, Store.findVariable?_of_super? ?_⟩
    rw [hScope, Store.super?_of_self rfl, hAbove]
    rfl
  · intro named name classPlace hAgain hName hFound
    apply evaluate_super_of_ok hAgain
    rw [superclass?_of_name hName, hFound]

/-- The machine in the scope of the method `m` of the first class, bound to the object of
the third one, with `super.m` in its resolution table. -/
def Machine.inMethod : Machine :=
  { relative with
    store := (relative.store.bind 2 0).2
    current := relative.store.scopes.size
    locals := [(.super "m" .nowhere, 0)] }

/-- In the method of the sample, `super` is bound to a class and not to the name of one. A class
cannot be looked up as a name, so that evaluating `super.m` fails although that class has the
method. -/
theorem Run.super_method_unreached_inMethod :
    distance? (.super "m" .nowhere) Machine.inMethod = .ok (some 0) Machine.inMethod ∧
    Machine.inMethod.store.findVariable? Machine.inMethod.current "super" = some (.classDef 1) ∧
    Machine.inMethod.store.method? 1 "m" = some 2 ∧
    evaluate 1 0 (.super "m" .nowhere) Machine.inMethod =
      .error (.unhashable "MusClass") Machine.inMethod := by
  have hEqual : (Machine.inMethod.store.equalExpr Store.depthLimit (.super "m" .nowhere)
      (.super "m" .nowhere) == some true) = true := by decide +kernel
  have hNoted : distance? (.super "m" .nowhere) Machine.inMethod =
      .ok (some 0) Machine.inMethod :=
    distance?_of_head rfl rfl hEqual
  have hParent : Machine.relative.store.classParent
      (Machine.relative.store.object 0).classDef = some 1 := by decide +kernel
  have hSuper : Machine.inMethod.store.findVariable? Machine.inMethod.current "super" =
      some (.classDef 1) := by
    apply Store.findVariable?_of_super?
    rw [Machine.inMethod, Store.scope_bind_new, Store.super?_of_self rfl, hParent]
    rfl
  exact ⟨hNoted, hSuper, by decide +kernel, (super_method_unreached hNoted hSuper 0 0).1⟩

end Mus
