import Mus.Store.Scope

/-! Classes and objects. A class looks for what it does not have in its parent,
which is older. -/
namespace Mus.Store

/-- The method of a class or of the nearest ancestor that has one. -/
def method? (store : Store) (place : Nat) (name : String) : Option Nat :=
  match (store.classDef place).methods.find? name with
  | some method => some method
  | none =>
      match (store.classDef place).parent with
      | some parent => if parent < place then store.method? parent name else none
      | none => none
termination_by place

/-- Does a class or one of its ancestors declare a field? -/
def declares (store : Store) (place : Nat) (name : String) : Bool :=
  (store.classDef place).fields.has name ||
    match (store.classDef place).parent with
    | some parent => if parent < place then store.declares parent name else false
    | none => false
termination_by place

/-- The oldest ancestor of a class. -/
def rootClass (store : Store) (place : Nat) : Nat :=
  match (store.classDef place).parent with
  | some parent => if parent < place then store.rootClass parent else place
  | none => place
termination_by place

/-- Declares `this` and, where the class has a parent, `super` for an object. -/
def defineSelf (store : Store) (scope object : Nat) : Store :=
  let classDef := store.classDef (store.object object).classDef
  let store := store.defineVariable scope "this" (some classDef.name) (.object object)
  match classDef.parent with
  | some parent =>
      store.defineVariable scope "super" (some (store.classDef parent).name) (.classDef parent)
  | none => store

/-- The function with a new scope around it in which the object is `this`. -/
def bind (store : Store) (function object : Nat) : Nat × Store :=
  let unbound := store.function function
  let (scope, store) := store.addScope { parent := unbound.closure }
  let store := store.defineSelf scope object
  store.addFunction ⟨unbound.name, unbound.params, unbound.body, some scope, none⟩

/-- A new object of a class: its own fields have their defaults, and its
constructor, if the class has one, is bound to it. -/
def createInstance (store : Store) (classPlace : Nat) : Nat × Store :=
  let classDef := store.classDef classPlace
  let fields : Table Value := classDef.fields.foldl
    (fun fields field => fields.insert field.1 field.2.2) []
  let (object, store) := store.addObject ⟨classPlace, fields, none⟩
  let (scope, store) := store.addScope { parent := classDef.scope }
  let store := store.changeObject object fun o => { o with scope := some scope }
  let store := store.defineSelf scope object
  match store.method? classPlace "init" with
  | some init =>
      let (bound, store) := store.bind init object
      (object, store.changeObject object fun o =>
        { o with fields := o.fields.insert "init" (.function bound) })
  | none => (object, store)

/-- What reading a field of an object yields: the field, or else the method of
that name bound to the object. None where it has neither. -/
def readField (store : Store) (object : Nat) (name : String) : Option (Value × Store) :=
  match (store.object object).fields.find? name with
  | some value => some (value, store)
  | none =>
      match store.method? (store.object object).classDef name with
      | some method =>
          let (bound, store) := store.bind method object
          some (.function bound, store)
      | none => none

/-- Writes a field of an object. What the object has or its class declares is
repeated in the object's scope; what only an ancestor declares is not. None
where no one declares the field. -/
def writeField (store : Store) (object : Nat) (name : String) (value : Value) : Option Store :=
  let target := store.object object
  let classDef := store.classDef target.classDef
  let written := store.changeObject object fun o => { o with fields := o.fields.insert name value }
  if classDef.fields.has name || target.fields.has name then
    match target.scope with
    | some scope =>
        some (written.defineVariable scope name ((classDef.fields.find? name).map Prod.fst) value)
    | none => some written
  else if store.declares target.classDef name then some written
  else none

end Mus.Store
