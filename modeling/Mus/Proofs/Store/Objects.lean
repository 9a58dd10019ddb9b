import Mus.Proofs.Store.Ancestry

/-! Objects, exactly. Binding a method to an object adds a scope and a function and changes
nothing. Creating an object adds it with a scope of its own and binds its constructor. Both
scopes declare the same: the object as `this` and the class that its class extends as
`super`. Writing a field changes the object and at most its scope, and it does not matter
whether a method is bound before or after that. -/
namespace Mus

/-! ## Tables -/

namespace Table

variable {α : Type}

theorem has_eq_false {table : Table α} {name : String} :
    table.has name = false ↔ table.find? name = none := by
  simp [has]

theorem has_eq_true {table : Table α} {name : String} :
    table.has name = true ↔ ∃ entry, table.find? name = some entry := by
  simp [has, Option.isSome_iff_exists]

theorem find?_eq_none_of_notMem {table : Table α} {name : String} (h : name ∉ table.names) :
    table.find? name = none := by
  induction table with
  | nil => rfl
  | cons head rest ih =>
      obtain ⟨key, entry⟩ := head
      simp only [names, List.map_cons, List.mem_cons, not_or] at h
      rw [find?_cons, if_neg h.1]
      exact ih h.2

end Table

def ClassDef.defaults (classDef : ClassDef) : Table Value :=
  classDef.fields.foldl (fun fields field => fields.insert field.1 field.2.2) []

/-- What is entered field by field is found, and what was there before where no field
has the name. -/
theorem Table.find?_foldl_insert {fields : Table (String × Value)} (h : fields.names.Nodup)
    (table : Table Value) (name : String) :
    Table.find? (fields.foldl (fun table field => table.insert field.1 field.2.2) table) name =
      ((fields.find? name).map Prod.snd).or (table.find? name) := by
  induction fields generalizing table with
  | nil => rfl
  | cons head rest ih =>
      obtain ⟨key, type, default⟩ := head
      simp only [names, List.map_cons, List.nodup_cons] at h
      rw [List.foldl_cons, ih h.2, find?_cons]
      by_cases hName : name = key
      · subst hName
        simp [find?_eq_none_of_notMem h.1]
      · simp [hName, find?_insert_of_ne hName]

/-- An object starts each field with the default of its class, if no two fields share a name. -/
theorem ClassDef.find?_defaults {classDef : ClassDef} (h : classDef.fields.names.Nodup)
    (name : String) :
    classDef.defaults.find? name = (classDef.fields.find? name).map Prod.snd := by
  simp [defaults, Table.find?_foldl_insert h]

/-! ## The line of a class -/

/-- The first place of a line at which something is found, with what is found there. -/
def Nearest {α : Type} (line : List Nat) (find : Nat → Option α) (place : Nat) (entry : α) :
    Prop :=
  ∃ below above, line = below ++ place :: above ∧ find place = some entry ∧
    ∀ other ∈ below, find other = none

/-- The first thing that is found along a line is found at the nearest place. -/
theorem findSome?_eq_some_iff_nearest {α : Type} {line : List Nat} {find : Nat → Option α}
    {entry : α} : line.findSome? find = some entry ↔ ∃ place, Nearest line find place entry := by
  rw [List.findSome?_eq_some_iff]
  constructor
  · rintro ⟨below, place, above, rfl, hPlace, hBelow⟩
    exact ⟨place, below, above, rfl, hPlace, hBelow⟩
  · rintro ⟨place, below, above, rfl, hPlace, hBelow⟩
    exact ⟨below, place, above, rfl, hPlace, hBelow⟩

namespace Nearest

variable {α : Type} {line : List Nat} {find : Nat → Option α} {place : Nat} {entry : α}

theorem mem (h : Nearest line find place entry) : place ∈ line := by
  obtain ⟨below, above, rfl, -, -⟩ := h
  simp

theorem find_eq (h : Nearest line find place entry) : find place = some entry := by
  obtain ⟨-, -, -, hPlace, -⟩ := h
  exact hPlace

/-- What the first place of the line has is found there. -/
theorem eq_head {first : Nat} {rest : List Nat} {own : α}
    (h : Nearest (first :: rest) find place entry) (hOwn : find first = some own) :
    place = first := by
  obtain ⟨below, above, hLine, -, hBelow⟩ := h
  cases below with
  | nil => exact (List.cons.inj hLine).1.symm
  | cons other below =>
      obtain ⟨rfl, -⟩ := List.cons.inj hLine
      rw [hBelow first (List.mem_cons_self ..)] at hOwn
      cases hOwn

end Nearest

namespace Store

variable {store : Store}

/-- The line of a class from itself to the root, in a store in which parents are older. -/
structure Lineage (store : Store) (classPlace : Nat) (line : List Nat) (root : Nat) : Prop where
  older : Older store.classParent
  ancestry : Ancestry store.classParent classPlace line
  root : line.getLast? = some root

/-! Look-ups of methods and of declared fields depend on nothing but the classes. -/

section

variable {after : Store} (h : after.classes = store.classes)

include h

theorem classDef_of_classes (place : Nat) : after.classDef place = store.classDef place := by
  simp [classDef, h]

theorem classParent_of_classes : after.classParent = store.classParent := by
  funext place
  simp [classParent, classDef_of_classes h]

/-- Methods depend on the classes alone. -/
theorem method?_of_classes (place : Nat) (name : String) :
    after.method? place name = store.method? place name := by
  fun_induction method? store place name with
  | case1 place method hMethod => rw [method?, classDef_of_classes h, hMethod]
  | case2 place hMethod parent hParent hOlder ih =>
      rw [method?, classDef_of_classes h, hMethod, hParent]
      simpa [hOlder] using ih
  | case3 place hMethod parent hParent hOlder =>
      rw [method?, classDef_of_classes h, hMethod, hParent]
      simp [hOlder]
  | case4 place hMethod hParent => rw [method?, classDef_of_classes h, hMethod, hParent]

/-- The line of a class depends on the classes alone. -/
theorem Lineage.of_classes {classPlace root : Nat} {line : List Nat}
    (hLine : store.Lineage classPlace line root) : after.Lineage classPlace line root := by
  constructor
  · rw [classParent_of_classes h]
    exact hLine.older
  · rw [classParent_of_classes h]
    exact hLine.ancestry
  · exact hLine.root

end

namespace Lineage

variable {classPlace root : Nat} {line : List Nat} (h : store.Lineage classPlace line root)

include h

theorem eq_cons : ∃ above, line = classPlace :: above := by
  cases h.ancestry with
  | root => exact ⟨[], rfl⟩
  | step => exact ⟨_, rfl⟩

/-- The root of a line is the oldest ancestor. -/
theorem rootClass_eq : store.rootClass classPlace = root :=
  Option.some.inj ((getLast?_eq_rootClass h.older h.ancestry).symm.trans h.root)

/-- A method is looked up along the line. -/
theorem method?_eq (name : String) : store.method? classPlace name =
    line.findSome? fun place => (store.classDef place).methods.find? name :=
  method?_eq_findSome? h.older name h.ancestry

/-- A field is declared if some class on the line has it. -/
theorem declares_eq_true {name : String} : store.declares classPlace name = true ↔
    ∃ place ∈ line, (store.classDef place).fields.has name = true := by
  rw [declares_eq_any h.older name h.ancestry, List.any_eq_true]

end Lineage

end Store

/-! ## Changes of what has just been added -/

/-- A change of the last item can be made before it is added. -/
theorem modify_push_size {α : Type} (xs : Array α) (x : α) (change : α → α) :
    (xs.push x).modify xs.size change = xs.push (change x) := by
  apply Array.ext_getElem?
  intro i
  simp only [Array.getElem?_modify, Array.getElem?_push]
  by_cases h : i = xs.size
  · simp [h]
  · simp [h, Ne.symm h]

/-- A change of an earlier item can be made before another one is added. -/
theorem modify_push_of_lt {α : Type} {xs : Array α} {i : Nat} (h : i < xs.size) (x : α)
    (change : α → α) : (xs.push x).modify i change = (xs.modify i change).push x := by
  apply Array.ext_getElem?
  intro j
  simp only [Array.getElem?_modify, Array.getElem?_push, Array.size_modify]
  by_cases hEnd : j = xs.size
  · simp [hEnd, Nat.ne_of_lt h]
  · simp [hEnd]

namespace Store

variable (store : Store)

/-- A change of a new scope can be made before it is added. -/
@[simp]
theorem changeScope_addScope (scope : Scope) (change : Scope → Scope) :
    (store.addScope scope).2.changeScope store.scopes.size change =
      (store.addScope (change scope)).2 := by
  simp [addScope, changeScope, modify_push_size]

@[simp]
theorem changeObject_addObject (object : Object) (change : Object → Object) :
    (store.addObject object).2.changeObject store.objects.size change =
      (store.addObject (change object)).2 := by
  simp [addObject, changeObject, modify_push_size]

/-- An object is changed in the same way before and after a scope is added. -/
theorem changeObject_addScope (scope : Scope) (place : Nat) (change : Object → Object) :
    (store.addScope scope).2.changeObject place change =
      ((store.changeObject place change).addScope scope).2 := rfl

/-! ## The object itself -/

/-- What a scope for an object of a class declares: the object as `this` and, where the
class extends another one, that as `super`. -/
def selfBindings (classPlace object : Nat) : Table (Option String × Value) :=
  ("this", some (store.classDef classPlace).name, .object object) ::
    ((store.classParent classPlace).map fun parent =>
      ("super", some (store.classDef parent).name, .classDef parent)).toList

theorem find?_selfBindings_this (classPlace object : Nat) :
    (store.selfBindings classPlace object).find? "this" =
      some (some (store.classDef classPlace).name, .object object) := by
  simp [selfBindings, Table.find?_cons]

/-- For an object of a class that extends none, `super` is not declared. -/
theorem find?_selfBindings_super (classPlace object : Nat) :
    (store.selfBindings classPlace object).find? "super" =
      (store.classParent classPlace).map fun parent =>
        (some (store.classDef parent).name, .classDef parent) := by
  cases h : store.classParent classPlace with
  | none => simp [selfBindings, h, Table.find?_cons]
  | some parent => simp [selfBindings, h, Table.find?_cons]

/-- A variable of a new scope can be declared before the scope is added. -/
@[simp]
theorem defineVariable_addScope (scope : Scope) (name : String) (type : Option String)
    (value : Value) :
    (store.addScope scope).2.defineVariable store.scopes.size name type value =
      (store.addScope { scope with bindings := scope.bindings.insert name (type, value) }).2 :=
  store.changeScope_addScope scope _

/-- The object is declared in a scope that has just been added and has no variables. -/
theorem defineSelf_addScope (parent : Option Nat) (object : Nat) :
    (store.addScope { parent := parent }).2.defineSelf store.scopes.size object =
      (store.addScope
        { parent := parent
          bindings := store.selfBindings (store.object object).classDef object }).2 := by
  have hClass (scope : Scope) (place : Nat) :
      (store.addScope scope).2.classDef place = store.classDef place := rfl
  have hObject (scope : Scope) : (store.addScope scope).2.object object = store.object object := rfl
  cases h : (store.classDef (store.object object).classDef).parent with
  | none => simp [defineSelf, selfBindings, classParent, hClass, hObject, h, Table.insert]
  | some above => simp [defineSelf, selfBindings, classParent, hClass, hObject, h, Table.insert]

def objectScope (classPlace object : Nat) : Scope :=
  { parent := (store.classDef classPlace).scope
    bindings := store.selfBindings classPlace object }

/-- The scope of a function that is bound to an object, inside its closure. -/
def boundScope (function object : Nat) : Scope :=
  { parent := (store.function function).closure
    bindings := store.selfBindings (store.object object).classDef object }

def boundFunction (function : Nat) : Function :=
  { store.function function with closure := some store.scopes.size, builtin := none }

/-- Binding adds a scope and a function and changes nothing. -/
theorem bind_eq (function object : Nat) :
    store.bind function object =
      (store.addScope (store.boundScope function object)).2.addFunction
        (store.boundFunction function) := by
  have hScope := store.defineSelf_addScope (store.function function).closure object
  unfold bind boundScope
  dsimp only
  rw [← hScope]
  rfl

theorem fst_bind (function object : Nat) :
    (store.bind function object).1 = store.functions.size := by
  rw [bind_eq]
  rfl

/-- Binding adds one function and leaves the others. -/
theorem function_bind (function object place : Nat) :
    (store.bind function object).2.function place =
      if place = store.functions.size then store.boundFunction function
      else store.function place := by
  rw [bind_eq, function_addFunction]
  rfl

@[simp]
theorem function_bind_new (function object : Nat) :
    (store.bind function object).2.function store.functions.size =
      store.boundFunction function := by
  rw [function_bind, if_pos rfl]

/-- Binding adds one scope and leaves the others. -/
theorem scope_bind (function object place : Nat) :
    (store.bind function object).2.scope place =
      if place = store.scopes.size then store.boundScope function object
      else store.scope place := by
  rw [bind_eq]
  exact store.scope_addScope _ place

@[simp]
theorem scope_bind_new (function object : Nat) :
    (store.bind function object).2.scope store.scopes.size = store.boundScope function object := by
  rw [scope_bind, if_pos rfl]

@[simp]
theorem classes_bind (function object : Nat) :
    (store.bind function object).2.classes = store.classes := by
  rw [bind_eq]
  rfl

@[simp]
theorem objects_bind (function object : Nat) :
    (store.bind function object).2.objects = store.objects := by
  rw [bind_eq]
  rfl

/-- Binding leaves all objects as they are. -/
@[simp]
theorem object_bind (function object other : Nat) :
    (store.bind function object).2.object other = store.object other := by
  simp [Store.object]

/-- A new object has the defaults of its class and a scope of its own, inside that of the
class. -/
theorem newborn_eq (classPlace : Nat) :
    store.newborn classPlace =
      ((store.addObject
        ⟨classPlace, (store.classDef classPlace).defaults, some store.scopes.size⟩).2.addScope
        (store.objectScope classPlace store.objects.size)).2 := by
  have hSelf := (store.addObject ⟨classPlace, (store.classDef classPlace).defaults,
    some store.scopes.size⟩).2.defineSelf_addScope (store.classDef classPlace).scope
      store.objects.size
  rw [object_addObject, if_pos rfl] at hSelf
  refine Eq.trans ?_ hSelf
  unfold newborn
  dsimp only
  rw [← changeObject_addObject store ⟨classPlace, _, none⟩ fun o =>
    { o with scope := some store.scopes.size }, ← changeObject_addScope]
  rfl

/-! ## New objects -/

theorem classes_newborn (classPlace : Nat) :
    (store.newborn classPlace).classes = store.classes := by
  rw [newborn_eq]
  rfl

/-- A new object has the defaults of its class as fields and the new scope as its own. -/
theorem object_newborn (classPlace : Nat) :
    (store.newborn classPlace).object store.objects.size =
      ⟨classPlace, (store.classDef classPlace).defaults, some store.scopes.size⟩ := by
  have hObject := store.object_addObject
    ⟨classPlace, (store.classDef classPlace).defaults, some store.scopes.size⟩ store.objects.size
  rw [if_pos rfl] at hObject
  rw [newborn_eq]
  exact hObject

/-- The scope of a new object declares what stands for the object itself. -/
theorem scope_newborn (classPlace : Nat) :
    (store.newborn classPlace).scope store.scopes.size =
      store.objectScope classPlace store.objects.size := by
  rw [newborn_eq, scope_addScope]
  exact if_pos rfl

theorem size_newborn (classPlace : Nat) :
    (store.newborn classPlace).objects.size = store.objects.size + 1 ∧
    (store.newborn classPlace).scopes.size = store.scopes.size + 1 := by
  rw [newborn_eq]
  simp [addObject, addScope]

variable {store} {classPlace init : Nat}

/-- The constructor is bound to the new object and becomes one of its fields. -/
theorem snd_createInstance_of_init
    (h : (store.newborn classPlace).method? classPlace "init" = some init) :
    (store.createInstance classPlace).2 =
      ((store.newborn classPlace).bind init store.objects.size).2.changeObject store.objects.size
        fun o => { o with
          fields := o.fields.insert "init"
            (.function (store.newborn classPlace).functions.size) } := by
  cases hBind : (store.newborn classPlace).bind init store.objects.size with
  | mk bound ready =>
      have hBound : (store.newborn classPlace).functions.size = bound := by
        rw [← fst_bind _ init store.objects.size, hBind]
      rw [createInstance_of_init h hBind, hBound]

/-- The bound constructor is a field of the new object. -/
theorem object_createInstance_of_init
    (h : (store.newborn classPlace).method? classPlace "init" = some init) :
    (store.createInstance classPlace).2.object store.objects.size =
      ⟨classPlace, (store.classDef classPlace).defaults.insert "init"
        (.function (store.newborn classPlace).functions.size), some store.scopes.size⟩ := by
  have hThere : store.objects.size <
      ((store.newborn classPlace).bind init store.objects.size).2.objects.size := by
    simp [size_newborn]
  rw [snd_createInstance_of_init h, object_changeObject_of_lt hThere, if_pos rfl, object_bind,
    object_newborn]

variable (store)

theorem classes_createInstance (classPlace : Nat) :
    (store.createInstance classPlace).2.classes = store.classes := by
  cases hInit : (store.newborn classPlace).method? classPlace "init" with
  | none => rw [createInstance_of_none hInit, classes_newborn]
  | some init =>
      rw [snd_createInstance_of_init hInit]
      exact (classes_bind _ init _).trans (store.classes_newborn classPlace)

/-- A new object has a field that is no method by the default of its own class. -/
theorem find?_createInstance {name : String} (h : store.method? classPlace name = none) :
    ((store.createInstance classPlace).2.object store.objects.size).fields.find? name =
      (store.classDef classPlace).defaults.find? name := by
  cases hInit : (store.newborn classPlace).method? classPlace "init" with
  | none => rw [createInstance_of_none hInit, object_newborn]
  | some init =>
      have hName : name ≠ "init" := by
        rintro rfl
        rw [method?_of_classes (store.classes_newborn classPlace), h] at hInit
        cases hInit
      rw [object_createInstance_of_init hInit]
      exact Table.find?_insert_of_ne hName _ _

/-- The scope of a new object is the one that has been added with it. -/
theorem scope_createInstance (classPlace : Nat) :
    ((store.createInstance classPlace).2.object store.objects.size).scope =
      some store.scopes.size ∧
    (store.createInstance classPlace).2.scope store.scopes.size =
      store.objectScope classPlace store.objects.size := by
  cases hInit : (store.newborn classPlace).method? classPlace "init" with
  | none =>
      rw [createInstance_of_none hInit, object_newborn, scope_newborn]
      exact ⟨rfl, rfl⟩
  | some init =>
      have hOld : store.scopes.size ≠ (store.newborn classPlace).scopes.size := by
        simp [size_newborn]
      have hScope := (store.newborn classPlace).scope_bind init store.objects.size store.scopes.size
      rw [if_neg hOld, scope_newborn] at hScope
      rw [object_createInstance_of_init hInit, snd_createInstance_of_init hInit]
      exact ⟨rfl, hScope⟩

/-! ## Fields that are written -/

/-- The scope in which writing a field repeats it: that of the object, where the object has
the field or its own class declares it. -/
def repeatedIn? (object : Nat) (name : String) : Option Nat :=
  if (store.classDef (store.object object).classDef).fields.has name ||
      (store.object object).fields.has name then (store.object object).scope
  else none

def withField (object : Nat) (name : String) (value : Value) : Store :=
  let type := ((store.classDef (store.object object).classDef).fields.find? name).map Prod.fst
  { store with
    objects := store.objects.modify object fun o => { o with fields := o.fields.insert name value }
    scopes := (store.repeatedIn? object name).elim store.scopes fun place =>
      store.scopes.modify place fun scope =>
        { scope with bindings := scope.bindings.insert name (type, value) } }

/-- A field can be written if the object has it or a class on its line declares it. -/
theorem writeField_eq (object : Nat) (name : String) (value : Value) :
    store.writeField object name value =
      if (store.object object).fields.has name ||
          store.declares (store.object object).classDef name then
        some (store.withField object name value)
      else none := by
  have hSome := store.isSome_writeField object name value
  unfold writeField at hSome ⊢
  dsimp only at hSome ⊢
  rw [← hSome]
  unfold withField repeatedIn?
  split
  · cases (store.object object).scope <;> rfl
  · cases store.declares (store.object object).classDef name <;> rfl

/-- The object is there, and so is its scope, if it has one. -/
structure Holds (object : Nat) : Prop where
  there : object < store.objects.size
  scope : ∀ scope, (store.object object).scope = some scope → scope < store.scopes.size

/-- What using an object leaves as it was: all classes, lists and functions, the other
objects, and the scopes but that of the object. -/
structure KeepsBut (object : Nat) (before after : Store) : Prop where
  classes : after.classes = before.classes
  cells : after.cells = before.cells
  functions : ∀ place < before.functions.size, after.function place = before.function place
  objects : ∀ other, other ≠ object → after.object other = before.object other
  scopes : ∀ place < before.scopes.size, (before.object object).scope ≠ some place →
    after.scope place = before.scope place

variable {store} {object : Nat} {name : String}

/-- A field is repeated nowhere but in the scope of the object. -/
theorem repeatedIn?_eq_some {scope : Nat} (h : store.repeatedIn? object name = some scope) :
    (store.object object).scope = some scope := by
  unfold repeatedIn? at h
  split at h
  · exact h
  · cases h

section

variable (store object name) (value : Value)

theorem size_scopes_withField :
    (store.withField object name value).scopes.size = store.scopes.size := by
  cases h : store.repeatedIn? object name with
  | none => simp [withField, h]
  | some place => simp [withField, h]

/-- Writing a field leaves all scopes but that of the object as they are. -/
theorem scope_withField {place : Nat} (h : (store.object object).scope ≠ some place) :
    (store.withField object name value).scope place = store.scope place := by
  unfold withField
  cases hOwn : store.repeatedIn? object name with
  | none => rfl
  | some own =>
      have hOther : own ≠ place := by
        rintro rfl
        exact h (repeatedIn?_eq_some hOwn)
      simp [Store.scope, Array.getElem?_modify, hOther]

/-- Writing a field leaves all other objects as they are. -/
theorem object_withField (h : object < store.objects.size) (other : Nat) :
    (store.withField object name value).object other =
      if object = other then
        { store.object other with fields := (store.object other).fields.insert name value }
      else store.object other :=
  object_changeObject_of_lt h _ other

theorem object_withField_self (h : object < store.objects.size) :
    (store.withField object name value).object object =
      { store.object object with fields := (store.object object).fields.insert name value } := by
  rw [object_withField store object name value h, if_pos rfl]

/-- Writing a field does not depend on later functions. -/
theorem withField_addFunction (function : Function) :
    (store.addFunction function).2.withField object name value =
      ((store.withField object name value).addFunction function).2 := rfl

/-- Writing a field does not depend on later scopes. -/
theorem withField_addScope (h : store.Holds object) (scope : Scope) :
    (store.addScope scope).2.withField object name value =
      ((store.withField object name value).addScope scope).2 := by
  have hSame : (store.addScope scope).2.repeatedIn? object name = store.repeatedIn? object name :=
    rfl
  cases hOwn : store.repeatedIn? object name with
  | none =>
      simp only [withField, hSame, hOwn, Option.elim_none]
      rfl
  | some own =>
      have hThere := h.scope own (repeatedIn?_eq_some hOwn)
      have hScopes : (store.addScope scope).2.scopes = store.scopes.push scope := rfl
      simp only [withField, hSame, hOwn, Option.elim_some, hScopes, modify_push_of_lt hThere]
      rfl

end

variable {value : Value}

/-- Writing a field concerns the object and its scope only. -/
theorem keepsBut_withField (h : object < store.objects.size) :
    store.KeepsBut object (store.withField object name value) where
  classes := rfl
  cells := rfl
  functions _ _ := rfl
  objects other hOther := by
    rw [object_withField store object name value h, if_neg (Ne.symm hOther)]
  scopes place _ hPlace := scope_withField store object name value hPlace

/-- Binding a method concerns nothing that is there. -/
theorem keepsBut_bind (function : Nat) : store.KeepsBut object (store.bind function object).2 where
  classes := classes_bind _ _ _
  cells := by
    rw [bind_eq]
    rfl
  functions place hPlace := by rw [function_bind, if_neg (Nat.ne_of_lt hPlace)]
  objects other _ := object_bind _ _ _ other
  scopes place hPlace _ := by rw [scope_bind, if_neg (Nat.ne_of_lt hPlace)]

/-- A method can be bound before or after a field is written. -/
theorem bind_withField (h : store.Holds object) (function : Nat) :
    (store.withField object name value).bind function object =
      ((store.bind function object).1,
        (store.bind function object).2.withField object name value) := by
  have hObject := store.object_withField_self object name value h.there
  have hScope : (store.withField object name value).boundScope function object =
      store.boundScope function object := by
    unfold boundScope
    rw [hObject]
    rfl
  have hFunction : (store.withField object name value).boundFunction function =
      store.boundFunction function := by
    unfold boundFunction
    rw [size_scopes_withField]
    rfl
  rw [bind_eq, bind_eq, withField_addFunction, withField_addScope _ _ _ _ h, hScope, hFunction]
  rfl

end Store

end Mus
