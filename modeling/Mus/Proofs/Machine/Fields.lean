import Mus.Proofs.Machine.Ancestry
import Mus.Proofs.Store.Objects

/-! The fields of objects. An object has its own fields, and for any other name the method
of the nearest class of its line that has one, bound to the object. A field can be written
if the object has it or a class of the line declares it. What is written is read again, and
nothing else that the object answers changes. -/
namespace Mus

/-! ## Reading -/

/-- A new function is the method bound to the object: the same code, in a new scope inside
that of the method, in which the object is `this`. -/
structure Store.Binds (before after : Store) (method object bound scope : Nat) : Prop where
  fresh : before.functions.size ≤ bound ∧ before.scopes.size ≤ scope
  code : after.function bound =
    { before.function method with closure := some scope, builtin := none }
  around : (after.scope scope).parent = (before.function method).closure
  self : (after.scope scope).bindings.find? "this" =
    some (some (before.classDef (before.object object).classDef).name, .object object)

/-- Binding a method makes the next new function in the next new scope. -/
theorem Store.binds_bind (store : Store) (method object : Nat) :
    store.Binds (store.bind method object).2 method object store.functions.size
      store.scopes.size := by
  constructor
  · exact ⟨Nat.le_refl _, Nat.le_refl _⟩
  · rw [function_bind_new]
    rfl
  · rw [scope_bind_new]
    rfl
  · rw [scope_bind_new]
    exact store.find?_selfBindings_this _ object

/-- How reading a name from an object ends, by its fields and the line of its class: with
the field, else with the method of the nearest class bound to the object, else with a
complaint that names the root of the line. -/
inductive Machine.FieldRead (machine : Machine) (object : Nat) (line : List Nat) (root : Nat)
    (name : String) : EStateM.Result Fault Machine Value → Prop where
  | field {value : Value}
      (hField : (machine.store.object object).fields.find? name = some value) :
      FieldRead machine object line root name (.ok value machine)
  | method {classPlace method bound scope : Nat} {after : Store}
      (hField : (machine.store.object object).fields.find? name = none)
      (hNearest : Nearest line (fun place => (machine.store.classDef place).methods.find? name)
        classPlace method)
      (hBinds : machine.store.Binds after method object bound scope)
      (hKept : machine.store.KeepsBut object after)
      (hObject : after.object object = machine.store.object object) :
      FieldRead machine object line root name
        (.ok (.function bound) { machine with store := after })
  | missing (hField : (machine.store.object object).fields.find? name = none)
      (hMethods : ∀ place ∈ line, (machine.store.classDef place).methods.find? name = none) :
      FieldRead machine object line root name
        (.error (.fieldMissing name (machine.store.classDef root).name) machine)

/-- A name that can be written: the object has a field of the name, or a class of the line
declares one. -/
def Store.Writable (store : Store) (object : Nat) (line : List Nat) (name : String) : Prop :=
  (store.object object).fields.has name = true ∨
    ∃ place ∈ line, (store.classDef place).fields.has name = true

/-- What can be written stays so as long as the classes and the object are the same. -/
theorem Store.Writable.of_classes {store after : Store} {object : Nat} {line : List Nat}
    {name : String} (h : store.Writable object line name)
    (hClasses : after.classes = store.classes)
    (hObject : after.object object = store.object object) : after.Writable object line name := by
  simpa only [Writable, hObject, classDef_of_classes hClasses] using h

namespace Run

variable {machine : Machine} {object root : Nat} {line : List Nat}

/-- A field of the object comes before any method. -/
theorem readField_of_field {name : String} {value : Value}
    (h : (machine.store.object object).fields.find? name = some value) :
    readField object name machine = .ok value machine := by
  simp [readField, Store.readField, h]

/-- Without a field of the name, the method is bound to the object. Nothing else changes. -/
theorem readField_of_method {name : String} {method : Nat}
    (hField : (machine.store.object object).fields.find? name = none)
    (hMethod : machine.store.method? (machine.store.object object).classDef name = some method) :
    readField object name machine =
      .ok (.function machine.store.functions.size)
        { machine with store := (machine.store.bind method object).2 } := by
  simp [readField, Store.readField, hField, hMethod, Store.fst_bind]

/-- With neither, the complaint names the root of the line and nothing changes. -/
theorem readField_of_none {name : String}
    (hLine : machine.store.Lineage (machine.store.object object).classDef line root)
    (hField : (machine.store.object object).fields.find? name = none)
    (hMethod : machine.store.method? (machine.store.object object).classDef name = none) :
    readField object name machine =
      .error (.fieldMissing name (machine.store.classDef root).name) machine := by
  simp [readField, Store.readField, hField, hMethod, hLine.rootClass_eq]

/-- Reading a name always ends in one of the three ways. -/
theorem fieldRead_readField
    (hLine : machine.store.Lineage (machine.store.object object).classDef line root)
    (name : String) :
    machine.FieldRead object line root name (readField object name machine) := by
  cases hField : (machine.store.object object).fields.find? name with
  | some value =>
      rw [readField_of_field hField]
      exact .field hField
  | none =>
      cases hMethod : machine.store.method? (machine.store.object object).classDef name with
      | some method =>
          have hFound := (hLine.method?_eq name).symm.trans hMethod
          obtain ⟨classPlace, hNearest⟩ := findSome?_eq_some_iff_nearest.mp hFound
          rw [readField_of_method hField hMethod]
          exact .method hField hNearest (machine.store.binds_bind method object)
            (Store.keepsBut_bind method) (machine.store.object_bind method object object)
      | none =>
          have hFound := (hLine.method?_eq name).symm.trans hMethod
          rw [readField_of_none hLine hField hMethod]
          exact .missing hField (List.findSome?_eq_none_iff.mp hFound)

/-! ## Writing -/

/-- The second result is the first one with a further step done on its machine. -/
inductive Followed {α : Type} (step : Run Unit) :
    EStateM.Result Fault Machine α → EStateM.Result Fault Machine α → Prop where
  | ok {value : α} {before after : Machine} (h : step before = .ok () after) :
      Followed step (.ok value before) (.ok value after)
  | error {fault : Fault} {before after : Machine} (h : step before = .ok () after) :
      Followed step (.error fault before) (.error fault after)

variable {name : String}

/-- A name that can be written is written. -/
theorem writeField_of_writable
    (hLine : machine.store.Lineage (machine.store.object object).classDef line root)
    (h : machine.store.Writable object line name) (value : Value) :
    writeField object name value machine =
      .ok () { machine with store := machine.store.withField object name value } := by
  have hWritten : ((machine.store.object object).fields.has name ||
      machine.store.declares (machine.store.object object).classDef name) = true := by
    rw [Bool.or_eq_true, hLine.declares_eq_true]
    exact h
  simp [writeField, Store.writeField_eq, hWritten]

/-- Any other name is complained of, and nothing changes. -/
theorem writeField_of_not_writable
    (hLine : machine.store.Lineage (machine.store.object object).classDef line root)
    (h : ¬ machine.store.Writable object line name) (value : Value) :
    writeField object name value machine =
      .error (.fieldMissing name (machine.store.classDef root).name) machine := by
  have hWritten : ¬ ((machine.store.object object).fields.has name ||
      machine.store.declares (machine.store.object object).classDef name) = true := by
    rw [Bool.or_eq_true, hLine.declares_eq_true]
    exact h
  simp [writeField, Store.writeField_eq, hWritten, hLine.rootClass_eq]

/-- What is written is read. -/
theorem readField_withField (h : object < machine.store.objects.size) (value : Value) :
    readField object name { machine with store := machine.store.withField object name value } =
      .ok value { machine with store := machine.store.withField object name value } := by
  apply readField_of_field
  rw [machine.store.object_withField_self object name value h]
  exact Table.find?_insert_self _ _ _

/-- The field can still be written after a method has been bound. -/
theorem writeField_bind
    (hLine : machine.store.Lineage (machine.store.object object).classDef line root)
    (h : machine.store.Writable object line name) (value : Value) (method : Nat) :
    writeField object name value { machine with store := (machine.store.bind method object).2 } =
      .ok () { machine with
        store := (machine.store.bind method object).2.withField object name value } := by
  have hClasses := machine.store.classes_bind method object
  have hObject := machine.store.object_bind method object object
  have hBound : (machine.store.bind method object).2.Lineage
      ((machine.store.bind method object).2.object object).classDef line root := by
    rw [hObject]
    exact hLine.of_classes hClasses
  exact writeField_of_writable hBound (h.of_classes hClasses hObject) value

/-- Another name answers the same before and after a field is written, and what it leads to
is the same but for the field. -/
theorem followed_readField
    (hLine : machine.store.Lineage (machine.store.object object).classDef line root)
    (hObject : machine.store.Holds object) (h : machine.store.Writable object line name)
    (value : Value) {other : String} (hOther : other ≠ name) :
    Followed (writeField object name value) (readField object other machine)
      (readField object other
        { machine with store := machine.store.withField object name value }) := by
  let later : Machine := { machine with store := machine.store.withField object name value }
  have hWritten : writeField object name value machine = .ok () later :=
    writeField_of_writable hLine h value
  have hClasses : later.store.classes = machine.store.classes := rfl
  have hNow := machine.store.object_withField_self object name value hObject.there
  have hClass : (later.store.object object).classDef = (machine.store.object object).classDef := by
    rw [hNow]
  have hFields : (later.store.object object).fields.find? other =
      (machine.store.object object).fields.find? other := by
    rw [hNow]
    exact Table.find?_insert_of_ne hOther _ _
  have hMethods : later.store.method? (later.store.object object).classDef other =
      machine.store.method? (machine.store.object object).classDef other := by
    rw [hClass]
    exact Store.method?_of_classes hClasses _ other
  change Followed _ _ (readField object other later)
  cases hField : (machine.store.object object).fields.find? other with
  | some held =>
      rw [readField_of_field hField, readField_of_field (hFields.trans hField)]
      exact .ok hWritten
  | none =>
      cases hMethod : machine.store.method? (machine.store.object object).classDef other with
      | some method =>
          -- Both machines bind the method at the same places, the first one before the write.
          rw [readField_of_method hField hMethod,
            readField_of_method (hFields.trans hField) (hMethods.trans hMethod),
            Store.bind_withField hObject]
          exact .ok (writeField_bind hLine h value method)
      | none =>
          have hLater : later.store.Lineage (later.store.object object).classDef line root := by
            rw [hClass]
            exact hLine.of_classes hClasses
          rw [readField_of_none hLine hField hMethod,
            readField_of_none hLater (hFields.trans hField) (hMethods.trans hMethod)]
          exact .error hWritten

end Run

/-- The law of fields, for an object of any class. Reading ends as its fields and the line of
its class say. Writing fails exactly if neither the object nor a class of the line has the
field, and then nothing has changed. Otherwise what is written is read again, and every other
name answers as before. No class, function or list changes, and no other object. -/
theorem Machine.object_store_law {machine : Machine} {object root : Nat} {line : List Nat}
    (hLine : machine.store.Lineage (machine.store.object object).classDef line root)
    (hObject : machine.store.Holds object) :
    (∀ name, machine.FieldRead object line root name (Run.readField object name machine)) ∧
    ∀ name value,
      (Run.writeField object name value machine =
          .error (.fieldMissing name (machine.store.classDef root).name) machine ↔
        ¬ machine.store.Writable object line name) ∧
      (machine.store.Writable object line name → ∃ written,
        Run.writeField object name value machine = .ok () { machine with store := written } ∧
        machine.store.KeepsBut object written ∧
        Run.readField object name { machine with store := written } =
          .ok value { machine with store := written } ∧
        ∀ other, other ≠ name → Run.Followed (Run.writeField object name value)
          (Run.readField object other machine)
          (Run.readField object other { machine with store := written })) := by
  refine ⟨Run.fieldRead_readField hLine, fun name value => ⟨⟨?_, ?_⟩, ?_⟩⟩
  · intro hFails hWritable
    rw [Run.writeField_of_writable hLine hWritable value] at hFails
    cases hFails
  · intro hMissing
    exact Run.writeField_of_not_writable hLine hMissing value
  · intro hWritable
    refine ⟨machine.store.withField object name value,
      Run.writeField_of_writable hLine hWritable value, Store.keepsBut_withField hObject.there,
      Run.readField_withField hObject.there value, ?_⟩
    intro other hOther
    exact Run.followed_readField hLine hObject hWritable value hOther

/-- A class with a field and a method, one that extends it, and one that extends that with
another field. -/
def Machine.family : Machine :=
  let store := (Machine.initial.store.addFunction ⟨"m", [], [], some 0, none⟩).2
  let store := (store.addClass ⟨"A", [("x", "integer", .int 1)], [("m", 2)], none, some 0⟩).2
  let store := (store.addClass ⟨"B", [], [], some 0, some 0⟩).2
  let store := (store.addClass ⟨"C", [("y", "integer", .int 2)], [], some 1, some 0⟩).2
  { Machine.initial with store := store }

theorem Machine.family_lineage : family.store.Lineage 2 [2, 1, 0] 0 := by
  constructor
  · intro place above hAbove
    rcases place with _ | _ | _ | place
    · cases hAbove
    · cases hAbove
      decide
    · cases hAbove
      decide
    · cases hAbove
  · exact .step rfl (.step rfl (.root rfl))
  · rfl

def Machine.relative : Machine :=
  { family with store := (family.store.createInstance 2).2 }

/-- The object of the sample is of the third class, whose line has all three. -/
theorem Machine.relative_lineage :
    relative.store.Lineage (relative.store.object 0).classDef [2, 1, 0] 0 := by
  have hClass : (relative.store.object 0).classDef = 2 :=
    (family.store.object_createInstance 2).2
  rw [hClass]
  exact family_lineage.of_classes (family.store.classes_createInstance 2)

theorem Machine.relative_holds : relative.store.Holds 0 := by
  have hScope : (relative.store.object 0).scope = some 1 := (family.store.scope_createInstance 2).1
  constructor
  · decide +kernel
  · intro scope hOwn
    cases hScope.symm.trans hOwn
    decide +kernel

/-- The object has no field `z`, and it has none to be read of the name `x`, which only the
first class declares; but this one can be written. -/
theorem Machine.object_store_law_relative :
    relative.store.Lineage (relative.store.object 0).classDef [2, 1, 0] 0 ∧
    relative.store.Holds 0 ∧
    Run.writeField 0 "z" (.int 5) relative = .error (.fieldMissing "z" "A") relative ∧
    relative.FieldRead 0 [2, 1, 0] 0 "m" (Run.readField 0 "m" relative) ∧
    ∃ written, Run.writeField 0 "x" (.int 5) relative = .ok () { relative with store := written } ∧
      Run.readField 0 "x" { relative with store := written } =
        .ok (.int 5) { relative with store := written } ∧
      Run.Followed (Run.writeField 0 "x" (.int 5)) (Run.readField 0 "m" relative)
        (Run.readField 0 "m" { relative with store := written }) := by
  obtain ⟨hReads, hWrites⟩ := object_store_law relative_lineage relative_holds
  have hMissing : ¬ relative.store.Writable 0 [2, 1, 0] "z" := by
    unfold Store.Writable
    decide +kernel
  have hDeclared : relative.store.Writable 0 [2, 1, 0] "x" := by
    unfold Store.Writable
    decide +kernel
  have hRoot : (relative.store.classDef 0).name = "A" := by decide +kernel
  have hRefused := (hWrites "z" (.int 5)).1.mpr hMissing
  rw [hRoot] at hRefused
  obtain ⟨written, hWritten, -, hRead, hOthers⟩ := (hWrites "x" (.int 5)).2 hDeclared
  exact ⟨relative_lineage, relative_holds, hRefused, hReads "m", written, hWritten, hRead,
    hOthers "m" (by decide)⟩

/-! ## Defaults -/

/-- A new object has the default of a field from its own class only. A field that another
class of the line declares cannot be read until it is written, and the complaint names the
root of the line, also where that declares the field. -/
theorem Machine.reads_default_iff_own {machine : Machine} {classPlace object root owner : Nat}
    {line : List Nat} {name type : String} {default : Value} {fresh : Store}
    (hLine : machine.store.Lineage classPlace line root)
    (hNames : (machine.store.classDef classPlace).fields.names.Nodup)
    (hMethods : ∀ place ∈ line, (machine.store.classDef place).methods.find? name = none)
    (hNearest : Nearest line (fun place => (machine.store.classDef place).fields.find? name)
      owner (type, default))
    (hFresh : machine.store.createInstance classPlace = (object, fresh)) :
    (Run.readField object name { machine with store := fresh } =
        .ok default { machine with store := fresh } ↔ owner = classPlace) ∧
    (owner ≠ classPlace →
      Run.readField object name { machine with store := fresh } =
        .error (.fieldMissing name (machine.store.classDef root).name)
          { machine with store := fresh } ∧
      ∀ value, ∃ written,
        Run.writeField object name value { machine with store := fresh } =
          .ok () { machine with store := written } ∧
        Run.readField object name { machine with store := written } =
          .ok value { machine with store := written }) := by
  obtain rfl : machine.store.objects.size = object := by
    rw [← machine.store.fst_createInstance classPlace, hFresh]
  obtain rfl : (machine.store.createInstance classPlace).2 = fresh := by rw [hFresh]
  obtain ⟨hThere, hClass⟩ := machine.store.object_createInstance classPlace
  have hClasses := machine.store.classes_createInstance classPlace
  have hNoMethod : machine.store.method? classPlace name = none := by
    rw [hLine.method?_eq]
    exact List.findSome?_eq_none_iff.mpr hMethods
  have hField := (machine.store.find?_createInstance hNoMethod).trans
    (ClassDef.find?_defaults hNames name)
  obtain ⟨above, hCons⟩ := hLine.eq_cons
  cases hOwn : (machine.store.classDef classPlace).fields.find? name with
  | some entry =>
      obtain rfl : owner = classPlace := (hCons ▸ hNearest).eq_head hOwn
      cases hNearest.find_eq.symm.trans hOwn
      rw [hOwn] at hField
      exact ⟨iff_of_true (Run.readField_of_field hField) rfl, fun hOther => absurd rfl hOther⟩
  | none =>
      have hOther : owner ≠ classPlace := by
        rintro rfl
        cases hNearest.find_eq.symm.trans hOwn
      let later : Machine := { machine with store := (machine.store.createInstance classPlace).2 }
      have hLater : later.store.Lineage (later.store.object machine.store.objects.size).classDef
          line root := by
        rw [hClass]
        exact hLine.of_classes hClasses
      have hNone : later.store.method? (later.store.object machine.store.objects.size).classDef
          name = none := by
        rw [hClass, Store.method?_of_classes hClasses, hNoMethod]
      have hMissing : Run.readField machine.store.objects.size name later =
          .error (.fieldMissing name (later.store.classDef root).name) later := by
        rw [hOwn] at hField
        exact Run.readField_of_none hLater hField hNone
      rw [Store.classDef_of_classes hClasses] at hMissing
      have hWritable : later.store.Writable machine.store.objects.size line name := by
        refine Or.inr ⟨owner, hNearest.mem, Table.has_eq_true.mpr ⟨(type, default), ?_⟩⟩
        rw [Store.classDef_of_classes hClasses]
        exact hNearest.find_eq
      refine ⟨iff_of_false ?_ hOther, fun _ => ⟨hMissing, fun value => ?_⟩⟩
      · intro hRead
        cases hMissing.symm.trans hRead
      · exact ⟨_, Run.writeField_of_writable hLater hWritable value,
          Run.readField_withField hThere value⟩

/-- A new object of the last class has `y` and not `x`. -/
theorem Machine.reads_default_iff_own_family :
    ∃ object fresh, family.store.createInstance 2 = (object, fresh) ∧
      Run.readField object "y" { family with store := fresh } =
        .ok (.int 2) { family with store := fresh } ∧
      Run.readField object "x" { family with store := fresh } =
        .error (.fieldMissing "x" "A") { family with store := fresh } := by
  have hNames : (family.store.classDef 2).fields.names.Nodup := by decide
  have hOwn : Nearest [2, 1, 0] (fun place => (family.store.classDef place).fields.find? "y") 2
      ("integer", .int 2) :=
    ⟨[], [1, 0], rfl, rfl, by simp⟩
  have hInherited : Nearest [2, 1, 0]
      (fun place => (family.store.classDef place).fields.find? "x") 0 ("integer", .int 1) := by
    refine ⟨[2, 1], [], rfl, rfl, fun other hOther => ?_⟩
    rcases List.mem_cons.mp hOther with rfl | hLast
    · rfl
    · cases List.mem_singleton.mp hLast
      rfl
  have hRead := (reads_default_iff_own family_lineage hNames (by decide) hOwn rfl).1.mpr rfl
  have hMissing := ((reads_default_iff_own family_lineage hNames (by decide) hInherited rfl).2
    (by decide)).1
  exact ⟨_, _, rfl, hRead, hMissing⟩

end Mus
