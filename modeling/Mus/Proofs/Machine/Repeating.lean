import Mus.Proofs.Machine.Fields
import Mus.Proofs.Machine.Variables

/-! Fields in the scope of their object. The scope of an object is meant to repeat the
fields that are written, and it does so for those that the object has. A field that only
another class of the line declares is none of these when it is written first: the object
has it from then on, but its scope repeats it only when it is written again. -/
namespace Mus

/-! ## Writes in turn -/

namespace Table

variable {α : Type}

/-- What was entered last under a name, where entries come in turn. -/
def last? (writes : Table α) (name : String) : Option α := find? writes.reverse name

/-- A further entry is the last one under its name. -/
theorem last?_concat (writes : Table α) (key : String) (value : α) (name : String) :
    last? (writes ++ [(key, value)]) name =
      if name = key then some value else writes.last? name := by
  rw [last?, List.reverse_concat, find?_cons]
  rfl

/-- A further entry counts once more for its name. -/
theorem count_names_concat (writes : Table α) (key : String) (value : α) (name : String) :
    (names (writes ++ [(key, value)])).count name =
      writes.names.count name + if name = key then 1 else 0 := by
  by_cases h : name = key
  · simp [names, h]
  · simp [names, h, Ne.symm h]

theorem has_insert (table : Table α) (key : String) (value : α) (name : String) :
    (table.insert key value).has name = (decide (name = key) || table.has name) := by
  by_cases h : name = key
  · simp [has, h]
  · simp [has, h, find?_insert_of_ne h]

theorem find?_eq_none_iff {table : Table α} {name : String} :
    table.find? name = none ↔ name ∉ table.names := by
  constructor
  · intro h hName
    induction table with
    | nil => cases hName
    | cons head rest ih =>
        obtain ⟨key, entry⟩ := head
        rw [find?_cons] at h
        by_cases hKey : name = key
        · rw [if_pos hKey] at h
          cases h
        · rw [if_neg hKey] at h
          exact ih h (by simpa [names, hKey] using hName)
  · exact find?_eq_none_of_notMem

/-- Nothing was entered last under a name that never comes. -/
theorem last?_eq_none_iff {writes : Table α} {name : String} :
    writes.last? name = none ↔ writes.names.count name = 0 := by
  rw [last?, find?_eq_none_iff, List.count_eq_zero]
  simp [names]

end Table

def Run.writeFields (object : Nat) : Table Value → Run Unit
  | [] => return ()
  | (name, value) :: rest => do
      writeField object name value
      writeFields object rest

/-! ## One write -/

namespace Store

variable {before store : Store} {object scope : Nat} {writes : Table Value} {name other : String}
  {value : Value}

def fieldType? (store : Store) (object : Nat) (name : String) : Option String :=
  ((store.classDef (store.object object).classDef).fields.find? name).map Prod.fst

def owns (store : Store) (object : Nat) (name : String) : Bool :=
  (store.classDef (store.object object).classDef).fields.has name ||
    (store.object object).fields.has name

/-- Writing a field that the object owns repeats it in the scope of the object, and no other
entry of that scope changes. -/
theorem binding?_withField (hScope : (store.object object).scope = some scope)
    (hThere : scope < store.scopes.size) :
    (store.withField object name value).binding? other scope =
      if other = name ∧ store.owns object name = true then
        some (store.fieldType? object name, value)
      else store.binding? other scope := by
  cases hOwns : store.owns object name with
  | false =>
      have hIn : store.repeatedIn? object name = none := by
        unfold owns at hOwns
        simp [repeatedIn?, hOwns]
      simp [withField, hIn, binding?, Store.scope]
  | true =>
      have hIn : store.repeatedIn? object name = some scope := by
        unfold owns at hOwns
        simp [repeatedIn?, hOwns, hScope]
      have hDefined : (store.withField object name value).binding? other scope =
          (store.defineVariable scope name (store.fieldType? object name) value).binding? other
            scope := by
        simp only [binding?, withField, hIn, Option.elim_some]
        rfl
      by_cases hName : other = name
      · rw [hDefined, binding?, scope_defineVariable_self hThere]
        simp [hName]
      · rw [hDefined, binding?_defineVariable_of_name _ _ _ _ _ hName]
        simp [hName]

/-- Some writes repeat a field in the scope of the object: those of a field that the object
owns, and those of any field that is written again. -/
def Repeats (store : Store) (object : Nat) (writes : Table Value) (name : String) : Prop :=
  store.owns object name = true ∨ 2 ≤ writes.names.count name

/-- Writing one field does not change whether another one is repeated. -/
theorem repeats_concat_of_ne (h : other ≠ name) :
    store.Repeats object (writes ++ [(name, value)]) other ↔ store.Repeats object writes other := by
  simp [Repeats, Table.count_names_concat, h]

/-- A store after some fields of an object have been written in turn. -/
structure Wrote (before : Store) (object scope : Nat) (writes : Table Value) (after : Store) :
    Prop where
  classes : after.classes = before.classes
  there : object < after.objects.size ∧ scope < after.scopes.size
  classDef : (after.object object).classDef = (before.object object).classDef
  home : (after.object object).scope = some scope
  fields : ∀ name, (after.object object).fields.find? name =
    (writes.last? name).or ((before.object object).fields.find? name)
  repeated : ∀ name value, writes.last? name = some value → before.Repeats object writes name →
    after.binding? name scope = some (before.fieldType? object name, value)
  kept : ∀ name, writes.last? name = none ∨ ¬ before.Repeats object writes name →
    after.binding? name scope = before.binding? name scope

namespace Wrote

/-- Before the first write everything is as it was. -/
theorem refl (h : store.Holds object) (hScope : (store.object object).scope = some scope) :
    store.Wrote object scope [] store where
  classes := rfl
  there := ⟨h.there, h.scope scope hScope⟩
  classDef := rfl
  home := hScope
  fields _ := rfl
  repeated _ _ hLast _ := by cases hLast
  kept _ _ := rfl

variable (h : before.Wrote object scope writes store)

include h

/-- Writing fields does not change their types. -/
theorem fieldType?_eq (name : String) :
    store.fieldType? object name = before.fieldType? object name := by
  unfold fieldType?
  rw [h.classDef, classDef_of_classes h.classes]

/-- The object owns what it owned before and what has been written, and so the next write
repeats it. -/
theorem owns_iff (name : String) (value : Value) :
    store.owns object name = true ↔ before.Repeats object (writes ++ [(name, value)]) name := by
  have hOwns : store.owns object name = true ↔
      before.owns object name = true ∨ writes.last? name ≠ none := by
    unfold owns Table.has
    rw [h.classDef, classDef_of_classes h.classes, h.fields]
    cases writes.last? name with
    | none => simp
    | some value => simp
  rw [hOwns, Repeats, Table.count_names_concat, if_pos rfl, Ne, Table.last?_eq_none_iff]
  have hCount : ¬ writes.names.count name = 0 ↔ 2 ≤ writes.names.count name + 1 := by omega
  rw [hCount]

/-- One more write. -/
theorem concat (name : String) (value : Value) :
    before.Wrote object scope (writes ++ [(name, value)]) (store.withField object name value) := by
  have hObject := object_withField_self store object name value h.there.1
  have hBinding (other : String) :
      (store.withField object name value).binding? other scope =
        if other = name ∧ store.owns object name = true then
          some (before.fieldType? object name, value)
        else store.binding? other scope := by
    rw [binding?_withField h.home h.there.2, h.fieldType?_eq]
  have hOwns := h.owns_iff name value
  constructor
  case classes => exact h.classes
  case there =>
    rw [size_scopes_withField]
    exact ⟨by simpa [withField] using h.there.1, h.there.2⟩
  case classDef => rw [hObject, h.classDef]
  case home => rw [hObject, h.home]
  case fields =>
    intro other
    rw [hObject, Table.last?_concat]
    by_cases hName : other = name
    · simp [hName]
    · simp [hName, Table.find?_insert_of_ne hName, h.fields]
  case repeated =>
    intro other last hLast hRepeats
    rw [Table.last?_concat] at hLast
    rw [hBinding]
    by_cases hName : other = name
    · subst hName
      rw [if_pos rfl] at hLast
      cases hLast
      rw [if_pos ⟨rfl, hOwns.mpr hRepeats⟩]
    · rw [if_neg hName] at hLast
      rw [if_neg fun hBoth => hName hBoth.1]
      exact h.repeated other last hLast ((repeats_concat_of_ne hName).mp hRepeats)
  case kept =>
    intro other hKept
    rw [Table.last?_concat] at hKept
    rw [hBinding]
    by_cases hName : other = name
    · subst hName
      have hFirst : ¬ before.Repeats object (writes ++ [(other, value)]) other := by
        simpa using hKept
      rw [if_neg fun hBoth => hFirst (hOwns.mp hBoth.2)]
      -- What is not repeated has not been written before.
      apply h.kept
      left
      rw [Table.last?_eq_none_iff]
      unfold Repeats at hFirst
      rw [Table.count_names_concat, if_pos rfl] at hFirst
      omega
    · rw [if_neg fun hBoth => hName hBoth.1]
      rw [if_neg hName, repeats_concat_of_ne hName] at hKept
      exact h.kept other hKept

end Wrote

end Store

/-! ## Writes to a new object -/

namespace Table

theorem has_foldl_insert (fields : Table (String × Value)) (table : Table Value) (name : String) :
    Table.has (fields.foldl (fun table field => table.insert field.1 field.2.2) table) name =
      (fields.has name || table.has name) := by
  induction fields generalizing table with
  | nil => simp [has]
  | cons head rest ih =>
      obtain ⟨key, type, default⟩ := head
      rw [List.foldl_cons, ih, has_insert]
      by_cases hName : name = key
      · simp [has, find?_cons, hName]
      · simp [has, find?_cons, hName]

end Table

/-- An object starts with exactly the fields that its class declares. -/
theorem ClassDef.has_defaults (classDef : ClassDef) (name : String) :
    classDef.defaults.has name = classDef.fields.has name := by
  rw [defaults, Table.has_foldl_insert]
  simp [Table.has]

namespace Store

variable (store : Store) (classPlace : Nat) (name : String)

/-- A new object owns what its own class declares, and its constructor. -/
theorem owns_createInstance :
    (store.createInstance classPlace).2.owns store.objects.size name =
      ((store.classDef classPlace).fields.has name ||
        decide (name = "init") && (store.method? classPlace "init").isSome) := by
  have hMethod := method?_of_classes (store.classes_newborn classPlace) classPlace "init"
  unfold owns
  rw [(store.object_createInstance classPlace).2,
    classDef_of_classes (store.classes_createInstance classPlace)]
  cases hInit : (store.newborn classPlace).method? classPlace "init" with
  | none =>
      rw [createInstance_of_none hInit, object_newborn, ClassDef.has_defaults, ← hMethod, hInit]
      simp
  | some init =>
      rw [object_createInstance_of_init hInit, Table.has_insert, ClassDef.has_defaults, ← hMethod,
        hInit]
      cases (store.classDef classPlace).fields.has name <;> simp

/-- The scope of a new object holds `this`, `super` and nothing else. -/
theorem find?_selfBindings_of_ne (object : Nat) (hThis : name ≠ "this") (hSuper : name ≠ "super") :
    (store.selfBindings classPlace object).find? name = none := by
  cases h : store.classParent classPlace with
  | none => simp [selfBindings, h, Table.find?_cons, hThis]
  | some parent => simp [selfBindings, h, Table.find?_cons, hThis, hSuper]

theorem holds_createInstance : (store.createInstance classPlace).2.Holds store.objects.size where
  there := (store.object_createInstance classPlace).1
  scope scope hScope := by
    cases (store.scope_createInstance classPlace).1.symm.trans hScope
    have hKept : (store.newborn classPlace).Builds 0 (store.createInstance classPlace).2 :=
      newborn_builds_createInstance store classPlace
    have hMore := hKept.kept.scopes
    rw [(store.size_newborn classPlace).2] at hMore
    exact hMore

end Store

namespace Run

variable {before : Store} {machine after : Machine} {object scope : Nat} {name : String}
  {value : Value} {writes done : Table Value}

/-- A write that succeeds writes the field and changes nothing but the store. -/
theorem writeField_ok (h : writeField object name value machine = .ok () after) :
    after = { machine with store := machine.store.withField object name value } := by
  unfold writeField at h
  rw [Store.writeField_eq] at h
  split at h
  case h_1 written hWritten =>
    rw [Option.ite_none_right_eq_some] at hWritten
    cases hWritten.2
    cases h
    rfl
  case h_2 => cases h

/-- By induction on the writes, each of which goes on from what the ones before have left. -/
theorem wrote_writeFields (hDone : before.Wrote object scope done machine.store)
    (h : writeFields object writes machine = .ok () after) :
    before.Wrote object scope (done ++ writes) after.store := by
  induction writes generalizing machine done with
  | nil =>
      cases h
      rw [List.append_nil]
      exact hDone
  | cons write rest ih =>
      obtain ⟨name, value⟩ := write
      cases hWrite : writeField object name value machine with
      | error fault failed =>
          rw [writeFields, bind_error hWrite] at h
          cases h
      | ok result next =>
          rw [writeFields, bind_ok hWrite] at h
          cases writeField_ok hWrite
          have hRest := ih (hDone.concat name value) h
          rwa [List.append_assoc] at hRest

/-- Fields that the object has or a class of the line declares can be written in any order. -/
theorem exists_writeFields {root : Nat} {line : List Nat}
    (hLine : machine.store.Lineage (machine.store.object object).classDef line root)
    (hThere : object < machine.store.objects.size)
    (h : ∀ name ∈ writes.names, machine.store.Writable object line name) :
    ∃ after, writeFields object writes machine = .ok () after := by
  induction writes generalizing machine with
  | nil => exact ⟨machine, rfl⟩
  | cons write rest ih =>
      obtain ⟨name, value⟩ := write
      have hWrite := writeField_of_writable hLine (h name (by simp [Table.names])) value
      have hObject := machine.store.object_withField_self object name value hThere
      have hClasses : (machine.store.withField object name value).classes =
          machine.store.classes := rfl
      rw [writeFields, bind_ok hWrite]
      apply ih
      · dsimp only
        rw [hObject]
        exact hLine.of_classes hClasses
      · simpa [Store.withField] using hThere
      · intro other hOther
        rcases h other (List.mem_cons_of_mem _ hOther) with hHas | hDeclared
        · left
          dsimp only
          rw [hObject, Table.has_insert, hHas, Bool.or_true]
        · exact Or.inr hDeclared

end Run

/-- Writing a field of a new object repeats it in the scope of the object if its own class
declares the field, if the field is the constructor, or if it has been written before. -/
def Store.RepeatsNew (store : Store) (classPlace : Nat) (writes : Table Value) (name : String) :
    Prop :=
  (store.classDef classPlace).fields.has name = true ∨
    (name = "init" ∧ (store.method? classPlace "init").isSome = true) ∨
    2 ≤ writes.names.count name

/-- For a new object, what is repeated can be told from its class and the writes alone. -/
theorem Store.repeats_createInstance (store : Store) (classPlace : Nat) (writes : Table Value)
    (name : String) :
    (store.createInstance classPlace).2.Repeats store.objects.size writes name ↔
      store.RepeatsNew classPlace writes name := by
  simp [Repeats, RepeatsNew, owns_createInstance, or_assoc]

/-- After any writes to a new object, each field that was written is read as it was written
last. The scope of the object binds it to this value, with the type that its own class
declares, if the class declares the field, if the field is the constructor, or if it was
written more than once; if none of this is so, the scope binds it as it did at first, which
is not at all unless it is `this` or `super`. -/
theorem Machine.field_repeated_iff {machine after : Machine} {classPlace object : Nat}
    {fresh : Store} {writes : Table Value}
    (hFresh : machine.store.createInstance classPlace = (object, fresh))
    (hWrites : Run.writeFields object writes { machine with store := fresh } = .ok () after) :
    ∃ scope, (after.store.object object).scope = some scope ∧
      ∀ name value, writes.last? name = some value →
        Run.readField object name after = .ok value after ∧
        (machine.store.RepeatsNew classPlace writes name →
          after.store.binding? name scope =
            some (((machine.store.classDef classPlace).fields.find? name).map Prod.fst, value)) ∧
        (¬ machine.store.RepeatsNew classPlace writes name →
          after.store.binding? name scope =
            (machine.store.selfBindings classPlace object).find? name) ∧
        (name ≠ "this" → name ≠ "super" →
          ((∃ type, after.store.binding? name scope = some (type, value)) ↔
            machine.store.RepeatsNew classPlace writes name)) := by
  obtain rfl : machine.store.objects.size = object := by
    rw [← machine.store.fst_createInstance classPlace, hFresh]
  obtain rfl : (machine.store.createInstance classPlace).2 = fresh := by rw [hFresh]
  obtain ⟨hHome, hScope⟩ := machine.store.scope_createInstance classPlace
  have hStart := Store.Wrote.refl (machine.store.holds_createInstance classPlace) hHome
  have hWrote := Run.wrote_writeFields hStart hWrites
  rw [List.nil_append] at hWrote
  refine ⟨machine.store.scopes.size, hWrote.home, fun name value hLast => ?_⟩
  have hIff := machine.store.repeats_createInstance classPlace writes name
  have hRepeated (h : machine.store.RepeatsNew classPlace writes name) :
      after.store.binding? name machine.store.scopes.size =
        some (((machine.store.classDef classPlace).fields.find? name).map Prod.fst, value) := by
    rw [hWrote.repeated name value hLast (hIff.mpr h), Store.fieldType?,
      (machine.store.object_createInstance classPlace).2,
      Store.classDef_of_classes (machine.store.classes_createInstance classPlace)]
  have hKept (h : ¬ machine.store.RepeatsNew classPlace writes name) :
      after.store.binding? name machine.store.scopes.size =
        (machine.store.selfBindings classPlace machine.store.objects.size).find? name := by
    rw [hWrote.kept name (Or.inr fun hRepeats => h (hIff.mp hRepeats)), Store.binding?, hScope]
    rfl
  refine ⟨Run.readField_of_field ?_, hRepeated, hKept, fun hThis hSuper => ⟨?_, ?_⟩⟩
  · rw [hWrote.fields, hLast, Option.some_or]
  · rintro ⟨type, hBound⟩
    apply Classical.byContradiction
    intro hOnce
    rw [hKept hOnce, Store.find?_selfBindings_of_ne _ _ _ _ hThis hSuper] at hBound
    cases hBound
  · intro h
    exact ⟨_, hRepeated h⟩

/-- A new object of the last class is given `x`, which only the first class declares: its
scope does not bind the name until it is written again. Its own field `y` is bound at once. -/
theorem Machine.field_repeated_iff_family :
    ∃ object fresh, family.store.createInstance 2 = (object, fresh) ∧
      (∃ once scope, Run.writeFields object [("x", .int 5), ("y", .int 6)]
          { family with store := fresh } = .ok () once ∧
        (once.store.object object).scope = some scope ∧
        Run.readField object "x" once = .ok (.int 5) once ∧
        (¬ ∃ type, once.store.binding? "x" scope = some (type, .int 5)) ∧
        once.store.binding? "y" scope = some (some "integer", .int 6)) ∧
      ∃ twice scope, Run.writeFields object [("x", .int 5), ("x", .int 7)]
          { family with store := fresh } = .ok () twice ∧
        (twice.store.object object).scope = some scope ∧
        twice.store.binding? "x" scope = some (none, .int 7) := by
  have hFresh : family.store.createInstance 2 = (0, relative.store) :=
    Prod.ext (family.store.fst_createInstance 2) rfl
  have hWritable : ∀ name ∈ ["x", "y"], relative.store.Writable 0 [2, 1, 0] name := by
    unfold Store.Writable
    decide +kernel
  have hOnce : ¬ family.store.RepeatsNew 2 [("x", .int 5), ("y", .int 6)] "x" := by
    unfold Store.RepeatsNew
    decide +kernel
  have hOwn : family.store.RepeatsNew 2 [("x", .int 5), ("y", .int 6)] "y" :=
    Or.inl (by decide +kernel)
  have hTwice : family.store.RepeatsNew 2 [("x", .int 5), ("x", .int 7)] "x" :=
    Or.inr (Or.inr (by decide))
  obtain ⟨once, hFirst⟩ : ∃ after,
      Run.writeFields 0 [("x", .int 5), ("y", .int 6)] relative = .ok () after :=
    Run.exists_writeFields relative_lineage relative_holds.there
      (by simpa [Table.names] using hWritable)
  obtain ⟨twice, hSecond⟩ : ∃ after,
      Run.writeFields 0 [("x", .int 5), ("x", .int 7)] relative = .ok () after :=
    Run.exists_writeFields relative_lineage relative_holds.there
      (by simpa [Table.names] using hWritable "x" (by decide))
  obtain ⟨scope, hScope, hFields⟩ := field_repeated_iff hFresh hFirst
  obtain ⟨again, hAgain, hRewritten⟩ := field_repeated_iff hFresh hSecond
  obtain ⟨hRead, -, -, hUnbound⟩ := hFields "x" (.int 5) rfl
  refine ⟨0, relative.store, hFresh, ⟨once, scope, hFirst, hScope, hRead, ?_, ?_⟩,
    twice, again, hSecond, hAgain, ?_⟩
  · rw [hUnbound (by decide) (by decide)]
    exact hOnce
  · exact (hFields "y" (.int 6) rfl).2.1 hOwn
  · exact (hRewritten "x" (.int 7) rfl).2.1 hTwice

end Mus
