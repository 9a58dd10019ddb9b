import Mus.Store.Object

/-! The parents of scopes and classes. Whatever is added to a store refers to what is
there already, so a parent is older than what it is the parent of, and it never
changes. From each scope and each class a finite line of ever older places leads to one
without a parent, and this line is what a look-up goes along. -/
namespace Mus

/-! ## Lines of ancestors -/

/-- The places from one place on, each followed by its parent, to one that has none. -/
inductive Ancestry (parent : Nat → Option Nat) : Nat → List Nat → Prop where
  | root {place : Nat} (hParent : parent place = none) : Ancestry parent place [place]
  | step {place above : Nat} {line : List Nat} (hParent : parent place = some above)
      (hAbove : Ancestry parent above line) : Ancestry parent place (place :: line)

def Older (parent : Nat → Option Nat) : Prop :=
  ∀ place above, parent place = some above → above < place

namespace Older

variable {parent : Nat → Option Nat}

/-- There is no endless chain of parents. -/
theorem wellFounded (h : Older parent) :
    WellFounded fun above place => parent place = some above :=
  Subrelation.wf (fun {above place} hParent => h place above hParent) Nat.lt_wfRel.wf

/-- From every place there is a line to one without a parent, by induction along the chain. -/
theorem exists_ancestry (h : Older parent) (place : Nat) : ∃ line, Ancestry parent place line := by
  induction place using Nat.strongRecOn with
  | ind place ih =>
      cases hParent : parent place with
      | none => exact ⟨[place], .root hParent⟩
      | some above =>
          obtain ⟨line, hLine⟩ := ih above (h place above hParent)
          exact ⟨place :: line, .step hParent hLine⟩

/-- A line leads to nothing that is younger than its start. -/
theorem le_of_mem (h : Older parent) {place member : Nat} {line : List Nat}
    (hLine : Ancestry parent place line) (hMember : member ∈ line) : member ≤ place := by
  induction hLine with
  | root hParent => exact Nat.le_of_eq (List.mem_singleton.mp hMember)
  | step hParent _ ih =>
      rcases List.mem_cons.mp hMember with rfl | hAbove
      · exact Nat.le_refl _
      · exact Nat.le_of_lt (Nat.lt_of_le_of_lt (ih hAbove) (h _ _ hParent))

/-- A line of ancestors goes from younger to older places. -/
theorem descending (h : Older parent) {place : Nat} {line : List Nat}
    (hLine : Ancestry parent place line) : line.Pairwise (· > ·) := by
  induction hLine with
  | root _ => exact List.pairwise_singleton _ _
  | step hParent hAbove ih =>
      refine List.pairwise_cons.mpr ⟨fun member hMember => ?_, ih⟩
      exact Nat.lt_of_le_of_lt (h.le_of_mem hAbove hMember) (h _ _ hParent)

end Older

namespace Store

variable (store : Store)

def scopeParent (place : Nat) : Option Nat := (store.scope place).parent

def classParent (place : Nat) : Option Nat := (store.classDef place).parent

/-! ## Look-ups along a line -/

section

variable {store} {place : Nat} {line : List Nat}

/-- What a scope has is found there. -/
theorem inScopes_of_some {α : Type} {find : Scope → Option α} {entry : α}
    (h : find (store.scope place) = some entry) : store.inScopes find place = some entry := by
  unfold inScopes
  rw [h]

/-- The bounded look-up in scopes goes along the whole line: its bound is never what ends it. -/
theorem inScopes_eq_findSome? {α : Type} (h : Older store.scopeParent)
    (find : Scope → Option α) (hLine : Ancestry store.scopeParent place line) :
    store.inScopes find place = line.findSome? fun scope => find (store.scope scope) := by
  induction hLine with
  | root hParent =>
      unfold scopeParent at hParent
      rw [inScopes, hParent, List.findSome?_cons, List.findSome?_nil]
      cases find (store.scope _) <;> rfl
  | step hParent hAbove ih =>
      have hOlder := h _ _ hParent
      unfold scopeParent at hParent
      rw [inScopes, hParent, List.findSome?_cons, ← ih]
      dsimp only
      rw [if_pos hOlder]
      cases find (store.scope _) <;> rfl

/-- A variable is set in the first scope of the line that binds it. -/
theorem setVariable_eq_findSome? (h : Older store.scopeParent) (name : String) (value : Value)
    (hLine : Ancestry store.scopeParent place line) :
    store.setVariable place name value = line.findSome? fun scope =>
      ((store.scope scope).bindings.find? name).map fun entry =>
        store.defineVariable scope name entry.1 value := by
  induction hLine with
  | root hParent =>
      unfold scopeParent at hParent
      rw [setVariable, hParent, List.findSome?_cons, List.findSome?_nil]
      cases (store.scope _).bindings.find? name <;> rfl
  | step hParent hAbove ih =>
      have hOlder := h _ _ hParent
      unfold scopeParent at hParent
      rw [setVariable, hParent, List.findSome?_cons, ← ih]
      dsimp only
      rw [if_pos hOlder]
      cases (store.scope _).bindings.find? name <;> rfl

/-- Methods are looked up along the whole line of classes. -/
theorem method?_eq_findSome? (h : Older store.classParent) (name : String)
    (hLine : Ancestry store.classParent place line) :
    store.method? place name =
      line.findSome? fun classPlace => (store.classDef classPlace).methods.find? name := by
  induction hLine with
  | root hParent =>
      unfold classParent at hParent
      rw [method?, hParent, List.findSome?_cons, List.findSome?_nil]
      cases (store.classDef _).methods.find? name <;> rfl
  | step hParent hAbove ih =>
      have hOlder := h _ _ hParent
      unfold classParent at hParent
      rw [method?, hParent, List.findSome?_cons, ← ih]
      dsimp only
      rw [if_pos hOlder]
      cases (store.classDef _).methods.find? name <;> rfl

/-- Fields are looked up along the whole line of classes. -/
theorem declares_eq_any (h : Older store.classParent) (name : String)
    (hLine : Ancestry store.classParent place line) :
    store.declares place name =
      line.any fun classPlace => (store.classDef classPlace).fields.has name := by
  induction hLine with
  | root hParent =>
      unfold classParent at hParent
      rw [declares, hParent, List.any_cons, List.any_nil]
  | step hParent hAbove ih =>
      have hOlder := h _ _ hParent
      unfold classParent at hParent
      rw [declares, hParent, List.any_cons, ← ih]
      dsimp only
      rw [if_pos hOlder]

/-- The oldest ancestor of a class is the last one on its line. -/
theorem getLast?_eq_rootClass (h : Older store.classParent)
    (hLine : Ancestry store.classParent place line) :
    line.getLast? = some (store.rootClass place) := by
  induction hLine with
  | root hParent =>
      unfold classParent at hParent
      rw [rootClass, hParent]
      rfl
  | step hParent hAbove ih =>
      have hOlder := h _ _ hParent
      unfold classParent at hParent
      rw [rootClass, hParent]
      dsimp only
      rw [if_pos hOlder, List.getLast?_cons, ih]
      rfl

end

/-- A field is written if the object has it or a class on the line declares it. -/
theorem isSome_writeField (store : Store) (object : Nat) (name : String) (value : Value) :
    (store.writeField object name value).isSome =
      ((store.object object).fields.has name ||
        store.declares (store.object object).classDef name) := by
  have hOwn (h : (store.classDef (store.object object).classDef).fields.has name = true) :
      store.declares (store.object object).classDef name = true := by
    rw [declares, h, Bool.true_or]
  unfold writeField
  dsimp only
  split
  case isTrue h =>
    have hRight : ((store.object object).fields.has name ||
        store.declares (store.object object).classDef name) = true := by
      rcases Bool.or_eq_true_iff.mp h with hClass | hField
      · rw [hOwn hClass, Bool.or_true]
      · rw [hField, Bool.true_or]
    rw [hRight]
    split <;> rfl
  case isFalse h =>
    have hField : (store.object object).fields.has name = false :=
      (Bool.or_eq_false_iff.mp (Bool.eq_false_iff.mpr h)).2
    rw [hField, Bool.false_or]
    cases store.declares (store.object object).classDef name <;> rfl

/-! ## Stores that are extended -/

/-- A new scope is at the first free place, and all others are where they were. -/
@[simp]
theorem scope_addScope (scope : Scope) (place : Nat) :
    (store.addScope scope).2.scope place =
      if place = store.scopes.size then scope else store.scope place := by
  simp only [addScope, Store.scope, Array.getElem?_push]
  split <;> rfl

@[simp]
theorem function_addFunction (function : Function) (place : Nat) :
    (store.addFunction function).2.function place =
      if place = store.functions.size then function else store.function place := by
  simp only [addFunction, Store.function, Array.getElem?_push]
  split <;> rfl

@[simp]
theorem classDef_addClass (classDef : ClassDef) (place : Nat) :
    (store.addClass classDef).2.classDef place =
      if place = store.classes.size then classDef else store.classDef place := by
  simp only [addClass, Store.classDef, Array.getElem?_push]
  split <;> rfl

@[simp]
theorem object_addObject (object : Object) (place : Nat) :
    (store.addObject object).2.object place =
      if place = store.objects.size then object else store.object place := by
  simp only [addObject, Store.object, Array.getElem?_push]
  split <;> rfl

/-- A changed scope is the change of one that was there. -/
theorem scope_changeScope (place : Nat) (change : Scope → Scope) (other : Nat) :
    (store.changeScope place change).scope other = store.scope other ∨
      (store.changeScope place change).scope other = change (store.scope other) := by
  simp only [changeScope, Store.scope, Array.getElem?_modify]
  split
  · cases store.scopes[other]? with
    | none => exact Or.inl rfl
    | some scope => exact Or.inr rfl
  · exact Or.inl rfl

/-- A change of an object is seen at its own place or nowhere. -/
theorem object_changeObject (place : Nat) (change : Object → Object) (other : Nat) :
    (store.changeObject place change).object other = store.object other ∨
      (store.changeObject place change).object other = change (store.object other) := by
  simp only [changeObject, Store.object, Array.getElem?_modify]
  split
  · cases store.objects[other]? with
    | none => exact Or.inl rfl
    | some object => exact Or.inr rfl
  · exact Or.inl rfl

theorem scope_changeScope_of_lt {store : Store} {place : Nat} (hBound : place < store.scopes.size)
    (change : Scope → Scope) (other : Nat) :
    (store.changeScope place change).scope other =
      if place = other then change (store.scope other) else store.scope other := by
  simp only [changeScope, Store.scope, Array.getElem?_modify]
  split
  case isTrue hEq =>
    subst hEq
    rw [Array.getElem?_eq_getElem hBound]
    rfl
  case isFalse => rfl

theorem size_changeScope (store : Store) (place : Nat) (change : Scope → Scope) :
    (store.changeScope place change).scopes.size = store.scopes.size := by
  simp [changeScope]

theorem object_changeObject_of_lt {store : Store} {place : Nat}
    (hBound : place < store.objects.size) (change : Object → Object) (other : Nat) :
    (store.changeObject place change).object other =
      if place = other then change (store.object other) else store.object other := by
  simp only [changeObject, Store.object, Array.getElem?_modify]
  split
  case isTrue hEq =>
    subst hEq
    rw [Array.getElem?_eq_getElem hBound]
    rfl
  case isFalse => rfl

/-- The second store is a later one of the first: the scopes still have their parents,
the classes are the same, and the objects are of the same classes. -/
structure Extends (before after : Store) : Prop where
  scopes : before.scopes.size ≤ after.scopes.size
  scopeParent : ∀ place < before.scopes.size, after.scopeParent place = before.scopeParent place
  classes : before.classes.size ≤ after.classes.size
  classDef : ∀ place < before.classes.size, after.classDef place = before.classDef place
  objects : before.objects.size ≤ after.objects.size
  objectClass : ∀ place < before.objects.size,
    (after.object place).classDef = (before.object place).classDef

variable {store}

namespace Extends

theorem refl (store : Store) : store.Extends store where
  scopes := Nat.le_refl _
  scopeParent _ _ := rfl
  classes := Nat.le_refl _
  classDef _ _ := rfl
  objects := Nat.le_refl _
  objectClass _ _ := rfl

theorem trans {first second third : Store} (h₁ : first.Extends second)
    (h₂ : second.Extends third) : first.Extends third where
  scopes := Nat.le_trans h₁.scopes h₂.scopes
  scopeParent place hPlace :=
    (h₂.scopeParent place (Nat.lt_of_lt_of_le hPlace h₁.scopes)).trans (h₁.scopeParent place hPlace)
  classes := Nat.le_trans h₁.classes h₂.classes
  classDef place hPlace :=
    (h₂.classDef place (Nat.lt_of_lt_of_le hPlace h₁.classes)).trans (h₁.classDef place hPlace)
  objects := Nat.le_trans h₁.objects h₂.objects
  objectClass place hPlace :=
    (h₂.objectClass place (Nat.lt_of_lt_of_le hPlace h₁.objects)).trans
      (h₁.objectClass place hPlace)

end Extends

/-- Parents are older than what they are the parents of, and the scopes and classes that
can become parents of new ones are there, with the current scope among them. -/
structure Linked (store : Store) (current : Nat) : Prop where
  scopes : Older store.scopeParent
  classes : Older store.classParent
  closures : ∀ place scope, (store.function place).closure = some scope →
    scope < store.scopes.size
  homes : ∀ place scope, (store.classDef place).scope = some scope → scope < store.scopes.size
  listed : ∀ place name classPlace, (store.scope place).classes.find? name = some classPlace →
    classPlace < store.classes.size
  current : current < store.scopes.size

variable {current : Nat}

/-- A class that is found is there. -/
theorem Linked.lt_of_class? (h : store.Linked current) {place classPlace : Nat} {name : String}
    (hFound : store.class? place name = some classPlace) : classPlace < store.classes.size := by
  obtain ⟨line, hLine⟩ := h.scopes.exists_ancestry place
  unfold class? at hFound
  rw [inScopes_eq_findSome? h.scopes _ hLine] at hFound
  obtain ⟨scope, -, hScope⟩ := List.exists_of_findSome?_eq_some hFound
  exact h.listed scope name classPlace hScope

/-- A change from one store to a later one that leaves it linked. -/
structure Builds (current : Nat) (before after : Store) : Prop where
  kept : before.Extends after
  linked : before.Linked current → after.Linked current

namespace Builds

theorem refl (store : Store) : store.Builds current store :=
  ⟨.refl store, id⟩

theorem trans {first second third : Store} (h₁ : first.Builds current second)
    (h₂ : second.Builds current third) : first.Builds current third :=
  ⟨h₁.kept.trans h₂.kept, fun h => h₂.linked (h₁.linked h)⟩

end Builds

/-! ## What is added -/

/-- A scope may be added inside one that is there, with classes that are there. -/
theorem builds_addScope {scope : Scope}
    (hParent : store.Linked current → ∀ above, scope.parent = some above →
      above < store.scopes.size)
    (hClasses : store.Linked current → ∀ name classPlace,
      scope.classes.find? name = some classPlace → classPlace < store.classes.size) :
    store.Builds current (store.addScope scope).2 where
  kept :=
    { Extends.refl store with
      scopes := by simp [addScope]
      scopeParent := fun place hPlace => by
        unfold scopeParent
        rw [scope_addScope, if_neg (Nat.ne_of_lt hPlace)] }
  linked h := by
    have hSize : (store.addScope scope).2.scopes.size = store.scopes.size + 1 := by simp [addScope]
    refine ⟨fun place above hAbove => ?_, h.classes, fun place closure hClosure => ?_,
      fun place home hHome => ?_, fun place name classPlace hFound => ?_, ?_⟩
    · unfold scopeParent at hAbove
      rw [scope_addScope] at hAbove
      split at hAbove
      case isTrue hNew => exact hNew ▸ hParent h above hAbove
      case isFalse => exact h.scopes place above hAbove
    · rw [hSize]
      exact Nat.lt_succ_of_lt (h.closures place closure hClosure)
    · rw [hSize]
      exact Nat.lt_succ_of_lt (h.homes place home hHome)
    · rw [scope_addScope] at hFound
      split at hFound
      · exact hClasses h name classPlace hFound
      · exact h.listed place name classPlace hFound
    · rw [hSize]
      exact Nat.lt_succ_of_lt h.current

/-- A scope that has nothing but its parent. -/
theorem builds_addInner {parent : Option Nat}
    (hParent : store.Linked current → ∀ above, parent = some above → above < store.scopes.size) :
    store.Builds current (store.addScope { parent := parent }).2 :=
  builds_addScope hParent fun _ _ _ hFound => by cases hFound

/-- A function may be added with a closure that is there. -/
theorem builds_addFunction {function : Function}
    (hClosure : store.Linked current → ∀ scope, function.closure = some scope →
      scope < store.scopes.size) :
    store.Builds current (store.addFunction function).2 where
  kept := { Extends.refl store with }
  linked h := by
    refine { h with closures := fun place scope hScope => ?_ }
    rw [function_addFunction] at hScope
    split at hScope
    · exact hClosure h scope hScope
    · exact h.closures place scope hScope

theorem extends_addClass (store : Store) (classDef : ClassDef) :
    store.Extends (store.addClass classDef).2 :=
  { Extends.refl store with
    classes := by simp [addClass]
    classDef := fun place hPlace => by rw [classDef_addClass, if_neg (Nat.ne_of_lt hPlace)] }

/-- A class may be added with a parent and a scope that are there. It is then younger than both. -/
theorem builds_addClass {classDef : ClassDef}
    (hParent : store.Linked current → ∀ above, classDef.parent = some above →
      above < store.classes.size)
    (hScope : store.Linked current → ∀ scope, classDef.scope = some scope →
      scope < store.scopes.size) :
    store.Builds current (store.addClass classDef).2 where
  kept := extends_addClass store classDef
  linked h := by
    have hSize : (store.addClass classDef).2.classes.size = store.classes.size + 1 := by
      simp [addClass]
    refine { h with
      classes := fun place above hAbove => ?_
      homes := fun place scope hHome => ?_
      listed := fun place name classPlace hFound => ?_ }
    · unfold classParent at hAbove
      rw [classDef_addClass] at hAbove
      split at hAbove
      case isTrue hNew => exact hNew ▸ hParent h above hAbove
      case isFalse => exact h.classes place above hAbove
    · rw [classDef_addClass] at hHome
      split at hHome
      · exact hScope h scope hHome
      · exact h.homes place scope hHome
    · rw [hSize]
      exact Nat.lt_succ_of_lt (h.listed place name classPlace hFound)

theorem builds_addObject (store : Store) (object : Object) :
    store.Builds current (store.addObject object).2 where
  kept :=
    { Extends.refl store with
      objects := by simp [addObject]
      objectClass := fun place hPlace => by rw [object_addObject, if_neg (Nat.ne_of_lt hPlace)] }
  linked h := { h with }

theorem builds_addCell (store : Store) (items : List Value) :
    store.Builds current (store.addCell items).2 where
  kept := { Extends.refl store with }
  linked h := { h with }

/-! ## What is changed -/

theorem builds_setItem (store : Store) (items : Items) (index : Nat) (value : Value) :
    store.Builds current (store.setItem items index value) := by
  cases items with
  | constant values => exact Builds.refl store
  | cell place => exact ⟨{ Extends.refl store with }, fun h => { h with }⟩

/-- An object may change in everything but its class. -/
theorem builds_changeObject (store : Store) {change : Object → Object}
    (hClass : ∀ object, (change object).classDef = object.classDef) (place : Nat) :
    store.Builds current (store.changeObject place change) where
  kept :=
    { Extends.refl store with
      objects := by simp [changeObject]
      objectClass := fun other _ => by
        rcases store.object_changeObject place change other with h | h
        · rw [h]
        · rw [h, hClass] }
  linked h := { h with }

/-- A change that keeps the parent of a scope moves no scope. -/
theorem scopeParent_changeScope {change : Scope → Scope}
    (hParent : ∀ scope, (change scope).parent = scope.parent) (place other : Nat) :
    (store.changeScope place change).scopeParent other = store.scopeParent other := by
  unfold scopeParent
  rcases store.scope_changeScope place change other with h | h
  · rw [h]
  · rw [h, hParent]

theorem extends_changeScope (store : Store) {change : Scope → Scope}
    (hParent : ∀ scope, (change scope).parent = scope.parent) (place : Nat) :
    store.Extends (store.changeScope place change) :=
  { Extends.refl store with
    scopes := by simp [changeScope]
    scopeParent := fun other _ => scopeParent_changeScope hParent place other }

/-- A change of a scope that keeps its parent and lists no class that is not there. -/
theorem builds_changeScope {change : Scope → Scope}
    (hParent : ∀ scope, (change scope).parent = scope.parent)
    (hClasses : store.Linked current → ∀ scope name classPlace,
      (change scope).classes.find? name = some classPlace →
      scope.classes.find? name = some classPlace ∨ classPlace < store.classes.size)
    (place : Nat) : store.Builds current (store.changeScope place change) where
  kept := extends_changeScope store hParent place
  linked h := by
    have hSize : (store.changeScope place change).scopes.size = store.scopes.size := by
      simp [changeScope]
    refine ⟨fun other above hAbove => ?_, h.classes, fun other closure hClosure => ?_,
      fun other home hHome => ?_, fun other name classPlace hFound => ?_, ?_⟩
    · rw [scopeParent_changeScope hParent] at hAbove
      exact h.scopes other above hAbove
    · rw [hSize]
      exact h.closures other closure hClosure
    · rw [hSize]
      exact h.homes other home hHome
    · rcases store.scope_changeScope place change other with hOld | hNew
      · rw [hOld] at hFound
        exact h.listed other name classPlace hFound
      · rw [hNew] at hFound
        rcases hClasses h _ name classPlace hFound with hListed | hThere
        · exact h.listed other name classPlace hListed
        · exact hThere
    · rw [hSize]
      exact h.current

/-- A variable is no parent of anything. -/
theorem builds_defineVariable (store : Store) (place : Nat) (name : String)
    (type : Option String) (value : Value) :
    store.Builds current (store.defineVariable place name type value) := by
  refine builds_changeScope ?_ ?_ place
  · exact fun _ => rfl
  · exact fun _ _ _ _ hFound => Or.inl hFound

/-- Setting a variable declares it again in one of the scopes. -/
theorem builds_setVariable {place : Nat} {name : String} {value : Value} {after : Store}
    (h : store.setVariable place name value = some after) : store.Builds current after := by
  fun_induction setVariable store place name value with
  | case1 place type old hFound =>
      cases h
      exact builds_defineVariable store place name type value
  | case2 place hNone parent hParent hLess ih => exact ih h
  | case3 => cases h
  | case4 => cases h

/-! ## Declarations, instances and bound methods -/

/-- A function is declared with the scope as closure, which is there. -/
theorem builds_defineFunction {place : Nat}
    (hPlace : store.Linked current → place < store.scopes.size) (name : String) (params : Params)
    (body : List Stmt) :
    store.Builds current (store.defineFunction place name params body) := by
  refine (builds_addFunction ?_).trans (builds_changeScope ?_ ?_ place)
  · rintro h scope ⟨⟩
    exact hPlace h
  · exact fun _ => rfl
  · exact fun _ _ _ _ hFound => Or.inl hFound

theorem extends_defineClass (store : Store) (place : Nat) (name : String)
    (fields : Table (String × Value)) (methods : Table Nat) (parent : Option Nat) :
    store.Extends (store.defineClass place name fields methods parent).2 := by
  refine (extends_addClass store _).trans (extends_changeScope _ ?_ place)
  exact fun _ => rfl

/-- The new class may extend any class that is there, also one that had its name. -/
theorem builds_defineClass {place : Nat} (hPlace : store.Linked current → place < store.scopes.size)
    (name : String) (fields : Table (String × Value)) (methods : Table Nat) {parent : Option Nat}
    (hParent : store.Linked current → ∀ above, parent = some above → above < store.classes.size) :
    store.Builds current (store.defineClass place name fields methods parent).2 := by
  refine (builds_addClass ?_ ?_).trans (builds_changeScope ?_ ?_ place)
  · exact hParent
  · rintro h scope ⟨⟩
    exact hPlace h
  · exact fun _ => rfl
  · intro _ scope other classPlace hFound
    by_cases hName : other = name
    · rw [hName, Table.find?_insert_self] at hFound
      cases hFound
      exact Or.inr (by simp [addClass])
    · rw [Table.find?_insert_of_ne hName] at hFound
      exact Or.inl hFound

theorem builds_defineSelf (store : Store) (scope object : Nat) :
    store.Builds current (store.defineSelf scope object) := by
  unfold defineSelf
  dsimp only
  split
  · exact (builds_defineVariable store _ _ _ _).trans (builds_defineVariable _ _ _ _ _)
  · exact builds_defineVariable store _ _ _ _

/-- The scope of a bound function is inside its old closure. -/
theorem builds_bind (store : Store) (function object : Nat) :
    store.Builds current (store.bind function object).2 := by
  refine ((builds_addInner fun h => h.closures function).trans
    (builds_defineSelf _ _ object)).trans (builds_addFunction ?_)
  -- The closure of the bound function is the scope that has just been added.
  rintro - scope ⟨⟩
  refine Nat.lt_of_lt_of_le ?_ (@builds_defineSelf current _ _ object).kept.scopes
  simp [addScope]

/-- A new object of a class with its fields and a scope of its own, before its
constructor is bound. -/
def newborn (store : Store) (classPlace : Nat) : Store :=
  let fields : Table Value := (store.classDef classPlace).fields.foldl
    (fun fields field => fields.insert field.1 field.2.2) []
  let (object, store') := store.addObject ⟨classPlace, fields, none⟩
  let (scope, store') := store'.addScope { parent := (store.classDef classPlace).scope }
  let store' := store'.changeObject object fun o => { o with scope := some scope }
  store'.defineSelf scope object

/-- A class with a constructor binds it to the new object. -/
theorem createInstance_of_init {classPlace init bound : Nat} {ready : Store}
    (h : (store.newborn classPlace).method? classPlace "init" = some init)
    (hBind : (store.newborn classPlace).bind init store.objects.size = (bound, ready)) :
    store.createInstance classPlace =
      (store.objects.size, ready.changeObject store.objects.size fun o =>
        { o with fields := o.fields.insert "init" (.function bound) }) := by
  unfold createInstance
  dsimp only
  split
  case h_1 other hInit =>
    cases Option.some.inj (h.symm.trans hInit)
    unfold newborn at hBind
    exact hBind ▸ rfl
  case h_2 hNone => cases h.symm.trans hNone

theorem createInstance_of_none {classPlace : Nat}
    (h : (store.newborn classPlace).method? classPlace "init" = none) :
    store.createInstance classPlace = (store.objects.size, store.newborn classPlace) := by
  unfold createInstance
  dsimp only
  split
  case h_1 other hInit => cases h.symm.trans hInit
  case h_2 => rfl

/-- A new object is made ready after it has been added. -/
theorem exists_added (current : Nat) (store : Store) (classPlace : Nat) :
    ∃ object : Object, object.classDef = classPlace ∧
      (store.addObject object).2.Builds current (store.newborn classPlace) := by
  refine ⟨_, ?_, ((builds_addInner ?_).trans (builds_changeObject _ ?_ _)).trans
    (builds_defineSelf _ _ _)⟩
  · rfl
  · exact fun h => h.homes classPlace
  · exact fun _ => rfl

theorem fst_createInstance (store : Store) (classPlace : Nat) :
    (store.createInstance classPlace).1 = store.objects.size := by
  cases hInit : (store.newborn classPlace).method? classPlace "init" with
  | none => rw [createInstance_of_none hInit]
  | some init => rw [createInstance_of_init hInit rfl]

/-- Binding the constructor builds on the store with the new object. -/
theorem newborn_builds_createInstance (store : Store) (classPlace : Nat) :
    (store.newborn classPlace).Builds current (store.createInstance classPlace).2 := by
  cases hInit : (store.newborn classPlace).method? classPlace "init" with
  | none =>
      rw [createInstance_of_none hInit]
      exact Builds.refl _
  | some init =>
      rw [createInstance_of_init hInit rfl]
      refine (builds_bind _ init _).trans (builds_changeObject _ ?_ _)
      exact fun _ => rfl

/-- The scope of a new object is inside that of its class, which is there. -/
theorem builds_createInstance (store : Store) (classPlace : Nat) :
    store.Builds current (store.createInstance classPlace).2 := by
  obtain ⟨object, -, hReady⟩ := exists_added current store classPlace
  exact ((builds_addObject store object).trans hReady).trans
    (newborn_builds_createInstance store classPlace)

/-- The new object has the first free place, and it is of its class. -/
theorem object_createInstance (store : Store) (classPlace : Nat) :
    store.objects.size < (store.createInstance classPlace).2.objects.size ∧
    ((store.createInstance classPlace).2.object store.objects.size).classDef = classPlace := by
  obtain ⟨object, hClass, hReady⟩ := exists_added 0 store classPlace
  have hAdded : store.objects.size < (store.addObject object).2.objects.size := by simp [addObject]
  have hKept := (hReady.trans (newborn_builds_createInstance store classPlace)).kept
  refine ⟨Nat.lt_of_lt_of_le hAdded hKept.objects, ?_⟩
  rw [hKept.objectClass _ hAdded, object_addObject, if_pos rfl, hClass]

/-- Reading a field builds on the store, as it may bind a method. -/
theorem builds_readField {object : Nat} {name : String} {value : Value} {after : Store}
    (h : store.readField object name = some (value, after)) : store.Builds current after := by
  unfold readField at h
  split at h
  · cases h
    exact Builds.refl store
  · split at h
    · cases h
      exact builds_bind store _ object
    · cases h

/-- Writing a field changes objects and variables only. -/
theorem builds_writeField {object : Nat} {name : String} {value : Value} {after : Store}
    (h : store.writeField object name value = some after) : store.Builds current after := by
  have hWritten : store.Builds current (store.changeObject object fun o =>
      { o with fields := o.fields.insert name value }) := by
    refine builds_changeObject store ?_ object
    exact fun _ => rfl
  unfold writeField at h
  dsimp only at h
  split at h
  · split at h
    · cases h
      exact hWritten.trans (builds_defineVariable _ _ _ _ _)
    · cases h
      exact hWritten
  · split at h
    · cases h
      exact hWritten
    · cases h

end Store

end Mus
