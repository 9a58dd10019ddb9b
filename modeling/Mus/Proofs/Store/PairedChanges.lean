import Mus.Proofs.Store.Pairing

/-! Changes of two stores that correspond. What is changed in one of two places that belong
together is changed in the other one in the same way; a scope never gets what it is to lack. -/
namespace Mus

namespace Store

theorem cell_changeCell_of_lt {store : Store} {place : Nat} (hBound : place < store.cells.size)
    (change : List Value → List Value) (other : Nat) :
    (store.changeCell place change).cell other =
      if place = other then change (store.cell other) else store.cell other := by
  simp only [changeCell, Store.cell, Array.getElem?_modify]
  split
  case isTrue hEq =>
    subst hEq
    rw [Array.getElem?_eq_getElem hBound]
    rfl
  case isFalse => rfl

theorem scope_of_scopes {first second : Store} (h : first.scopes = second.scopes) (place : Nat) :
    first.scope place = second.scope place := by
  rw [scope, scope, h]

/-- A change that keeps the parent of a scope keeps the parents of all. -/
theorem parent_changeScope {change : Scope → Scope}
    (h : ∀ scope, (change scope).parent = scope.parent) (store : Store) (place other : Nat) :
    ((store.changeScope place change).scope other).parent = (store.scope other).parent :=
  scopeParent_changeScope h place other

end Store

/-- Arrays that look alike still do so after changes that look alike. -/
theorem map_modify_congr {α β : Type} {xs ys : Array α} {view : α → β}
    (h : xs.map view = ys.map view) {change change' : α → α}
    (hChange : ∀ x y, view x = view y → view (change x) = view (change' y)) (place : Nat) :
    (xs.modify place change).map view = (ys.modify place change').map view := by
  refine Array.ext_getElem? fun i => ?_
  have hEntry : xs[i]?.map view = ys[i]?.map view := by
    rw [← Array.getElem?_map, ← Array.getElem?_map, h]
  rw [Array.getElem?_map, Array.getElem?_map, Array.getElem?_modify, Array.getElem?_modify]
  split
  · cases hx : xs[i]? <;> cases hy : ys[i]? <;> rw [hx, hy] at hEntry
    · rfl
    · cases hEntry
    · cases hEntry
    · exact congrArg some (hChange _ _ (Option.some.inj hEntry))
  · exact hEntry

def Scope.retable (bindings : Table (Option String × Value) → Table (Option String × Value))
    (functions classes : Table Nat → Table Nat) (scope : Scope) : Scope :=
  ⟨scope.parent, bindings scope.bindings, functions scope.functions, classes scope.classes⟩

theorem Scope.parent_retable
    (bindings : Table (Option String × Value) → Table (Option String × Value))
    (functions classes : Table Nat → Table Nat) (scope : Scope) :
    (scope.retable bindings functions classes).parent = scope.parent := rfl

namespace World

variable {w : World} {a b : Store}

/-- The lines outwards depend on the scopes alone. -/
theorem Outward.sameScopes {a' b' : Store} {p q : Option Nat} (h : w.Outward a b p q)
    (ha : a'.scopes = a.scopes) (hb : b'.scopes = b.scopes) : w.Outward a' b' p q := by
  have hLeft := Store.scope_of_scopes ha
  have hRight := Store.scope_of_scopes hb
  induction h with
  | root => exact .root
  | pair hPair => exact .pair hPair
  | left hBound hFree hBindings hClasses _ ih =>
      exact .left (ha ▸ hBound) hFree (by rw [hLeft, hBindings]) (by rw [hLeft, hClasses])
        (by rw [hLeft]; exact ih)
  | right hBound hFree hBindings hClasses _ ih =>
      exact .right (hb ▸ hBound) hFree (by rw [hRight, hBindings]) (by rw [hRight, hClasses])
        (by rw [hRight]; exact ih)

theorem Leads.sameScopes {a' b' : Store} {sought : Sought} {p q : Option Nat}
    (h : w.Leads a b sought p q) (ha : a'.scopes = a.scopes) (hb : b'.scopes = b.scopes) :
    w.Leads a' b' sought p q := by
  have hLeft := Store.scope_of_scopes ha
  have hRight := Store.scope_of_scopes hb
  induction h with
  | same hOut hReach =>
      refine .same (hOut.sameScopes ha hb) fun hClasses => ?_
      obtain ⟨s, t, hJoined, hLine⟩ := hReach hClasses
      exact ⟨s, t, hJoined, hLine.sameScopes ha hb⟩
  | left hPaired hLacks _ ih => exact .left hPaired hLacks (by rw [hLeft]; exact ih)
  | right hPaired hLacks _ ih => exact .right hPaired hLacks (by rw [hRight]; exact ih)

theorem Sight.sameScopes {a' b' : Store} {sought : Sought} {s t distance : Nat}
    (h : w.Sight a b sought s t distance) (ha : a'.scopes = a.scopes)
    (hb : b'.scopes = b.scopes) : w.Sight a' b' sought s t distance := by
  have hLeft := Store.scope_of_scopes ha
  have hRight := Store.scope_of_scopes hb
  induction h with
  | here hLeads => exact .here (hLeads.sameScopes ha hb)
  | beyond hs ht hParent hParent' =>
      exact .beyond (ha ▸ hs) (hb ▸ ht) (by rw [hLeft, hParent]) (by rw [hRight, hParent'])
  | out hs ht hParent hParent' _ ih =>
      exact .out (ha ▸ hs) (hb ▸ ht) (by rw [hLeft, hParent]) (by rw [hRight, hParent']) ih

/-- Scopes that only one store has are not changed. -/
theorem Outward.changeScope {p q : Option Nat} (h : w.Outward a b p q) {s t : Nat}
    (hPaired : w.paired s t) (hLeft : s < a.scopes.size) (hRight : t < b.scopes.size)
    (change change' : Scope → Scope) :
    w.Outward (a.changeScope s change) (b.changeScope t change') p q := by
  induction h with
  | root => exact .root
  | pair hPair => exact .pair hPair
  | @left s' q hBound hFree hBindings hClasses _ ih =>
      have hOther : s ≠ s' := fun hEq => hFree t (hEq ▸ hPaired)
      have hScope := Store.scope_changeScope_of_lt hLeft change s'
      rw [if_neg hOther] at hScope
      refine .left (Store.size_changeScope a s change ▸ hBound) hFree ?_ ?_ ?_
      · rw [hScope, hBindings]
      · rw [hScope, hClasses]
      · rw [hScope]
        exact ih
  | @right t' p hBound hFree hBindings hClasses _ ih =>
      have hOther : t ≠ t' := fun hEq => hFree s (hEq ▸ hPaired)
      have hScope := Store.scope_changeScope_of_lt hRight change' t'
      rw [if_neg hOther] at hScope
      refine .right (Store.size_changeScope b t change' ▸ hBound) hFree ?_ ?_ ?_
      · rw [hScope, hBindings]
      · rw [hScope, hClasses]
      · rw [hScope]
        exact ih

section

variable {s t : Nat} (hPaired : w.paired s t) (hLeft : s < a.scopes.size)
    (hRight : t < b.scopes.size) {change : Scope → Scope}
    (hParent : ∀ scope, (change scope).parent = scope.parent)

include hPaired hLeft hRight hParent

/-- What is found outwards is found after a change of scopes that belong together, as long as they
stay where they are. -/
theorem Leads.changeScope {sought : Sought} {p q : Option Nat} (h : w.Leads a b sought p q) :
    w.Leads (a.changeScope s change) (b.changeScope t change) sought p q := by
  have hParents := Store.parent_changeScope hParent
  induction h with
  | same hOut hReach =>
      refine .same (hOut.changeScope hPaired hLeft hRight _ _) fun hClasses => ?_
      obtain ⟨s', t', hJoined, hLine⟩ := hReach hClasses
      exact ⟨s', t', hJoined, hLine.changeScope hPaired hLeft hRight _ _⟩
  | left hPair hLacks _ ih => exact .left hPair hLacks (by rw [hParents]; exact ih)
  | right hPair hLacks _ ih => exact .right hPair hLacks (by rw [hParents]; exact ih)

/-- What is seen a number of steps out is seen after the change. -/
theorem Sight.changeScope {sought : Sought} {s' t' distance : Nat}
    (h : w.Sight a b sought s' t' distance) :
    w.Sight (a.changeScope s change) (b.changeScope t change) sought s' t' distance := by
  have hParents := Store.parent_changeScope hParent
  induction h with
  | here hLeads => exact .here (hLeads.changeScope hPaired hLeft hRight hParent)
  | beyond hs ht hp hq =>
      exact .beyond (Store.size_changeScope a s _ ▸ hs) (Store.size_changeScope b t _ ▸ ht)
        (by rw [hParents, hp]) (by rw [hParents, hq])
  | out hs ht hp hq _ ih =>
      exact .out (Store.size_changeScope a s _ ▸ hs) (Store.size_changeScope b t _ ▸ ht)
        (by rw [hParents, hp]) (by rw [hParents, hq]) ih

end

/-- What is lacked before a change of scopes is lacked after it, unless the change supplies it. -/
theorem Lacking.changeScope {s t s' t' : Nat} {sought : Sought} (h : w.Lacking a b s' t' sought)
    (hLeft : s < a.scopes.size) {change : Scope → Scope}
    (hParent : ∀ scope, (change scope).parent = scope.parent)
    (hLacks : s = s' → (change (a.scope s')).Lacks sought) :
    w.Lacking (a.changeScope s change) (b.changeScope t change) s' t' sought := by
  have hParents := Store.parent_changeScope hParent
  refine ⟨h.paired, ?_, ?_, ?_⟩
  · rw [Store.scope_changeScope_of_lt hLeft]
    split
    case isTrue hEq => exact hLacks hEq
    case isFalse => exact h.lacks
  · rw [hParents]
    exact h.inner
  · rw [hParents]
    exact h.inner'

namespace Matches

/-- Paired scopes that agree on something still do so after a change that keeps them agreed,
since both of them are changed or neither is. -/
theorem agree_changeScope (h : w.Matches a b) {s t : Nat} (hPaired : w.paired s t)
    {change : Scope → Scope} {α : Type} (field : Scope → α) {s' t' : Nat} (hPair : w.paired s' t')
    (hSame : field (a.scope s') = field (b.scope t'))
    (hChanged : field (change (a.scope s')) = field (change (b.scope t'))) :
    field ((a.changeScope s change).scope s') = field ((b.changeScope t change).scope t') := by
  have hBound := h.bound hPaired
  rw [Store.scope_changeScope_of_lt hBound.1, Store.scope_changeScope_of_lt hBound.2]
  by_cases hEq : s = s'
  · rw [if_pos hEq, if_pos ((h.apart hPaired hPair).mp hEq), hChanged]
  · rw [if_neg hEq, if_neg (mt (h.apart hPaired hPair).mpr hEq), hSame]

/-- What values can lead to stays fine when the tables of two paired scopes are changed. -/
theorem fine_changeScope (h : w.Matches a b) {s t : Nat} (hPaired : w.paired s t)
    {bindings : Table (Option String × Value) → Table (Option String × Value)}
    {functions classes : Table Nat → Table Nat}
    (hCovers : w.known (.scope s) → ∀ scope : Scope, w.Covers scope.places →
      w.Covers (scope.retable bindings functions classes).places)
    {place : Store.Place} (hKnown : w.known place) :
    w.Fine (a.changeScope s (Scope.retable bindings functions classes))
      (b.changeScope t (Scope.retable bindings functions classes)) place := by
  have hTables := Scope.parent_retable bindings functions classes
  cases h.fine hKnown with
  | @scope s' t' hPair hSame hJoins hCovered =>
      refine .scope hPair ?_ ?_ ?_
      · exact h.agree_changeScope hPaired Scope.functions hPair hSame (congrArg functions hSame)
      · rw [Store.parent_changeScope hTables, Store.parent_changeScope hTables]
        exact hJoins
      · rw [Store.scope_changeScope_of_lt (h.bound hPaired).1]
        split
        case isTrue hEq => exact hCovers (hEq ▸ hKnown) _ hCovered
        case isFalse => exact hCovered
  | function hThere hClosure hCovered => exact .function hThere hClosure hCovered
  | classDef hThere hScope hCovered => exact .classDef hThere hScope hCovered
  | object hThere hScope hFree hCovered => exact .object hThere hScope hFree hCovered
  | cell hThere hCovered => exact .cell hThere hCovered

/-- A change of the tables of two scopes that belong together. -/
theorem changeScope (h : w.Matches a b) {s t : Nat} (hPaired : w.paired s t)
    (bindings : Table (Option String × Value) → Table (Option String × Value))
    (functions classes : Table Nat → Table Nat)
    (hLacks : ∀ sought, w.lacks s sought → ∀ scope : Scope, scope.Lacks sought →
      (scope.retable bindings functions classes).Lacks sought)
    (hHeld : ∀ table, w.Covers (table.places (·.2.places)) →
      w.Covers ((bindings table).places (·.2.places)))
    (hFunctions : w.known (.scope s) → ∀ table, w.Covers (table.places ([.function ·])) →
      w.Covers ((functions table).places ([.function ·])))
    (hClasses : w.known (.scope s) → ∀ table, w.Covers (table.places ([.classDef ·])) →
      w.Covers ((classes table).places ([.classDef ·]))) :
    w.Matches (a.changeScope s (Scope.retable bindings functions classes))
      (b.changeScope t (Scope.retable bindings functions classes)) := by
  have hBound := h.bound hPaired
  have hTables := Scope.parent_retable bindings functions classes
  have hParent := Store.parent_changeScope hTables
  have hCovers (hKnown : w.known (.scope s)) (scope : Scope) (hScope : w.Covers scope.places) :
      w.Covers (scope.retable bindings functions classes).places := by
    unfold Scope.places at hScope ⊢
    rw [covers_append, covers_append] at hScope ⊢
    exact ⟨hHeld _ hScope.1, hFunctions hKnown _ hScope.2.1, hClasses hKnown _ hScope.2.2⟩
  refine ⟨⟨h.parallel.functions, h.parallel.classes, h.parallel.objects, h.parallel.cells⟩,
    fun other above hAbove => h.older other above ((hParent a s other).symm.trans hAbove),
    fun other above hAbove => h.older' other above ((hParent b t other).symm.trans hAbove),
    fun hPair => ?_, h.apart, fun hPair => ?_, fun hPair => ?_, fun hPair => ?_,
    fun hPair => ?_, h.fine_changeScope hPaired hCovers, fun {s' sought} hLack => ?_,
    fun hSees => ?_, h.near⟩
  · rw [Store.size_changeScope, Store.size_changeScope]
    exact h.bound hPair
  · have hSame := h.bindings hPair
    exact h.agree_changeScope hPaired Scope.bindings hPair hSame (congrArg bindings hSame)
  · rw [Store.scope_changeScope_of_lt hBound.1]
    split
    · exact hHeld _ (h.held hPair)
    · exact h.held hPair
  · have hSame := h.classes hPair
    exact h.agree_changeScope hPaired Scope.classes hPair hSame (congrArg classes hSame)
  · rw [hParent, hParent]
    exact (h.outward hPair).changeScope hPaired hBound.1 hBound.2 _ _
  · obtain ⟨t', hLacking⟩ := h.lacking hLack
    refine ⟨t', hLacking.changeScope hBound.1 hTables fun hEq => ?_⟩
    exact hLacks sought (hEq ▸ hLack) _ hLacking.lacks
  · exact (h.sight hSees).changeScope hPaired hBound.1 hBound.2 hTables

/-- A variable is declared in scopes that belong together, with a value that does not lead out of
the world. -/
theorem defineVariable (h : w.Matches a b) {s t : Nat} (hPaired : w.paired s t) {name : String}
    (hFree : ¬ w.lacks s (.binding name)) (type : Option String) {value : Value}
    (hValue : w.Covers value.places) :
    w.Matches (a.defineVariable s name type value) (b.defineVariable t name type value) := by
  refine h.changeScope hPaired (fun table => table.insert name (type, value)) id id
    (fun sought hLacks scope hScope => ?_) (fun _ hTable => covers_insert hTable name hValue)
    (fun _ _ => id) fun _ _ => id
  cases sought with
  | classes => exact hScope
  | binding other =>
      have hOther : other ≠ name := fun hEq => hFree (hEq ▸ hLacks)
      exact (Table.find?_insert_of_ne hOther _ _).trans hScope

/-- A change of the fields of an object and of its scope. -/
theorem changeObject (h : w.Matches a b) {o : Nat} (hKnown : w.known (.object o))
    (fields : Table Value → Table Value) (home home' : Option Nat → Option Nat)
    (hCovers : ∀ table : Table Value, w.Covers (table.places Value.places) →
      w.Covers ((fields table).places Value.places))
    (hHome : ∀ p q, Option.Rel w.Joined p q → Option.Rel w.Joined (home p) (home' q))
    (hFree : ∀ p, (∀ s, p = some s → w.Free s) → ∀ s, home p = some s → w.Free s) :
    w.Matches
      (a.changeObject o fun object => ⟨object.classDef, fields object.fields, home object.scope⟩)
      (b.changeObject o fun object =>
        ⟨object.classDef, fields object.fields, home' object.scope⟩) := by
  have hBound : o < a.objects.size := by
    cases h.fine hKnown with
    | object hThere _ _ _ => exact hThere
  have hLeft := Store.object_changeObject_of_lt hBound fun object =>
    ⟨object.classDef, fields object.fields, home object.scope⟩
  have hRight := Store.object_changeObject_of_lt (h.parallel.objects_size ▸ hBound) fun object =>
    ⟨object.classDef, fields object.fields, home' object.scope⟩
  have hAlike (x y : Object) (hBare : x.bare = y.bare) :
      Object.bare ⟨x.classDef, fields x.fields, home x.scope⟩ =
        Object.bare ⟨y.classDef, fields y.fields, home' y.scope⟩ := by
    rw [Object.bare, Object.bare, (Object.of_bare hBare).1, (Object.of_bare hBare).2]
  refine ⟨⟨h.parallel.functions, h.parallel.classes, ?_, h.parallel.cells⟩, h.older, h.older',
    h.bound, h.apart, h.bindings, h.held, h.classes,
    fun hPair => (h.outward hPair).sameScopes rfl rfl, fun {place} hPlace => ?_,
    fun hLack => (h.lacking hLack).imp fun _ hLacking =>
      ⟨hLacking.paired, hLacking.lacks, hLacking.inner, hLacking.inner'⟩,
    fun hSees => (h.sight hSees).sameScopes rfl rfl, h.near⟩
  · exact map_modify_congr h.parallel.objects hAlike o
  · cases h.fine hPlace with
    | scope hPair hFunctions hJoins hCovered => exact .scope hPair hFunctions hJoins hCovered
    | function hThere hClosure hCovered => exact .function hThere hClosure hCovered
    | classDef hThere hScope hCovered => exact .classDef hThere hScope hCovered
    | object hThere hScope hOpen hCovered =>
        refine .object (by simpa [Store.changeObject] using hThere) ?_ ?_ ?_
        · rw [hLeft, hRight]
          split
          · exact hHome _ _ hScope
          · exact hScope
        · rw [hLeft]
          split
          · exact hFree _ hOpen
          · exact hOpen
        · rw [hLeft]
          split
          · unfold Object.places at hCovered ⊢
            rw [covers_cons] at hCovered ⊢
            exact ⟨hCovered.1, hCovers _ hCovered.2⟩
          · exact hCovered
    | cell hThere hCovered => exact .cell hThere hCovered

/-- A field is written to an object that both stores have. -/
theorem insertField (h : w.Matches a b) {o : Nat} (hKnown : w.known (.object o)) (name : String)
    {value : Value} (hValue : w.Covers value.places) :
    w.Matches
      (a.changeObject o fun object => { object with fields := object.fields.insert name value })
      (b.changeObject o fun object => { object with fields := object.fields.insert name value }) :=
  h.changeObject hKnown (·.insert name value) id id
    (fun _ hTable => covers_insert hTable name hValue) (fun _ _ => id) fun _ => id

/-- A cell that both stores have changes to items that do not lead out of the world. -/
theorem changeCell (h : w.Matches a b) {c : Nat} (hKnown : w.known (.cell c))
    {change : List Value → List Value}
    (hCovers : ∀ values, w.Covers (Value.placesAll values) →
      w.Covers (Value.placesAll (change values))) :
    w.Matches (a.changeCell c change) (b.changeCell c change) := by
  have hBound : c < a.cells.size := by
    cases h.fine hKnown with
    | cell hThere _ => exact hThere
  refine ⟨⟨h.parallel.functions, h.parallel.classes, h.parallel.objects, ?_⟩, h.older, h.older',
    h.bound, h.apart, h.bindings, h.held, h.classes,
    fun hPair => (h.outward hPair).sameScopes rfl rfl, fun {place} hPlace => ?_,
    fun hLack => (h.lacking hLack).imp fun _ hLacking =>
      ⟨hLacking.paired, hLacking.lacks, hLacking.inner, hLacking.inner'⟩,
    fun hSees => (h.sight hSees).sameScopes rfl rfl, h.near⟩
  · simp only [Store.changeCell, h.parallel.cells]
  · cases h.fine hPlace with
    | scope hPair hFunctions hJoins hCovered => exact .scope hPair hFunctions hJoins hCovered
    | function hThere hClosure hCovered => exact .function hThere hClosure hCovered
    | classDef hThere hScope hCovered => exact .classDef hThere hScope hCovered
    | object hThere hScope hFree hCovered => exact .object hThere hScope hFree hCovered
    | cell hThere hCovered =>
        refine .cell (by simpa [Store.changeCell] using hThere) ?_
        rw [Store.cell_changeCell_of_lt hBound]
        split
        · exact hCovers _ hCovered
        · exact hCovered

end Matches

end World

end Mus
