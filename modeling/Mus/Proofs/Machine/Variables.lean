import Mus.Proofs.Machine.Ancestry
import Mus.Proofs.Store.Objects

/-! Variables along a line of scopes. A variable is read from the first scope of the line
that binds it, and it is set in that very scope. All who read it from there see the new
value, and nobody sees anything else change. Counting scopes outwards and looking from
there on finds the same as looking from the inside, as long as no scope that is skipped
binds the name. All this rests on scopes being younger than those around them, as they are
on every machine that is reached (`Machine.Reached.linked`). -/
namespace Mus

/-! ## Parts of a line -/

namespace Ancestry

variable {parent : Nat → Option Nat} {place member : Nat} {below above : List Nat}

theorem head_eq (h : Ancestry parent place (member :: above)) : place = member := by
  cases h with
  | root => rfl
  | step => rfl

theorem length_eq {line : List Nat} (h : Ancestry parent place line) :
    line.length = line.tail.length + 1 := by
  cases h with
  | root => rfl
  | step => rfl

/-- A line goes on from each of its places. -/
theorem of_append (h : Ancestry parent place (below ++ member :: above)) :
    Ancestry parent member (member :: above) := by
  induction below generalizing place with
  | nil =>
      obtain rfl := h.head_eq
      exact h
  | cons first below ih =>
      generalize hLine : first :: below ++ member :: above = line at h
      cases h with
      | root => simp at hLine
      | step hParent hAbove =>
          simp only [List.cons_append, List.cons.injEq] at hLine
          obtain ⟨-, rfl⟩ := hLine
          exact ih hAbove

end Ancestry

/-- A place comes only once in its line. -/
theorem Older.notMem_above {parent : Nat → Option Nat} (h : Older parent) {place member : Nat}
    {below above : List Nat} (hLine : Ancestry parent place (below ++ member :: above)) :
    member ∉ above := by
  intro hMember
  have hLess := List.rel_of_pairwise_cons (h.descending hLine.of_append) hMember
  omega

/-! ## An entry that is replaced -/

/-- The second table is the first one with the entry of a name replaced, and all entries in
their places. -/
def Table.Replaced {α : Type} (before after : Table α) (name : String) (old new : α) : Prop :=
  ∃ first last : Table α, before = first ++ (name, old) :: last ∧
    after = first ++ (name, new) :: last ∧ name ∉ first.names

/-- Entering under a known name replaces the entry in its place. -/
theorem Table.replaced_insert {α : Type} {table : Table α} {name : String} {old : α}
    (h : table.find? name = some old) (new : α) :
    table.Replaced (table.insert name new) name old new := by
  induction table with
  | nil => cases h
  | cons head rest ih =>
      obtain ⟨key, entry⟩ := head
      rw [find?_cons] at h
      by_cases hName : name = key
      · subst hName
        rw [if_pos rfl] at h
        cases h
        exact ⟨[], rest, rfl, by simp [insert], by simp [names]⟩
      · rw [if_neg hName] at h
        obtain ⟨first, last, hBefore, hAfter, hFirst⟩ := ih h
        refine ⟨(key, entry) :: first, last, by rw [hBefore]; rfl, ?_, ?_⟩
        · rw [insert, if_neg hName, hAfter]
          rfl
        · simpa [names, hName] using hFirst

/-! ## Setting a variable -/

namespace Store

variable {store : Store} {place updated : Nat} {line : List Nat} {name other : String}
  {type : Option String} {value : Value}

def binding? (store : Store) (name : String) (place : Nat) : Option (Option String × Value) :=
  (store.scope place).bindings.find? name

theorem lt_of_binding? {entry : Option String × Value}
    (h : store.binding? name place = some entry) : place < store.scopes.size := by
  rcases Nat.lt_or_ge place store.scopes.size with hPlace | hBeyond
  · exact hPlace
  · have hScope : store.scope place = default := by
      simp [scope, Array.getElem?_eq_none hBeyond]
    rw [binding?, hScope] at h
    cases h

/-- A scope that binds a name is another one than a scope that does not. -/
theorem ne_of_binding? {entry : Option String × Value}
    (hNone : store.binding? name place = none) (hSome : store.binding? name updated = some entry) :
    place ≠ updated := by
  rintro rfl
  rw [hNone] at hSome
  cases hSome

/-- A variable is read from the first scope of the line that binds it. -/
theorem readVariable_eq (h : Older store.scopeParent)
    (hLine : Ancestry store.scopeParent place line) (name : String) :
    store.readVariable place name =
      ((line.findSome? (store.binding? name)).map Prod.snd).getD .nothing := by
  rw [readVariable, findVariable?, inScopes_eq_findSome? h _ hLine, List.map_findSome?]
  rfl

section

variable (store updated name type value)

/-- Declaring a variable moves no scope. -/
theorem scopeParent_defineVariable :
    (store.defineVariable updated name type value).scopeParent = store.scopeParent := by
  funext place
  apply scopeParent_changeScope
  simp

theorem scope_defineVariable_of_ne (h : place ≠ updated) :
    (store.defineVariable updated name type value).scope place = store.scope place := by
  simp [defineVariable, changeScope, scope, Array.getElem?_modify, Ne.symm h]

/-- Declaring a variable concerns the one scope only. -/
theorem binding?_defineVariable_of_place (h : place ≠ updated) :
    (store.defineVariable updated name type value).binding? other place =
      store.binding? other place := by
  rw [binding?, binding?, scope_defineVariable_of_ne store updated name type value h]

/-- Declaring a variable concerns its own name only. -/
theorem binding?_defineVariable_of_name (h : other ≠ name) :
    (store.defineVariable updated name type value).binding? other = store.binding? other := by
  funext place
  unfold binding?
  rcases store.scope_changeScope updated (fun scope =>
    { scope with bindings := scope.bindings.insert name (type, value) }) place with hSame | hNew
  · rw [defineVariable, hSame]
  · rw [defineVariable, hNew]
    exact Table.find?_insert_of_ne h _ _

end

theorem scope_defineVariable_self (h : updated < store.scopes.size) :
    (store.defineVariable updated name type value).scope updated =
      { store.scope updated with
        bindings := (store.scope updated).bindings.insert name (type, value) } := by
  rw [defineVariable, scope_changeScope_of_lt h, if_pos rfl]

/-- Setting one variable does not change what another one reads, from any scope. -/
theorem readVariable_defineVariable_of_name (h : Older store.scopeParent) (hName : other ≠ name)
    (place : Nat) :
    (store.defineVariable updated name type value).readVariable place other =
      store.readVariable place other := by
  obtain ⟨line, hLine⟩ := h.exists_ancestry place
  have hParents := scopeParent_defineVariable store updated name type value
  rw [readVariable_eq h hLine, readVariable_eq (hParents ▸ h) (hParents ▸ hLine),
    binding?_defineVariable_of_name store updated name type value hName]

/-- Who finds the variable in the scope that is changed finds the new value. -/
theorem readVariable_defineVariable_of_nearest (h : Older store.scopeParent)
    (hLine : Ancestry store.scopeParent place line) {entry : Option String × Value}
    (hNearest : Nearest line (store.binding? name) updated entry) :
    (store.defineVariable updated name type value).readVariable place name = value := by
  have hParents := scopeParent_defineVariable store updated name type value
  obtain ⟨below, above, hSplit, hUpdated, hBelow⟩ := hNearest
  have hLater : Nearest line ((store.defineVariable updated name type value).binding? name)
      updated (type, value) := by
    refine ⟨below, above, hSplit, ?_, ?_⟩
    · rw [binding?, scope_defineVariable_self (lt_of_binding? hUpdated)]
      exact Table.find?_insert_self _ _ _
    · intro scope hScope
      have hNone := hBelow scope hScope
      rw [binding?_defineVariable_of_place store updated name type value
        (ne_of_binding? hNone hUpdated), hNone]
  rw [readVariable_eq (hParents ▸ h) (hParents ▸ hLine),
    findSome?_eq_some_iff_nearest.mpr ⟨updated, hLater⟩]
  rfl

/-- Who finds the variable elsewhere, or not at all, finds what was there before. -/
theorem readVariable_defineVariable_of_not_nearest (h : Older store.scopeParent)
    (hLine : Ancestry store.scopeParent place line) {entry : Option String × Value}
    (hUpdated : store.binding? name updated = some entry)
    (hNearest : ¬ Nearest line (store.binding? name) updated entry) :
    (store.defineVariable updated name type value).readVariable place name =
      store.readVariable place name := by
  have hParents := scopeParent_defineVariable store updated name type value
  have hUnbound {scope : Nat} (hNone : store.binding? name scope = none) :
      (store.defineVariable updated name type value).binding? name scope = none := by
    rw [binding?_defineVariable_of_place store updated name type value
      (ne_of_binding? hNone hUpdated), hNone]
  suffices hFound : line.findSome? ((store.defineVariable updated name type value).binding? name) =
      line.findSome? (store.binding? name) by
    rw [readVariable_eq h hLine, readVariable_eq (hParents ▸ h) (hParents ▸ hLine), hFound]
  cases hFind : line.findSome? (store.binding? name) with
  | none =>
      rw [List.findSome?_eq_none_iff] at hFind ⊢
      exact fun scope hScope => hUnbound (hFind scope hScope)
  | some found =>
      obtain ⟨holder, below, above, hSplit, hHolder, hBelow⟩ :=
        findSome?_eq_some_iff_nearest.mp hFind
      have hOther : holder ≠ updated := by
        rintro rfl
        exact hNearest ⟨below, above, hSplit, hUpdated, hBelow⟩
      apply findSome?_eq_some_iff_nearest.mpr
      refine ⟨holder, below, above, hSplit, ?_, fun scope hScope => hUnbound (hBelow scope hScope)⟩
      rw [binding?_defineVariable_of_place store updated name type value hOther, hHolder]

/-- How setting a variable changes a store, where the line from the starting scope leads over
scopes that do not bind it to the one that does, and on to those around it. -/
structure Assigned (before after : Store) (below : List Nat) (updated : Nat) (above : List Nat)
    (name : String) (type : Option String) (old value : Value) : Prop where
  -- Only this scope changes, and of it only the entry of the name, which keeps its type.
  scopesOnly : after = { before with scopes := after.scopes }
  size : after.scopes.size = before.scopes.size
  others : ∀ place, place ≠ updated → after.scope place = before.scope place
  bindingsOnly : after.scope updated =
    { before.scope updated with bindings := (after.scope updated).bindings }
  replaced : (before.scope updated).bindings.Replaced (after.scope updated).bindings name
    (type, old) (type, value)
  -- What is seen from the line.
  inside : ∀ place, place ∈ below ∨ place = updated → after.readVariable place name = value
  outside : ∀ place ∈ above, after.readVariable place name = before.readVariable place name
  -- What is seen from any scope, on the line or not.
  otherNames : ∀ place other, other ≠ name →
    after.readVariable place other = before.readVariable place other
  seen : ∀ place line, Ancestry before.scopeParent place line →
    Nearest line (before.binding? name) updated (type, old) →
    after.readVariable place name = value
  unseen : ∀ place line, Ancestry before.scopeParent place line →
    ¬ Nearest line (before.binding? name) updated (type, old) →
    after.readVariable place name = before.readVariable place name

/-- Declaring the variable again in the scope that binds it changes the store as setting it
should. -/
theorem assigned_defineVariable (h : Older store.scopeParent) {below above : List Nat}
    {old : Value} (hLine : Ancestry store.scopeParent place (below ++ updated :: above))
    (hUpdated : store.binding? name updated = some (type, old))
    (hBelow : ∀ scope ∈ below, store.binding? name scope = none) (value : Value) :
    store.Assigned (store.defineVariable updated name type value) below updated above name type
      old value := by
  have hSelf : (store.defineVariable updated name type value).scope updated =
      { store.scope updated with
        bindings := (store.scope updated).bindings.insert name (type, value) } :=
    scope_defineVariable_self (lt_of_binding? hUpdated)
  constructor
  case scopesOnly => rfl
  case size => exact size_changeScope store updated _
  case others =>
    intro place hPlace
    exact scope_defineVariable_of_ne store updated name type value hPlace
  case bindingsOnly => rw [hSelf]
  case replaced =>
    rw [hSelf]
    exact Table.replaced_insert hUpdated _
  case inside =>
    rintro place (hPlace | rfl)
    · obtain ⟨first, last, rfl⟩ := List.append_of_mem hPlace
      rw [List.append_assoc] at hLine
      apply readVariable_defineVariable_of_nearest h hLine.of_append
      refine ⟨place :: last, above, rfl, hUpdated, fun scope hScope => ?_⟩
      exact hBelow scope (List.mem_append_right _ hScope)
    · apply readVariable_defineVariable_of_nearest h hLine.of_append
      exact ⟨[], above, rfl, hUpdated, by simp⟩
  case outside =>
    intro place hPlace
    have hNotMem := h.notMem_above hLine
    obtain ⟨first, last, rfl⟩ := List.append_of_mem hPlace
    have hSuffix := hLine.of_append
    rw [← List.cons_append] at hSuffix
    apply readVariable_defineVariable_of_not_nearest h hSuffix.of_append hUpdated
    -- The scopes around the changed one do not lead back to it.
    intro hNearest
    exact hNotMem (List.mem_append_right _ hNearest.mem)
  case otherNames =>
    intro place other hOther
    exact readVariable_defineVariable_of_name h hOther place
  case seen =>
    intro place line hFrom hNearest
    exact readVariable_defineVariable_of_nearest h hFrom hNearest
  case unseen =>
    intro place line hFrom hNearest
    exact readVariable_defineVariable_of_not_nearest h hFrom hUpdated hNearest

end Store

namespace Run

variable {machine : Machine} {place updated : Nat} {line : List Nat} {name : String}

/-- A name that no scope of the line binds is complained of, and nothing changes. -/
theorem assignVariable_of_unbound (hOlder : Older machine.store.scopeParent)
    (hLine : Ancestry machine.store.scopeParent place line)
    (h : ∀ scope ∈ line, machine.store.binding? name scope = none) (value : Value) :
    assignVariable place name value machine = .error (.variableMissing name) machine := by
  have hSet : machine.store.setVariable place name value = none := by
    rw [Store.setVariable_eq_findSome? hOlder name value hLine, List.findSome?_eq_none_iff]
    intro scope hScope
    exact Option.map_eq_none_iff.mpr (h scope hScope)
  simp [assignVariable, hSet]

/-- The nearest scope of the line that binds the name gets the value, and the type stays. -/
theorem assignVariable_of_nearest (hOlder : Older machine.store.scopeParent)
    (hLine : Ancestry machine.store.scopeParent place line) {type : Option String} {old : Value}
    (h : Nearest line (machine.store.binding? name) updated (type, old)) (value : Value) :
    assignVariable place name value machine =
      .ok () { machine with store := machine.store.defineVariable updated name type value } := by
  obtain ⟨below, above, hSplit, hUpdated, hBelow⟩ := h
  have hSet : machine.store.setVariable place name value =
      some (machine.store.defineVariable updated name type value) := by
    rw [Store.setVariable_eq_findSome? hOlder name value hLine, findSome?_eq_some_iff_nearest]
    refine ⟨updated, below, above, hSplit, Option.map_eq_some_iff.mpr ⟨_, hUpdated, rfl⟩, ?_⟩
    intro scope hScope
    exact Option.map_eq_none_iff.mpr (hBelow scope hScope)
  simp [assignVariable, hSet]

end Run

/-- The law of assignment along any line of scopes. Setting a variable fails exactly if no
scope of the line binds it, and then nothing has changed. Otherwise only its entry in the
first scope that binds it changes, in its place and with its type. -/
theorem Machine.assignment_updates_innermost {machine : Machine} {place : Nat} {line : List Nat}
    (hOlder : Older machine.store.scopeParent)
    (hLine : Ancestry machine.store.scopeParent place line) (name : String) (value : Value) :
    (Run.assignVariable place name value machine = .error (.variableMissing name) machine ↔
      ∀ scope ∈ line, machine.store.binding? name scope = none) ∧
    ((∃ scope ∈ line, machine.store.binding? name scope ≠ none) →
      ∃ below updated above type old after,
        line = below ++ updated :: above ∧
        (∀ scope ∈ below, machine.store.binding? name scope = none) ∧
        machine.store.binding? name updated = some (type, old) ∧
        Run.assignVariable place name value machine = .ok () { machine with store := after } ∧
        machine.store.Assigned after below updated above name type old value) := by
  cases hFind : line.findSome? (machine.store.binding? name) with
  | none =>
      have hNone := List.findSome?_eq_none_iff.mp hFind
      refine ⟨iff_of_true (Run.assignVariable_of_unbound hOlder hLine hNone value) hNone, ?_⟩
      rintro ⟨scope, hScope, hBound⟩
      exact absurd (hNone scope hScope) hBound
  | some entry =>
      obtain ⟨updated, hNearest⟩ := findSome?_eq_some_iff_nearest.mp hFind
      have hSet := Run.assignVariable_of_nearest hOlder hLine hNearest value
      constructor
      · constructor
        · intro hFails
          cases hFails.symm.trans hSet
        · intro hNone
          cases (List.findSome?_eq_none_iff.mpr hNone).symm.trans hFind
      · intro _
        obtain ⟨below, above, rfl, hUpdated, hBelow⟩ := hNearest
        exact ⟨below, updated, above, entry.1, entry.2, _, rfl, hBelow, hUpdated, hSet,
          Store.assigned_defineVariable hOlder hLine hUpdated hBelow value⟩

/-- Five scopes. The first two both bind `x`, and two lines of scopes, one of them with a
variable of its own, meet in the second one. -/
def Machine.layered : Machine :=
  { Machine.initial with
    store := { scopes := #[
      { bindings := [("x", some "integer", .int 1), ("y", some "string", .str "a")] },
      { parent := some 0,
        bindings := [("w", none, .nothing), ("x", some "integer", .int 2), ("y", none, .int 3)] },
      { parent := some 1 },
      { parent := some 2, bindings := [("this", none, .int 4)] },
      { parent := some 1, bindings := [("y", none, .int 5)] }] }
    current := 3 }

theorem Machine.layered_older : Older layered.store.scopeParent := by
  intro place above hAbove
  rcases place with _ | _ | _ | _ | _ | place
  · cases hAbove
  · cases hAbove
    decide
  · cases hAbove
    decide
  · cases hAbove
    decide
  · cases hAbove
    decide
  · cases hAbove

theorem Machine.layered_line : Ancestry layered.store.scopeParent 3 [3, 2, 1, 0] :=
  .step rfl (.step rfl (.step rfl (.root rfl)))

/-- Setting `x` from the fourth scope is seen there, and from the fifth, but not from the
first; the name `z` cannot be set. -/
theorem Machine.assignment_updates_innermost_layered :
    Older layered.store.scopeParent ∧ Ancestry layered.store.scopeParent 3 [3, 2, 1, 0] ∧
    Run.assignVariable 3 "z" (.int 7) layered = .error (.variableMissing "z") layered ∧
    ∃ after, Run.assignVariable 3 "x" (.int 7) layered = .ok () { layered with store := after } ∧
      after.readVariable 3 "x" = .int 7 ∧ after.readVariable 4 "x" = .int 7 ∧
      after.readVariable 0 "x" = layered.store.readVariable 0 "x" ∧
      after.readVariable 4 "y" = layered.store.readVariable 4 "y" := by
  have hUnbound : ∀ scope ∈ [3, 2, 1, 0], layered.store.binding? "z" scope = none := by
    simp [Store.binding?, layered, Store.scope, Table.find?_cons]
  have hBound : layered.store.binding? "x" 1 = some (some "integer", .int 2) := rfl
  have hFree : ∀ scope ∈ [3, 2], layered.store.binding? "x" scope = none := by
    simp [Store.binding?, layered, Store.scope, Table.find?_cons]
  obtain ⟨below, updated, above, type, old, after, hSplit, hBelow, hUpdated, hSet, hAssigned⟩ :=
    (assignment_updates_innermost layered_older layered_line "x" (.int 7)).2
      ⟨1, by decide, by rw [hBound]; simp⟩
  obtain rfl : updated = 1 := by
    rcases below with _ | ⟨first, _ | ⟨second, _ | ⟨third, below⟩⟩⟩
    · cases hSplit
      cases (hFree 3 (by decide)).symm.trans hUpdated
    · cases hSplit
      cases (hFree 2 (by decide)).symm.trans hUpdated
    · cases hSplit
      rfl
    · obtain ⟨-, -, rfl, -⟩ :
          3 = first ∧ 2 = second ∧ 1 = third ∧ [0] = below ++ updated :: above := by
        simpa using hSplit
      cases (hBelow 1 (by simp)).symm.trans hBound
  cases hUpdated.symm.trans hBound
  have hFifth : Ancestry layered.store.scopeParent 4 [4, 1, 0] :=
    .step rfl (.step rfl (.root rfl))
  have hSeen : Nearest [4, 1, 0] (layered.store.binding? "x") 1 (some "integer", .int 2) :=
    ⟨[4], [0], rfl, hBound, by simp [Store.binding?, layered, Store.scope, Table.find?_cons]⟩
  have hFirst : ¬ Nearest [0] (layered.store.binding? "x") 1 (some "integer", .int 2) := by
    intro hNearest
    cases List.mem_singleton.mp hNearest.mem
  exact ⟨layered_older, layered_line,
    (assignment_updates_innermost layered_older layered_line "z" (.int 7)).1.mpr hUnbound,
    after, hSet, hAssigned.seen 3 _ layered_line ⟨below, above, hSplit, hBound, hBelow⟩,
    hAssigned.seen 4 _ hFifth hSeen, hAssigned.unseen 0 [0] (.root rfl) hFirst,
    hAssigned.otherNames 4 "y" (by decide)⟩

/-! ## Reading from a distance -/

namespace Store

variable {store : Store} {place : Nat} {places : List Nat}

/-- Counting scopes outwards is counting along the line. -/
theorem ancestor_eq_getElem? (hLine : Ancestry store.scopeParent place places) (distance : Nat) :
    store.ancestor place distance = places[distance]? := by
  induction hLine generalizing distance with
  | root hParent =>
      unfold scopeParent at hParent
      cases distance with
      | zero => rfl
      | succ distance => simp [ancestor, hParent]
  | step hParent hAbove ih =>
      unfold scopeParent at hParent
      cases distance with
      | zero => rfl
      | succ distance => simp [ancestor, hParent, ih]

/-- A name that no skipped scope binds is read alike from both ends of the way. -/
theorem readVariable_of_skipped (h : Older store.scopeParent)
    (hLine : Ancestry store.scopeParent place places) {distance scope : Nat} {name : String}
    (hScope : places[distance]? = some scope)
    (hSkipped : ∀ other ∈ places.take distance, store.binding? name other = none) :
    store.readVariable scope name = store.readVariable place name := by
  obtain ⟨hLess, rfl⟩ := List.getElem?_eq_some_iff.mp hScope
  have hSplit :
      places.take distance ++ places[distance] :: places.drop (distance + 1) = places := by
    rw [← List.drop_eq_getElem_cons hLess, List.take_append_drop]
  have hRest : Ancestry store.scopeParent places[distance]
      (places[distance] :: places.drop (distance + 1)) := by
    rw [← hSplit] at hLine
    exact hLine.of_append
  have hWhole : places.findSome? (store.binding? name) =
      (places[distance] :: places.drop (distance + 1)).findSome? (store.binding? name) := calc
    places.findSome? (store.binding? name)
      = (places.take distance ++ places[distance] :: places.drop (distance + 1)).findSome?
          (store.binding? name) := by rw [hSplit]
    _ = (places[distance] :: places.drop (distance + 1)).findSome? (store.binding? name) := by
        rw [List.findSome?_append, List.findSome?_eq_none_iff.mpr hSkipped, Option.none_or]
  rw [readVariable_eq h hLine, readVariable_eq h hRest, hWhole]

end Store

def Expr.named? : Expr → Option String
  | .variable name _ => some name
  | .this _ => some "this"
  | _ => none

namespace Run

variable {machine : Machine} {place : Nat} {places : List Nat} {distance : Int} {name : String}

/-- Reading at a distance is reading from the scope there, if there is one. -/
theorem readAt_eq (hLine : Ancestry machine.store.scopeParent place places) :
    readAt place distance name machine =
      places[distance.toNat]?.elim (.error (.scopeDistance name) machine)
        fun scope => .ok (machine.store.readVariable scope name) machine := by
  have hGet : (get : Run Machine) machine = .ok machine machine := rfl
  rw [readAt, bind_ok hGet, Store.readAt, Store.ancestor_eq_getElem? hLine]
  cases places[distance.toNat]? with
  | none => rfl
  | some scope => rfl

/-- A name that is in the resolution table is read from the distance noted there. -/
theorem evaluate_noted {e : Expr} (hName : e.named? = some name)
    (hNoted : distance? e machine = .ok (some distance) machine) (fuel room : Nat) :
    evaluate (fuel + 1) room e machine = readAt machine.current distance name machine := by
  have hGet : (get : Run Machine) machine = .ok machine machine := rfl
  unfold Expr.named? at hName
  split at hName
  case h_1 | h_2 =>
    cases hName
    rw [evaluate, readVariable, bind_ok hNoted]
    exact bind_ok hGet
  case h_3 => cases hName

/-! The resolution table, as it is searched and as it is filled. -/

def noted? (e : Expr) (machine : Machine) : Option (Expr × Int) :=
  machine.locals.find? fun entry =>
    machine.store.equalExpr Store.depthLimit entry.1 e == some true

/-- The first entry that is equal to the expression is the one that counts. -/
theorem distance?_eq {e : Expr} (hKey : e.keyFault? = none) :
    distance? e machine = .ok ((noted? e machine).map Prod.snd) machine := by
  have hGet : (get : Run Machine) machine = .ok machine machine := rfl
  rw [distance?, hKey]
  refine (bind_ok hGet).trans ?_
  unfold noted?
  cases machine.locals.find? fun entry =>
    machine.store.equalExpr Store.depthLimit entry.1 e == some true with
  | none => rfl
  | some entry => rfl

/-- The resolution table with another distance at all entries for an expression. -/
def renoted (e : Expr) (distance : Int) (machine : Machine) : List (Expr × Int) :=
  machine.locals.map fun entry =>
    if machine.store.equalExpr Store.depthLimit entry.1 e == some true then (entry.1, distance)
    else entry

/-- Another distance at the entries of an expression is the one that is found then. -/
theorem noted?_renoted {e : Expr} {entry : Expr × Int} (h : noted? e machine = some entry)
    (distance : Int) :
    noted? e { machine with locals := renoted e distance machine } = some (entry.1, distance) := by
  have hEqual := List.find?_some h
  have hSame (other : Expr × Int) :
      (if machine.store.equalExpr Store.depthLimit other.1 e == some true then (other.1, distance)
        else other).1 = other.1 := by
    split <;> rfl
  unfold noted? at h ⊢
  simp only [renoted, List.find?_map, Function.comp_def, hSame, h, Option.map_some, hEqual, if_true]

/-- What is noted for an expression that equals itself is found, whatever was noted for it
before. -/
theorem exists_resolve {e : Expr} (hKey : e.keyFault? = none)
    (hSelf : machine.store.equalExpr Store.depthLimit e e = some true) (distance : Int) :
    ∃ table, resolve e distance machine = .ok () { machine with locals := table } ∧
      distance? e { machine with locals := table } =
        .ok (some distance) { machine with locals := table } := by
  have hFirst : distance? e machine = .ok ((noted? e machine).map Prod.snd) machine :=
    distance?_eq hKey
  cases hNoted : noted? e machine with
  | none =>
      rw [hNoted] at hFirst
      refine ⟨machine.locals ++ [(e, distance)], (bind_ok hFirst).trans rfl, ?_⟩
      rw [distance?_eq hKey]
      unfold noted? at hNoted ⊢
      simp [hNoted, hSelf]
  | some entry =>
      rw [hNoted] at hFirst
      refine ⟨renoted e distance machine, (bind_ok hFirst).trans rfl, ?_⟩
      rw [distance?_eq hKey, noted?_renoted hNoted]
      rfl

end Run

/-- Reading at a distance, along any line of scopes. It fails exactly if the distance is
more than there are scopes around, and else it is reading from the scope at that distance.
So a name that the resolution table knows is read like one that is looked for from the
current scope, as long as no nearer scope binds it. The last part says how a name gets into
the table. -/
theorem Machine.reads_at_distance {machine : Machine} (hOlder : Older machine.store.scopeParent) :
    (∀ place places, Ancestry machine.store.scopeParent place places →
      ∀ (distance : Int) (name : String),
        (Run.readAt place distance name machine = .error (.scopeDistance name) machine ↔
          (places.tail.length : Int) < distance) ∧
        (distance ≤ places.tail.length → ∃ scope, places[distance.toNat]? = some scope ∧
          Run.readAt place distance name machine =
            .ok (machine.store.readVariable scope name) machine)) ∧
    (∀ places, Ancestry machine.store.scopeParent machine.current places →
      ∀ (e : Expr) (name : String) (distance : Int), e.named? = some name →
        Run.distance? e machine = .ok (some distance) machine → ∀ fuel room,
          Run.evaluate (fuel + 1) room e machine =
            Run.readAt machine.current distance name machine ∧
          (distance ≤ places.tail.length →
            (∀ scope ∈ places.take distance.toNat, machine.store.binding? name scope = none) →
            Run.evaluate (fuel + 1) room e machine =
              .ok (machine.store.readVariable machine.current name) machine)) ∧
    ∀ (e : Expr) (distance : Int), e.keyFault? = none →
      machine.store.equalExpr Store.depthLimit e e = some true →
      ∃ table, Run.resolve e distance machine = .ok () { machine with locals := table } ∧
        Run.distance? e { machine with locals := table } =
          .ok (some distance) { machine with locals := table } := by
  refine ⟨fun place places hLine distance name => ?_,
    fun places hLine e name distance hName hNoted fuel room => ?_, fun e distance hKey hSelf => ?_⟩
  · have hLength := hLine.length_eq
    rw [Run.readAt_eq hLine]
    cases hScope : places[distance.toNat]? with
    | none =>
        have hBeyond := List.getElem?_eq_none_iff.mp hScope
        refine ⟨iff_of_true rfl (by omega), fun hInside => ?_⟩
        omega
    | some scope =>
        obtain ⟨hInside, -⟩ := List.getElem?_eq_some_iff.mp hScope
        refine ⟨iff_of_false ?_ (by omega), fun _ => ⟨scope, rfl, rfl⟩⟩
        intro hFails
        cases hFails
  · have hEvaluate := Run.evaluate_noted hName hNoted fuel room
    refine ⟨hEvaluate, fun hInside hSkipped => ?_⟩
    have hLength := hLine.length_eq
    have hLess : distance.toNat < places.length := by omega
    have hScope : places[distance.toNat]? = some places[distance.toNat] :=
      List.getElem?_eq_getElem hLess
    rw [hEvaluate, Run.readAt_eq hLine, hScope, Option.elim_some,
      Store.readVariable_of_skipped hOlder hLine hScope hSkipped]
  · exact Run.exists_resolve hKey hSelf distance

/-- From the fourth scope there are three scopes around. The name `x`, noted two scopes out,
is read there as from the inside. -/
theorem Machine.reads_at_distance_layered :
    Older layered.store.scopeParent ∧
    Run.readAt 3 4 "x" layered = .error (.scopeDistance "x") layered ∧
    ∃ table, Run.resolve (.variable "x" .nowhere) 2 layered =
        .ok () { layered with locals := table } ∧
      Run.evaluate 1 0 (.variable "x" .nowhere) { layered with locals := table } =
        .ok (.int 2) { layered with locals := table } := by
  obtain ⟨hReads, -, hResolve⟩ := reads_at_distance layered_older
  obtain ⟨table, hTable, hNoted⟩ := hResolve (.variable "x" .nowhere) 2 rfl (by decide +kernel)
  have hFree : ∀ scope ∈ [3, 2], layered.store.binding? "x" scope = none := by
    simp [Store.binding?, layered, Store.scope, Table.find?_cons]
  have hValue : layered.store.readVariable 3 "x" = .int 2 := by
    rw [Store.readVariable_eq layered_older layered_line]
    rfl
  let resolved : Machine := { layered with locals := table }
  have hOlder : Older resolved.store.scopeParent := layered_older
  have hEvaluate := ((reads_at_distance hOlder).2.1 _ layered_line _ "x" 2 rfl hNoted 0 0).2
    (by decide) hFree
  refine ⟨layered_older, (hReads 3 _ layered_line 4 "x").1.mpr (by decide), table, hTable, ?_⟩
  rw [← hValue]
  exact hEvaluate

end Mus
