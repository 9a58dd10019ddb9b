import Mus.Proofs.Store.Ancestry
import Mus.Proofs.Store.References

/-! Stores that differ in their scopes only. Two programs that do the same but open
different numbers of scopes give the same places to functions, classes, objects and
cells, while the places of their scopes drift apart. A world says which scopes belong
together and which places values can lead to. What values lead to is the same in both
stores up to this pairing; the rest may have scopes in between that the other store
does not have. -/
namespace Mus

/-! ## Parts of a store without their scopes -/

def Function.bare (function : Function) : Function := { function with closure := none }

def ClassDef.bare (classDef : ClassDef) : ClassDef := { classDef with scope := none }

def Object.bare (object : Object) : Object := { object with scope := none }

theorem Object.of_bare {x y : Object} (h : x.bare = y.bare) :
    x.classDef = y.classDef ∧ x.fields = y.fields :=
  ⟨(Object.mk.inj h).1, (Object.mk.inj h).2.1⟩

theorem ClassDef.of_bare {x y : ClassDef} (h : x.bare = y.bare) :
    x.name = y.name ∧ x.fields = y.fields ∧ x.methods = y.methods ∧ x.parent = y.parent := by
  obtain ⟨hName, hFields, hMethods, hParent, -⟩ := ClassDef.mk.inj h
  exact ⟨hName, hFields, hMethods, hParent⟩

theorem Function.of_bare {x y : Function} (h : x.bare = y.bare) :
    x.name = y.name ∧ x.params = y.params ∧ x.body = y.body ∧ x.builtin = y.builtin := by
  obtain ⟨hName, hParams, hBody, -, hBuiltin⟩ := Function.mk.inj h
  exact ⟨hName, hParams, hBody, hBuiltin⟩

namespace Store

/-- The two stores are the same but for their scopes and for what refers to these. -/
structure Parallel (a b : Store) : Prop where
  functions : a.functions.map Function.bare = b.functions.map Function.bare
  classes : a.classes.map ClassDef.bare = b.classes.map ClassDef.bare
  objects : a.objects.map Object.bare = b.objects.map Object.bare
  cells : a.cells = b.cells

namespace Parallel

variable {a b : Store}

theorem refl (store : Store) : store.Parallel store := ⟨rfl, rfl, rfl, rfl⟩

/-- Stores that differ only by their scopes have as many functions, so that the next new one gets
the same place. -/
theorem functions_size (h : a.Parallel b) : a.functions.size = b.functions.size := by
  simpa using congrArg Array.size h.functions

theorem classes_size (h : a.Parallel b) : a.classes.size = b.classes.size := by
  simpa using congrArg Array.size h.classes

theorem objects_size (h : a.Parallel b) : a.objects.size = b.objects.size := by
  simpa using congrArg Array.size h.objects

/-- A function differs at most by its closure. -/
theorem function (h : a.Parallel b) (place : Nat) :
    (a.function place).bare = (b.function place).bare := by
  have hPlace := congrArg (fun functions => functions[place]?.getD (default : Function).bare)
    h.functions
  simp only [Array.getElem?_map, Option.getD_map] at hPlace
  exact hPlace

/-- A class differs at most by its scope. -/
theorem classDef (h : a.Parallel b) (place : Nat) :
    (a.classDef place).bare = (b.classDef place).bare := by
  have hPlace := congrArg (fun classes => classes[place]?.getD (default : ClassDef).bare) h.classes
  simp only [Array.getElem?_map, Option.getD_map] at hPlace
  exact hPlace

/-- An object differs at most by its scope. -/
theorem object (h : a.Parallel b) (place : Nat) :
    (a.object place).bare = (b.object place).bare := by
  have hPlace := congrArg (fun objects => objects[place]?.getD (default : Object).bare) h.objects
  simp only [Array.getElem?_map, Option.getD_map] at hPlace
  exact hPlace

theorem cell (h : a.Parallel b) (place : Nat) : a.cell place = b.cell place := by
  unfold Store.cell
  rw [h.cells]

theorem items (h : a.Parallel b) (items : Items) : a.items items = b.items items := by
  cases items with
  | constant values => rfl
  | cell place => exact h.cell place

end Parallel

/-- The second store has all that the first one has, unchanged. -/
structure KeptIn (before after : Store) : Prop where
  scopes : before.scopes.size ≤ after.scopes.size
  scope : ∀ place < before.scopes.size, after.scope place = before.scope place
  functions : before.functions.size ≤ after.functions.size
  function : ∀ place < before.functions.size, after.function place = before.function place
  classes : before.classes.size ≤ after.classes.size
  classDef : ∀ place < before.classes.size, after.classDef place = before.classDef place
  objects : before.objects.size ≤ after.objects.size
  object : ∀ place < before.objects.size, after.object place = before.object place
  cells : before.cells.size ≤ after.cells.size
  cell : ∀ place < before.cells.size, after.cell place = before.cell place

theorem KeptIn.refl (store : Store) : store.KeptIn store :=
  ⟨Nat.le_refl _, fun _ _ => rfl, Nat.le_refl _, fun _ _ => rfl, Nat.le_refl _, fun _ _ => rfl,
    Nat.le_refl _, fun _ _ => rfl, Nat.le_refl _, fun _ _ => rfl⟩

section

variable (store : Store)

/-- What is there stays when a scope is added. -/
theorem keptIn_addScope (scope : Scope) : store.KeptIn (store.addScope scope).2 :=
  { KeptIn.refl store with
    scopes := by simp [addScope]
    scope := fun place hPlace => by rw [scope_addScope, if_neg (Nat.ne_of_lt hPlace)] }

theorem keptIn_addFunction (function : Function) : store.KeptIn (store.addFunction function).2 :=
  { KeptIn.refl store with
    functions := by simp [addFunction]
    function := fun place hPlace => by rw [function_addFunction, if_neg (Nat.ne_of_lt hPlace)] }

theorem keptIn_addClass (classDef : ClassDef) : store.KeptIn (store.addClass classDef).2 :=
  { KeptIn.refl store with
    classes := by simp [addClass]
    classDef := fun place hPlace => by rw [classDef_addClass, if_neg (Nat.ne_of_lt hPlace)] }

theorem keptIn_addObject (object : Object) : store.KeptIn (store.addObject object).2 :=
  { KeptIn.refl store with
    objects := by simp [addObject]
    object := fun place hPlace => by rw [object_addObject, if_neg (Nat.ne_of_lt hPlace)] }

theorem cell_addCell (items : List Value) (place : Nat) :
    (store.addCell items).2.cell place =
      if place = store.cells.size then items else store.cell place := by
  simp only [addCell, Store.cell, Array.getElem?_push]
  split <;> rfl

theorem keptIn_addCell (items : List Value) : store.KeptIn (store.addCell items).2 :=
  { KeptIn.refl store with
    cells := by simp [addCell]
    cell := fun place hPlace => by rw [cell_addCell, if_neg (Nat.ne_of_lt hPlace)] }

end

end Store

/-! ## Worlds -/

/-- How two stores correspond: which scopes of the first and of the second belong
together, which places of the first values can lead to, what some of the paired scopes
never hold, and from which scopes the same is found a number of steps out. -/
structure World where
  paired : Nat → Nat → Prop
  known : Store.Place → Prop
  lacks : Nat → Sought → Prop
  sees : Nat → Nat → Nat → Sought → Prop

namespace World

/-- The second world is a later one of the first. Values can lead to more, but not to
scopes that belonged together and that they could not lead to, and these lack the same. -/
structure Le (w w' : World) : Prop where
  paired {s t : Nat} : w.paired s t → w'.paired s t
  known {place : Store.Place} : w.known place → w'.known place
  settled {s t : Nat} : w.paired s t → w'.known (.scope s) → w.known (.scope s)
  lacks {s : Nat} {sought : Sought} : w.lacks s sought → w'.lacks s sought
  free {s t : Nat} {sought : Sought} : w.paired s t → w'.lacks s sought → w.lacks s sought
  sees {s t distance : Nat} {sought : Sought} : w.sees s t distance sought →
    w'.sees s t distance sought

instance : LE World := ⟨Le⟩

theorem le_refl (w : World) : w ≤ w := ⟨id, id, fun _ => id, id, fun _ => id, id⟩

/-- A world that is later than a later one is later. -/
theorem le_trans {w w' w'' : World} (h : w ≤ w') (h' : w' ≤ w'') : w ≤ w'' where
  paired hPaired := h'.paired (h.paired hPaired)
  known hKnown := h'.known (h.known hKnown)
  settled hPaired hKnown := h.settled hPaired (h'.settled (h.paired hPaired) hKnown)
  lacks hLacks := h'.lacks (h.lacks hLacks)
  free hPaired hLacks := h.free hPaired (h'.free (h.paired hPaired) hLacks)
  sees hSees := h'.sees (h.sees hSees)

variable {w w' : World}

def Covers (w : World) (places : List Store.Place) : Prop := ∀ place ∈ places, w.known place

/-- Values can lead to more in a later world. -/
theorem Covers.mono {places : List Store.Place} (h : w.Covers places) (hLe : w ≤ w') :
    w'.Covers places :=
  fun place hMem => hLe.known (h place hMem)

theorem covers_nil : w.Covers [] := fun _ hMem => by cases hMem

theorem covers_append {front back : List Store.Place} :
    w.Covers (front ++ back) ↔ w.Covers front ∧ w.Covers back :=
  List.forall_mem_append

theorem covers_cons {place : Store.Place} {rest : List Store.Place} :
    w.Covers (place :: rest) ↔ w.known place ∧ w.Covers rest :=
  List.forall_mem_cons

theorem covers_singleton {place : Store.Place} : w.Covers [place] ↔ w.known place :=
  List.forall_mem_singleton

theorem covers_flatMap {α : Type} {list : List α} {places : α → List Store.Place} :
    w.Covers (list.flatMap places) ↔ ∀ entry ∈ list, w.Covers (places entry) :=
  List.forall_mem_flatMap

/-- What is found in a table leads nowhere that the table does not lead. -/
theorem covers_find {α : Type} {places : α → List Store.Place} {table : Table α} {name : String}
    {entry : α} (h : w.Covers (table.places places)) (hFound : table.find? name = some entry) :
    w.Covers (places entry) :=
  covers_flatMap.mp h _ (Table.mem_of_find? hFound)

/-- A table with a further entry leads where the table and the entry lead. -/
theorem covers_insert {α : Type} {places : α → List Store.Place} {table : Table α} {entry : α}
    (hTable : w.Covers (table.places places)) (name : String) (hEntry : w.Covers (places entry)) :
    w.Covers ((table.insert name entry).places places) := by
  refine covers_flatMap.mpr fun found hFound => ?_
  rcases Table.snd_mem_insert hFound with hNew | hOld
  · exact hNew ▸ hEntry
  · exact covers_flatMap.mp hTable found hOld

/-- The scopes belong together, and values can lead to them. -/
def Joined (w : World) (s t : Nat) : Prop := w.paired s t ∧ w.known (.scope s)

/-- Joined scopes stay joined in a later world. -/
theorem Joined.mono {s t : Nat} (h : w.Joined s t) (hLe : w ≤ w') : w'.Joined s t :=
  ⟨hLe.paired h.1, hLe.known h.2⟩

/-- The scope may come to hold anything. -/
def Free (w : World) (s : Nat) : Prop := ∀ sought, ¬ w.lacks s sought

theorem joins_mono {p q : Option Nat} (h : Option.Rel w.Joined p q) (hLe : w ≤ w') :
    Option.Rel w'.Joined p q := by
  cases h with
  | some h => exact .some (h.mono hLe)
  | none => exact .none

/-- Either there is no scope on both sides, or there are joined ones. -/
theorem joins_cases {p q : Option Nat} (h : Option.Rel w.Joined p q) :
    p = none ∧ q = none ∨ ∃ s t, p = some s ∧ q = some t ∧ w.Joined s t := by
  cases h with
  | some h => exact Or.inr ⟨_, _, rfl, rfl, h⟩
  | none => exact Or.inl ⟨rfl, rfl⟩

theorem free_mono {p q : Option Nat} (hJoins : Option.Rel w.Joined p q)
    (h : ∀ s, p = some s → w.Free s) (hLe : w ≤ w') : ∀ s, p = some s → w'.Free s := by
  rintro s rfl sought hLacks
  cases hJoins with
  | some hJoined => exact h s rfl sought (hLe.free hJoined.1 hLacks)

/-- What a place that values can lead to holds in the two stores. -/
inductive Fine (w : World) (a b : Store) : Store.Place → Prop where
  | scope {s t : Nat} (hPaired : w.paired s t)
      (hFunctions : (a.scope s).functions = (b.scope t).functions)
      (hParent : Option.Rel w.Joined (a.scope s).parent (b.scope t).parent)
      (hCovers : w.Covers (a.scope s).places) : Fine w a b (.scope s)
  | function {f : Nat} (hBound : f < a.functions.size)
      (hClosure : Option.Rel w.Joined (a.function f).closure (b.function f).closure)
      (hCovers : w.Covers (a.function f).places) : Fine w a b (.function f)
  | classDef {c : Nat} (hBound : c < a.classes.size)
      (hScope : Option.Rel w.Joined (a.classDef c).scope (b.classDef c).scope)
      (hCovers : w.Covers (a.classDef c).places) : Fine w a b (.classDef c)
  | object {o : Nat} (hBound : o < a.objects.size)
      (hScope : Option.Rel w.Joined (a.object o).scope (b.object o).scope)
      (hFree : ∀ s, (a.object o).scope = some s → w.Free s)
      (hCovers : w.Covers (a.object o).places) : Fine w a b (.object o)
  | cell {c : Nat} (hBound : c < a.cells.size)
      (hCovers : w.Covers (Value.placesAll (a.cell c))) : Fine w a b (.cell c)

/-- The lines of scopes from two places outwards are the same but for scopes without
variables and classes that only one of the stores has. -/
inductive Outward (w : World) (a b : Store) : Option Nat → Option Nat → Prop where
  | root : Outward w a b none none
  | pair {s t : Nat} (hPaired : w.paired s t) : Outward w a b (some s) (some t)
  | left {s : Nat} {q : Option Nat} (hBound : s < a.scopes.size) (hFree : ∀ t, ¬ w.paired s t)
      (hBindings : (a.scope s).bindings = []) (hClasses : (a.scope s).classes = [])
      (hAbove : Outward w a b (a.scope s).parent q) : Outward w a b (some s) q
  | right {t : Nat} {p : Option Nat} (hBound : t < b.scopes.size) (hFree : ∀ s, ¬ w.paired s t)
      (hBindings : (b.scope t).bindings = []) (hClasses : (b.scope t).classes = [])
      (hAbove : Outward w a b p (b.scope t).parent) : Outward w a b p (some t)

/-- Outwards from joined scopes the lines are the same. -/
theorem outward_of_joins {a b : Store} {p q : Option Nat} (h : Option.Rel w.Joined p q) :
    w.Outward a b p q := by
  cases h with
  | some h => exact .pair h.1
  | none => exact .root

/-- Outwards from two places the same is found, though one of the stores may have scopes
on the way that lack it. Classes are only found where values can lead to them. -/
inductive Leads (w : World) (a b : Store) (sought : Sought) : Option Nat → Option Nat → Prop where
  | same {p q : Option Nat} (hOut : w.Outward a b p q)
      (hReach : sought = .classes → ∃ s t, w.Joined s t ∧ w.Outward a b p (some t)) :
      Leads w a b sought p q
  | left {s t : Nat} {q : Option Nat} (hPaired : w.paired s t) (hLacks : w.lacks s sought)
      (hAbove : Leads w a b sought (a.scope s).parent q) : Leads w a b sought (some s) q
  | right {s t : Nat} {p : Option Nat} (hPaired : w.paired s t) (hLacks : w.lacks s sought)
      (hAbove : Leads w a b sought p (b.scope t).parent) : Leads w a b sought p (some t)

/-- Where the lines differ only by empty scopes, every variable is found alike. -/
theorem leads_of_outward {a b : Store} {p q : Option Nat} (h : w.Outward a b p q)
    (name : String) : w.Leads a b (.binding name) p q :=
  .same h fun hClasses => by cases hClasses

/-- The scopes a number of steps out from two scopes, where there are any, lead to the
same. -/
inductive Sight (w : World) (a b : Store) (sought : Sought) : Nat → Nat → Nat → Prop where
  | here {s t : Nat} (hLeads : w.Leads a b sought (some s) (some t)) : Sight w a b sought s t 0
  | beyond {s t distance : Nat} (hLeft : s < a.scopes.size) (hRight : t < b.scopes.size)
      (hParent : (a.scope s).parent = none) (hParent' : (b.scope t).parent = none) :
      Sight w a b sought s t (distance + 1)
  | out {s t p q distance : Nat} (hLeft : s < a.scopes.size) (hRight : t < b.scopes.size)
      (hParent : (a.scope s).parent = some p) (hParent' : (b.scope t).parent = some q)
      (hAbove : Sight w a b sought p q distance) : Sight w a b sought s t (distance + 1)

/-- Two inner scopes that belong together and do not hold something. -/
structure Lacking (w : World) (a b : Store) (s t : Nat) (sought : Sought) : Prop where
  paired : w.paired s t
  lacks : (a.scope s).Lacks sought
  inner : (a.scope s).parent ≠ none
  inner' : (b.scope t).parent ≠ none

/-- The two stores correspond as the world says. -/
structure Matches (w : World) (a b : Store) : Prop where
  parallel : a.Parallel b
  older : Older a.scopeParent
  older' : Older b.scopeParent
  bound {s t : Nat} : w.paired s t → s < a.scopes.size ∧ t < b.scopes.size
  apart {s t s' t' : Nat} : w.paired s t → w.paired s' t' → (s = s' ↔ t = t')
  bindings {s t : Nat} : w.paired s t → (a.scope s).bindings = (b.scope t).bindings
  held {s t : Nat} : w.paired s t → w.Covers ((a.scope s).bindings.places (·.2.places))
  classes {s t : Nat} : w.paired s t → (a.scope s).classes = (b.scope t).classes
  outward {s t : Nat} : w.paired s t → w.Outward a b (a.scope s).parent (b.scope t).parent
  fine {place : Store.Place} : w.known place → w.Fine a b place
  lacking {s : Nat} {sought : Sought} : w.lacks s sought → ∃ t, w.Lacking a b s t sought
  sight {s t distance : Nat} {sought : Sought} : w.sees s t distance sought →
    w.Sight a b sought s t distance
  near {s t : Nat} : w.Joined s t → ∀ distance sought, w.sees s t distance sought

namespace Matches

variable {a b a' b' : Store}

/-- A scope that values can lead to belongs to one of the other store. -/
theorem exists_joined (h : w.Matches a b) {s : Nat} (hKnown : w.known (.scope s)) :
    ∃ t, w.Joined s t := by
  cases h.fine hKnown with
  | scope hPaired _ _ _ => exact ⟨_, hPaired, hKnown⟩

/-- What two joined scopes hold. -/
theorem joined (h : w.Matches a b) {s t : Nat} (hJoined : w.Joined s t) :
    (a.scope s).functions = (b.scope t).functions ∧
      Option.Rel w.Joined (a.scope s).parent (b.scope t).parent ∧ w.Covers (a.scope s).places := by
  cases h.fine hJoined.2 with
  | scope hPaired hFunctions hParent hCovers =>
      cases (h.apart hPaired hJoined.1).mp rfl
      exact ⟨hFunctions, hParent, hCovers⟩

end Matches

/-! ## Stores that grow -/

/-- What a place holds stays fine when both stores only get more. -/
theorem Fine.grow {a b a' b' : Store} {place : Store.Place} (h : w.Fine a b place)
    (hBound : ∀ {s t : Nat}, w.paired s t → s < a.scopes.size ∧ t < b.scopes.size)
    (hParallel : a.Parallel b) (hLe : w ≤ w') (ha : a.KeptIn a') (hb : b.KeptIn b') :
    w'.Fine a' b' place := by
  cases h with
  | scope hPaired hFunctions hParent hCovers =>
      have hLeft := ha.scope _ (hBound hPaired).1
      have hRight := hb.scope _ (hBound hPaired).2
      refine .scope (hLe.paired hPaired) ?_ ?_ ?_
      · rw [hLeft, hRight, hFunctions]
      · rw [hLeft, hRight]
        exact joins_mono hParent hLe
      · rw [hLeft]
        exact hCovers.mono hLe
  | function hThere hClosure hCovers =>
      refine .function (Nat.lt_of_lt_of_le hThere ha.functions) ?_ ?_
      · rw [ha.function _ hThere, hb.function _ (hParallel.functions_size ▸ hThere)]
        exact joins_mono hClosure hLe
      · rw [ha.function _ hThere]
        exact hCovers.mono hLe
  | classDef hThere hScope hCovers =>
      refine .classDef (Nat.lt_of_lt_of_le hThere ha.classes) ?_ ?_
      · rw [ha.classDef _ hThere, hb.classDef _ (hParallel.classes_size ▸ hThere)]
        exact joins_mono hScope hLe
      · rw [ha.classDef _ hThere]
        exact hCovers.mono hLe
  | object hThere hScope hFree hCovers =>
      refine .object (Nat.lt_of_lt_of_le hThere ha.objects) ?_ ?_ ?_
      · rw [ha.object _ hThere, hb.object _ (hParallel.objects_size ▸ hThere)]
        exact joins_mono hScope hLe
      · rw [ha.object _ hThere]
        exact free_mono hScope hFree hLe
      · rw [ha.object _ hThere]
        exact hCovers.mono hLe
  | cell hThere hCovers =>
      refine .cell (Nat.lt_of_lt_of_le hThere ha.cells) ?_
      rw [ha.cell _ hThere]
      exact hCovers.mono hLe

/-- A scope that only one store has stays so if the scopes that are paired are new. -/
theorem Outward.grow {a b a' b' : Store} {p q : Option Nat} (h : w.Outward a b p q)
    (hLe : w ≤ w') (ha : a.KeptIn a') (hb : b.KeptIn b')
    (hNew : ∀ s t, w'.paired s t → w.paired s t ∨ s = a.scopes.size ∧ t = b.scopes.size) :
    w'.Outward a' b' p q := by
  induction h with
  | root => exact .root
  | pair hPaired => exact .pair (hLe.paired hPaired)
  | left hBound hFree hBindings hClasses _ ih =>
      refine .left (Nat.lt_of_lt_of_le hBound ha.scopes) (fun t hPaired => ?_) ?_ ?_ ?_
      · rcases hNew _ t hPaired with hOld | ⟨rfl, -⟩
        · exact hFree t hOld
        · exact Nat.lt_irrefl _ hBound
      · rw [ha.scope _ hBound, hBindings]
      · rw [ha.scope _ hBound, hClasses]
      · rw [ha.scope _ hBound]
        exact ih
  | right hBound hFree hBindings hClasses _ ih =>
      refine .right (Nat.lt_of_lt_of_le hBound hb.scopes) (fun s hPaired => ?_) ?_ ?_ ?_
      · rcases hNew s _ hPaired with hOld | ⟨-, rfl⟩
        · exact hFree s hOld
        · exact Nat.lt_irrefl _ hBound
      · rw [hb.scope _ hBound, hBindings]
      · rw [hb.scope _ hBound, hClasses]
      · rw [hb.scope _ hBound]
        exact ih

section

variable {a b a' b' : Store} {sought : Sought}
    (hBound : ∀ {s t : Nat}, w.paired s t → s < a.scopes.size ∧ t < b.scopes.size)
    (hLe : w ≤ w') (ha : a.KeptIn a') (hb : b.KeptIn b')
    (hNew : ∀ s t, w'.paired s t → w.paired s t ∨ s = a.scopes.size ∧ t = b.scopes.size)

include hBound hLe ha hb

theorem Lacking.grow {s t : Nat} (h : w.Lacking a b s t sought) : w'.Lacking a' b' s t sought := by
  have hLeft := ha.scope _ (hBound h.paired).1
  have hRight := hb.scope _ (hBound h.paired).2
  exact ⟨hLe.paired h.paired, hLeft ▸ h.lacks, hLeft ▸ h.inner, hRight ▸ h.inner'⟩

include hNew

/-- What is found outwards is still found when both stores only get more. -/
theorem Leads.grow {p q : Option Nat} (h : w.Leads a b sought p q) :
    w'.Leads a' b' sought p q := by
  induction h with
  | same hOut hReach =>
      refine .same (hOut.grow hLe ha hb hNew) fun hClasses => ?_
      obtain ⟨s, t, hJoined, hLine⟩ := hReach hClasses
      exact ⟨s, t, hJoined.mono hLe, hLine.grow hLe ha hb hNew⟩
  | left hPaired hLacks _ ih =>
      refine .left (hLe.paired hPaired) (hLe.lacks hLacks) ?_
      rw [ha.scope _ (hBound hPaired).1]
      exact ih
  | right hPaired hLacks _ ih =>
      refine .right (hLe.paired hPaired) (hLe.lacks hLacks) ?_
      rw [hb.scope _ (hBound hPaired).2]
      exact ih

/-- What is seen at a distance is still seen when both stores only get more. -/
theorem Sight.grow {s t distance : Nat} (h : w.Sight a b sought s t distance) :
    w'.Sight a' b' sought s t distance := by
  induction h with
  | here hLeads => exact .here (hLeads.grow hBound hLe ha hb hNew)
  | beyond hLeft hRight hParent hParent' =>
      refine .beyond (Nat.lt_of_lt_of_le hLeft ha.scopes)
        (Nat.lt_of_lt_of_le hRight hb.scopes) ?_ ?_
      · rw [ha.scope _ hLeft, hParent]
      · rw [hb.scope _ hRight, hParent']
  | out hLeft hRight hParent hParent' _ ih =>
      refine .out (Nat.lt_of_lt_of_le hLeft ha.scopes) (Nat.lt_of_lt_of_le hRight hb.scopes)
        ?_ ?_ ih
      · rw [ha.scope _ hLeft, hParent]
      · rw [hb.scope _ hRight, hParent']

end

namespace Matches

variable {a b a' b' : Store}

/-- The lines outwards start at scopes that are there. -/
theorem bound_of_outward (h : w.Matches a b) {p q : Option Nat} (hOut : w.Outward a b p q) :
    (∀ s, p = some s → s < a.scopes.size) ∧ ∀ t, q = some t → t < b.scopes.size := by
  induction hOut with
  | root => exact ⟨fun _ hNone => (by cases hNone), fun _ hNone => by cases hNone⟩
  | pair hPaired =>
      exact ⟨fun _ hSome => (by cases hSome; exact (h.bound hPaired).1),
        fun _ hSome => by cases hSome; exact (h.bound hPaired).2⟩
  | left hBound _ _ _ _ ih => exact ⟨fun _ hSome => (by cases hSome; exact hBound), ih.2⟩
  | right hBound _ _ _ _ ih => exact ⟨ih.1, fun _ hSome => by cases hSome; exact hBound⟩

/-- Two stores that grow still correspond if at most one new scope of each is paired, and
if all that values can newly lead to is the same. -/
theorem grow (h : w.Matches a b) (hLe : w ≤ w') (ha : a.KeptIn a') (hb : b.KeptIn b')
    (hParallel : a'.Parallel b') (hOlder : Older a'.scopeParent) (hOlder' : Older b'.scopeParent)
    (hPaired : ∀ s t, w'.paired s t → w.paired s t ∨ s = a.scopes.size ∧ t = b.scopes.size)
    (hNew : w'.paired a.scopes.size b.scopes.size →
      (a.scopes.size < a'.scopes.size ∧ b.scopes.size < b'.scopes.size) ∧
      (∃ p, a'.scope a.scopes.size = { parent := p }) ∧
      (∃ q, b'.scope b.scopes.size = { parent := q }) ∧
      w'.Outward a' b' (a'.scope a.scopes.size).parent (b'.scope b.scopes.size).parent)
    (hKnown : ∀ place, w'.known place → w.known place ∨ w'.Fine a' b' place)
    (hLacks : ∀ s sought, w'.lacks s sought →
      w.lacks s sought ∨ ∃ t, w'.Lacking a' b' s t sought)
    (hSees : ∀ s t distance sought, w'.sees s t distance sought →
      w.sees s t distance sought ∨ w'.Sight a' b' sought s t distance)
    (hNear : ∀ s t distance sought, w'.Joined s t → w'.sees s t distance sought) :
    w'.Matches a' b' where
  parallel := hParallel
  older := hOlder
  older' := hOlder'
  bound {s t} hPair := by
    rcases hPaired s t hPair with hOld | ⟨rfl, rfl⟩
    · have hBound := h.bound hOld
      exact ⟨Nat.lt_of_lt_of_le hBound.1 ha.scopes, Nat.lt_of_lt_of_le hBound.2 hb.scopes⟩
    · exact (hNew hPair).1
  apart {s t s' t'} hPair hPair' := by
    rcases hPaired s t hPair with hOld | ⟨rfl, rfl⟩ <;>
      rcases hPaired s' t' hPair' with hOld' | ⟨rfl, rfl⟩
    · exact h.apart hOld hOld'
    · have hBound := h.bound hOld
      exact ⟨fun hEq => absurd hEq (Nat.ne_of_lt hBound.1),
        fun hEq => absurd hEq (Nat.ne_of_lt hBound.2)⟩
    · have hBound := h.bound hOld'
      exact ⟨fun hEq => absurd hEq (Nat.ne_of_gt hBound.1),
        fun hEq => absurd hEq (Nat.ne_of_gt hBound.2)⟩
    · exact iff_of_true rfl rfl
  bindings {s t} hPair := by
    rcases hPaired s t hPair with hOld | ⟨rfl, rfl⟩
    · rw [ha.scope s (h.bound hOld).1, hb.scope t (h.bound hOld).2]
      exact h.bindings hOld
    · obtain ⟨-, ⟨p, hLeft⟩, ⟨q, hRight⟩, -⟩ := hNew hPair
      rw [hLeft, hRight]
  held {s t} hPair := by
    rcases hPaired s t hPair with hOld | ⟨rfl, rfl⟩
    · rw [ha.scope s (h.bound hOld).1]
      exact (h.held hOld).mono hLe
    · obtain ⟨-, ⟨p, hLeft⟩, -, -⟩ := hNew hPair
      rw [hLeft]
      exact covers_nil
  classes {s t} hPair := by
    rcases hPaired s t hPair with hOld | ⟨rfl, rfl⟩
    · rw [ha.scope s (h.bound hOld).1, hb.scope t (h.bound hOld).2]
      exact h.classes hOld
    · obtain ⟨-, ⟨p, hLeft⟩, ⟨q, hRight⟩, -⟩ := hNew hPair
      rw [hLeft, hRight]
  outward {s t} hPair := by
    rcases hPaired s t hPair with hOld | ⟨rfl, rfl⟩
    · rw [ha.scope s (h.bound hOld).1, hb.scope t (h.bound hOld).2]
      exact (h.outward hOld).grow hLe ha hb hPaired
    · exact (hNew hPair).2.2.2
  fine {place} hPlace := by
    rcases hKnown place hPlace with hOld | hFine
    · exact (h.fine hOld).grow h.bound h.parallel hLe ha hb
    · exact hFine
  lacking {s sought} hLack := by
    rcases hLacks s sought hLack with hOld | hNever
    · obtain ⟨t, hLacking⟩ := h.lacking hOld
      exact ⟨t, hLacking.grow h.bound hLe ha hb⟩
    · exact hNever
  sight {s t distance sought} hSee := by
    rcases hSees s t distance sought hSee with hOld | hSight
    · exact (h.sight hOld).grow h.bound hLe ha hb hPaired
    · exact hSight
  near {s t} hJoined distance sought := hNear s t distance sought hJoined

end Matches

/-! ## New scopes -/

/-- What is found alike from inside two places, by its distance. From the new scopes
themselves classes are found under a condition. -/
def inside (w : World) (p q : Option Nat) (reach : Prop) : Nat → Sought → Prop
  | 0, .binding _ => True
  | 0, .classes => reach
  | distance + 1, sought => p = none ∧ q = none ∨
      ∃ s t, p = some s ∧ q = some t ∧ w.sees s t distance sought

/-- The world in which two more scopes, inside others, belong together. Values can lead
to them if the condition holds, and some things they never hold. -/
def pair (w : World) (s t : Nat) (p q : Option Nat) (condition : Prop) (lacked : Sought → Prop) :
    World where
  paired s' t' := w.paired s' t' ∨ s' = s ∧ t' = t
  known place := w.known place ∨ place = .scope s ∧ condition
  lacks s' sought := w.lacks s' sought ∨ s' = s ∧ lacked sought
  sees s' t' distance sought := w.sees s' t' distance sought ∨ s' = s ∧ t' = t ∧
    w.inside p q (condition ∨ lacked .classes ∧
      ∃ s t, p = some s ∧ q = some t ∧ w.sees s t 0 .classes) distance sought

theorem paired_pair (s t : Nat) (p q : Option Nat) (condition : Prop) (lacked : Sought → Prop) :
    (w.pair s t p q condition lacked).paired s t :=
  Or.inr ⟨rfl, rfl⟩

/-- Under the condition, the new scopes are joined. -/
theorem joined_pair {s t : Nat} {p q : Option Nat} {condition : Prop} {lacked : Sought → Prop}
    (h : condition) : (w.pair s t p q condition lacked).Joined s t :=
  ⟨Or.inr ⟨rfl, rfl⟩, Or.inr ⟨rfl, h⟩⟩

end World

/-- A new scope is younger than the one around it. -/
theorem Older.addScope {store : Store} (h : Older store.scopeParent) {parent : Option Nat}
    (hParent : ∀ above, parent = some above → above < store.scopes.size) :
    Older (store.addScope { parent := parent }).2.scopeParent := by
  intro place above hAbove
  unfold Store.scopeParent at hAbove
  rw [Store.scope_addScope] at hAbove
  split at hAbove
  case isTrue hNew => exact hNew ▸ hParent above hAbove
  case isFalse => exact h place above hAbove

theorem Store.scope_addScope_size (store : Store) (scope : Scope) :
    (store.addScope scope).2.scope store.scopes.size = scope := by
  rw [scope_addScope, if_pos rfl]

theorem Store.size_lt_addScope (store : Store) (scope : Scope) :
    store.scopes.size < (store.addScope scope).2.scopes.size := by
  simp [addScope]

/-- A new scope holds nothing. -/
theorem Scope.lacks_new (parent : Option Nat) (sought : Sought) :
    ({ parent := parent } : Scope).Lacks sought := by
  cases sought <;> rfl

namespace World

namespace Matches

variable {w : World} {a b : Store}

/-- The new scopes lack what they are said to lack, since they have not been there before. -/
theorem lacks_pair (h : w.Matches a b) {t : Nat} {p q : Option Nat} {condition : Prop}
    {lacked : Sought → Prop} {sought : Sought} :
    (w.pair a.scopes.size t p q condition lacked).lacks a.scopes.size sought ↔ lacked sought := by
  refine ⟨fun hLacks => ?_, fun hLacked => Or.inr ⟨rfl, hLacked⟩⟩
  rcases hLacks with hOld | ⟨-, hNew⟩
  · obtain ⟨t, hLacking⟩ := h.lacking hOld
    exact absurd (h.bound hLacking.paired).1 (Nat.lt_irrefl _)
  · exact hNew

/-- Two more scopes that belong together make a later world. -/
theorem le_pair (h : w.Matches a b) (t : Nat) (p q : Option Nat) (condition : Prop)
    (lacked : Sought → Prop) : w ≤ w.pair a.scopes.size t p q condition lacked := by
  refine ⟨Or.inl, Or.inl, fun hPaired hKnown => ?_, Or.inl, fun hPaired hLacks => ?_, Or.inl⟩
  · rcases hKnown with hOld | ⟨hEq, -⟩
    · exact hOld
    · cases hEq
      exact absurd (h.bound hPaired).1 (Nat.lt_irrefl _)
  · rcases hLacks with hOld | ⟨rfl, -⟩
    · exact hOld
    · exact absurd (h.bound hPaired).1 (Nat.lt_irrefl _)

/-- From inside joined scopes the same is seen at all distances. -/
theorem inside_of_joins (h : w.Matches a b) {p q : Option Nat} (hJoins : Option.Rel w.Joined p q)
    {reach : Prop} (hReach : reach) (distance : Nat) (sought : Sought) :
    w.inside p q reach distance sought := by
  cases distance with
  | zero =>
      cases sought with
      | binding name => trivial
      | classes => exact hReach
  | succ distance =>
      rcases joins_cases hJoins with hNone | ⟨s, t, hp, hq, hJoined⟩
      · exact Or.inl hNone
      · exact Or.inr ⟨s, t, hp, hq, h.near hJoined distance sought⟩

/-- Values can lead to the new scope only under the condition, since it has not been there
before. -/
theorem known_pair (h : w.Matches a b) {t : Nat} {p q : Option Nat} {condition : Prop}
    {lacked : Sought → Prop}
    (hKnown : (w.pair a.scopes.size t p q condition lacked).known (.scope a.scopes.size)) :
    condition := by
  rcases hKnown with hOld | ⟨-, hNew⟩
  · obtain ⟨t, hJoined⟩ := h.exists_joined hOld
    exact absurd (h.bound hJoined.1).1 (Nat.lt_irrefl _)
  · exact hNew

/-- What is said to be seen from the new scopes is borne out: in them nothing is found yet, and one
step out are the scopes around them. -/
theorem sight_pair (h : w.Matches a b) {p q : Option Nat} {condition : Prop}
    {lacked : Sought → Prop} {distance : Nat} {sought : Sought}
    (hInside : w.inside p q (condition ∨ lacked .classes ∧
      ∃ s t, p = some s ∧ q = some t ∧ w.sees s t 0 .classes) distance sought) :
    (w.pair a.scopes.size b.scopes.size p q condition lacked).Sight
      (a.addScope { parent := p }).2 (b.addScope { parent := q }).2 sought
      a.scopes.size b.scopes.size distance := by
  have hLe := h.le_pair b.scopes.size p q condition lacked
  have ha := a.keptIn_addScope { parent := p }
  have hb := b.keptIn_addScope { parent := q }
  have hLeft := a.scope_addScope_size { parent := p }
  have hRight := b.scope_addScope_size { parent := q }
  have hNew := w.paired_pair a.scopes.size b.scopes.size p q condition lacked
  cases distance with
  | zero =>
      cases sought with
      | binding name => exact .here (leads_of_outward (.pair hNew) name)
      | classes =>
          rcases hInside with hCondition | ⟨hLacked, s, t, rfl, rfl, hSees⟩
          · exact .here (.same (.pair hNew) fun _ =>
              ⟨_, _, joined_pair hCondition, .pair hNew⟩)
          · cases h.sight hSees with
            | here hLeads =>
                refine .here (.left hNew (h.lacks_pair.mpr hLacked)
                  (.right hNew (h.lacks_pair.mpr hLacked) ?_))
                rw [hLeft, hRight]
                exact hLeads.grow h.bound hLe ha hb fun _ _ => id
  | succ distance =>
      have hThere := a.size_lt_addScope { parent := p }
      have hThere' := b.size_lt_addScope { parent := q }
      rcases hInside with ⟨hp, hq⟩ | ⟨s, t, hp, hq, hSees⟩
      · exact .beyond hThere hThere' (by rw [hLeft, hp]) (by rw [hRight, hq])
      · exact .out hThere hThere' (by rw [hLeft, hp]) (by rw [hRight, hq])
          ((h.sight hSees).grow h.bound hLe ha hb fun _ _ => id)

/-- A new scope in both stores. -/
theorem addScope (h : w.Matches a b) {p q : Option Nat} (hOut : w.Outward a b p q)
    {lacked : Sought → Prop} (hInner : ∀ sought, lacked sought → p ≠ none ∧ q ≠ none)
    {condition : Prop} (hJoins : condition → Option.Rel w.Joined p q) :
    (w.pair a.scopes.size b.scopes.size p q condition lacked).Matches
      (a.addScope { parent := p }).2 (b.addScope { parent := q }).2 := by
  have hBound := h.bound_of_outward hOut
  have hLe := h.le_pair b.scopes.size p q condition lacked
  have ha := a.keptIn_addScope { parent := p }
  have hb := b.keptIn_addScope { parent := q }
  have hLeft := a.scope_addScope_size { parent := p }
  have hRight := b.scope_addScope_size { parent := q }
  have hThere := And.intro (a.size_lt_addScope { parent := p }) (b.size_lt_addScope { parent := q })
  have hNew := w.paired_pair a.scopes.size b.scopes.size p q condition lacked
  refine h.grow hLe ha hb ⟨h.parallel.functions, h.parallel.classes, h.parallel.objects,
    h.parallel.cells⟩ (h.older.addScope hBound.1) (h.older'.addScope hBound.2) (fun _ _ => id)
    (fun _ => ⟨hThere, ⟨p, hLeft⟩, ⟨q, hRight⟩, ?_⟩) ?_ ?_ ?_ ?_
  · rw [hLeft, hRight]
    exact hOut.grow hLe ha hb fun _ _ => id
  · rintro place (hOld | ⟨rfl, hCondition⟩)
    · exact Or.inl hOld
    · refine Or.inr (.scope hNew ?_ ?_ ?_)
      · rw [hLeft, hRight]
      · rw [hLeft, hRight]
        exact joins_mono (hJoins hCondition) hLe
      · rw [hLeft]
        exact covers_nil
  · rintro s sought (hOld | ⟨rfl, hLacked⟩)
    · exact Or.inl hOld
    · refine Or.inr ⟨b.scopes.size, hNew, ?_, ?_, ?_⟩
      · rw [hLeft]
        exact Scope.lacks_new p sought
      · rw [hLeft]
        exact (hInner sought hLacked).1
      · rw [hRight]
        exact (hInner sought hLacked).2
  · rintro s t distance sought (hOld | ⟨rfl, rfl, hInside⟩)
    · exact Or.inl hOld
    · exact Or.inr (h.sight_pair hInside)
  · rintro s t distance sought ⟨hPaired, hKnown⟩
    rcases hPaired with hPaired | ⟨rfl, rfl⟩
    · exact Or.inl (h.near ⟨hPaired, hLe.settled hPaired hKnown⟩ distance sought)
    · have hCondition := h.known_pair hKnown
      exact Or.inr ⟨rfl, rfl,
        h.inside_of_joins (hJoins hCondition) (Or.inl hCondition) distance sought⟩

/-- New scopes inside joined ones, which values can lead to. -/
theorem addJoined (h : w.Matches a b) {p q : Option Nat} (hJoins : Option.Rel w.Joined p q) :
    ∃ w', w ≤ w' ∧ w'.Matches (a.addScope { parent := p }).2 (b.addScope { parent := q }).2 ∧
      w'.Joined a.scopes.size b.scopes.size ∧ w'.Free a.scopes.size :=
  ⟨_, h.le_pair b.scopes.size p q True fun _ => False,
    h.addScope (outward_of_joins hJoins) (fun _ => False.elim) fun _ => hJoins,
    joined_pair trivial, fun _ hLacks => h.lacks_pair.mp hLacks⟩

end Matches

/-- New scopes inside two others. If these are joined, so are the new ones, and what is seen
from them is seen one step further out. -/
structure Inside (w : World) (p q : Nat) (lacked : Sought → Prop) (w' : World) (s t : Nat) :
    Prop where
  paired : w'.paired s t
  joined : w.Joined p q → w'.Joined s t
  lacks (sought : Sought) : w'.lacks s sought ↔ lacked sought
  here (name : String) : w'.sees s t 0 (.binding name)
  classes : lacked .classes → w.sees p q 0 .classes → w'.sees s t 0 .classes
  out {distance : Nat} {sought : Sought} : w.sees p q distance sought →
    w'.sees s t (distance + 1) sought

/-- New scopes inside two others are inside them from an earlier world, too. -/
theorem Inside.of_le {w w' w'' : World} {p q s t : Nat} {lacked : Sought → Prop} (hLe : w ≤ w')
    (h : w'.Inside p q lacked w'' s t) : w.Inside p q lacked w'' s t where
  paired := h.paired
  joined hJoined := h.joined (hJoined.mono hLe)
  lacks := h.lacks
  here := h.here
  classes hLacked hSees := h.classes hLacked (hLe.sees hSees)
  out hSees := h.out (hLe.sees hSees)

namespace Matches

variable {w : World} {a b : Store}

/-- Two stores still correspond when each gets a scope inside scopes between which nothing but empty
ones make a difference. -/
theorem addInside (h : w.Matches a b) {p q : Nat} (hOut : w.Outward a b (some p) (some q))
    (lacked : Sought → Prop) :
    ∃ w', w ≤ w' ∧ w'.Matches (a.addScope { parent := some p }).2
      (b.addScope { parent := some q }).2 ∧
      w.Inside p q lacked w' a.scopes.size b.scopes.size := by
  refine ⟨_, h.le_pair b.scopes.size (some p) (some q) (w.Joined p q) lacked, h.addScope hOut
    (fun _ _ => ⟨Option.some_ne_none p, Option.some_ne_none q⟩) fun hJoined => .some hJoined, ?_⟩
  refine ⟨paired_pair _ _ _ _ _ _, joined_pair, fun _ => h.lacks_pair, fun _ => ?_,
    fun hLacked hSees => ?_, fun hSees => ?_⟩
  · exact Or.inr ⟨rfl, rfl, trivial⟩
  · exact Or.inr ⟨rfl, rfl, Or.inr ⟨hLacked, p, q, rfl, rfl, hSees⟩⟩
  · exact Or.inr ⟨rfl, rfl, Or.inr ⟨p, q, rfl, rfl, hSees⟩⟩

/-- A new scope in the second store only. -/
theorem addRight (h : w.Matches a b) {t : Nat} (hBound : t < b.scopes.size) :
    w.Matches a (b.addScope { parent := some t }).2 := by
  refine h.grow w.le_refl (.refl a) (b.keptIn_addScope _) ⟨h.parallel.functions,
    h.parallel.classes, h.parallel.objects, h.parallel.cells⟩ h.older
    (h.older'.addScope fun _ hSome => by cases hSome; exact hBound) (fun _ _ => Or.inl) ?_
    (fun _ => Or.inl) (fun _ _ => Or.inl) (fun _ _ _ _ => Or.inl)
    fun _ _ distance sought hJoined => h.near hJoined distance sought
  exact fun hPaired => absurd (h.bound hPaired).1 (Nat.lt_irrefl _)

/-- A new scope in the first store only. -/
theorem addLeft (h : w.Matches a b) {s : Nat} (hBound : s < a.scopes.size) :
    w.Matches (a.addScope { parent := some s }).2 b := by
  refine h.grow w.le_refl (a.keptIn_addScope _) (.refl b) ⟨h.parallel.functions,
    h.parallel.classes, h.parallel.objects, h.parallel.cells⟩
    (h.older.addScope fun _ hSome => by cases hSome; exact hBound) h.older' (fun _ _ => Or.inl) ?_
    (fun _ => Or.inl) (fun _ _ => Or.inl) (fun _ _ _ _ => Or.inl)
    fun _ _ distance sought hJoined => h.near hJoined distance sought
  exact fun hPaired => absurd (h.bound hPaired).1 (Nat.lt_irrefl _)

/-- The new scope of the second store is left out on the way outwards. -/
theorem outward_addRight (h : w.Matches a b) {s t : Nat} (hPaired : w.paired s t) :
    w.Outward a (b.addScope { parent := some t }).2 (some s) (some b.scopes.size) := by
  refine .right (b.size_lt_addScope _)
    (fun s hPair => absurd (h.bound hPair).2 (Nat.lt_irrefl _)) ?_ ?_ ?_
  · rw [Store.scope_addScope_size]
  · rw [Store.scope_addScope_size]
  · rw [Store.scope_addScope_size]
    exact .pair hPaired

/-- A scope that only the first store has makes no difference to the line, since it is empty. -/
theorem outward_addLeft (h : w.Matches a b) {s t : Nat} (hPaired : w.paired s t) :
    w.Outward (a.addScope { parent := some s }).2 b (some a.scopes.size) (some t) := by
  refine .left (a.size_lt_addScope _)
    (fun t hPair => absurd (h.bound hPair).1 (Nat.lt_irrefl _)) ?_ ?_ ?_
  · rw [Store.scope_addScope_size]
  · rw [Store.scope_addScope_size]
  · rw [Store.scope_addScope_size]
    exact .pair hPaired

end Matches

/-! ## More that is seen -/

/-- The world in which the same is seen from two more scopes, at some distances. -/
def see (w : World) (s t : Nat) (seen : Nat → Sought → Prop) : World where
  paired := w.paired
  known := w.known
  lacks := w.lacks
  sees s' t' distance sought := w.sees s' t' distance sought ∨ s' = s ∧ t' = t ∧
    seen distance sought

/-- What is seen past a scope that only one store has and that stands inside `s`: everything from
right behind it, and one step further out each variable that `s` lacks. -/
def past (w : World) (s distance : Nat) (sought : Sought) : Prop :=
  distance = 0 ∨ distance = 1 ∧ ∃ name, sought = .binding name ∧ w.lacks s sought

theorem le_see {w : World} (s t : Nat) (seen : Nat → Sought → Prop) : w ≤ w.see s t seen :=
  ⟨id, id, fun _ => id, id, fun _ => id, Or.inl⟩

namespace Matches

variable {w : World} {a b : Store}

/-- The same may be seen from two more scopes if the lines bear it out. -/
theorem see (h : w.Matches a b) {s t : Nat} {seen : Nat → Sought → Prop}
    (hSight : ∀ distance sought, seen distance sought → w.Sight a b sought s t distance) :
    (w.see s t seen).Matches a b := by
  have hLe : w ≤ w.see s t seen := le_see s t seen
  refine h.grow hLe (.refl a) (.refl b) h.parallel h.older h.older' (fun _ _ => Or.inl)
    (fun hPaired => absurd (h.bound hPaired).1 (Nat.lt_irrefl _)) (fun _ => Or.inl)
    (fun _ _ => Or.inl) ?_
    fun _ _ distance sought hJoined => Or.inl (h.near hJoined distance sought)
  rintro _ _ distance sought (hOld | ⟨rfl, rfl, hNew⟩)
  · exact Or.inl hOld
  · exact Or.inr ((hSight distance sought hNew).grow h.bound hLe (.refl a) (.refl b)
      fun _ _ => Or.inl)

/-- What is seen from where one stands is found from there outwards. -/
theorem leads_of_sees (h : w.Matches a b) {s t : Nat} {sought : Sought}
    (hSees : w.sees s t 0 sought) : w.Leads a b sought (some s) (some t) := by
  cases h.sight hSees with
  | here hLeads => exact hLeads

/-- What is seen from the scopes inside two scopes if one of these is held apart from them by
a scope that only one store has: `inner` and `inner'` are the new scopes that belong together,
and `outer` and `outer'` are those that stand directly in the two scopes. -/
structure Between (w : World) (s : Nat) (lacked : Sought → Prop) (w' : World)
    (inner inner' outer outer' : Nat) : Prop where
  paired : w'.paired inner inner'
  lacks (sought : Sought) : w'.lacks inner sought ↔ lacked sought
  near (name : String) {distance : Nat} : distance ≤ 1 →
    w'.sees inner inner' distance (.binding name)
  past {name : String} : w.lacks s (.binding name) → w'.sees inner inner' 2 (.binding name)
  classes : lacked .classes → w'.sees inner inner' 0 .classes
  same {sought : Sought} : lacked sought → w'.sees outer outer' 0 sought
  beyond (sought : Sought) {distance : Nat} : 0 < distance → w'.sees outer outer' distance sought

/-- The new scope stands inside two scopes from which the same is seen outwards, except that
one store has a scope more. -/
theorem Between.of_inside {w₁ w₂ : World} {s p q inner inner' outer outer' : Nat}
    {lacked : Sought → Prop} {seen : Nat → Sought → Prop}
    (hHere : ∀ sought, w₁.sees p q 0 sought)
    (hPast : ∀ name, w.lacks s (.binding name) → w₁.sees p q 1 (.binding name))
    (hInside : w₁.Inside p q lacked w₂ inner inner')
    (hSame : ∀ sought, lacked sought → seen 0 sought)
    (hBeyond : ∀ distance sought, 0 < distance → seen distance sought) :
    Between w s lacked (w₂.see outer outer' seen) inner inner' outer outer' where
  paired := hInside.paired
  lacks := hInside.lacks
  near name {distance} hNear := by
    match distance with
    | 0 => exact Or.inl (hInside.here name)
    | 1 => exact Or.inl (hInside.out (hHere _))
  past hLacks := Or.inl (hInside.out (hPast _ hLacks))
  classes hLacked := Or.inl (hInside.classes hLacked (hHere _))
  same hLacked := Or.inr ⟨rfl, rfl, hSame _ hLacked⟩
  beyond sought {_} hFar := Or.inr ⟨rfl, rfl, hBeyond _ sought hFar⟩

/-- New scopes that belong together, one of them inside a scope that only one store has. It only
matters what is seen past that scope, and what from the scopes that stand directly in `s`. -/
theorem addBetween (h : w.Matches a b) {s p q outer outer' : Nat} {lacked : Sought → Prop}
    (hOut : w.Outward a b (some p) (some q))
    (hPast : ∀ distance sought, w.past s distance sought → w.Sight a b sought p q distance)
    (hOuter : ∀ w', w ≤ w' → w'.Matches (a.addScope { parent := some p }).2
        (b.addScope { parent := some q }).2 → w'.paired a.scopes.size b.scopes.size →
      (∀ sought, w'.lacks a.scopes.size sought ↔ lacked sought) →
      (∀ sought, w'.sees p q 0 sought) → ∀ distance sought, 0 < distance ∨ lacked sought →
      w'.Sight (a.addScope { parent := some p }).2 (b.addScope { parent := some q }).2 sought
        outer outer' distance) :
    ∃ w', w ≤ w' ∧ w'.Matches (a.addScope { parent := some p }).2
        (b.addScope { parent := some q }).2 ∧
      Between w s lacked w' a.scopes.size b.scopes.size outer outer' := by
  have hLe := w.le_see p q (w.past s)
  obtain ⟨w₂, hLe₂, hInner, hInside⟩ := (h.see hPast).addInside
    (hOut.grow hLe (.refl _) (.refl _) fun _ _ => Or.inl) lacked
  have hSeen := hOuter w₂ (le_trans hLe hLe₂) hInner hInside.paired hInside.lacks
    fun _ => hLe₂.sees (Or.inr ⟨rfl, rfl, Or.inl rfl⟩)
  refine ⟨w₂.see outer outer' fun distance sought => 0 < distance ∨ lacked sought,
    le_trans (le_trans hLe hLe₂) (le_see _ _ _), hInner.see hSeen, ?_⟩
  refine .of_inside (fun _ => ?_) (fun name hLacks => ?_) hInside (fun _ => Or.inr)
    fun _ _ => Or.inl
  · exact Or.inr ⟨rfl, rfl, Or.inl rfl⟩
  · exact Or.inr ⟨rfl, rfl, Or.inr ⟨rfl, name, rfl, hLacks⟩⟩

/-- A new scope in both stores, in the second one inside another new scope. -/
theorem addBetweenRight (h : w.Matches a b) {s t : Nat} (hJoined : w.Joined s t)
    (lacked : Sought → Prop) :
    ∃ w', w ≤ w' ∧ w'.Matches (a.addScope { parent := some s }).2
        ((b.addScope { parent := some t }).2.addScope { parent := some b.scopes.size }).2 ∧
      Between w s lacked w' a.scopes.size (b.addScope { parent := some t }).2.scopes.size
        a.scopes.size b.scopes.size := by
  have hBound := h.bound hJoined.1
  have hThere := b.size_lt_addScope { parent := some t }
  have hOut := h.outward_addRight hJoined.1
  have hSpare := h.addRight hBound.2
  refine hSpare.addBetween hOut (fun distance sought hPast => ?_)
    fun w' hLe hInner hPaired hLacks hHere distance sought hFar => ?_
  · rcases hPast with rfl | ⟨rfl, name, rfl, hLacks⟩
    · exact .here (.same hOut fun _ => ⟨s, t, hJoined, .pair hJoined.1⟩)
    · obtain ⟨t', hLacking⟩ := hSpare.lacking hLacks
      obtain ⟨p, hParent⟩ := Option.ne_none_iff_exists'.mp hLacking.inner
      refine .out hBound.1 hThere hParent (by rw [Store.scope_addScope_size]) (.here ?_)
      exact .right hJoined.1 hLacks
        (leads_of_outward (hParent ▸ hSpare.outward hJoined.1) name)
  · have hKept := Store.keptIn_addScope (b.addScope { parent := some t }).2
      { parent := some b.scopes.size }
    have hParent := hKept.scope _ hThere
    rw [Store.scope_addScope_size] at hParent
    cases distance with
    | zero =>
        refine .here (.left hPaired
          ((hLacks sought).mpr (hFar.resolve_left (Nat.lt_irrefl 0))) ?_)
        rw [Store.scope_addScope_size]
        exact hInner.leads_of_sees (hHere sought)
    | succ distance =>
        exact .out (a.size_lt_addScope _) (Nat.lt_of_lt_of_le hThere hKept.scopes)
          (by rw [Store.scope_addScope_size]) (by rw [hParent])
          (hInner.sight (hInner.near (hJoined.mono hLe) distance sought))

/-- The same with the scope in between in the first store. -/
theorem addBetweenLeft (h : w.Matches a b) {s t : Nat} (hJoined : w.Joined s t)
    (lacked : Sought → Prop) :
    ∃ w', w ≤ w' ∧ w'.Matches
        ((a.addScope { parent := some s }).2.addScope { parent := some a.scopes.size }).2
        (b.addScope { parent := some t }).2 ∧
      Between w s lacked w' (a.addScope { parent := some s }).2.scopes.size b.scopes.size
        a.scopes.size b.scopes.size := by
  have hBound := h.bound hJoined.1
  have hThere := a.size_lt_addScope { parent := some s }
  have hOut := h.outward_addLeft hJoined.1
  have hSpare := h.addLeft hBound.1
  refine hSpare.addBetween hOut (fun distance sought hPast => ?_)
    fun w' hLe hInner hPaired hLacks hHere distance sought hFar => ?_
  · rcases hPast with rfl | ⟨rfl, name, rfl, hLacks⟩
    · exact .here (.same hOut fun _ => ⟨s, t, hJoined, hOut⟩)
    · obtain ⟨t', hLacking⟩ := hSpare.lacking hLacks
      cases (hSpare.apart hLacking.paired hJoined.1).mp rfl
      obtain ⟨q, hParent⟩ := Option.ne_none_iff_exists'.mp hLacking.inner'
      refine .out hThere hBound.2 (by rw [Store.scope_addScope_size]) hParent (.here ?_)
      exact .left hJoined.1 hLacks
        (leads_of_outward (hParent ▸ hSpare.outward hJoined.1) name)
  · have hKept := Store.keptIn_addScope (a.addScope { parent := some s }).2
      { parent := some a.scopes.size }
    have hParent := hKept.scope _ hThere
    rw [Store.scope_addScope_size] at hParent
    cases distance with
    | zero =>
        refine .here (.right hPaired
          ((hLacks sought).mpr (hFar.resolve_left (Nat.lt_irrefl 0))) ?_)
        rw [Store.scope_addScope_size]
        exact hInner.leads_of_sees (hHere sought)
    | succ distance =>
        exact .out (Nat.lt_of_lt_of_le hThere hKept.scopes) (b.size_lt_addScope _)
          (by rw [hParent]) (by rw [Store.scope_addScope_size])
          (hInner.sight (hInner.near (hJoined.mono hLe) distance sought))

end Matches

/-! ## New functions, classes, objects and cells -/

/-- The world in which values can also lead to a place, if the condition holds. -/
def learn (w : World) (place : Store.Place) (condition : Prop) : World where
  paired := w.paired
  known other := w.known other ∨ other = place ∧ condition
  lacks := w.lacks
  sees := w.sees

/-- Values may come to lead to more, as long as it is no scope. -/
theorem le_learn {w : World} {place : Store.Place} (hPlace : place.isScope = false)
    (condition : Prop) : w ≤ w.learn place condition := by
  refine ⟨id, Or.inl, fun _ hKnown => ?_, id, fun _ => id, id⟩
  rcases hKnown with hOld | ⟨rfl, -⟩
  · exact hOld
  · cases hPlace

theorem known_learn {w : World} {place : Store.Place} {condition : Prop} (h : condition) :
    (w.learn place condition).known place :=
  Or.inr ⟨rfl, h⟩

namespace Matches

variable {w : World} {a b a' b' : Store}

/-- Stores still correspond when values can also lead to something new that is fine. -/
theorem learn (h : w.Matches a b) (ha : a.KeptIn a') (hb : b.KeptIn b') (hParallel : a'.Parallel b')
    (hOlder : Older a'.scopeParent) (hOlder' : Older b'.scopeParent) {place : Store.Place}
    (hPlace : place.isScope = false) {condition : Prop}
    (hFine : condition → (w.learn place condition).Fine a' b' place) :
    (w.learn place condition).Matches a' b' := by
  refine h.grow (w.le_learn hPlace condition) ha hb hParallel hOlder hOlder' (fun _ _ => Or.inl)
    (fun hPaired => absurd (h.bound hPaired).1 (Nat.lt_irrefl _)) ?_ (fun _ _ => Or.inl)
    (fun _ _ _ _ => Or.inl) ?_
  · rintro other (hOld | ⟨rfl, hCondition⟩)
    · exact Or.inl hOld
    · exact Or.inr (hFine hCondition)
  · rintro s t distance sought ⟨hPaired, hKnown⟩
    exact h.near ⟨hPaired, (le_learn hPlace condition).settled hPaired hKnown⟩ distance sought

/-- Both stores get the same function, with joined closures if values can lead to it. -/
theorem addFunction (h : w.Matches a b) {f g : Function} (hBare : f.bare = g.bare)
    {condition : Prop} (hClosure : condition → Option.Rel w.Joined f.closure g.closure)
    (hCovers : condition → w.Covers f.places) :
    (w.learn (.function a.functions.size) condition).Matches (a.addFunction f).2
      (b.addFunction g).2 := by
  refine h.learn (a.keptIn_addFunction f) (b.keptIn_addFunction g) ⟨?_, h.parallel.classes,
    h.parallel.objects, h.parallel.cells⟩ h.older h.older' rfl fun hCondition => ?_
  · simp only [Store.addFunction, Array.map_push, h.parallel.functions, hBare]
  · have hLe : w ≤ w.learn (.function a.functions.size) condition := le_learn rfl condition
    have hLeft := a.function_addFunction f a.functions.size
    have hRight := b.function_addFunction g a.functions.size
    rw [if_pos rfl] at hLeft
    rw [if_pos h.parallel.functions_size] at hRight
    refine .function (by simp [Store.addFunction]) ?_ ?_
    · rw [hLeft, hRight]
      exact joins_mono (hClosure hCondition) hLe
    · rw [hLeft]
      exact (hCovers hCondition).mono hLe

/-- Both stores get the same class, with joined scopes if values can lead to it. -/
theorem addClass (h : w.Matches a b) {c d : ClassDef} (hBare : c.bare = d.bare)
    {condition : Prop} (hScope : condition → Option.Rel w.Joined c.scope d.scope)
    (hCovers : condition → w.Covers c.places) :
    (w.learn (.classDef a.classes.size) condition).Matches (a.addClass c).2
      (b.addClass d).2 := by
  refine h.learn (a.keptIn_addClass c) (b.keptIn_addClass d) ⟨h.parallel.functions, ?_,
    h.parallel.objects, h.parallel.cells⟩ h.older h.older' rfl fun hCondition => ?_
  · simp only [Store.addClass, Array.map_push, h.parallel.classes, hBare]
  · have hLe : w ≤ w.learn (.classDef a.classes.size) condition := le_learn rfl condition
    have hLeft := a.classDef_addClass c a.classes.size
    have hRight := b.classDef_addClass d a.classes.size
    rw [if_pos rfl] at hLeft
    rw [if_pos h.parallel.classes_size] at hRight
    refine .classDef (by simp [Store.addClass]) ?_ ?_
    · rw [hLeft, hRight]
      exact joins_mono (hScope hCondition) hLe
    · rw [hLeft]
      exact (hCovers hCondition).mono hLe

/-- Both stores get the same object, which has no scope yet. -/
theorem addObject (h : w.Matches a b) (object : Object) (hScope : object.scope = none)
    (hCovers : w.Covers object.places) :
    (w.learn (.object a.objects.size) True).Matches (a.addObject object).2
      (b.addObject object).2 := by
  refine h.learn (a.keptIn_addObject object) (b.keptIn_addObject object) ⟨h.parallel.functions,
    h.parallel.classes, ?_, h.parallel.cells⟩ h.older h.older' rfl fun _ => ?_
  · simp only [Store.addObject, Array.map_push, h.parallel.objects]
  · have hLeft := a.object_addObject object a.objects.size
    have hRight := b.object_addObject object a.objects.size
    rw [if_pos rfl] at hLeft
    rw [if_pos h.parallel.objects_size] at hRight
    refine .object (by simp [Store.addObject]) ?_ ?_ ?_
    · rw [hLeft, hRight, hScope]
      exact .none
    · rw [hLeft, hScope]
      exact fun _ hSome => by cases hSome
    · rw [hLeft]
      exact hCovers.mono (w.le_learn rfl _)

/-- Both stores get the same items in a new cell. -/
theorem addCell (h : w.Matches a b) {items : List Value}
    (hCovers : w.Covers (Value.placesAll items)) :
    (w.learn (.cell a.cells.size) True).Matches (a.addCell items).2 (b.addCell items).2 := by
  refine h.learn (a.keptIn_addCell items) (b.keptIn_addCell items) ⟨h.parallel.functions,
    h.parallel.classes, h.parallel.objects, ?_⟩ h.older h.older' rfl fun _ => ?_
  · simp only [Store.addCell, h.parallel.cells]
  · refine .cell (by simp [Store.addCell]) ?_
    rw [Store.cell_addCell, if_pos rfl]
    exact hCovers.mono (w.le_learn rfl _)

end Matches

end World

end Mus
