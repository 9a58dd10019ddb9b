import Mus.Proofs.Machine.Rules
import Mus.Proofs.Store.PairedChanges

/-! Look-ups and operations in two stores that correspond. From joined scopes the same
is found, classes are found alike from any two scopes that belong together, and what an
operation does to one store it does to the other one. -/
namespace Mus.World

variable {w : World} {a b : Store}

namespace Matches

/-! ## Look-ups -/

/-- What is found from a place on, if there is a place. -/
def findFrom {α : Type} (store : Store) (find : Scope → Option α) : Option Nat → Option α
  | none => none
  | some place => store.inScopes find place

/-- A look-up tries the scope itself and goes on with the one around it. The bound does not matter
where parents are older. -/
theorem inScopes_step {α : Type} {store : Store} (hOlder : Older store.scopeParent)
    (find : Scope → Option α) (place : Nat) :
    store.inScopes find place =
      (find (store.scope place)).or (findFrom store find (store.scope place).parent) := by
  rw [Store.inScopes]
  cases find (store.scope place) with
  | some found => rfl
  | none =>
      cases hParent : (store.scope place).parent with
      | none => rfl
      | some above =>
          dsimp only
          rw [if_pos (hOlder place above hParent)]
          rfl

/-- Along lines of scopes that are the same but for empty ones, the same is found in
variables and classes, and it is found in scopes that belong together. By induction on a
bound of the places in the first store, and for each bound along the two lines. -/
theorem findFrom_eq {α : Type} (h : w.Matches a b) {find : Scope → Option α}
    (hFind : ∀ x y : Scope, x.bindings = y.bindings → x.classes = y.classes → find x = find y)
    (hEmpty : ∀ x : Scope, x.bindings = [] → x.classes = [] → find x = none) (bound : Nat)
    {p q : Option Nat} (hOut : w.Outward a b p q) (hBound : ∀ s, p = some s → s < bound) :
    findFrom a find p = findFrom b find q ∧ ∀ entry, findFrom a find p = some entry →
      ∃ s t, w.paired s t ∧ find (a.scope s) = some entry := by
  have hRight {t : Nat} (hBindings : (b.scope t).bindings = [])
      (hClasses : (b.scope t).classes = []) :
      findFrom b find (some t) = findFrom b find (b.scope t).parent := by
    rw [findFrom, inScopes_step h.older', hEmpty _ hBindings hClasses, Option.none_or]
  induction bound generalizing p q with
  | zero =>
      induction hOut with
      | root => exact ⟨rfl, fun _ hNone => by cases hNone⟩
      | pair _ => exact absurd (hBound _ rfl) (Nat.not_lt_zero _)
      | left _ _ _ _ _ _ => exact absurd (hBound _ rfl) (Nat.not_lt_zero _)
      | right _ _ hBindings hClasses _ ih =>
          rw [hRight hBindings hClasses]
          exact ih hBound
  | succ bound ihBound =>
      have hLess {s : Nat} (hs : s < bound + 1) (above : Nat)
          (hAbove : (a.scope s).parent = some above) : above < bound :=
        Nat.lt_of_lt_of_le (h.older s above hAbove) (Nat.le_of_lt_succ hs)
      induction hOut with
      | root => exact ⟨rfl, fun _ hNone => by cases hNone⟩
      | @pair s t hPaired =>
          obtain ⟨hSame, hFound⟩ := ihBound (h.outward hPaired) (hLess (hBound s rfl))
          have hOwn := hFind _ _ (h.bindings hPaired) (h.classes hPaired)
          rw [findFrom, findFrom, inScopes_step h.older, inScopes_step h.older', ← hOwn, ← hSame]
          refine ⟨rfl, fun entry hEntry => ?_⟩
          rcases Option.or_eq_some_iff.mp hEntry with hHere | ⟨-, hAbove⟩
          · exact ⟨s, t, hPaired, hHere⟩
          · exact hFound entry hAbove
      | @left s q _ _ hBindings hClasses hAbove _ =>
          rw [findFrom, inScopes_step h.older, hEmpty _ hBindings hClasses, Option.none_or]
          exact ihBound hAbove (hLess (hBound s rfl))
      | right _ _ hBindings hClasses _ ih =>
          rw [hRight hBindings hClasses]
          exact ih hBound

/-- The same is found outwards from places whose lines differ only by empty scopes. -/
theorem findFrom_outward {α : Type} (h : w.Matches a b) {find : Scope → Option α}
    (hFind : ∀ x y : Scope, x.bindings = y.bindings → x.classes = y.classes → find x = find y)
    (hEmpty : ∀ x : Scope, x.bindings = [] → x.classes = [] → find x = none) {p q : Option Nat}
    (hOut : w.Outward a b p q) :
    findFrom a find p = findFrom b find q ∧ ∀ entry, findFrom a find p = some entry →
      ∃ s t, w.paired s t ∧ find (a.scope s) = some entry := by
  refine h.findFrom_eq hFind hEmpty (p.elim 0 (· + 1)) hOut fun s hSome => ?_
  rw [hSome]
  exact Nat.lt_succ_self s

/-- Two scopes that belong together lack the same. -/
theorem lacks_right (h : w.Matches a b) {s t : Nat} (hPaired : w.paired s t) {sought : Sought}
    (hLacks : (a.scope s).Lacks sought) : (b.scope t).Lacks sought := by
  cases sought with
  | binding name =>
      rw [Scope.Lacks, ← h.bindings hPaired]
      exact hLacks
  | classes =>
      rw [Scope.Lacks, ← h.classes hPaired]
      exact hLacks

/-- Scopes that lack something are passed by in the search for it. By induction on the way
outwards, which ends where the lines of scopes are the same. -/
theorem findFrom_past {α : Type} (h : w.Matches a b) {find : Scope → Option α} {sought : Sought}
    (hLack : ∀ x : Scope, x.Lacks sought → find x = none) {p q : Option Nat}
    (hLeads : w.Leads a b sought p q) :
    ∃ p' q', w.Outward a b p' q' ∧
      (sought = .classes → ∃ s t, w.Joined s t ∧ w.Outward a b p' (some t)) ∧
      findFrom a find p = findFrom a find p' ∧ findFrom b find q = findFrom b find q' := by
  induction hLeads with
  | @same p q hOut hReach => exact ⟨p, q, hOut, hReach, rfl, rfl⟩
  | @left s t q hPaired hLacks _ ih =>
      obtain ⟨t', hLacking⟩ := h.lacking hLacks
      have hLeft : findFrom a find (some s) = findFrom a find (a.scope s).parent := by
        rw [findFrom, inScopes_step h.older, hLack _ hLacking.lacks, Option.none_or]
      rw [hLeft]
      exact ih
  | @right s t p hPaired hLacks _ ih =>
      obtain ⟨t', hLacking⟩ := h.lacking hLacks
      have hRight : findFrom b find (some t) = findFrom b find (b.scope t).parent := by
        rw [findFrom, inScopes_step h.older', hLack _ (h.lacks_right hPaired hLacking.lacks),
          Option.none_or]
      rw [hRight]
      exact ih

/-- A variable has the same value seen from scopes that lead to the same. -/
theorem readVariable_eq (h : w.Matches a b) {s t : Nat} {name : String}
    (hLeads : w.Leads a b (.binding name) (some s) (some t)) :
    a.readVariable s name = b.readVariable t name ∧ w.Covers (a.readVariable s name).places := by
  have hFind (x y : Scope) (hEq : x.bindings = y.bindings) (_ : x.classes = y.classes) :
      (x.bindings.find? name).map Prod.snd = (y.bindings.find? name).map Prod.snd := by rw [hEq]
  have hEmpty (x : Scope) (hEq : x.bindings = []) (_ : x.classes = []) :
      (x.bindings.find? name).map Prod.snd = none := by rw [hEq]; rfl
  have hLack (x : Scope) (hLacks : x.Lacks (.binding name)) :
      (x.bindings.find? name).map Prod.snd = none := by
    rw [Scope.Lacks] at hLacks
    rw [hLacks, Option.map_none]
  obtain ⟨p, q, hOut, -, hLeft, hRight⟩ := h.findFrom_past hLack hLeads
  obtain ⟨hSame, hEntry⟩ := h.findFrom_outward hFind hEmpty hOut
  rw [← hLeft, ← hRight] at hSame
  rw [← hLeft] at hEntry
  rw [findFrom, findFrom] at hSame
  rw [findFrom] at hEntry
  unfold Store.readVariable Store.findVariable?
  rw [← hSame]
  refine ⟨rfl, ?_⟩
  cases hFound : a.inScopes (fun scope => (scope.bindings.find? name).map Prod.snd) s with
  | none => exact covers_nil
  | some value =>
      obtain ⟨s', t', hPaired, hValue⟩ := hEntry value hFound
      obtain ⟨entry, hTable, rfl⟩ := Option.map_eq_some_iff.mp hValue
      have hCovers := covers_find (h.held hPaired) hTable
      exact hCovers

/-- The same is seen a number of steps out. -/
theorem ancestor_cases {distance s t : Nat} {sought : Sought}
    (hSight : w.Sight a b sought s t distance) :
    a.ancestor s distance = none ∧ b.ancestor t distance = none ∨
      ∃ p q, a.ancestor s distance = some p ∧ b.ancestor t distance = some q ∧
        w.Leads a b sought (some p) (some q) := by
  induction hSight with
  | here hLeads => exact Or.inr ⟨_, _, rfl, rfl, hLeads⟩
  | beyond _ _ hParent hParent' =>
      unfold Store.ancestor
      rw [hParent, hParent']
      exact Or.inl ⟨rfl, rfl⟩
  | out _ _ hParent hParent' _ ih =>
      unfold Store.ancestor
      rw [hParent, hParent']
      exact ih

/-- A variable that is seen alike reads alike, with a value that does not lead out of the world. -/
theorem readAt_eq (h : w.Matches a b) {s t : Nat} {distance : Int} {name : String}
    (hSees : w.sees s t distance.toNat (.binding name)) :
    a.readAt s distance name = b.readAt t distance name ∧
      ∀ value, a.readAt s distance name = some value → w.Covers value.places := by
  unfold Store.readAt
  rcases ancestor_cases (h.sight hSees) with ⟨hp, hq⟩ | ⟨p, q, hp, hq, hLeads⟩
  · rw [hp, hq]
    exact ⟨rfl, fun _ hNone => by cases hNone⟩
  · obtain ⟨hSame, hCovers⟩ := h.readVariable_eq hLeads
    rw [hp, hq, Option.map_some, Option.map_some, hSame]
    exact ⟨rfl, fun value hValue => by cases hValue; exact hSame ▸ hCovers⟩

/-- The class of a name, as it is found from a place on. -/
theorem findFrom_class?_eq (h : w.Matches a b) {p q : Option Nat} (hOut : w.Outward a b p q)
    (name : String) :
    findFrom a (fun scope => scope.classes.find? name) p =
      findFrom b (fun scope => scope.classes.find? name) q := by
  refine (h.findFrom_outward (fun x y _ hEq => ?_) (fun x _ hEq => ?_) hOut).1
  · rw [hEq]
  · rw [hEq]
    rfl

/-- From scopes that belong together the same class is found under a name. -/
theorem class?_eq (h : w.Matches a b) {s t : Nat} (hPaired : w.paired s t) (name : String) :
    a.class? s name = b.class? t name :=
  h.findFrom_class?_eq (.pair hPaired) name

/-- From a scope that values can lead to, only such classes are found. -/
theorem known_class? (h : w.Matches a b) {s c : Nat} (hKnown : w.known (.scope s)) {name : String}
    (hFound : a.class? s name = some c) : w.known (.classDef c) := by
  induction s using Nat.strongRecOn with
  | ind s ih =>
      obtain ⟨t, hJoined⟩ := h.exists_joined hKnown
      obtain ⟨-, hParent, hCovers⟩ := h.joined hJoined
      rw [Store.class?, inScopes_step h.older] at hFound
      rcases Option.or_eq_some_iff.mp hFound with hOwn | ⟨-, hAbove⟩
      · unfold Scope.places at hCovers
        have hEntry := covers_find (covers_append.mp (covers_append.mp hCovers).2).2 hOwn
        exact covers_singleton.mp hEntry
      · rcases joins_cases hParent with ⟨hp, -⟩ | ⟨p, q, hp, -, hJoins⟩
        · rw [hp] at hAbove
          cases hAbove
        · rw [hp] at hAbove
          exact ih p (h.older s p hp) hJoins.2 hAbove

/-- Past scopes without classes the same class is found, and values can lead to it. -/
theorem class?_of_leads (h : w.Matches a b) {s t : Nat}
    (hLeads : w.Leads a b .classes (some s) (some t)) (name : String) :
    a.class? s name = b.class? t name ∧
      ∀ c, a.class? s name = some c → w.known (.classDef c) := by
  have hLack (x : Scope) (hLacks : x.Lacks .classes) : x.classes.find? name = none := by
    rw [Scope.Lacks] at hLacks
    rw [hLacks]
    rfl
  obtain ⟨p, q, hOut, hReach, hLeft, hRight⟩ := h.findFrom_past hLack hLeads
  obtain ⟨s', t', hJoined, hLine⟩ := hReach rfl
  have hSame := h.findFrom_class?_eq hOut name
  have hKnown := h.findFrom_class?_eq hLine name
  rw [← hLeft, ← hRight] at hSame
  rw [← hLeft] at hKnown
  refine ⟨hSame, fun c hFound => ?_⟩
  have hThere : a.class? s' name = some c := by
    rw [h.class?_eq hJoined.1, ← hFound]
    exact hKnown.symm
  exact h.known_class? hJoined.2 hThere

/-! ## Parts of the stores that values can lead to -/

/-- A function that values can lead to has joined closures in the two stores. -/
theorem function (h : w.Matches a b) {f : Nat} (hKnown : w.known (.function f)) :
    Option.Rel w.Joined (a.function f).closure (b.function f).closure ∧
      w.Covers (a.function f).places := by
  cases h.fine hKnown with
  | function _ hClosure hCovers => exact ⟨hClosure, hCovers⟩

/-- A class that values can lead to has joined scopes in the two stores. -/
theorem classDef (h : w.Matches a b) {c : Nat} (hKnown : w.known (.classDef c)) :
    Option.Rel w.Joined (a.classDef c).scope (b.classDef c).scope ∧
      w.Covers (a.classDef c).places := by
  cases h.fine hKnown with
  | classDef _ hScope hCovers => exact ⟨hScope, hCovers⟩

/-- An object that values can lead to has joined scopes in the two stores. -/
theorem object (h : w.Matches a b) {o : Nat} (hKnown : w.known (.object o)) :
    Option.Rel w.Joined (a.object o).scope (b.object o).scope ∧ w.Covers (a.object o).places := by
  cases h.fine hKnown with
  | object _ hScope _ hCovers => exact ⟨hScope, hCovers⟩

/-- The scope of an object may come to hold anything, since fields are repeated there. -/
theorem free_object (h : w.Matches a b) {o s : Nat} (hKnown : w.known (.object o))
    (hScope : (a.object o).scope = some s) : w.Free s := by
  cases h.fine hKnown with
  | object _ _ hFree _ => exact hFree s hScope

theorem cell (h : w.Matches a b) {c : Nat} (hKnown : w.known (.cell c)) :
    w.Covers (Value.placesAll (a.cell c)) := by
  cases h.fine hKnown with
  | cell _ hCovers => exact hCovers

theorem items (h : w.Matches a b) {items : Items} (hItems : w.Covers items.places) :
    w.Covers (Value.placesAll (a.items items)) := by
  cases items with
  | constant values =>
      rw [Items.places] at hItems
      exact hItems
  | cell place =>
      rw [Items.places] at hItems
      exact h.cell (covers_singleton.mp hItems)

/-- The class that a class extends, and its methods and defaults. -/
theorem classParts (h : w.Matches a b) {c : Nat} (hKnown : w.known (.classDef c)) :
    (∀ parent, (a.classDef c).parent = some parent → w.known (.classDef parent)) ∧
      (∀ name f, (a.classDef c).methods.find? name = some f → w.known (.function f)) ∧
      w.Covers ((a.classDef c).fields.places (·.2.places)) := by
  obtain ⟨-, hCovers⟩ := h.classDef hKnown
  unfold ClassDef.places at hCovers
  obtain ⟨hFields, hRest⟩ := covers_append.mp hCovers
  obtain ⟨hMethods, hParent⟩ := covers_append.mp hRest
  refine ⟨fun parent hSome => ?_, fun name f hFound => ?_, hFields⟩
  · rw [hSome] at hParent
    exact covers_singleton.mp hParent
  · have hMethod := covers_find hMethods hFound
    exact covers_singleton.mp hMethod

/-- The class of an object and its fields. -/
theorem objectParts (h : w.Matches a b) {o : Nat} (hKnown : w.known (.object o)) :
    w.known (.classDef (a.object o).classDef) ∧
      w.Covers ((a.object o).fields.places Value.places) := by
  obtain ⟨-, hCovers⟩ := h.object hKnown
  unfold Object.places at hCovers
  exact covers_cons.mp hCovers

/-- Methods of a class that values can lead to are functions that values can lead to. -/
theorem known_method? (h : w.Matches a b) {c f : Nat} (hKnown : w.known (.classDef c))
    {name : String} (hFound : a.method? c name = some f) : w.known (.function f) := by
  fun_induction Store.method? a c name with
  | case1 c method hOwn =>
      cases hFound
      exact (h.classParts hKnown).2.1 name _ hOwn
  | case2 c hOwn parent hParent hLess ih => exact ih ((h.classParts hKnown).1 parent hParent) hFound
  | case3 => cases hFound
  | case4 => cases hFound

end Matches

end Mus.World

namespace Mus.Store.Parallel

variable {a b : Store}

/-! ## Classes in parallel stores -/

/-- Stores that differ only by their scopes have the same methods. -/
theorem method?_eq (h : a.Parallel b) (c : Nat) (name : String) :
    a.method? c name = b.method? c name := by
  induction c using Nat.strongRecOn with
  | ind c ih =>
      obtain ⟨-, -, hMethods, hParent⟩ := ClassDef.of_bare (h.classDef c)
      rw [Store.method?, Store.method?, hMethods, hParent]
      cases (b.classDef c).methods.find? name with
      | some method => rfl
      | none =>
          cases (b.classDef c).parent with
          | none => rfl
          | some parent =>
              dsimp only
              split
              case isTrue hLess => exact ih parent hLess
              case isFalse => rfl

theorem declares_eq (h : a.Parallel b) (c : Nat) (name : String) :
    a.declares c name = b.declares c name := by
  induction c using Nat.strongRecOn with
  | ind c ih =>
      obtain ⟨-, hFields, -, hParent⟩ := ClassDef.of_bare (h.classDef c)
      rw [Store.declares, Store.declares, hFields, hParent]
      cases (b.classDef c).parent with
      | none => rfl
      | some parent =>
          dsimp only
          split
          case isTrue hLess => rw [ih parent hLess]
          case isFalse => rfl

theorem rootClass_eq (h : a.Parallel b) (c : Nat) : a.rootClass c = b.rootClass c := by
  induction c using Nat.strongRecOn with
  | ind c ih =>
      obtain ⟨-, -, -, hParent⟩ := ClassDef.of_bare (h.classDef c)
      rw [Store.rootClass, Store.rootClass, hParent]
      cases (b.classDef c).parent with
      | none => rfl
      | some parent =>
          dsimp only
          split
          case isTrue hLess => exact ih parent hLess
          case isFalse => rfl

end Mus.Store.Parallel

namespace Mus.World.Matches

variable {w : World} {a b : Store}

/-! ## Operations -/

/-- The name and the parent of the class of an object. -/
theorem defineSelf (h : w.Matches a b) {s t : Nat} (hPaired : w.paired s t) (hFree : w.Free s)
    {o : Nat} (hObject : w.known (.object o)) :
    w.Matches (a.defineSelf s o) (b.defineSelf t o) := by
  obtain ⟨hClass, -⟩ := Object.of_bare (h.parallel.object o)
  obtain ⟨hName, -, -, hParent⟩ := ClassDef.of_bare (h.parallel.classDef (a.object o).classDef)
  have hValue : w.Covers (Value.object o).places := covers_singleton.mpr hObject
  have hThis := h.defineVariable hPaired (hFree (.binding "this"))
    (some (a.classDef (a.object o).classDef).name) hValue
  unfold Store.defineSelf
  dsimp only
  rw [← hClass, ← hName, ← hParent]
  cases hSuper : (a.classDef (a.object o).classDef).parent with
  | none => exact hThis
  | some parent =>
      obtain ⟨hSuperName, -, -, -⟩ := ClassDef.of_bare (hThis.parallel.classDef parent)
      have hKnown := (h.classParts (h.objectParts hObject).1).1 parent hSuper
      dsimp only
      rw [hSuperName]
      exact hThis.defineVariable hPaired (hFree (.binding "super")) _
        (covers_singleton.mpr hKnown)

/-- Binding a method adds joined scopes to both stores, and the same function. -/
theorem bind (h : w.Matches a b) {f o : Nat} (hFunction : w.known (.function f))
    (hObject : w.known (.object o)) :
    (a.bind f o).1 = (b.bind f o).1 ∧ ∃ w', w ≤ w' ∧
      w'.Matches (a.bind f o).2 (b.bind f o).2 ∧ w'.known (.function (a.bind f o).1) := by
  obtain ⟨hClosure, hCovers⟩ := h.function hFunction
  obtain ⟨hName, hParams, hBody, -⟩ := Function.of_bare (h.parallel.function f)
  obtain ⟨w', hLe, hScope, hJoined, hFree⟩ := h.addJoined hClosure
  have hSelf := hScope.defineSelf hJoined.1 hFree (hLe.known hObject)
  have hBare : Function.bare ⟨(a.function f).name, (a.function f).params, (a.function f).body,
      some a.scopes.size, none⟩ = Function.bare ⟨(b.function f).name, (b.function f).params,
      (b.function f).body, some b.scopes.size, none⟩ := by
    rw [hName, hParams, hBody]
    rfl
  have hBound := hSelf.addFunction hBare (fun _ : True => .some hJoined) fun _ => hCovers.mono hLe
  exact ⟨hSelf.parallel.functions_size, _, le_trans hLe (le_learn rfl _), hBound,
    known_learn trivial⟩

/-- A new object has the defaults of the fields of its class. -/
theorem covers_defaults {fields : Table (String × Value)}
    (hFields : w.Covers (fields.places (·.2.places))) (table : Table Value)
    (hTable : w.Covers (table.places Value.places)) :
    w.Covers ((fields.foldl (fun fields field => fields.insert field.1 field.2.2) table).places
      Value.places) := by
  induction fields generalizing table with
  | nil => exact hTable
  | cons field fields ih =>
      rw [Table.places, List.flatMap_cons, covers_append] at hFields
      exact ih hFields.2 _ (covers_insert hTable field.1 hFields.1)

/-- A new object is the same one in both stores, with joined scopes. -/
theorem newborn (h : w.Matches a b) {c : Nat} (hClass : w.known (.classDef c)) :
    ∃ w', w ≤ w' ∧ w'.Matches (a.newborn c) (b.newborn c) ∧
      w'.known (.object a.objects.size) := by
  obtain ⟨hHome, -⟩ := h.classDef hClass
  obtain ⟨-, -, hDefaults⟩ := h.classParts hClass
  obtain ⟨-, hFields, -, -⟩ := ClassDef.of_bare (h.parallel.classDef c)
  -- First the object, then its scope and the link from the one to the other
  have hObject := h.addObject ⟨c, (a.classDef c).fields.foldl
    (fun fields field => fields.insert field.1 field.2.2) [], none⟩ rfl
    (covers_cons.mpr ⟨hClass, covers_defaults hDefaults [] covers_nil⟩)
  have hLe : w ≤ w.learn (.object a.objects.size) True := le_learn rfl True
  have hJoins := joins_mono hHome hLe
  obtain ⟨w', hLe', hScope, hJoined, hFree⟩ := hObject.addJoined hJoins
  have hKnown : w'.known (.object a.objects.size) := hLe'.known (known_learn trivial)
  have hLinked := hScope.changeObject hKnown id (fun _ => some a.scopes.size)
    (fun _ => some b.scopes.size) (fun _ => id) (fun _ _ _ => .some hJoined)
    fun _ _ _ hSome => Option.some.inj hSome ▸ hFree
  have hSelf := hLinked.defineSelf hJoined.1 hFree hKnown
  refine ⟨w', le_trans hLe hLe', ?_, hKnown⟩
  unfold Store.newborn
  dsimp only [Store.addObject, Store.addScope]
  rw [← h.parallel.objects_size, ← hFields]
  exact hSelf

/-- A new object is bound to the same constructor in both stores. -/
theorem createInstance (h : w.Matches a b) {c : Nat} (hClass : w.known (.classDef c)) :
    (a.createInstance c).1 = (b.createInstance c).1 ∧ ∃ w', w ≤ w' ∧
      w'.Matches (a.createInstance c).2 (b.createInstance c).2 ∧
      w'.known (.object (a.createInstance c).1) := by
  obtain ⟨w', hLe, hNew, hObject⟩ := h.newborn hClass
  have hSame : (a.newborn c).method? c "init" = (b.newborn c).method? c "init" :=
    hNew.parallel.method?_eq c "init"
  cases hInit : (a.newborn c).method? c "init" with
  | none =>
      rw [Store.createInstance_of_none hInit, Store.createInstance_of_none (hSame.symm.trans hInit)]
      exact ⟨h.parallel.objects_size, w', hLe, hNew, hObject⟩
  | some init =>
      obtain ⟨hPlace, w'', hLe', hBound, hFunction⟩ :=
        hNew.bind (hNew.known_method? (hLe.known hClass) hInit) hObject
      rw [Store.createInstance_of_init hInit (Prod.eta _).symm,
        Store.createInstance_of_init (hSame.symm.trans hInit) (Prod.eta _).symm,
        ← h.parallel.objects_size, ← hPlace]
      exact ⟨rfl, w'', le_trans hLe hLe',
        hBound.insertField (hLe'.known hObject) "init" (covers_singleton.mpr hFunction),
        hLe'.known hObject⟩

/-- Both stores have the field or neither has. A method is bound anew. -/
theorem readField (h : w.Matches a b) {o : Nat} (hObject : w.known (.object o)) (name : String) :
    a.readField o name = none ∧ b.readField o name = none ∨
      ∃ value a' b' w', a.readField o name = some (value, a') ∧
        b.readField o name = some (value, b') ∧ w ≤ w' ∧ w'.Matches a' b' ∧
        w'.Covers value.places := by
  obtain ⟨hClass, hFields⟩ := Object.of_bare (h.parallel.object o)
  obtain ⟨hKnown, hCovers⟩ := h.objectParts hObject
  unfold Store.readField
  rw [← hFields, ← hClass, ← h.parallel.method?_eq]
  cases hField : (a.object o).fields.find? name with
  | some value =>
      exact Or.inr ⟨value, a, b, w, rfl, rfl, w.le_refl, h,
        covers_find hCovers hField⟩
  | none =>
      cases hMethod : a.method? (a.object o).classDef name with
      | none => exact Or.inl ⟨rfl, rfl⟩
      | some method =>
          obtain ⟨hPlace, w', hLe, hBound, hFunction⟩ :=
            h.bind (h.known_method? hKnown hMethod) hObject
          refine Or.inr ⟨.function (a.bind method o).1, _, _, w', rfl, ?_, hLe, hBound,
            covers_singleton.mpr hFunction⟩
          dsimp only
          rw [hPlace]

/-- A field can be written in both stores or in none. -/
theorem writeField (h : w.Matches a b) {o : Nat} (hObject : w.known (.object o)) (name : String)
    {value : Value} (hValue : w.Covers value.places) :
    a.writeField o name value = none ∧ b.writeField o name value = none ∨
      ∃ a' b', a.writeField o name value = some a' ∧ b.writeField o name value = some b' ∧
        w.Matches a' b' := by
  obtain ⟨hClass, hFields⟩ := Object.of_bare (h.parallel.object o)
  obtain ⟨-, hDefaults, -, -⟩ := ClassDef.of_bare (h.parallel.classDef (a.object o).classDef)
  obtain ⟨hHome, -⟩ := h.object hObject
  have hWritten := h.insertField hObject name hValue
  unfold Store.writeField
  dsimp only
  rw [← hFields, ← hClass, ← hDefaults, ← h.parallel.declares_eq]
  split
  · rcases joins_cases hHome with ⟨hp, hq⟩ | ⟨s, t, hp, hq, hJoined⟩
    · rw [hp, hq]
      exact Or.inr ⟨_, _, rfl, rfl, hWritten⟩
    · rw [hp, hq]
      exact Or.inr ⟨_, _, rfl, rfl,
        hWritten.defineVariable hJoined.1 (h.free_object hObject hp _) _ hValue⟩
  · split
    · exact Or.inr ⟨_, _, rfl, rfl, hWritten⟩
    · exact Or.inl ⟨rfl, rfl⟩

theorem setItem (h : w.Matches a b) {items : Items} (hItems : w.Covers items.places) (index : Nat)
    {value : Value} (hValue : w.Covers value.places) :
    w.Matches (a.setItem items index value) (b.setItem items index value) := by
  cases items with
  | constant values => exact h
  | cell place =>
      rw [Items.places] at hItems
      refine h.changeCell (covers_singleton.mp hItems) fun values hValues => ?_
      rw [Value.placesAll_eq, covers_flatMap] at hValues ⊢
      intro entry hEntry
      rcases List.mem_or_eq_of_mem_set hEntry with hOld | rfl
      · exact hValues entry hOld
      · exact hValue

/-- Parameters are declared in turn in scopes that belong together, by induction on them. -/
theorem defineParameters (h : w.Matches a b) {s t : Nat} (hPaired : w.paired s t)
    (hFree : w.Free s) (params : Params) {values : List Value}
    (hValues : w.Covers (Value.placesAll values)) :
    w.Matches (Run.defineParameters s params values a)
      (Run.defineParameters t params values b) := by
  induction params generalizing values a b with
  | nil =>
      rw [Run.defineParameters, Run.defineParameters]
      · exact h
      all_goals exact fun _ _ _ _ _ hNil => by cases hNil
  | cons param params ih =>
      cases values with
      | nil =>
          rw [Run.defineParameters, Run.defineParameters]
          · exact h
          all_goals exact fun _ _ _ _ _ _ hNil => by cases hNil
      | cons value values =>
          rw [Value.placesAll, covers_append] at hValues
          rw [Run.defineParameters, Run.defineParameters]
          exact ih (h.defineVariable hPaired (hFree _) (some param.2) hValues.1) hValues.2

/-! ## Declarations

A function or a class that is declared where values cannot lead is out of their reach
as well. -/

/-- The new function has the paired scopes as closures. -/
theorem defineFunction (h : w.Matches a b) {s t : Nat} (hPaired : w.paired s t) (name : String)
    (params : Params) {body : List Stmt} (hBody : w.Covers (Stmt.placesAll body)) :
    ∃ w', w ≤ w' ∧ w'.Matches (a.defineFunction s name params body)
      (b.defineFunction t name params body) := by
  have hFunction := h.addFunction (f := ⟨name, params, body, some s, none⟩)
    (g := ⟨name, params, body, some t, none⟩) rfl
    (fun hKnown : w.known (.scope s) => .some ⟨hPaired, hKnown⟩) fun _ => hBody
  refine ⟨w.learn (.function a.functions.size) (w.known (.scope s)), le_learn rfl _, ?_⟩
  unfold Store.defineFunction
  dsimp only [Store.addFunction] at hFunction ⊢
  rw [← h.parallel.functions_size]
  refine hFunction.changeScope hPaired id (fun table => table.insert name a.functions.size) id
    (fun sought _ scope hLacks => ?_) (fun _ => id) (fun hKnown table hTable => ?_) fun _ _ => id
  · cases sought <;> exact hLacks
  have hReach := hKnown.resolve_right fun hNew => by cases hNew.1
  exact covers_insert hTable name (covers_singleton.mpr (known_learn hReach))

/-- The new class has the paired scopes as its own, which may come to hold classes. -/
theorem defineClass (h : w.Matches a b) {s t : Nat} (hPaired : w.paired s t)
    (hFree : ¬ w.lacks s .classes) (name : String) {fields : Table (String × Value)}
    {methods : Table Nat} {parent : Option Nat}
    (hCovers : w.known (.scope s) →
      w.Covers (ClassDef.places ⟨name, fields, methods, parent, some s⟩)) :
    ∃ w', w ≤ w' ∧ w'.Matches (a.defineClass s name fields methods parent).2
      (b.defineClass t name fields methods parent).2 := by
  have hClass := h.addClass (c := ⟨name, fields, methods, parent, some s⟩)
    (d := ⟨name, fields, methods, parent, some t⟩) rfl
    (fun hKnown : w.known (.scope s) => .some ⟨hPaired, hKnown⟩) hCovers
  refine ⟨w.learn (.classDef a.classes.size) (w.known (.scope s)), le_learn rfl _, ?_⟩
  unfold Store.defineClass
  dsimp only [Store.addClass] at hClass ⊢
  rw [← h.parallel.classes_size]
  refine hClass.changeScope hPaired id id (fun table => table.insert name a.classes.size)
    (fun sought hNever scope hLacks => ?_) (fun _ => id) (fun _ _ => id)
    fun hKnown table hTable => ?_
  · cases sought with
    | binding _ => exact hLacks
    | classes => exact absurd hNever hFree
  have hReach := hKnown.resolve_right fun hNew => by cases hNew.1
  exact covers_insert hTable name (covers_singleton.mpr (known_learn hReach))

/-- The methods are added as the same functions in both stores, by induction on them. -/
theorem addMethods (h : w.Matches a b) {s t : Nat} (hPaired : w.paired s t)
    {decls : List FunDecl} (hDecls : w.Covers (FunDecl.placesAll decls)) (table : Table Nat)
    (hTable : w.known (.scope s) → w.Covers (table.places ([.function ·]))) :
    (Run.addMethods s decls table a).1 = (Run.addMethods t decls table b).1 ∧
      ∃ w', w ≤ w' ∧
        w'.Matches (Run.addMethods s decls table a).2 (Run.addMethods t decls table b).2 ∧
        (w'.known (.scope s) →
          w'.Covers ((Run.addMethods s decls table a).1.places ([.function ·]))) := by
  induction decls generalizing w a b table with
  | nil => exact ⟨rfl, w, w.le_refl, h, hTable⟩
  | cons decl decls ih =>
      obtain ⟨name, params, body, token⟩ := decl
      rw [FunDecl.placesAll, FunDecl.places, covers_append, covers_append] at hDecls
      have hFunction := h.addFunction (f := ⟨name, params, body, some s, none⟩)
        (g := ⟨name, params, body, some t, none⟩) rfl
        (fun hKnown : w.known (.scope s) => .some ⟨hPaired, hKnown⟩) fun _ => hDecls.1.1
      have hLe : w ≤ w.learn (.function a.functions.size) (w.known (.scope s)) := le_learn rfl _
      have hMethods (hKnown : (w.learn (.function a.functions.size) (w.known (.scope s))).known
          (.scope s)) : (w.learn (.function a.functions.size) (w.known (.scope s))).Covers
            ((table.insert name a.functions.size).places ([.function ·])) := by
        have hReach := hKnown.resolve_right fun hNew => by cases hNew.1
        exact covers_insert ((hTable hReach).mono hLe) name
          (covers_singleton.mpr (known_learn hReach))
      obtain ⟨hSame, w', hLe', hMatches, hAll⟩ :=
        ih hFunction hPaired (hDecls.2.mono hLe) _ hMethods
      rw [Run.addMethods, Run.addMethods]
      dsimp only [Store.addFunction] at hSame hMatches hAll ⊢
      rw [← h.parallel.functions_size]
      exact ⟨hSame, w', le_trans hLe hLe', hMatches, hAll⟩

/-- A class with its methods. -/
theorem declareClass (h : w.Matches a b) {s t : Nat} (hPaired : w.paired s t)
    (hFree : ¬ w.lacks s .classes) (name : String) {methods : List FunDecl}
    (hMethods : w.Covers (FunDecl.placesAll methods))
    {fields : Table (String × Value)} (hFields : w.Covers (fields.places (·.2.places)))
    {parent : Option Nat}
    (hParent : w.known (.scope s) → w.Covers (parent.toList.map .classDef)) :
    ∃ w', w ≤ w' ∧ w'.Matches (Run.declareClass name methods parent fields s a)
      (Run.declareClass name methods parent fields t b) := by
  obtain ⟨hSame, w', hLe, hMatches, hTable⟩ :=
    h.addMethods hPaired hMethods [] fun _ => covers_nil
  unfold Run.declareClass
  dsimp only
  rw [← hSame]
  have hFree' : ¬ w'.lacks s .classes := fun hLacks => hFree (hLe.free hPaired hLacks)
  obtain ⟨w'', hLe', hDeclared⟩ := hMatches.defineClass (hLe.paired hPaired) hFree' name
    fun hKnown => covers_append.mpr ⟨hFields.mono hLe, covers_append.mpr ⟨hTable hKnown,
      (hParent (hLe.settled hPaired hKnown)).mono hLe⟩⟩
  exact ⟨w'', le_trans hLe hLe', hDeclared⟩

end Mus.World.Matches
