import Mus.Proofs.Machine.Simulation

/-! Machines without dangling references, and what can be observed of them. A machine is
closed if all that can be reached from its scopes, its resolution table and a piece of code
is there. A closed machine corresponds to itself, so that running it twice, the second time
with more fuel, shows the same. It also stays closed, as all that a run reaches is there. -/
namespace Mus

/-! ## Reachable places -/

namespace Store

/-- The places that what is at a place refers to. -/
def refs (store : Store) : Place → List Place
  | .scope s => (store.scope s).parent.toList.map .scope ++ (store.scope s).places
  | .function f => (store.function f).closure.toList.map .scope ++ (store.function f).places
  | .classDef c => (store.classDef c).scope.toList.map .scope ++ (store.classDef c).places
  | .object o => (store.object o).scope.toList.map .scope ++ (store.object o).places
  | .cell c => Value.placesAll (store.cell c)
  | .array .. => []

/-- Is there anything at the place? An array has no place of its own besides the cell of
its items. -/
def Has (store : Store) : Place → Prop
  | .scope s => s < store.scopes.size
  | .function f => f < store.functions.size
  | .classDef c => c < store.classes.size
  | .object o => o < store.objects.size
  | .cell c => c < store.cells.size
  | .array .. => False

instance (store : Store) : DecidablePred store.Has
  | .scope s => inferInstanceAs (Decidable (s < store.scopes.size))
  | .function f => inferInstanceAs (Decidable (f < store.functions.size))
  | .classDef c => inferInstanceAs (Decidable (c < store.classes.size))
  | .object o => inferInstanceAs (Decidable (o < store.objects.size))
  | .cell c => inferInstanceAs (Decidable (c < store.cells.size))
  | .array .. => .isFalse id

/-- The places that references lead to, from some places on. -/
inductive Reaches (store : Store) (roots : List Place) : Place → Prop where
  | root {place : Place} (hRoot : place ∈ roots) : Reaches store roots place
  | step {place next : Place} (hPlace : Reaches store roots place)
      (hNext : next ∈ store.refs place) : Reaches store roots next

/-- What holds of the roots and is passed on by references holds of all that is reached. -/
theorem Reaches.of_refs {store : Store} {roots : List Place} {P : Place → Prop}
    (hRoots : ∀ place ∈ roots, P place)
    (hRefs : ∀ place, P place → ∀ next ∈ store.refs place, P next) {place : Place}
    (h : store.Reaches roots place) : P place := by
  induction h with
  | root hRoot => exact hRoots _ hRoot
  | step _ hNext ih => exact hRefs _ ih _ hNext

end Store

namespace Machine

/-- The places that a machine refers to by its scopes and its resolution table. -/
def roots (machine : Machine) : List Store.Place :=
  .scope machine.globals :: .scope machine.current ::
    machine.locals.flatMap fun entry => entry.1.places

/-- All that can be reached from the machine and from the places that a piece of code
refers to is there, and each scope is younger than the one around it. -/
structure Closed (machine : Machine) (code : List Store.Place) : Prop where
  older : Older machine.store.scopeParent
  has {place : Store.Place} : machine.store.Reaches (machine.roots ++ code) place →
    machine.store.Has place

/-! ## A closed machine corresponds to itself -/

/-- The world in which each scope that can be reached belongs to itself. -/
def world (machine : Machine) (code : List Store.Place) : World where
  paired s t := s = t ∧ machine.store.Reaches (machine.roots ++ code) (.scope s)
  known := machine.store.Reaches (machine.roots ++ code)
  lacks _ _ := False
  sees s t _ _ := s = t ∧ machine.store.Reaches (machine.roots ++ code) (.scope s)

def view (machine : Machine) : View :=
  ⟨machine.globals, machine.globals, machine.current, machine.current, machine.locals⟩

variable {machine : Machine} {code : List Store.Place}

/-- What can be reached refers only to scopes that belong to themselves. -/
theorem joins_world {place : Store.Place} {p : Option Nat}
    (h : machine.store.Reaches (machine.roots ++ code) place)
    (hRefs : ∀ s, p = some s → .scope s ∈ machine.store.refs place) :
    Option.Rel (machine.world code).Joined p p := by
  cases p with
  | none => exact .none
  | some s =>
      have hScope := h.step (hRefs s rfl)
      exact .some ⟨⟨rfl, hScope⟩, hScope⟩

/-- What a scope, a function, a class or an object refers to: its scope and the rest. -/
theorem mem_refs {p : Option Nat} {s : Nat} (h : p = some s) (rest : List Store.Place) :
    .scope s ∈ p.toList.map .scope ++ rest := by
  simp [h]

/-- What can be reached is there and refers only to what can be reached. -/
theorem Closed.fine (h : machine.Closed code) {place : Store.Place}
    (hKnown : (machine.world code).known place) :
    (machine.world code).Fine machine.store machine.store place := by
  have hThere := h.has hKnown
  have hRest {front rest : List Store.Place} (hRefs : machine.store.refs place = front ++ rest) :
      (machine.world code).Covers rest :=
    fun next hNext => hKnown.step (hRefs ▸ List.mem_append_right front hNext)
  cases place with
  | scope s =>
      exact .scope ⟨rfl, hKnown⟩ rfl (joins_world hKnown fun _ hs => mem_refs hs _) (hRest rfl)
  | function f => exact .function hThere (joins_world hKnown fun _ hs => mem_refs hs _) (hRest rfl)
  | classDef c => exact .classDef hThere (joins_world hKnown fun _ hs => mem_refs hs _) (hRest rfl)
  | object o =>
      exact .object hThere (joins_world hKnown fun _ hs => mem_refs hs _) (fun _ _ _ => id)
        (hRest rfl)
  | cell c => exact .cell hThere (hRest (List.nil_append _).symm)
  | array _ _ => exact absurd hThere id

/-- The store of a closed machine corresponds to itself. -/
theorem Closed.matches (h : machine.Closed code) :
    (machine.world code).Matches machine.store machine.store where
  parallel := .refl _
  older := h.older
  older' := h.older
  bound := by
    rintro s t ⟨rfl, hReached⟩
    exact ⟨h.has hReached, h.has hReached⟩
  apart := by
    rintro s t s' t' ⟨rfl, -⟩ ⟨rfl, -⟩
    rfl
  bindings := by
    rintro s t ⟨rfl, -⟩
    rfl
  held := by
    rintro s t ⟨rfl, hReached⟩
    intro place hPlace
    exact hReached.step (List.mem_append_right _ (List.mem_append_left _ hPlace))
  classes := by
    rintro s t ⟨rfl, -⟩
    rfl
  outward := by
    rintro s t ⟨rfl, hReached⟩
    exact World.outward_of_joins (joins_world hReached fun _ hs => mem_refs hs _)
  fine := h.fine
  lacking := False.elim
  sight := by
    rintro s t distance sought ⟨rfl, hReached⟩
    induction distance generalizing s with
    | zero =>
        exact .here (.same (.pair ⟨rfl, hReached⟩) fun _ =>
          ⟨s, s, ⟨⟨rfl, hReached⟩, hReached⟩, .pair ⟨rfl, hReached⟩⟩)
    | succ distance ih =>
        have hThere := h.has hReached
        cases hParent : (machine.store.scope s).parent with
        | none => exact .beyond hThere hThere hParent hParent
        | some p =>
            exact .out hThere hThere hParent hParent (ih (hReached.step (mem_refs hParent _)))
  near := fun hJoined _ _ => hJoined.1

/-- A closed machine corresponds to itself. -/
theorem Closed.related (h : machine.Closed code) :
    (machine.world code).Related machine.view machine machine where
  store := h.matches
  output := rfl
  globals := rfl
  globals' := rfl
  current := rfl
  current' := rfl
  locals := rfl
  locals' := rfl
  home :=
    have hGlobals := Store.Reaches.root (List.mem_append_left code (List.mem_cons_self ..))
    ⟨⟨rfl, hGlobals⟩, hGlobals⟩
  noted := fun _ hPlace => .root (List.mem_append_left code
    (List.mem_cons_of_mem _ (List.mem_cons_of_mem _ hPlace)))

theorem joined_current (machine : Machine) (code : List Store.Place) :
    (machine.world code).Joined machine.view.current machine.view.current' :=
  have hCurrent := Store.Reaches.root (List.mem_append_left code
    (List.mem_cons_of_mem _ (List.mem_cons_self ..)))
  ⟨⟨rfl, hCurrent⟩, hCurrent⟩

theorem covers_code (machine : Machine) (code : List Store.Place) :
    (machine.world code).Covers code :=
  fun _ hPlace => .root (List.mem_append_right _ hPlace)

end Machine

/-! ## What stays closed -/

namespace World

variable {w : World} {a b : Store}

/-- What is known to a world refers to what is known to it. -/
theorem Fine.covers_refs {place : Store.Place} (h : w.Fine a b place) :
    w.Covers (a.refs place) := by
  have hScope {p q : Option Nat} (hJoins : Option.Rel w.Joined p q) :
      w.Covers (p.toList.map .scope) := by
    cases hJoins with
    | some hJoined => exact covers_singleton.mpr hJoined.2
    | none => exact covers_nil
  cases h with
  | scope _ _ hParent hCovers => exact covers_append.mpr ⟨hScope hParent, hCovers⟩
  | function _ hClosure hCovers => exact covers_append.mpr ⟨hScope hClosure, hCovers⟩
  | classDef _ hHome hCovers => exact covers_append.mpr ⟨hScope hHome, hCovers⟩
  | object _ hHome _ hCovers => exact covers_append.mpr ⟨hScope hHome, hCovers⟩
  | cell _ hCovers => exact hCovers

/-- What values can lead to is there, in corresponding stores. -/
theorem Matches.has (h : w.Matches a b) {place : Store.Place} (hKnown : w.known place) :
    a.Has place := by
  cases h.fine hKnown with
  | scope hPaired _ _ _ => exact (h.bound hPaired).1
  | function hBound _ _ => exact hBound
  | classDef hBound _ _ => exact hBound
  | object hBound _ _ _ => exact hBound
  | cell hBound _ => exact hBound

/-- A machine that stands in joined scopes is closed. -/
theorem Related.closed {view : View} {m m' : Machine} (h : w.Related view m m')
    (hCurrent : w.known (.scope view.current)) {code : List Store.Place} (hCode : w.Covers code) :
    m.Closed code := by
  refine ⟨h.store.older, fun hReached => h.store.has (hReached.of_refs ?_ ?_)⟩
  · refine covers_append.mpr ⟨covers_cons.mpr ⟨?_, covers_cons.mpr ⟨?_, ?_⟩⟩, hCode⟩
    · exact h.globals ▸ h.home.2
    · exact h.current ▸ hCurrent
    · exact h.locals ▸ h.noted
  · exact fun place hKnown => (h.store.fine hKnown).covers_refs

end World

/-! ## Endings and observations -/

def Scope.bare (scope : Scope) : Scope := { scope with parent := none }

/-- What can be observed at the end of a run: the fault, if any, with its text, what was
printed, the names of the global scope with the texts of its variables, and all functions,
classes, objects and cells without the scopes that they belong to. -/
structure Observation where
  fault : Option Fault
  message : Option (Except TextFault String)
  output : String
  globals : Scope
  texts : List (Except TextFault String)
  functions : Array Function
  classes : Array ClassDef
  objects : Array Object
  cells : Array (List Value)

def Observation.text (observation : Observation) : Option String :=
  observation.message.bind Except.toOption

namespace Machine

def observation (machine : Machine) (fault : Option Fault) : Observation where
  fault := fault
  message := fault.map fun fault => fault.message machine.store
  output := machine.output
  globals := (machine.store.scope machine.globals).bare
  texts := (machine.store.scope machine.globals).bindings.map fun entry =>
    machine.store.shown entry.2.2
  functions := machine.store.functions.map Function.bare
  classes := machine.store.classes.map ClassDef.bare
  objects := machine.store.objects.map Object.bare
  cells := machine.store.cells

end Machine

/-- A fault has the same text in corresponding stores. -/
theorem World.Matches.message_eq {w : World} {a b : Store} (h : w.Matches a b) {fault : Fault}
    (hFault : w.Covers fault.places) : fault.message a = fault.message b := by
  cases fault with
  | returned value => exact h.shown_eq hFault
  | _ => rw [Fault.message, Fault.message]

/-- Machines that correspond look the same. -/
theorem World.Related.observation_eq {w : World} {view : View} {m m' : Machine}
    (h : w.Related view m m') {fault : Option Fault}
    (hFault : ∀ ended, fault = some ended → w.Covers ended.places) :
    m.observation fault = m'.observation fault := by
  have hStore := h.store
  obtain ⟨hFunctions, -, hCovers⟩ := hStore.joined h.home
  have hBindings := hStore.bindings h.home.1
  have hMessage : (fault.map fun ended => ended.message m.store) =
      fault.map fun ended => ended.message m'.store := by
    cases fault with
    | none => rw [Option.map_none, Option.map_none]
    | some ended => rw [Option.map_some, Option.map_some, hStore.message_eq (hFault _ rfl)]
  have hGlobals : (m.store.scope m.globals).bare = (m'.store.scope m'.globals).bare := by
    unfold Scope.bare
    rw [h.globals, h.globals', hBindings, hFunctions, hStore.classes h.home.1]
  have hTexts : ((m.store.scope m.globals).bindings.map fun entry => m.store.shown entry.2.2) =
      (m'.store.scope m'.globals).bindings.map fun entry => m'.store.shown entry.2.2 := by
    rw [h.globals, h.globals', ← hBindings]
    refine List.map_congr_left fun entry hEntry => hStore.shown_eq ?_
    exact covers_flatMap.mp (hStore.held h.home.1) entry hEntry
  unfold Machine.observation
  rw [hMessage, hGlobals, hTexts, h.output, hStore.parallel.functions, hStore.parallel.classes,
    hStore.parallel.objects, hStore.parallel.cells]

namespace Run

/-- How a run ended, if its fuel was enough: the fault, if any, and the machine. -/
def ending : EStateM.Result Fault Machine Unit → Option (Option Fault × Machine)
  | .ok _ after => some (none, after)
  | .error .outOfFuel _ => none
  | .error fault after => some (some fault, after)

/-- What can be observed of a run, if its fuel was enough. -/
def observe (result : EStateM.Result Fault Machine Unit) : Option Observation :=
  (ending result).map fun ended => ended.2.observation ended.1

variable {w : World} {view : View} {result result' : EStateM.Result Fault Machine Unit}

/-- Runs that agree end alike. -/
theorem Agree.ending (h : Agree w view Any result result') {fault : Option Fault} {m : Machine}
    (hEnd : ending result = some (fault, m)) :
    ∃ w' m', w ≤ w' ∧ w'.Related view m m' ∧ ending result' = some (fault, m') ∧
      ∀ ended, fault = some ended → w'.Covers ended.places := by
  cases h with
  | ok hLe hRelated _ =>
      cases hEnd
      exact ⟨_, _, hLe, hRelated, rfl, fun _ hSome => by cases hSome⟩
  | @fault ended _ _ _ hLe hRelated hFault =>
      cases ended with
      | outOfFuel => cases hEnd
      | _ =>
          cases hEnd
          exact ⟨_, _, hLe, hRelated, rfl, fun _ hSome => by cases hSome; exact hFault⟩
  | outOfFuel => cases hEnd

/-- Runs that agree cannot be told apart by what can be observed, if the first one had fuel
enough. -/
theorem Agree.observe (h : Agree w view Any result result') {observation : Observation}
    (hEnd : observe result = some observation) : observe result' = some observation := by
  obtain ⟨⟨fault, m⟩, hEnding, rfl⟩ := Option.map_eq_some_iff.mp hEnd
  obtain ⟨w', m', -, hRelated, hEnding', hFault⟩ := h.ending hEnding
  unfold Run.observe
  rw [hEnding', Option.map_some, hRelated.observation_eq hFault]

end Run

namespace Machine

open Run

variable {machine : Machine} {code : List Store.Place} {stmt : Stmt}

/-- A closed machine does the same with more fuel. -/
theorem Closed.agree_execute (h : machine.Closed code)
    (hCode : (machine.world code).Covers stmt.places) (extra fuel room : Nat) :
    Agree (machine.world code) machine.view Any (execute fuel room stmt machine)
      (execute (extra + fuel) room stmt machine) :=
  sim_execute extra fuel room _ _ stmt (joined_current machine code).1 hCode
    (clear_of_joined (joined_current machine code) _) (fun _ _ => id) _ (World.le_refl _) _ _
    h.related

/-- A closed machine is closed again when a statement of the code has been executed. -/
theorem Closed.execute (h : machine.Closed code) (hCode : stmt.places ⊆ code) {fuel room : Nat}
    {fault : Option Fault} {after : Machine}
    (hEnd : ending (execute fuel room stmt machine) = some (fault, after)) : after.Closed code := by
  have hCovers : (machine.world code).Covers stmt.places :=
    fun place hPlace => covers_code machine code place (hCode hPlace)
  obtain ⟨w, m', hLe, hRelated, -, -⟩ := (h.agree_execute hCovers 0 fuel room).ending hEnd
  exact hRelated.closed (hLe.known (joined_current machine code).2)
    ((covers_code machine code).mono hLe)

/-- More fuel shows the same of a closed machine. -/
theorem Closed.observe_more (h : machine.Closed stmt.places) {fuel fuel' room : Nat}
    (hFuel : fuel ≤ fuel') {observation : Observation}
    (hEnd : observe (Run.execute fuel room stmt machine) = some observation) :
    observe (Run.execute fuel' room stmt machine) = some observation := by
  have hAgree := h.agree_execute (covers_code machine stmt.places) (fuel' - fuel) fuel room
  rw [Nat.sub_add_cancel hFuel] at hAgree
  exact hAgree.observe hEnd

/-- What has been observed of a closed machine does not depend on the fuel. -/
theorem Closed.observe_unique (h : machine.Closed stmt.places) {fuel fuel' room : Nat}
    {first second : Observation}
    (hFirst : observe (Run.execute fuel room stmt machine) = some first)
    (hSecond : observe (Run.execute fuel' room stmt machine) = some second) : first = second := by
  have hLeft := h.observe_more (Nat.le_max_left fuel fuel') hFirst
  rw [h.observe_more (Nat.le_max_right fuel fuel') hSecond] at hLeft
  exact (Option.some.inj hLeft).symm

/-! ## The machine before any program -/

/-- The initial machine is closed, whatever is noted in its resolution table about names of
a source. -/
theorem closed_initial {table : List (Expr × Int)}
    (hTable : table.flatMap (fun entry => entry.1.places) = []) :
    { initial with locals := table : Machine }.Closed [] := by
  have hRefs : ∀ place ∈ [.scope 0, .function 0, .function 1],
      initial.store.refs place ⊆ [.function 0, .function 1] := by
    decide
  refine ⟨fun place above hParent => ?_, fun {place} hReached => ?_⟩
  · cases place with
    | zero => cases hParent
    | succ place => cases hParent
  · have hThere : place ∈ [.scope 0, .function 0, .function 1] := by
      refine hReached.of_refs (fun root hRoot => ?_) fun next hNext after hAfter => ?_
      · rw [roots, hTable] at hRoot
        rcases List.mem_pair.mp hRoot with rfl | rfl <;> exact List.mem_cons_self ..
      · exact List.mem_cons_of_mem _ (hRefs next hNext hAfter)
    have hHas : ∀ place ∈ [.scope 0, .function 0, .function 1], initial.store.Has place := by
      decide
    exact hHas place hThere

end Machine

end Mus
