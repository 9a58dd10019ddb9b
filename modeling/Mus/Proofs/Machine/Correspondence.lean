import Mathlib.Data.List.Find
import Mus.Proofs.Store.PairedText

/-! Two machines that do the same on stores that correspond. Their steps correspond if
from machines that stand in corresponding places they end in the same way, with the same
result or the same fault, and again in corresponding places. The second machine may have
more fuel: where the first one runs out of it, nothing is said about the second. -/
namespace Mus

/-- The places that a fault refers to, which are those of a returned value. -/
def Fault.places : Fault → List Store.Place
  | .returned value => value.places
  | _ => []

/-- Where two machines stand: in their global and current scopes, with one resolution
table. -/
structure View where
  globals : Nat
  globals' : Nat
  current : Nat
  current' : Nat
  locals : List (Expr × Int)

def View.at (view : View) (s t : Nat) : View := { view with current := s, current' := t }

/-- A distance is noted for an expression in a resolution table if an entry with it can be
taken for the expression. A negative distance counts as zero. -/
def Noted (table : List (Expr × Int)) (e : Expr) (distance : Nat) : Prop :=
  ∃ entry ∈ table, entry.2.toNat = distance ∧
    ∃ store : Store, store.equalExpr Store.depthLimit entry.1 e = some true

/-- Two machines that have printed the same stand in a view, with stores that correspond.
Values can lead to the global scope and to what the resolution table refers to. -/
structure World.Related (w : World) (view : View) (m m' : Machine) : Prop where
  store : w.Matches m.store m'.store
  output : m.output = m'.output
  globals : m.globals = view.globals
  globals' : m'.globals = view.globals'
  current : m.current = view.current
  current' : m'.current = view.current'
  locals : m.locals = view.locals
  locals' : m'.locals = view.locals
  home : w.Joined view.globals view.globals'
  noted : w.Covers (view.locals.flatMap fun entry => entry.1.places)

/-- Another view of the machines after a change of their stores and current scopes. -/
theorem World.Related.move {w w' : World} {view : View} {m m' : Machine}
    (h : w.Related view m m') (hLe : w ≤ w') {a b : Store} (hStore : w'.Matches a b) (s t : Nat) :
    w'.Related (view.at s t) { m with store := a, current := s }
      { m' with store := b, current := t } :=
  ⟨hStore, h.output, h.globals, h.globals', rfl, rfl, h.locals, h.locals', h.home.mono hLe,
    h.noted.mono hLe⟩

/-- Machines stay related when their stores change to others that correspond in a later world. -/
theorem World.Related.change {w w' : World} {view : View} {m m' : Machine}
    (h : w.Related view m m') (hLe : w ≤ w') {a b : Store} (hStore : w'.Matches a b) :
    w'.Related view { m with store := a } { m' with store := b } :=
  ⟨hStore, h.output, h.globals, h.globals', h.current, h.current', h.locals, h.locals',
    h.home.mono hLe, h.noted.mono hLe⟩

namespace Run

open World

variable {α β : Type} {w : World} {view : View} {P : World → α → Prop} {Q : World → β → Prop}

/-- The two runs end in the same way, unless the first one was out of fuel. -/
inductive Agree (w : World) (view : View) (P : World → α → Prop) :
    EStateM.Result Fault Machine α → EStateM.Result Fault Machine α → Prop where
  | ok {value : α} {m m' : Machine} {w' : World} (hLe : w ≤ w') (hRelated : w'.Related view m m')
      (hValue : P w' value) : Agree w view P (.ok value m) (.ok value m')
  | fault {fault : Fault} {m m' : Machine} {w' : World} (hLe : w ≤ w')
      (hRelated : w'.Related view m m') (hFault : w'.Covers fault.places) :
      Agree w view P (.error fault m) (.error fault m')
  | outOfFuel {m : Machine} (result : EStateM.Result Fault Machine α) :
      Agree w view P (.error .outOfFuel m) result

/-- Steps that correspond from a world on, with results of some kind. -/
def Sim (w : World) (view : View) (P : World → α → Prop) (steps steps' : Run α) : Prop :=
  ∀ w', w ≤ w' → ∀ m m', w'.Related view m m' → Agree w' view P (steps m) (steps' m')

/-- No more is known of a result than that it is the same. -/
def Any (_ : World) (_ : α) : Prop := True

/-- The result is a value that does not lead out of the world. -/
def Kept (w : World) (value : Value) : Prop := w.Covers value.places

/-! ## Steps put together -/

/-- Runs that agree in a later world agree in the earlier one. -/
theorem Agree.mono {w' : World} {r r' : EStateM.Result Fault Machine α}
    (h : Agree w' view P r r') (hLe : w ≤ w') : Agree w view P r r' := by
  cases h with
  | ok hLe' hRelated hValue => exact .ok (le_trans hLe hLe') hRelated hValue
  | fault hLe' hRelated hFault => exact .fault (le_trans hLe hLe') hRelated hFault
  | outOfFuel => exact .outOfFuel _

theorem sim_pure {value : α} (h : ∀ w', w ≤ w' → P w' value) :
    Sim w view P (pure value) (pure value) :=
  fun w' hLe _ _ hRelated => .ok w'.le_refl hRelated (h w' hLe)

/-- Steps that yield a known value correspond to themselves. -/
theorem sim_kept {value : Value} (h : w.Covers value.places) :
    Sim w view Kept (pure value) (pure value) :=
  sim_pure fun _ => h.mono

theorem sim_any (value : α) : Sim w view Any (pure value) (pure value) :=
  sim_pure fun _ _ => trivial

/-- Both runs end with the same fault. -/
theorem sim_throw {fault : Fault} (h : w.Covers fault.places) :
    Sim w view P (throw fault) (throw fault) :=
  fun w' hLe _ _ hRelated => .fault w'.le_refl hRelated (h.mono hLe)

theorem sim_complain (complaint : Complaint) (token : Token) :
    Sim w view P (complain complaint token) (complain complaint token) :=
  sim_throw covers_nil

/-- A run that is out of fuel corresponds to any other. -/
theorem sim_outOfFuel (steps : Run α) : Sim w view P (throw .outOfFuel) steps :=
  fun _ _ _ m' _ => .outOfFuel (steps m')

/-- Runs that agree go on from machines that are related in a later world. -/
theorem agree_bind {steps steps' : Run α} {next next' : α → Run β} {m m' : Machine}
    (hSteps : Agree w view P (steps m) (steps' m'))
    (hNext : ∀ w', w ≤ w' → ∀ value, P w' value → Sim w' view Q (next value) (next' value)) :
    Agree w view Q ((steps >>= next) m) ((steps' >>= next') m') := by
  change Agree w view Q (EStateM.bind steps next m) (EStateM.bind steps' next' m')
  unfold EStateM.bind
  generalize steps m = r at hSteps
  generalize steps' m' = r' at hSteps
  cases hSteps with
  | ok hLe hRelated hValue =>
      exact (hNext _ hLe _ hValue _ (World.le_refl _) _ _ hRelated).mono hLe
  | fault hLe hRelated hFault => exact .fault hLe hRelated hFault
  | outOfFuel => exact .outOfFuel _

/-- Steps that correspond, one after the other, correspond together. -/
theorem sim_bind {steps steps' : Run α} {next next' : α → Run β}
    (hSteps : Sim w view P steps steps')
    (hNext : ∀ w', w ≤ w' → ∀ value, P w' value → Sim w' view Q (next value) (next' value)) :
    Sim w view Q (steps >>= next) (steps' >>= next') :=
  fun w' hLe m m' hRelated => agree_bind (hSteps w' hLe m m' hRelated)
    fun w'' hLe' => hNext w'' (le_trans hLe hLe')

/-- Steps that look at the machine. -/
theorem sim_get {next next' : Machine → Run α}
    (hNext : ∀ w', w ≤ w' → ∀ m m', w'.Related view m m' → Sim w' view P (next m) (next' m')) :
    Sim w view P (get >>= next) (get >>= next') :=
  fun w' hLe m m' hRelated => hNext w' hLe m m' hRelated w' w'.le_refl m m' hRelated

/-- Steps that change the store with a result. -/
theorem sim_withStore {change change' : Store → α × Store}
    (h : ∀ w', w ≤ w' → ∀ a b, w'.Matches a b → (change a).1 = (change' b).1 ∧
      ∃ w'', w' ≤ w'' ∧ w''.Matches (change a).2 (change' b).2 ∧ P w'' (change a).1) :
    Sim w view P (withStore change) (withStore change') := by
  intro w' hLe m m' hRelated
  obtain ⟨hSame, w'', hLe', hStore, hValue⟩ := h w' hLe m.store m'.store hRelated.store
  change Agree w' view P (.ok (change m.store).1 { m with store := (change m.store).2 })
    (.ok (change' m'.store).1 { m' with store := (change' m'.store).2 })
  rw [← hSame]
  exact .ok hLe' (hRelated.change hLe' hStore) hValue

/-- Changes of the stores correspond if they lead to stores that do. -/
theorem sim_changeStore {change change' : Store → Store}
    (h : ∀ w', w ≤ w' → ∀ a b, w'.Matches a b →
      ∃ w'', w' ≤ w'' ∧ w''.Matches (change a) (change' b)) :
    Sim w view Any (changeStore change) (changeStore change') := by
  intro w' hLe m m' hRelated
  obtain ⟨w'', hLe', hStore⟩ := h w' hLe m.store m'.store hRelated.store
  exact .ok hLe' (hRelated.change hLe' hStore) trivial

theorem sim_print (text : String) :
    Sim w view Any (modify (Machine.print text)) (modify (Machine.print text)) := by
  intro w' _ m m' h
  refine .ok w'.le_refl ⟨h.store, ?_, h.globals, h.globals', h.current, h.current', h.locals,
    h.locals', h.home, h.noted⟩ trivial
  change m.output ++ text = m'.output ++ text
  rw [h.output]

/-- What is declared is declared in the two current scopes. -/
theorem sim_declare {change : Nat → Store → Store}
    (h : ∀ w', w ≤ w' → ∀ a b, w'.Matches a b → ∃ w'', w' ≤ w'' ∧
      w''.Matches (change view.current a) (change view.current' b)) :
    Sim w view Any (declare change) (declare change) := by
  refine sim_get fun w' hLe m m' hRelated => ?_
  rw [hRelated.current, hRelated.current']
  exact sim_changeStore fun w'' hLe' => h w'' (le_trans hLe hLe')

def moved (scope : Nat) : EStateM.Result Fault Machine α → EStateM.Result Fault Machine α
  | .ok value after => .ok value { after with current := scope }
  | .error fault after => .error fault { after with current := scope }

/-- Steps in another scope: the current one is another for them and back afterwards. -/
theorem inScope_apply (scope : Nat) (steps : Run α) (m : Machine) :
    inScope scope steps m = moved m.current (steps { m with current := scope }) := by
  unfold inScope moved
  cases steps { m with current := scope } <;> rfl

section

variable {r r' : EStateM.Result Fault Machine α}

/-- Only the current scope of the first machine has to be put back. -/
theorem Agree.moved_left (h : Agree w view P r r') (s : Nat) :
    Agree w (view.at s view.current') P (moved s r) r' := by
  have hBack {w' : World} {n n' : Machine} (hAfter : w'.Related view n n') :
      w'.Related (view.at s view.current') { n with current := s } n' :=
    { hAfter with current := rfl }
  cases h with
  | ok hLe hAfter hValue => exact .ok hLe (hBack hAfter) hValue
  | fault hLe hAfter hFault => exact .fault hLe (hBack hAfter) hFault
  | outOfFuel => exact .outOfFuel _

/-- Only the current scope of the second machine has to be put back. -/
theorem Agree.moved_right (h : Agree w view P r r') (t : Nat) :
    Agree w (view.at view.current t) P r (moved t r') := by
  have hBack {w' : World} {n n' : Machine} (hAfter : w'.Related view n n') :
      w'.Related (view.at view.current t) n { n' with current := t } :=
    { hAfter with current' := rfl }
  cases h with
  | ok hLe hAfter hValue => exact .ok hLe (hBack hAfter) hValue
  | fault hLe hAfter hFault => exact .fault hLe (hBack hAfter) hFault
  | outOfFuel => exact .outOfFuel _

end

/-- Steps in other scopes, after which the machines stand where they stood. -/
theorem agree_inScope {w' : World} {m m' : Machine} (hRelated : w.Related view m m')
    {a b : Store} {s t : Nat} {steps steps' : Run α}
    (h : Agree w' (view.at s t) P (steps { m with store := a, current := s })
      (steps' { m' with store := b, current := t })) (hLe : w ≤ w') :
    Agree w view P (inScope s steps { m with store := a })
      (inScope t steps' { m' with store := b }) := by
  have hBack := ((h.moved_left view.current).moved_right view.current').mono hLe
  rw [inScope_apply, inScope_apply, hRelated.current, hRelated.current']
  exact hBack

/-- Steps in a new scope inside the current one. -/
theorem within_apply (change : Nat → Store → Store) (steps : Run α) (m : Machine) :
    within change steps m = inScope m.store.scopes.size steps { m with
      store := change m.store.scopes.size
        (m.store.addScope { parent := some m.current }).2 } := rfl

/-- Steps in new scopes inside the current ones, which lack some things for good. -/
theorem sim_within {change : Nat → Store → Store} {steps steps' : Run α}
    (hPaired : w.paired view.current view.current') (lacked : Sought → Prop)
    (hChange : ∀ w', w ≤ w' → ∀ a b s t, w'.Matches a b →
      w.Inside view.current view.current' lacked w' s t → w'.Matches (change s a) (change t b))
    (hSteps : ∀ w' s t, w ≤ w' → w.Inside view.current view.current' lacked w' s t →
      Sim w' (view.at s t) P steps steps') :
    Sim w view P (within change steps) (within change steps') := by
  intro w' hLe m m' hRelated
  obtain ⟨w'', hLe', hScope, hNew⟩ :=
    hRelated.store.addInside (.pair (hLe.paired hPaired)) lacked
  have hInside := hNew.of_le hLe
  have hStore := hChange _ (le_trans hLe hLe') _ _ _ _ hScope hInside
  have hInner := hSteps _ _ _ (le_trans hLe hLe') hInside
  have hAgree := agree_inScope hRelated
    (hInner _ (World.le_refl _) _ _ (hRelated.move hLe' hStore _ _)) hLe'
  simpa only [within_apply, hRelated.current, hRelated.current'] using hAgree

/-! ## The operations of the language -/

/-- A name that is looked up inside some new scopes, by a noted distance, is found alike from
two scopes: the distance leads into one of the new scopes or so many steps less out from the
two. A superclass is looked for from where its name stands, and no scope on the way may come
to hold a class. -/
def Finds (w : World) (s t depth distance : Nat) : Expr → Prop
  | .variable name _ => distance < depth ∨ w.sees s t (distance - depth) (.binding name)
  | .this _ => distance < depth ∨ w.sees s t (distance - depth) (.binding "this")
  | .super .. => (0 < depth ∨ w.sees s t 0 (.binding "super")) ∧ w.sees s t 0 .classes ∧
      (0 < depth → w.lacks s .classes)
  | _ => True

/-- What is noted for the names, each with the number of new scopes that it is looked up in,
is found alike. Joined scopes find everything alike. -/
def Clear (w : World) (view : View) (names : List (Nat × Expr)) : Prop :=
  ∀ name ∈ names, ∀ distance, Noted view.locals name.2 distance →
    w.Joined view.current view.current' ∨
      Finds w view.current view.current' name.1 distance name.2

/-- A variable outside of all new scopes is found by its noted distance. -/
theorem Finds.of_variable {s t distance : Nat} {name : String} {token : Token}
    (h : Finds w s t 0 distance (.variable name token)) : w.sees s t distance (.binding name) :=
  h.resolve_left (Nat.not_lt_zero distance)

theorem Finds.of_this {s t distance : Nat} {token : Token}
    (h : Finds w s t 0 distance (.this token)) : w.sees s t distance (.binding "this") :=
  h.resolve_left (Nat.not_lt_zero distance)

/-- A superclass outside of all new scopes is found from the scope where its name stands. -/
theorem Finds.of_super {s t distance : Nat} {method : String} {token : Token}
    (h : Finds w s t 0 distance (.super method token)) :
    w.sees s t 0 (.binding "super") ∧ w.sees s t 0 .classes :=
  ⟨h.1.resolve_left (Nat.lt_irrefl 0), h.2.1⟩

/-- What is found alike stays so in a later world. -/
theorem Finds.mono {w' : World} {s t depth distance : Nat} {e : Expr}
    (h : Finds w s t depth distance e) (hLe : w ≤ w') : Finds w' s t depth distance e := by
  cases e with
  | «variable» => exact h.imp_right hLe.sees
  | this => exact h.imp_right hLe.sees
  | super => exact ⟨h.1.imp_right hLe.sees, hLe.sees h.2.1, fun hDepth => hLe.lacks (h.2.2 hDepth)⟩
  | _ => trivial

/-- Clear names stay so in a later world. -/
theorem Clear.mono {w' : World} {names : List (Nat × Expr)} (h : Clear w view names)
    (hLe : w ≤ w') : Clear w' view names :=
  fun name hName distance hNoted =>
    (h name hName distance hNoted).imp (·.mono hLe) (·.mono hLe)

/-- All names are clear from joined scopes. -/
theorem clear_of_joined (h : w.Joined view.current view.current') (names : List (Nat × Expr)) :
    Clear w view names :=
  fun _ _ _ _ => Or.inl h

theorem clear_append {front back : List (Nat × Expr)} :
    Clear w view (front ++ back) ↔ Clear w view front ∧ Clear w view back :=
  List.forall_mem_append

/-- The same distance is found, and only one that is noted. -/
theorem sim_distance? {e : Expr} (hExpr : w.Covers e.places) :
    Sim w view (fun _ found => ∀ distance, found = some distance →
      Noted view.locals e distance.toNat) (distance? e) (distance? e) := by
  unfold distance?
  split
  · exact sim_throw covers_nil
  · refine sim_get fun w' hLe m m' hRelated => ?_
    have hFind : (view.locals.find? fun entry =>
        m.store.equalExpr Store.depthLimit entry.1 e == some true) = view.locals.find? fun entry =>
        m'.store.equalExpr Store.depthLimit entry.1 e == some true := by
      refine List.find?_congr fun entry hEntry => ?_
      rw [(hRelated.store.equalAlike Store.depthLimit).expr
        (covers_flatMap.mp hRelated.noted entry hEntry) (hExpr.mono hLe)]
    rw [hRelated.locals, hRelated.locals', ← hFind]
    cases hFound : view.locals.find? fun entry =>
        m.store.equalExpr Store.depthLimit entry.1 e == some true with
    | none => exact sim_pure fun _ _ _ hNone => by cases hNone
    | some entry =>
        have hEqual := List.find?_some hFound
        refine sim_pure fun _ _ distance hSome => ⟨entry, List.mem_of_find?_eq_some hFound, ?_,
          m.store, eq_of_beq hEqual⟩
        cases hSome
        rfl

/-- A variable is read alike if each noted distance leads to the same. -/
theorem sim_readVariable (name : String) {e : Expr} (hExpr : w.Covers e.places)
    (hSees : ∀ distance, Noted view.locals e distance → w.Joined view.current view.current' ∨
      w.sees view.current view.current' distance (.binding name)) :
    Sim w view Kept (readVariable name e) (readVariable name e) := by
  refine sim_bind (sim_distance? hExpr) fun w' hLe found hFound => ?_
  cases found with
  | none =>
      refine sim_get fun w'' hLe' m m' hRelated => ?_
      obtain ⟨hSame, hCovers⟩ := hRelated.store.readVariable_eq
        (leads_of_outward (.pair hRelated.home.1) name)
      rw [hRelated.globals, hRelated.globals', ← hSame]
      exact sim_kept hCovers
  | some distance =>
      refine sim_get fun w₁ hLe₁ m m' hRelated => sim_get fun w₂ hLe₂ n n' hRelated' => ?_
      have hLe₂' := le_trans hLe (le_trans hLe₁ hLe₂)
      have hThere : w₂.sees view.current view.current' distance.toNat (.binding name) := by
        rcases hSees _ (hFound distance rfl) with hJoined | hThere
        · exact hRelated'.store.near (hJoined.mono hLe₂') _ _
        · exact hLe₂'.sees hThere
      obtain ⟨hSame, hCovers⟩ := hRelated'.store.readAt_eq hThere
      rw [hRelated.current, hRelated.current', ← hSame]
      cases hRead : n.store.readAt view.current distance name with
      | none => exact sim_throw covers_nil
      | some value => exact sim_kept (hCovers value hRead)

/-- The superclass is the same one if `super` and the classes are found alike. -/
theorem sim_superclass?
    (hSees : w.Joined view.current view.current' ∨
      w.sees view.current view.current' 0 (.binding "super") ∧
        w.sees view.current view.current' 0 .classes) :
    Sim w view (fun w' found => ∀ c, found = some c → w'.known (.classDef c)) superclass?
      superclass? := by
  refine sim_get fun w' hLe m m' hRelated => ?_
  have hNear : w'.sees view.current view.current' 0 (.binding "super") ∧
      w'.sees view.current view.current' 0 .classes := by
    rcases hSees with hJoined | ⟨hVariable, hClasses⟩
    · exact ⟨hRelated.store.near (hJoined.mono hLe) _ _,
        hRelated.store.near (hJoined.mono hLe) _ _⟩
    · exact ⟨hLe.sees hVariable, hLe.sees hClasses⟩
  obtain ⟨hSame, -⟩ := hRelated.store.readVariable_eq (hRelated.store.leads_of_sees hNear.1)
  rw [hRelated.current, hRelated.current', ← hSame]
  dsimp only
  split
  · exact sim_throw covers_nil
  · split
    · next name _ =>
      obtain ⟨hClass, hKnown⟩ :=
        hRelated.store.class?_of_leads (hRelated.store.leads_of_sees hNear.2) name
      rw [← hClass]
      exact sim_pure fun w'' hLe' c hFound => hLe'.known (hKnown c hFound)
    · exact sim_pure fun _ _ _ hNone => by cases hNone

/-- The method of a superclass is the same function in both stores. -/
theorem sim_superMethod (method : String) (token : Token)
    (hExpr : w.Covers (Expr.super method token).places)
    (hClear : Clear w view [(0, .super method token)]) :
    Sim w view Kept (superMethod (.super method token) method token)
      (superMethod (.super method token) method token) := by
  refine sim_bind (sim_distance? hExpr) fun w' hLe found hFound => ?_
  cases found with
  | none => exact sim_complain _ _
  | some distance =>
      have hSees := (hClear.mono hLe) _ (List.mem_singleton_self _) _ (hFound distance rfl)
      refine sim_bind (sim_superclass? (hSees.imp_right Finds.of_super))
        fun w₁ hLe₁ parent hParent => ?_
      cases parent with
      | none => exact sim_complain _ _
      | some classPlace =>
          refine sim_get fun w₂ hLe₂ m m' hRelated => ?_
          have hKnown := hLe₂.known (hParent classPlace rfl)
          rw [← hRelated.store.parallel.method?_eq]
          cases hMethod : m.store.method? classPlace method with
          | none => exact sim_complain _ _
          | some function =>
              exact sim_kept (covers_singleton.mpr (hRelated.store.known_method? hKnown hMethod))

theorem sim_shown {value : Value} (hValue : w.Covers value.places) :
    Sim w view Any (shown value) (shown value) := by
  refine sim_get fun w' hLe m m' hRelated => ?_
  rw [← hRelated.store.shown_eq (hValue.mono hLe)]
  split
  · exact sim_any _
  · exact sim_throw covers_nil

/-- The comparison of values does not tell corresponding stores apart. -/
theorem sim_isEqual {left right : Value} (hLeft : w.Covers left.places)
    (hRight : w.Covers right.places) :
    Sim w view Any (isEqual left right) (isEqual left right) := by
  refine sim_get fun w' hLe m m' hRelated => ?_
  rw [← (hRelated.store.equalAlike Store.depthLimit).value (hLeft.mono hLe) (hRight.mono hLe)]
  unfold compared
  split
  · exact sim_any _
  · exact sim_throw covers_nil

theorem covers_ofNumber (number : Number) : w.Covers (ofNumber number).places := by
  cases number <;> exact covers_nil

theorem sim_calculate (result : Except Number.Fault Number) :
    Sim w view Kept (calculate result) (calculate result) := by
  cases result with
  | ok number => exact sim_kept (covers_ofNumber number)
  | error fault =>
      refine sim_throw ?_
      cases fault <;> exact covers_nil

theorem sim_numbers (operator : Token) (left right : Value) :
    Sim w view Any (numbers operator left right) (numbers operator left right) := by
  unfold numbers
  split
  · exact sim_any _
  · exact sim_complain _ _

theorem sim_compareBy (operator : Token) (left right : Value) (holds : Ordering → Bool) :
    Sim w view Kept (compareBy operator left right holds) (compareBy operator left right holds) :=
  sim_bind (sim_numbers operator left right) fun _ _ _ _ => sim_kept covers_nil

/-- The operators look only at values, which are shown and compared alike. -/
theorem sim_binary (operator : Token) {left right : Value} (hLeft : w.Covers left.places)
    (hRight : w.Covers right.places) :
    Sim w view Kept (binary operator left right) (binary operator left right) := by
  have hJoined : Sim w view Kept
      (do
        let first ← shown left
        let second ← shown right
        return Value.str (first ++ second))
      (do
        let first ← shown left
        let second ← shown right
        return Value.str (first ++ second)) :=
    sim_bind (sim_shown hLeft) fun _ hLe _ _ =>
      sim_bind (sim_shown (hRight.mono hLe)) fun _ _ _ _ => sim_kept covers_nil
  have hNumbers : Sim w view Any (numbers operator left right) (numbers operator left right) :=
    sim_numbers operator left right
  unfold binary
  split
  · split
    · exact sim_calculate _
    · split
      · exact hJoined
      · exact hJoined
      · exact sim_complain _ _
  · exact sim_bind hNumbers fun _ _ _ _ => sim_calculate _
  · exact sim_bind hNumbers fun _ _ _ _ => sim_calculate _
  · refine sim_bind hNumbers fun _ _ pair _ => ?_
    split
    split
    · exact sim_complain _ _
    · exact sim_calculate _
  · refine sim_bind hNumbers fun _ _ pair _ => ?_
    split
    split
    · exact sim_complain _ _
    · exact sim_calculate _
  · exact sim_compareBy _ _ _ _
  · exact sim_compareBy _ _ _ _
  · exact sim_compareBy _ _ _ _
  · exact sim_compareBy _ _ _ _
  · exact sim_bind (sim_isEqual hLeft hRight) fun _ _ _ _ => sim_kept covers_nil
  · exact sim_bind (sim_isEqual hLeft hRight) fun _ _ _ _ => sim_kept covers_nil
  · exact sim_complain _ _

theorem sim_unary (operator : Token) (right : Value) :
    Sim w view Kept (unary operator right) (unary operator right) := by
  unfold unary
  split
  · split
    · exact sim_kept (covers_ofNumber _)
    · exact sim_complain _ _
  · exact sim_kept covers_nil
  · exact sim_complain _ _

/-! ## Functions, arrays and objects -/

/-- The builtin functions look only at values. -/
theorem sim_builtin (native : Builtin) {arguments : List Value}
    (hArguments : w.Covers (Value.placesAll arguments)) :
    Sim w view Kept (builtin native arguments) (builtin native arguments) := by
  unfold builtin
  split
  · rw [Value.placesAll, covers_append] at hArguments
    exact sim_bind (sim_shown hArguments.1) fun _ _ _ _ =>
      sim_bind (sim_print _) fun _ _ _ _ => sim_kept covers_nil
  · exact sim_throw covers_nil
  · refine sim_get fun w' hLe m m' hRelated => ?_
    rw [hRelated.store.parallel.items]
    exact sim_kept covers_nil
  · exact sim_throw covers_nil
  · exact sim_throw covers_nil

/-- Only builtin functions have anything to call, and these are the same ones in both stores. -/
theorem sim_callFunction (place : Nat) {arguments : List Value}
    (hArguments : w.Covers (Value.placesAll arguments)) :
    Sim w view Kept (callFunction place arguments) (callFunction place arguments) := by
  refine sim_get fun w' hLe m m' hRelated => ?_
  rw [(Function.of_bare (hRelated.store.parallel.function place)).2.2.2]
  split
  · exact sim_builtin _ (hArguments.mono hLe)
  · exact sim_throw covers_nil

theorem sim_itemIndex (items : Items) {index : Value} (hIndex : w.Covers index.places) :
    Sim w view Any (itemIndex items index) (itemIndex items index) := by
  refine sim_get fun w' hLe m m' hRelated => ?_
  have hInside (n : Int) : Sim w' view Any
      (do
        if 0 ≤ n ∧ n < (m.store.items items).length then return n.toNat
        else throw (Fault.indexBounds (← shown index)) : Run Nat)
      (do
        if 0 ≤ n ∧ n < (m.store.items items).length then return n.toNat
        else throw (Fault.indexBounds (← shown index)) : Run Nat) := by
    split
    · exact sim_any _
    · exact sim_bind (sim_shown (hIndex.mono hLe)) fun _ _ _ _ => sim_throw covers_nil
  dsimp only
  rw [← hRelated.store.parallel.items]
  split
  · exact hInside _
  · exact hInside _
  · exact sim_throw covers_nil

theorem sim_readItem {items : Items} (hItems : w.Covers items.places) (index : Int) :
    Sim w view Kept (readItem items (.int index)) (readItem items (.int index)) := by
  refine sim_bind (sim_itemIndex items covers_nil) fun w' hLe place _ =>
    sim_get fun w'' hLe' m m' hRelated => ?_
  have hCovers := hRelated.store.items (hItems.mono (le_trans hLe hLe'))
  rw [Value.placesAll_eq, covers_flatMap] at hCovers
  rw [← hRelated.store.parallel.items]
  cases hItem : (m.store.items items)[place]? with
  | none => exact sim_kept covers_nil
  | some value => exact sim_kept (hCovers value (List.mem_of_getElem? hItem))

/-- Setting an item changes one cell, which both stores have. -/
theorem sim_writeItem {items : Items} (hItems : w.Covers items.places) (index : Int) {value : Value}
    (hValue : w.Covers value.places) :
    Sim w view Any (writeItem items (.int index) value) (writeItem items (.int index) value) :=
  sim_bind (sim_itemIndex items covers_nil) fun _ hLe place _ =>
    sim_changeStore fun w'' hLe' _ _ hMatches => ⟨w'', w''.le_refl,
      hMatches.setItem (hItems.mono (le_trans hLe hLe')) place (hValue.mono (le_trans hLe hLe'))⟩

/-- An array has its length and its items in both stores. -/
theorem sim_arrayProperty {items : Items} (hItems : w.Covers items.places) (name : String)
    (token : Token) :
    Sim w view Kept (arrayProperty items name token) (arrayProperty items name token) := by
  unfold arrayProperty
  split
  · refine sim_get fun w' hLe m m' hRelated => ?_
    rw [hRelated.store.parallel.items]
    exact sim_kept covers_nil
  · split
    · exact sim_readItem hItems _
    · exact sim_complain _ _

/-- The class that is blamed for a missing field. -/
theorem rootName_eq {m m' : Machine} (hRelated : w.Related view m m') (o : Nat) :
    (m.store.classDef (m.store.rootClass (m.store.object o).classDef)).name =
      (m'.store.classDef (m'.store.rootClass (m'.store.object o).classDef)).name := by
  rw [(Object.of_bare (hRelated.store.parallel.object o)).1, hRelated.store.parallel.rootClass_eq]
  exact (ClassDef.of_bare (hRelated.store.parallel.classDef _)).1

/-- Reading a field may bind a method, for which both stores get a scope. -/
theorem sim_readField {o : Nat} (hObject : w.known (.object o)) (name : String) :
    Sim w view Kept (readField o name) (readField o name) := by
  intro w' hLe m m' hRelated
  unfold readField
  rcases hRelated.store.readField (hLe.known hObject) name with
    ⟨hLeft, hRight⟩ | ⟨value, a, b, w'', hLeft, hRight, hLe', hMatches, hValue⟩
  · rw [hLeft, hRight]
    dsimp only
    rw [rootName_eq hRelated]
    exact .fault w'.le_refl hRelated covers_nil
  · rw [hLeft, hRight]
    exact .ok hLe' (hRelated.change hLe' hMatches) hValue

/-- Writing a field changes one object, and the scopes in which the two stores repeat it. -/
theorem sim_writeField {o : Nat} (hObject : w.known (.object o)) (name : String) {value : Value}
    (hValue : w.Covers value.places) :
    Sim w view Any (writeField o name value) (writeField o name value) := by
  intro w' hLe m m' hRelated
  unfold writeField
  rcases hRelated.store.writeField (hLe.known hObject) name (hValue.mono hLe) with
    ⟨hLeft, hRight⟩ | ⟨a, b, hLeft, hRight, hMatches⟩
  · rw [hLeft, hRight]
    dsimp only
    rw [rootName_eq hRelated]
    exact .fault w'.le_refl hRelated covers_nil
  · rw [hLeft, hRight]
    exact .ok w'.le_refl (hRelated.change w'.le_refl hMatches) trivial

/-- The value with which a variable starts is the same in both stores, up to a new cell. -/
theorem sim_initialValue (typeName : String) {value : Value} (hValue : w.Covers value.places) :
    Sim w view Kept (initialValue typeName value) (initialValue typeName value) := by
  unfold initialValue
  split
  · exact sim_kept hValue
  · split
    · exact sim_kept hValue
    · exact sim_kept (by simpa only [Value.places] using hValue)
    · refine sim_withStore fun w' hLe a b hMatches => ?_
      have hCells : a.cells.size = b.cells.size := by rw [hMatches.parallel.cells]
      have hItems : w'.Covers (Value.placesAll [value]) := by
        rw [Value.placesAll_eq, List.flatMap_singleton]
        exact hValue.mono hLe
      refine ⟨?_, _, le_learn rfl True, hMatches.addCell hItems, ?_⟩
      · change Value.array (.cell a.cells.size) _ = Value.array (.cell b.cells.size) _
        rw [hCells]
      · exact covers_singleton.mpr (known_learn trivial)

/-- The superclass is looked for in scopes that belong together. -/
theorem sim_parentClass (superclass : Option String) (token : Token)
    (hPaired : w.paired view.current view.current') :
    Sim w view (fun w' parent => w'.known (.scope view.current) →
      w'.Covers (parent.toList.map .classDef)) (parentClass superclass token)
      (parentClass superclass token) := by
  unfold parentClass
  split
  · exact sim_pure fun _ _ _ => covers_nil
  · split
    · exact sim_pure fun _ _ _ => covers_nil
    · next name _ =>
      refine sim_get fun w' hLe m m' hRelated => ?_
      rw [hRelated.current, hRelated.current',
        ← hRelated.store.class?_eq (hLe.paired hPaired) name]
      cases hFound : m.store.class? view.current name with
      | none => exact sim_complain _ _
      | some parent =>
          refine sim_pure fun w'' hLe' hKnown => covers_singleton.mpr (hLe'.known ?_)
          exact hRelated.store.known_class? (hLe'.settled (hLe.paired hPaired) hKnown) hFound

end Run

end Mus
