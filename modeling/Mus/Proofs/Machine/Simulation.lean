import Mus.Proofs.Machine.Correspondence

/-! Evaluation and execution of the same code on two machines that correspond. By one
induction on the fuel of the first machine: expressions have the same values wherever the
machines stand, as long as what the resolution table notes is found alike, and statements
do the same in scopes that belong together. -/
namespace Mus.Run

open World

variable {w : World} {view : View}

def KeptAll (w : World) (values : List Value) : Prop := w.Covers (Value.placesAll values)

def KeptFields (w : World) (table : Table (String × Value)) : Prop :=
  w.Covers (table.places (·.2.places))

/-! ## Constructors and items -/

/-- Both runs blame the same index. -/
theorem sim_blaming (name : String) (token : Token) {steps steps' : Run Value}
    (h : Sim w view Kept steps steps') :
    Sim w view Kept (blaming name token steps) (blaming name token steps') := by
  intro w' hLe m m' hRelated
  have hAgree := h w' hLe m m' hRelated
  unfold blaming
  generalize steps m = r at hAgree
  generalize steps' m' = r' at hAgree
  cases hAgree with
  | ok hLe' hRelated' hValue => exact .ok hLe' hRelated' hValue
  | @fault fault n n' w'' hLe' hRelated' hFault =>
      cases fault with
      | text textFault =>
          cases textFault with
          | tooManyDigits => exact .fault hLe' hRelated' covers_nil
          | _ => exact .fault hLe' hRelated' hFault
      | _ => exact .fault hLe' hRelated' hFault
  | outOfFuel => exact .outOfFuel _

/-- Whether the bodies end by a return or not, both calls yield the same object. -/
theorem agree_constructing {o : Nat} (hObject : w.known (.object o)) {body body' : Run Unit}
    {m m' : Machine} (h : Agree w view Any (body m) (body' m')) :
    Agree w view Kept (constructing o body m) (constructing o body' m') := by
  have hKept {w' : World} (hLe : w ≤ w') : Kept w' (.object o) :=
    covers_singleton.mpr (hLe.known hObject)
  unfold constructing
  generalize body m = r at h
  generalize body' m' = r' at h
  cases h with
  | ok hLe hRelated hValue => exact .ok hLe hRelated (hKept hLe)
  | @fault fault n n' w' hLe hRelated hFault =>
      cases fault with
      | returned value => exact .ok hLe hRelated (hKept hLe)
      | _ => exact .fault hLe hRelated hFault
  | outOfFuel => exact .outOfFuel _

/-- The body of a bound constructor runs in a new scope, in which the arguments are declared
first. -/
theorem enter_apply (f o : Nat) (values : List Value) (body : List Stmt → Run Unit) (m : Machine) :
    enter f o values body m = constructing o
      (inScope m.store.scopes.size (body (m.store.function f).body)) { m with
        store := defineParameters m.store.scopes.size (m.store.function f).params values
          (m.store.addScope { parent := (m.store.function f).closure }).2 } := rfl

/-- The body of a constructor runs in joined scopes, wherever the machines stand. -/
theorem sim_enter {f o : Nat} (hFunction : w.known (.function f)) (hObject : w.known (.object o))
    {values : List Value} (hValues : w.Covers (Value.placesAll values))
    {body body' : List Stmt → Run Unit}
    (hBody : ∀ w' s t, w ≤ w' → w'.Joined s t → w'.Free s → ∀ stmts,
      w'.Covers (Stmt.placesAll stmts) → Sim w' (view.at s t) Any (body stmts) (body' stmts)) :
    Sim w view Kept (enter f o values body) (enter f o values body') := by
  intro w' hLe m m' hRelated
  obtain ⟨hClosure, hCovers⟩ := hRelated.store.function (hLe.known hFunction)
  obtain ⟨-, hParams, hStmts, -⟩ := Function.of_bare (hRelated.store.parallel.function f)
  obtain ⟨w'', hLe', hScope, hJoined, hFree⟩ := hRelated.store.addJoined hClosure
  have hStore := hScope.defineParameters hJoined.1 hFree (m.store.function f).params
    (hValues.mono (le_trans hLe hLe'))
  have hSteps := hBody _ _ _ (le_trans hLe hLe') hJoined hFree _ (hCovers.mono hLe') _
    (World.le_refl _) _ _ (hRelated.move hLe' hStore _ _)
  rw [enter_apply, enter_apply, ← hParams, ← hStmts]
  exact agree_constructing (hLe.known hObject) (agree_inScope hRelated hSteps hLe')

/-- A variable is declared in scopes that belong together, unless these are to lack it. -/
theorem sim_declareVariable {name : String} (type : Option String) {value : Value}
    (hPaired : w.paired view.current view.current')
    (hFree : ¬ w.lacks view.current (.binding name)) (hValue : w.Covers value.places) :
    Sim w view Any (declare fun scope store => store.defineVariable scope name type value)
      (declare fun scope store => store.defineVariable scope name type value) :=
  sim_declare fun w' hLe _ _ hMatches => ⟨w', w'.le_refl,
    hMatches.defineVariable (hLe.paired hPaired) (fun hLacks => hFree (hLe.free hPaired hLacks))
      type (hValue.mono hLe)⟩

/-- A function gets the scopes that belong together as its closures. -/
theorem sim_declareFunction (name : String) (params : Params) {body : List Stmt}
    (hPaired : w.paired view.current view.current') (hBody : w.Covers (Stmt.placesAll body)) :
    Sim w view Any (declare fun scope store => store.defineFunction scope name params body)
      (declare fun scope store => store.defineFunction scope name params body) :=
  sim_declare fun _ hLe _ _ hMatches =>
    hMatches.defineFunction (hLe.paired hPaired) name params (hBody.mono hLe)

/-- Nothing is put into a scope that is to lack it. -/
def Allowed (w : World) (s : Nat) (defined : List Sought) : Prop :=
  ∀ sought ∈ defined, ¬ w.lacks s sought

/-- What is allowed stays so, since paired scopes lack nothing more in a later world. -/
theorem Allowed.mono {w' : World} {s t : Nat} {defined : List Sought} (h : Allowed w s defined)
    (hPaired : w.paired s t) (hLe : w ≤ w') : Allowed w' s defined :=
  fun sought hMem hLacks => h sought hMem (hLe.free hPaired hLacks)

theorem allowed_append {s : Nat} {front back : List Sought} :
    Allowed w s (front ++ back) ↔ Allowed w s front ∧ Allowed w s back :=
  List.forall_mem_append

/-- What the scopes of a block lack: classes, if the scope around lacks them. -/
def inherited (w : World) (view : View) (sought : Sought) : Prop :=
  sought = .classes ∧ w.lacks view.current .classes

/-- A variable is always allowed in the scope of a block. -/
theorem binding_allowed {w' : World} {s t : Nat}
    (hInside : w.Inside view.current view.current' (inherited w view) w' s t) (name : String) :
    ¬ w'.lacks s (.binding name) :=
  fun hLacks => by cases ((hInside.lacks (.binding name)).mp hLacks).1

/-- In the scope of a block only classes can be barred, and those only if they are around it. -/
theorem Allowed.inner {w' : World} {s t : Nat} {defined : List Sought}
    (h : Allowed w view.current (defined.filter (· = .classes)))
    (hInside : w.Inside view.current view.current' (inherited w view) w' s t) :
    Allowed w' s defined := by
  intro sought hMem hLacks
  obtain ⟨rfl, hOuter⟩ := (hInside.lacks sought).mp hLacks
  exact h .classes (List.mem_filter.mpr ⟨hMem, decide_eq_true rfl⟩) hOuter

/-- What is found alike stays so in inner scopes. -/
theorem Finds.inner {w' : World} {s t depth distance : Nat} {e : Expr}
    (h : Finds w view.current view.current' (depth + 1) distance e)
    (hInside : w.Inside view.current view.current' (inherited w view) w' s t) :
    Finds w' s t depth distance e := by
  have hVariable {name : String} (hOuter : distance < depth + 1 ∨
      w.sees view.current view.current' (distance - (depth + 1)) (.binding name)) :
      distance < depth ∨ w'.sees s t (distance - depth) (.binding name) := by
    rcases Nat.lt_trichotomy distance depth with hInner | rfl | hBeyond
    · exact Or.inl hInner
    · rw [Nat.sub_self]
      exact Or.inr (hInside.here name)
    · have hStep : distance - depth = distance - (depth + 1) + 1 := by omega
      rw [hStep]
      exact Or.inr (hInside.out (hOuter.resolve_left (Nat.not_lt.mpr hBeyond)))
  cases e with
  | «variable» => exact hVariable h
  | this => exact hVariable h
  | super =>
      obtain ⟨-, hClasses, hLacks⟩ := h
      have hBare : inherited w view .classes := ⟨rfl, hLacks (Nat.succ_pos depth)⟩
      exact ⟨Or.inr (hInside.here "super"), hInside.classes hBare hClasses,
        fun _ => (hInside.lacks .classes).mpr hBare⟩
  | _ => trivial

/-- Names that are clear as seen from around a block are clear in it. -/
theorem Clear.inner {w' : World} {names : List (Nat × Expr)} (h : Clear w view (deeper names))
    {s t : Nat} (hInside : w.Inside view.current view.current' (inherited w view) w' s t) :
    Clear w' (view.at s t) names :=
  fun name hName distance hNoted =>
    (h (name.1 + 1, name.2) (List.mem_map_of_mem hName) distance hNoted).imp hInside.joined
      (·.inner hInside)

/-! ## Evaluation and execution -/

mutual

/-- Expressions are evaluated alike, with any further fuel for the second machine. By induction on
the fuel, together with all other parts of an evaluation. -/
theorem sim_evaluate (extra fuel room : Nat) (w : World) (view : View) (e : Expr)
    (hExpr : w.Covers e.places) (hClear : Clear w view e.names) :
    Sim w view Kept (evaluate fuel room e) (evaluate (extra + fuel) room e) := by
  match fuel, e with
  | 0, _ =>
      rw [evaluate]
      exact sim_outOfFuel _
  | fuel + 1, .literal value token =>
      rw [Expr.places, covers_append] at hExpr
      rw [← Nat.add_assoc, evaluate, evaluate]
      exact sim_kept hExpr.1
  | fuel + 1, .variable name token =>
      rw [← Nat.add_assoc, evaluate, evaluate]
      rw [Expr.names] at hClear
      exact sim_readVariable name hExpr fun distance hNoted =>
        (hClear _ (List.mem_singleton_self _) distance hNoted).imp_right Finds.of_variable
  | fuel + 1, .this token =>
      rw [← Nat.add_assoc, evaluate, evaluate]
      rw [Expr.names] at hClear
      exact sim_readVariable "this" hExpr fun distance hNoted =>
        (hClear _ (List.mem_singleton_self _) distance hNoted).imp_right Finds.of_this
  | fuel + 1, .super method token =>
      rw [← Nat.add_assoc, evaluate, evaluate]
      rw [Expr.names] at hClear
      exact sim_superMethod method token hExpr hClear
  | fuel + 1, .binary left operator right =>
      rw [Expr.places, covers_append, covers_append] at hExpr
      rw [Expr.names, clear_append] at hClear
      rw [← Nat.add_assoc, evaluate, evaluate]
      refine sim_bind (sim_evaluate extra fuel room w view left hExpr.1 hClear.1)
        fun w₁ hLe₁ a ha => sim_bind (sim_evaluate extra fuel room w₁ view right
          (hExpr.2.2.mono hLe₁) (hClear.2.mono hLe₁)) fun w₂ hLe₂ b hb => ?_
      exact sim_binary operator (ha.mono hLe₂) hb
  | fuel + 1, .unary operator right =>
      rw [Expr.places, covers_append] at hExpr
      rw [Expr.names] at hClear
      rw [← Nat.add_assoc, evaluate, evaluate]
      exact sim_bind (sim_evaluate extra fuel room w view right hExpr.2 hClear)
        fun _ _ _ _ => sim_unary _ _
  | fuel + 1, .call callee arguments token =>
      rw [Expr.places, covers_append, covers_append] at hExpr
      rw [Expr.names, clear_append] at hClear
      rw [← Nat.add_assoc, evaluate, evaluate]
      refine sim_bind (sim_evaluate extra fuel room w view callee hExpr.1 hClear.1)
        fun w₁ hLe₁ target hTarget => ?_
      have hArguments := hExpr.2.1.mono hLe₁
      have hNames := hClear.2.mono hLe₁
      cases target with
      | function place =>
          exact sim_bind (sim_evaluateAll extra fuel room w₁ view arguments hArguments hNames)
            fun _ _ _ hValues => sim_callFunction place hValues
      | classDef place =>
          exact sim_construct extra fuel room w₁ view place arguments
            (covers_singleton.mp hTarget) hArguments hNames
      | _ => exact sim_complain _ _
  | fuel + 1, .get object name token =>
      rw [Expr.places, covers_append] at hExpr
      rw [Expr.names] at hClear
      rw [← Nat.add_assoc, evaluate, evaluate]
      refine sim_bind (sim_evaluate extra fuel room w view object hExpr.1 hClear)
        fun w₁ hLe₁ target hTarget => ?_
      cases target with
      | array items element =>
          exact sim_arrayProperty (by simpa only [Kept, Value.places] using hTarget) name token
      | object place => exact sim_readField (covers_singleton.mp hTarget) name
      | _ => exact sim_complain _ _
  | fuel + 1, .set object name value token =>
      rw [Expr.places, covers_append, covers_append] at hExpr
      rw [Expr.names, clear_append] at hClear
      rw [← Nat.add_assoc, evaluate, evaluate]
      refine sim_bind (sim_evaluate extra fuel room w view object hExpr.1 hClear.1)
        fun w₁ hLe₁ target hTarget => ?_
      have hValue := hExpr.2.1.mono hLe₁
      have hNames := hClear.2.mono hLe₁
      cases target with
      | array items element =>
          exact sim_assignItem extra fuel room w₁ view items name value token
            (by simpa only [Kept, Value.places] using hTarget) hValue hNames
      | object place =>
          refine sim_bind (sim_evaluate extra fuel room w₁ view value hValue hNames)
            fun w₂ hLe₂ result hResult => sim_bind (sim_writeField
              (hLe₂.known (covers_singleton.mp hTarget)) name hResult) fun w₃ hLe₃ _ _ => ?_
          exact sim_kept (hResult.mono hLe₃)
      | _ => exact sim_complain _ _
  | fuel + 1, .base =>
      rw [← Nat.add_assoc, evaluate, evaluate]
      exact sim_complain _ _
  | fuel + 1, .stray kind =>
      rw [← Nat.add_assoc, evaluate, evaluate]
      exact sim_complain _ _

theorem sim_evaluateAll (extra fuel room : Nat) (w : World) (view : View) (es : List Expr)
    (hExprs : w.Covers (Expr.placesAll es)) (hClear : Clear w view (Expr.namesAll es)) :
    Sim w view KeptAll (evaluateAll fuel room es) (evaluateAll (extra + fuel) room es) := by
  match fuel, es with
  | 0, _ =>
      rw [evaluateAll]
      exact sim_outOfFuel _
  | fuel + 1, [] =>
      rw [← Nat.add_assoc, evaluateAll, evaluateAll]
      exact sim_pure fun _ _ => covers_nil
  | fuel + 1, e :: rest =>
      rw [Expr.placesAll, covers_append] at hExprs
      rw [Expr.namesAll, clear_append] at hClear
      rw [← Nat.add_assoc, evaluateAll, evaluateAll]
      refine sim_bind (sim_evaluate extra fuel room w view e hExprs.1 hClear.1)
        fun w₁ hLe₁ first hFirst => sim_bind (sim_evaluateAll extra fuel room w₁ view rest
          (hExprs.2.mono hLe₁) (hClear.2.mono hLe₁)) fun w₂ hLe₂ others hOthers => ?_
      exact sim_pure fun w₃ hLe₃ => covers_append.mpr
        ⟨hFirst.mono (le_trans hLe₂ hLe₃), hOthers.mono hLe₃⟩

theorem sim_assignItem (extra fuel room : Nat) (w : World) (view : View) (items : Items)
    (name : String) (value : Expr) (token : Token) (hItems : w.Covers items.places)
    (hValue : w.Covers value.places) (hClear : Clear w view value.names) :
    Sim w view Kept (assignItem fuel room items name value token)
      (assignItem (extra + fuel) room items name value token) := by
  match fuel with
  | 0 =>
      rw [assignItem]
      exact sim_outOfFuel _
  | fuel + 1 =>
      rw [← Nat.add_assoc, assignItem, assignItem]
      split
      · exact sim_complain _ _
      · next index _ =>
        refine sim_blaming name token (sim_bind
          (sim_evaluate extra fuel room w view value hValue hClear) fun w₁ hLe₁ result hResult =>
          sim_bind (sim_writeItem (hItems.mono hLe₁) index hResult) fun w₂ hLe₂ _ _ => ?_)
        exact sim_kept (hResult.mono hLe₂)

/-- The new objects are the same, and the bodies of the constructor run in new scopes that belong
together. -/
theorem sim_construct (extra fuel room : Nat) (w : World) (view : View) (classPlace : Nat)
    (arguments : List Expr) (hClass : w.known (.classDef classPlace))
    (hArguments : w.Covers (Expr.placesAll arguments))
    (hClear : Clear w view (Expr.namesAll arguments)) :
    Sim w view Kept (construct fuel room classPlace arguments)
      (construct (extra + fuel) room classPlace arguments) := by
  match fuel with
  | 0 =>
      rw [construct]
      exact sim_outOfFuel _
  | fuel + 1 =>
      rw [← Nat.add_assoc, construct, construct]
      refine sim_bind (P := fun w' object => w'.known (.object object)) (sim_withStore
        fun w' hLe a b hMatches => hMatches.createInstance (hLe.known hClass))
        fun w₁ hLe₁ object hObject => sim_get fun w₂ hLe₂ m m' hRelated => ?_
      have hLe₂' := le_trans hLe₁ hLe₂
      rw [← hRelated.store.parallel.method?_eq]
      cases hInit : m.store.method? classPlace "init" with
      | none => exact sim_kept (covers_singleton.mpr (hLe₂.known hObject))
      | some init =>
          have hKnown := hRelated.store.known_method? (hLe₂'.known hClass) hInit
          refine sim_bind (P := fun w' bound => w'.known (.function bound)) (sim_withStore
            fun w' hLe a b hMatches => hMatches.bind (hLe.known hKnown)
              (hLe.known (hLe₂.known hObject))) fun w₃ hLe₃ bound hBound => ?_
          have hLe₃' := le_trans hLe₂' hLe₃
          refine sim_bind (sim_evaluateAll extra fuel room w₃ view arguments
            (hArguments.mono hLe₃') (hClear.mono hLe₃')) fun w₄ hLe₄ values hValues => ?_
          match room with
          | 0 => exact sim_throw covers_nil
          | room + 1 =>
              refine sim_enter (hLe₄.known hBound)
                (hLe₄.known (hLe₃.known (hLe₂.known hObject))) hValues
                fun w' s t hLe hJoined hFree stmts hStmts => ?_
              exact sim_executeAll extra fuel room w' (view.at s t) stmts hJoined.1 hStmts
                (clear_of_joined hJoined _) fun sought _ => hFree sought

/-- Statements are executed alike, each in the world that the ones before it have left. -/
theorem sim_executeAll (extra fuel room : Nat) (w : World) (view : View) (body : List Stmt)
    (hPaired : w.paired view.current view.current') (hBody : w.Covers (Stmt.placesAll body))
    (hClear : Clear w view (Stmt.namesAll body))
    (hAllowed : Allowed w view.current (Stmt.definesAll body)) :
    Sim w view Any (executeAll fuel room body) (executeAll (extra + fuel) room body) := by
  match fuel, body with
  | 0, _ =>
      rw [executeAll]
      exact sim_outOfFuel _
  | fuel + 1, [] =>
      rw [← Nat.add_assoc, executeAll, executeAll]
      exact sim_any _
  | fuel + 1, stmt :: rest =>
      rw [Stmt.placesAll, covers_append] at hBody
      rw [Stmt.namesAll, clear_append] at hClear
      rw [Stmt.definesAll, allowed_append] at hAllowed
      rw [← Nat.add_assoc, executeAll, executeAll]
      exact sim_bind (sim_execute extra fuel room w view stmt hPaired hBody.1 hClear.1 hAllowed.1)
        fun w₁ hLe₁ _ _ => sim_executeAll extra fuel room w₁ view rest (hLe₁.paired hPaired)
          (hBody.2.mono hLe₁) (hClear.2.mono hLe₁) (hAllowed.2.mono hPaired hLe₁)

/-- A statement is executed alike in scopes that belong together, if its names are clear there and
nothing that it declares is barred. -/
theorem sim_execute (extra fuel room : Nat) (w : World) (view : View) (stmt : Stmt)
    (hPaired : w.paired view.current view.current') (hStmt : w.Covers stmt.places)
    (hClear : Clear w view stmt.names) (hAllowed : Allowed w view.current stmt.defines) :
    Sim w view Any (execute fuel room stmt) (execute (extra + fuel) room stmt) := by
  match fuel, stmt with
  | 0, _ =>
      rw [execute]
      exact sim_outOfFuel _
  | fuel + 1, .expression e =>
      rw [Stmt.places] at hStmt
      rw [Stmt.names] at hClear
      rw [← Nat.add_assoc, execute, execute]
      exact sim_bind (sim_evaluate extra fuel room w view e hStmt hClear) fun _ _ _ _ => sim_any _
  | fuel + 1, .varDecl ⟨name, typeName, none, token⟩ =>
      rw [Stmt.defines] at hAllowed
      rw [← Nat.add_assoc, execute, execute]
      exact sim_declareVariable (some typeName) hPaired
        (hAllowed _ (List.mem_singleton_self _)) covers_nil
  | fuel + 1, .varDecl ⟨name, typeName, some e, token⟩ =>
      rw [Stmt.places, VarDecl.places, covers_append] at hStmt
      rw [Stmt.names] at hClear
      rw [Stmt.defines] at hAllowed
      rw [← Nat.add_assoc, execute, execute]
      refine sim_bind (sim_evaluate extra fuel room w view e hStmt.1 hClear)
        fun w₁ hLe₁ start hStart => sim_bind (sim_initialValue typeName hStart)
          fun w₂ hLe₂ value hValue => ?_
      have hLe₂' := le_trans hLe₁ hLe₂
      exact sim_declareVariable (some typeName) (hLe₂'.paired hPaired)
        (hAllowed.mono hPaired hLe₂' _ (List.mem_singleton_self _)) hValue
  | fuel + 1, .funDecl ⟨name, params, body, token⟩ =>
      rw [Stmt.places, FunDecl.places, covers_append] at hStmt
      rw [← Nat.add_assoc, execute, execute]
      exact sim_declareFunction name params hPaired hStmt.1
  | fuel + 1, .classDecl name superclass fields methods token =>
      rw [Stmt.places, covers_append, covers_append] at hStmt
      rw [Stmt.names] at hClear
      rw [Stmt.defines] at hAllowed
      rw [← Nat.add_assoc, execute, execute]
      refine sim_bind (sim_parentClass superclass token hPaired) fun w₁ hLe₁ parent hParent =>
        sim_bind (sim_evaluateFields extra fuel room w₁ view fields [] covers_nil
          (hStmt.1.mono hLe₁) (hClear.mono hLe₁)) fun w₂ hLe₂ table hTable => ?_
      have hLe₂' := le_trans hLe₁ hLe₂
      refine sim_declare fun w' hLe a b hMatches => hMatches.declareClass
        ((le_trans hLe₂' hLe).paired hPaired)
        (hAllowed.mono hPaired (le_trans hLe₂' hLe) _ (List.mem_singleton_self _)) name
        (hStmt.2.1.mono (le_trans hLe₂' hLe)) (hTable.mono hLe) fun hKnown => ?_
      have hBefore := (le_trans hLe₂ hLe).settled (hLe₁.paired hPaired) hKnown
      exact (hParent hBefore).mono (le_trans hLe₂ hLe)
  | fuel + 1, .block body =>
      rw [Stmt.places] at hStmt
      rw [Stmt.names] at hClear
      rw [Stmt.defines] at hAllowed
      rw [← Nat.add_assoc, execute, execute]
      exact sim_within hPaired (inherited w view) (fun _ _ _ _ _ _ hMatches _ => hMatches)
        fun w' s t hLe hInside => sim_executeAll extra fuel room w' (view.at s t) body
          hInside.paired (hStmt.mono hLe) (hClear.inner hInside) (hAllowed.inner hInside)
  | fuel + 1, .branch condition thenBranch none =>
      rw [Stmt.places, covers_append, covers_append] at hStmt
      rw [Stmt.names, clear_append, clear_append] at hClear
      rw [Stmt.defines, allowed_append] at hAllowed
      rw [← Nat.add_assoc, execute, execute]
      refine sim_bind (sim_evaluate extra fuel room w view condition hStmt.1 hClear.1)
        fun w₁ hLe₁ value _ => ?_
      split
      · exact sim_execute extra fuel room w₁ view thenBranch (hLe₁.paired hPaired)
          (hStmt.2.1.mono hLe₁) (hClear.2.1.mono hLe₁) (hAllowed.1.mono hPaired hLe₁)
      · exact sim_any _
  | fuel + 1, .branch condition thenBranch (some other) =>
      rw [Stmt.places, covers_append, covers_append, Stmt.places?] at hStmt
      rw [Stmt.names, clear_append, clear_append, Stmt.names?] at hClear
      rw [Stmt.defines, allowed_append, Stmt.defines?] at hAllowed
      rw [← Nat.add_assoc, execute, execute]
      refine sim_bind (sim_evaluate extra fuel room w view condition hStmt.1 hClear.1)
        fun w₁ hLe₁ value _ => ?_
      split
      · exact sim_execute extra fuel room w₁ view thenBranch (hLe₁.paired hPaired)
          (hStmt.2.1.mono hLe₁) (hClear.2.1.mono hLe₁) (hAllowed.1.mono hPaired hLe₁)
      · exact sim_execute extra fuel room w₁ view other (hLe₁.paired hPaired)
          (hStmt.2.2.mono hLe₁) (hClear.2.2.mono hLe₁) (hAllowed.2.mono hPaired hLe₁)
  | fuel + 1, .loop condition body =>
      rw [Stmt.places, covers_append] at hStmt
      rw [Stmt.names, clear_append] at hClear
      rw [Stmt.defines] at hAllowed
      rw [← Nat.add_assoc, execute, execute]
      exact sim_repeatWhile extra fuel room w view condition body hPaired hStmt.1 hStmt.2
        hClear.1 hClear.2 hAllowed
  | fuel + 1, .each iterator iterable body =>
      rw [Stmt.places, covers_append] at hStmt
      rw [Stmt.names, clear_append] at hClear
      rw [Stmt.defines] at hAllowed
      rw [← Nat.add_assoc, execute, execute]
      refine sim_bind (sim_evaluate extra fuel room w view iterable hStmt.1 hClear.1)
        fun w₁ hLe₁ value hValue => ?_
      cases value with
      | list items =>
          exact sim_repeatFor extra fuel room w₁ view iterator items 0 body (hLe₁.paired hPaired)
            (by simpa only [Kept, Value.places] using hValue) (hStmt.2.mono hLe₁)
            (hClear.2.mono hLe₁) (hAllowed.mono hPaired hLe₁)
      | _ => exact sim_complain _ _
  | fuel + 1, .ret (some e) token =>
      rw [Stmt.places, covers_append] at hStmt
      rw [Stmt.names] at hClear
      rw [← Nat.add_assoc, execute, execute]
      exact sim_bind (sim_evaluate extra fuel room w view e hStmt.1 hClear)
        fun _ _ _ hValue => sim_throw hValue
  | fuel + 1, .ret none token =>
      rw [← Nat.add_assoc, execute, execute]
      exact sim_throw covers_nil
  | fuel + 1, .base =>
      rw [← Nat.add_assoc, execute, execute]
      exact sim_complain _ _
  | fuel + 1, .stray e =>
      rw [← Nat.add_assoc, execute, execute]
      exact sim_complain _ _

theorem sim_fieldDefault (extra fuel room : Nat) (w : World) (view : View) (decl : VarDecl)
    (hDecl : w.Covers decl.places) (hClear : Clear w view (Expr.names? decl.initializer)) :
    Sim w view Kept (fieldDefault fuel room decl) (fieldDefault (extra + fuel) room decl) := by
  match fuel, decl with
  | 0, _ =>
      rw [fieldDefault]
      exact sim_outOfFuel _
  | fuel + 1, ⟨name, typeName, none, token⟩ =>
      rw [← Nat.add_assoc, fieldDefault, fieldDefault]
      exact sim_kept covers_nil
  | fuel + 1, ⟨name, typeName, some e, token⟩ =>
      rw [VarDecl.places, covers_append] at hDecl
      rw [← Nat.add_assoc, fieldDefault, fieldDefault]
      exact sim_evaluate extra fuel room w view e hDecl.1 hClear

theorem sim_evaluateFields (extra fuel room : Nat) (w : World) (view : View)
    (fields : List VarDecl) (table : Table (String × Value)) (hTable : KeptFields w table)
    (hFields : w.Covers (VarDecl.placesAll fields))
    (hClear : Clear w view (VarDecl.namesAll fields)) :
    Sim w view KeptFields (evaluateFields fuel room fields table)
      (evaluateFields (extra + fuel) room fields table) := by
  match fuel, fields with
  | 0, _ =>
      rw [evaluateFields]
      exact sim_outOfFuel _
  | fuel + 1, [] =>
      rw [← Nat.add_assoc, evaluateFields, evaluateFields]
      exact sim_pure fun _ hLe => hTable.mono hLe
  | fuel + 1, field :: rest =>
      rw [VarDecl.placesAll, List.flatMap_cons, covers_append] at hFields
      rw [VarDecl.namesAll, List.flatMap_cons, clear_append] at hClear
      rw [← Nat.add_assoc, evaluateFields, evaluateFields]
      refine sim_bind (sim_fieldDefault extra fuel room w view field hFields.1 hClear.1)
        fun w₁ hLe₁ value hValue => ?_
      exact sim_evaluateFields extra fuel room w₁ view rest _
        (covers_insert (hTable.mono hLe₁) field.name hValue) (hFields.2.mono hLe₁)
        (hClear.2.mono hLe₁)

/-- Each turn of a loop starts in a later world, in which its names are still clear. -/
theorem sim_repeatWhile (extra fuel room : Nat) (w : World) (view : View) (condition : Expr)
    (body : Stmt) (hPaired : w.paired view.current view.current')
    (hCondition : w.Covers condition.places) (hBody : w.Covers body.places)
    (hClear : Clear w view condition.names) (hClear' : Clear w view body.names)
    (hAllowed : Allowed w view.current body.defines) :
    Sim w view Any (repeatWhile fuel room condition body)
      (repeatWhile (extra + fuel) room condition body) := by
  match fuel with
  | 0 =>
      rw [repeatWhile]
      exact sim_outOfFuel _
  | fuel + 1 =>
      rw [← Nat.add_assoc, repeatWhile, repeatWhile]
      refine sim_bind (sim_evaluate extra fuel room w view condition hCondition hClear)
        fun w₁ hLe₁ value _ => ?_
      split
      · refine sim_bind (sim_execute extra fuel room w₁ view body (hLe₁.paired hPaired)
          (hBody.mono hLe₁) (hClear'.mono hLe₁) (hAllowed.mono hPaired hLe₁)) fun w₂ hLe₂ _ _ => ?_
        have hLe₂' := le_trans hLe₁ hLe₂
        exact sim_repeatWhile extra fuel room w₂ view condition body (hLe₂'.paired hPaired)
          (hCondition.mono hLe₂') (hBody.mono hLe₂') (hClear.mono hLe₂') (hClear'.mono hLe₂')
          (hAllowed.mono hPaired hLe₂')
      · exact sim_any _

/-- Each turn opens scopes that belong together and declares the iterator in both. -/
theorem sim_repeatFor (extra fuel room : Nat) (w : World) (view : View) (iterator : String)
    (items : Items) (index : Nat) (body : Stmt) (hPaired : w.paired view.current view.current')
    (hItems : w.Covers items.places) (hBody : w.Covers body.places)
    (hClear : Clear w view (deeper body.names))
    (hAllowed : Allowed w view.current (body.defines.filter (· = .classes))) :
    Sim w view Any (repeatFor fuel room iterator items index body)
      (repeatFor (extra + fuel) room iterator items index body) := by
  match fuel with
  | 0 =>
      rw [repeatFor]
      exact sim_outOfFuel _
  | fuel + 1 =>
      rw [← Nat.add_assoc, repeatFor, repeatFor]
      refine sim_get fun w₁ hLe₁ m m' hRelated => ?_
      have hCovers := hRelated.store.items (hItems.mono hLe₁)
      rw [Value.placesAll_eq, covers_flatMap] at hCovers
      rw [← hRelated.store.parallel.items]
      cases hItem : (m.store.items items)[index]? with
      | none => exact sim_any _
      | some item =>
          have hValue := hCovers item (List.mem_of_getElem? hItem)
          have hTurn := sim_within (hLe₁.paired hPaired) (inherited w₁ view)
            (fun w' hLe a b s t hMatches hInside => hMatches.defineVariable hInside.paired
              (binding_allowed hInside iterator) (some "any") (hValue.mono hLe))
            fun w' s t hLe hInside => sim_execute extra fuel room w' (view.at s t) body
              hInside.paired (hBody.mono (le_trans hLe₁ hLe)) ((hClear.mono hLe₁).inner hInside)
              ((hAllowed.mono hPaired hLe₁).inner hInside)
          have hLoop := sim_bind hTurn fun w₂ hLe₂ _ _ =>
            have hLe₂' := le_trans hLe₁ hLe₂
            sim_repeatFor extra fuel room w₂ view iterator items (index + 1) body
              (hLe₂'.paired hPaired) (hItems.mono hLe₂') (hBody.mono hLe₂') (hClear.mono hLe₂')
              (hAllowed.mono hPaired hLe₂')
          simpa only [within, bind_assoc] using hLoop

end

end Mus.Run
