import Mus.Proofs.Machine.Sourced

/-! Loading a program of a source. The lists of the program move into the store,
nothing else in it changes, and what is loaded is again that of a source. -/
namespace Mus

def Store.withLists (added : Array (List Value)) (store : Store) : Store :=
  { store with cells := store.cells ++ added }

def Machine.withLists (added : Array (List Value)) (machine : Machine) : Machine :=
  { machine with store := machine.store.withLists added }

section

variable {α β : Type}

/-- Loading gives a good result and does nothing but add lists of sources. -/
def Loads (good : α → Prop) (loading : Loading α) : Prop :=
  ∀ store : Store, good (loading store).1 ∧
    ∃ added, (∀ items ∈ added, Value.AllSourcedCode items) ∧
      (loading store).2 = store.withLists added

theorem loads_pure {good : α → Prop} {value : α} (hValue : good value) :
    Loads good (pure value) := by
  intro store
  refine ⟨hValue, #[], fun _ hItems => absurd hItems (Array.not_mem_empty _), ?_⟩
  rw [Store.withLists, Array.append_empty]
  rfl

/-- Loading one thing after another adds the lists of both. -/
theorem loads_bind {good : α → Prop} {good' : β → Prop} {loading : Loading α}
    {next : α → Loading β} (hLoading : Loads good loading)
    (hNext : ∀ value, good value → Loads good' (next value)) : Loads good' (loading >>= next) := by
  intro store
  obtain ⟨hValue, added, hAdded, hStore⟩ := hLoading store
  obtain ⟨hGood, added', hAdded', hStore'⟩ := hNext _ hValue (loading store).2
  refine ⟨hGood, added ++ added', fun items hItems => ?_, hStore'.trans ?_⟩
  · exact (Array.mem_append.mp hItems).elim (hAdded items) (hAdded' items)
  · rw [hStore]
    simp only [Store.withLists, Array.append_assoc]

/-- Items of a source become a list of the store, and the value refers to it. -/
theorem loads_cell {values : List Value} (h : Value.AllSourcedCode values) :
    Loads (fun items => (Value.list items).Sourced) (Loading.cell values) := by
  intro store
  refine ⟨trivial, #[values], fun items hItems => ?_, ?_⟩
  · rw [Array.mem_singleton.mp hItems]
    exact h
  · rw [Store.withLists, ← Array.push_eq_append]
    rfl

end

mutual

/-- Only a written list of a source is moved to the store. Other values of a source stay as they
are. -/
theorem Value.loads_load {value : Value} (h : value.Sourced) :
    Loads Value.Sourced value.load := by
  match value, h with
  | .nothing, _ | .bool _, _ | .int _, _ | .float _, _ | .str _, _ =>
      unfold Value.load
      exact loads_pure trivial
  | .list (.cell place), _ =>
      unfold Value.load Items.load
      exact loads_pure trivial
  | .list (.constant values), h =>
      unfold Value.load Items.load
      exact loads_bind (loads_bind (Value.loads_loadAll h) fun _ => loads_cell)
        fun _ => loads_pure

theorem Value.loads_code {value : Value} (h : value.SourcedCode) :
    Loads Value.SourcedCode value.load := by
  match value, h with
  | .code e, h =>
      unfold Value.load
      exact loads_bind (Expr.loads_load h) fun _ => loads_pure

theorem Value.loads_loadAll {values : List Value} (h : Value.AllSourcedCode values) :
    Loads Value.AllSourcedCode (Value.loadAll values) := by
  match values, h with
  | [], _ =>
      unfold Value.loadAll
      exact loads_pure trivial
  | value :: rest, ⟨hFirst, hRest⟩ =>
      unfold Value.loadAll
      exact loads_bind (Value.loads_code hFirst) fun _ hFirst =>
        loads_bind (Value.loads_loadAll hRest) fun _ hRest => loads_pure ⟨hFirst, hRest⟩

/-- An expression of a source stays one when its lists are moved to the store. -/
theorem Expr.loads_load {e : Expr} (h : e.Sourced) : Loads Expr.Sourced e.load := by
  match e, h with
  | .base, h | .stray _, h | .variable _ _, h | .this _, h | .super _ _, h =>
      unfold Expr.load
      exact loads_pure h
  | .literal value token, ⟨hValue, hToken⟩ =>
      unfold Expr.load
      exact loads_bind (Value.loads_load hValue) fun _ hValue => loads_pure ⟨hValue, hToken⟩
  | .binary left operator right, ⟨hLeft, hOperator, hRight⟩ =>
      unfold Expr.load
      exact loads_bind (Expr.loads_load hLeft) fun _ hLeft =>
        loads_bind (Expr.loads_load hRight) fun _ hRight => loads_pure ⟨hLeft, hOperator, hRight⟩
  | .unary operator right, ⟨hOperator, hRight⟩ =>
      unfold Expr.load
      exact loads_bind (Expr.loads_load hRight) fun _ hRight => loads_pure ⟨hOperator, hRight⟩
  | .call callee arguments token, ⟨hCallee, hArguments, hToken⟩ =>
      unfold Expr.load
      exact loads_bind (Expr.loads_load hCallee) fun _ hCallee =>
        loads_bind (Expr.loads_loadAll hArguments) fun _ hArguments =>
          loads_pure ⟨hCallee, hArguments, hToken⟩
  | .get object name token, ⟨hObject, hToken⟩ =>
      unfold Expr.load
      exact loads_bind (Expr.loads_load hObject) fun _ hObject => loads_pure ⟨hObject, hToken⟩
  | .set object name value token, ⟨hObject, hValue, hToken⟩ =>
      unfold Expr.load
      exact loads_bind (Expr.loads_load hObject) fun _ hObject =>
        loads_bind (Expr.loads_load hValue) fun _ hValue => loads_pure ⟨hObject, hValue, hToken⟩

theorem Expr.loads_loadAll {es : List Expr} (h : Expr.AllSourced es) :
    Loads Expr.AllSourced (Expr.loadAll es) := by
  match es, h with
  | [], _ =>
      unfold Expr.loadAll
      exact loads_pure trivial
  | e :: rest, ⟨hFirst, hRest⟩ =>
      unfold Expr.loadAll
      exact loads_bind (Expr.loads_load hFirst) fun _ hFirst =>
        loads_bind (Expr.loads_loadAll hRest) fun _ hRest => loads_pure ⟨hFirst, hRest⟩

end

/-- The placeholder has no lists and stays as it is. -/
theorem Expr.loads_runnable {e : Expr} (h : e.Runnable) : Loads Expr.Runnable e.load := by
  rcases h with hSourced | ⟨token, rfl⟩
  · intro store
    obtain ⟨hLoaded, hAdded⟩ := Expr.loads_load hSourced store
    exact ⟨hLoaded.runnable, hAdded⟩
  · unfold Expr.load Value.load
    exact loads_pure (Or.inr ⟨token, rfl⟩)

theorem Expr.loads_load? {e : Option Expr} (h : ∀ e' ∈ e, e'.Runnable) :
    Loads (fun loaded => ∀ e' ∈ loaded, e'.Runnable) (Expr.load? e) := by
  cases e with
  | none => exact loads_pure h
  | some e =>
      refine loads_bind (Expr.loads_runnable (h e rfl)) fun loaded hLoaded => loads_pure ?_
      rintro _ ⟨⟩
      exact hLoaded

/-- A declaration keeps its type, so that no array type comes in. -/
theorem VarDecl.loads_load {decl : VarDecl} (h : decl.Sourced) :
    Loads VarDecl.Sourced decl.load :=
  loads_bind (Expr.loads_load? h.initializer) fun _ hLoaded => loads_pure ⟨hLoaded, h.type⟩

theorem VarDecl.loads_loadAll {decls : List VarDecl} (h : ∀ decl ∈ decls, decl.Sourced) :
    Loads (fun loaded => ∀ decl ∈ loaded, decl.Sourced) (VarDecl.loadAll decls) := by
  induction decls with
  | nil => exact loads_pure h
  | cons decl rest ih =>
      obtain ⟨hFirst, hRest⟩ := List.forall_mem_cons.mp h
      exact loads_bind (VarDecl.loads_load hFirst) fun _ hFirst => loads_bind (ih hRest)
        fun _ hRest => loads_pure (List.forall_mem_cons.mpr ⟨hFirst, hRest⟩)

/-- A statement that is loaded stays a declaration or none. -/
def Stmt.LoadedFrom (stmt loaded : Stmt) : Prop :=
  loaded.Sourced ∧ loaded.isDeclaration = stmt.isDeclaration

mutual

theorem FunDecl.loads_load {decl : FunDecl} (h : decl.Sourced) :
    Loads FunDecl.Sourced decl.load := by
  match decl, h with
  | ⟨_, _, body, _⟩, h =>
      unfold FunDecl.load
      exact loads_bind (Stmt.loads_loadAll h) fun _ => loads_pure

theorem FunDecl.loads_loadAll {decls : List FunDecl} (h : FunDecl.AllSourced decls) :
    Loads FunDecl.AllSourced (FunDecl.loadAll decls) := by
  match decls, h with
  | [], _ =>
      unfold FunDecl.loadAll
      exact loads_pure trivial
  | decl :: rest, ⟨hFirst, hRest⟩ =>
      unfold FunDecl.loadAll
      exact loads_bind (FunDecl.loads_load hFirst) fun _ hFirst =>
        loads_bind (FunDecl.loads_loadAll hRest) fun _ hRest => loads_pure ⟨hFirst, hRest⟩

/-- A statement of a source stays one, and no declaration comes to stand in a branch or a loop. -/
theorem Stmt.loads_load {stmt : Stmt} (h : stmt.Sourced) :
    Loads stmt.LoadedFrom stmt.load := by
  match stmt, h with
  | .expression e, h =>
      unfold Stmt.load
      exact loads_bind (Expr.loads_runnable h) fun _ hLoaded => loads_pure ⟨hLoaded, rfl⟩
  | .varDecl decl, h =>
      unfold Stmt.load
      exact loads_bind (VarDecl.loads_load h) fun _ hLoaded => loads_pure ⟨hLoaded, rfl⟩
  | .funDecl decl, h =>
      unfold Stmt.load
      exact loads_bind (FunDecl.loads_load h) fun _ hLoaded => loads_pure ⟨hLoaded, rfl⟩
  | .classDecl _ _ fields methods _, ⟨hFields, hMethods⟩ =>
      unfold Stmt.load
      exact loads_bind (VarDecl.loads_loadAll hFields) fun _ hFields =>
        loads_bind (FunDecl.loads_loadAll hMethods) fun _ hMethods =>
          loads_pure ⟨⟨hFields, hMethods⟩, rfl⟩
  | .block body, h =>
      unfold Stmt.load
      exact loads_bind (Stmt.loads_loadAll h) fun _ hLoaded => loads_pure ⟨hLoaded, rfl⟩
  | .branch condition thenBranch elseBranch, ⟨hCondition, ⟨hThen, hPlain⟩, hElse⟩ =>
      unfold Stmt.load
      exact loads_bind (Expr.loads_runnable hCondition) fun _ hCondition =>
        loads_bind (Stmt.loads_load hThen) fun _ hThen =>
          loads_bind (Stmt.loads_load? hElse) fun _ hElse =>
            loads_pure ⟨⟨hCondition, ⟨hThen.1, hThen.2.trans hPlain⟩, hElse⟩, rfl⟩
  | .loop condition body, ⟨hCondition, hBody, hPlain⟩ =>
      unfold Stmt.load
      exact loads_bind (Expr.loads_runnable hCondition) fun _ hCondition =>
        loads_bind (Stmt.loads_load hBody) fun _ hBody =>
          loads_pure ⟨⟨hCondition, hBody.1, hBody.2.trans hPlain⟩, rfl⟩
  | .ret value token, h =>
      unfold Stmt.load
      exact loads_bind (Expr.loads_load? h) fun _ hValue => loads_pure ⟨hValue, rfl⟩

theorem Stmt.loads_load? {stmt : Option Stmt} (h : Stmt.Sourced? stmt) :
    Loads Stmt.Sourced? (Stmt.load? stmt) := by
  match stmt, h with
  | none, _ =>
      unfold Stmt.load?
      exact loads_pure trivial
  | some stmt, ⟨hStmt, hPlain⟩ =>
      unfold Stmt.load?
      exact loads_bind (Stmt.loads_load hStmt) fun _ hLoaded =>
        loads_pure ⟨hLoaded.1, hLoaded.2.trans hPlain⟩

theorem Stmt.loads_loadAll {stmts : List Stmt} (h : Stmt.AllSourced stmts) :
    Loads Stmt.AllSourced (Stmt.loadAll stmts) := by
  match stmts, h with
  | [], _ =>
      unfold Stmt.loadAll
      exact loads_pure trivial
  | stmt :: rest, ⟨hFirst, hRest⟩ =>
      unfold Stmt.loadAll
      exact loads_bind (Stmt.loads_load hFirst) fun _ hFirst =>
        loads_bind (Stmt.loads_loadAll hRest) fun _ hRest => loads_pure ⟨hFirst.1, hRest⟩

end

/-- A machine on which something has been loaded. -/
theorem Machine.Sourced.withLists {machine : Machine} (h : machine.Sourced)
    {added : Array (List Value)} (hAdded : ∀ items ∈ added, Value.AllSourcedCode items) :
    (machine.withLists added).Sourced := by
  refine ⟨⟨h.store.bindings, h.store.defaults, fun items hItems => ?_, h.store.global⟩, h.locals,
    h.globals⟩
  exact (Array.mem_append.mp hItems).elim (h.store.cells items) (hAdded items)

end Mus
