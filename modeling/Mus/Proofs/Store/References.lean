import Mus.Store.Text

/-! What values and syntax trees refer to in a store. A value refers to functions,
classes, objects and cells, never to a scope, and a syntax tree refers to what the
values of its literals and tokens refer to. Trees that come from a source refer to
nothing. -/
namespace Mus

/-! ## Entries of tables -/

/-- Whatever a table holds after an insertion is the new value or was there before. -/
theorem Table.snd_mem_insert {α : Type} {name : String} {value : α} {table : Table α}
    {entry : String × α} (h : entry ∈ table.insert name value) :
    entry.2 = value ∨ entry ∈ table := by
  induction table with
  | nil =>
      left
      rw [List.mem_singleton.mp h]
  | cons head rest ih =>
      obtain ⟨key, old⟩ := head
      unfold Table.insert at h
      split at h
      · rcases List.mem_cons.mp h with rfl | hRest
        · exact Or.inl rfl
        · exact Or.inr (List.mem_cons_of_mem _ hRest)
      · rcases List.mem_cons.mp h with rfl | hRest
        · exact Or.inr (List.mem_cons_self ..)
        · exact (ih hRest).imp id (List.mem_cons_of_mem _)

theorem Table.mem_of_find? {α : Type} {table : Table α} {name : String} {entry : α}
    (h : table.find? name = some entry) : (name, entry) ∈ table := by
  obtain ⟨front, back, rfl, -⟩ := List.lookup_eq_some_iff.mp h
  simp

/-! ## References -/

def Store.Place.isScope : Store.Place → Bool
  | .scope _ => true
  | _ => false

mutual

/-- The places that a value refers to. -/
def Value.places : Value → List Store.Place
  | .list items | .array items _ => items.places
  | .box _ inner => inner.places
  | .function place => [.function place]
  | .classDef place => [.classDef place]
  | .object place => [.object place]
  | .code e => e.places
  | .nothing | .bool _ | .int _ | .float _ | .str _ => []

/-- The places that the items of a list refer to; for a cell, the cell. -/
def Items.places : Items → List Store.Place
  | .constant values => Value.placesAll values
  | .cell place => [.cell place]

def Value.placesAll : List Value → List Store.Place
  | [] => []
  | value :: rest => value.places ++ Value.placesAll rest

def Token.places : Token → List Store.Place
  | ⟨_, _, literal, _, _⟩ => literal.places

def Expr.places : Expr → List Store.Place
  | .base | .stray _ => []
  | .literal value token => value.places ++ token.places
  | .variable _ token | .this token | .super _ token => token.places
  | .binary left operator right => left.places ++ (operator.places ++ right.places)
  | .unary operator right => operator.places ++ right.places
  | .call callee arguments token => callee.places ++ (Expr.placesAll arguments ++ token.places)
  | .get object _ token => object.places ++ token.places
  | .set object _ value token => object.places ++ (value.places ++ token.places)

def Expr.placesAll : List Expr → List Store.Place
  | [] => []
  | e :: rest => e.places ++ Expr.placesAll rest

end

def Expr.places? : Option Expr → List Store.Place
  | none => []
  | some e => e.places

def VarDecl.places (decl : VarDecl) : List Store.Place :=
  Expr.places? decl.initializer ++ decl.token.places

def VarDecl.placesAll (decls : List VarDecl) : List Store.Place :=
  decls.flatMap VarDecl.places

mutual

def FunDecl.places : FunDecl → List Store.Place
  | ⟨_, _, body, token⟩ => Stmt.placesAll body ++ token.places

def FunDecl.placesAll : List FunDecl → List Store.Place
  | [] => []
  | decl :: rest => decl.places ++ FunDecl.placesAll rest

def Stmt.places : Stmt → List Store.Place
  | .base => []
  | .stray e | .expression e => e.places
  | .varDecl decl => decl.places
  | .funDecl decl => decl.places
  | .classDecl _ _ fields methods token =>
      VarDecl.placesAll fields ++ (FunDecl.placesAll methods ++ token.places)
  | .block body => Stmt.placesAll body
  | .branch condition thenBranch elseBranch =>
      condition.places ++ (thenBranch.places ++ Stmt.places? elseBranch)
  | .loop condition body => condition.places ++ body.places
  | .each _ iterable body => iterable.places ++ body.places
  | .ret value token => Expr.places? value ++ token.places

def Stmt.places? : Option Stmt → List Store.Place
  | none => []
  | some stmt => stmt.places

def Stmt.placesAll : List Stmt → List Store.Place
  | [] => []
  | stmt :: rest => stmt.places ++ Stmt.placesAll rest

end

theorem Value.placesAll_eq (values : List Value) :
    Value.placesAll values = values.flatMap Value.places := by
  induction values with
  | nil => rfl
  | cons value rest ih => rw [Value.placesAll, ih, List.flatMap_cons]

theorem Expr.placesAll_eq (es : List Expr) : Expr.placesAll es = es.flatMap Expr.places := by
  induction es with
  | nil => rfl
  | cons e rest ih => rw [Expr.placesAll, ih, List.flatMap_cons]

theorem Stmt.placesAll_eq (body : List Stmt) :
    Stmt.placesAll body = body.flatMap Stmt.places := by
  induction body with
  | nil => rfl
  | cons stmt rest ih => rw [Stmt.placesAll, ih, List.flatMap_cons]

theorem FunDecl.placesAll_eq (decls : List FunDecl) :
    FunDecl.placesAll decls = decls.flatMap FunDecl.places := by
  induction decls with
  | nil => rfl
  | cons decl rest ih => rw [FunDecl.placesAll, ih, List.flatMap_cons]

/-! ## What the parts of a store refer to

The scopes that they refer to are not among these places: a scope has its parent, a
function its closure, a class and an object their scope. -/

def Table.places {α : Type} (places : α → List Store.Place) (table : Table α) :
    List Store.Place :=
  table.flatMap fun entry => places entry.2

/-- The places that a scope refers to by its names. -/
def Scope.places (scope : Scope) : List Store.Place :=
  scope.bindings.places (·.2.places) ++
    (scope.functions.places ([.function ·]) ++ scope.classes.places ([.classDef ·]))

def Function.places (function : Function) : List Store.Place :=
  Stmt.placesAll function.body

def ClassDef.places (classDef : ClassDef) : List Store.Place :=
  classDef.fields.places (·.2.places) ++
    (classDef.methods.places ([.function ·]) ++ classDef.parent.toList.map .classDef)

def Object.places (object : Object) : List Store.Place :=
  .classDef object.classDef :: object.fields.places Value.places

/-! ## Names that are looked up

Each with the number of scopes that are opened on the way to it, which the distance
that a resolution table notes for it is to be compared with. -/

mutual

/-- The parts of an expression that are looked for in the resolution table when it is
evaluated. An expression opens no scope. -/
def Expr.names : Expr → List (Nat × Expr)
  | .variable name token => [(0, .variable name token)]
  | .this token => [(0, .this token)]
  | .super method token => [(0, .super method token)]
  | .binary left _ right => left.names ++ right.names
  | .unary _ right => right.names
  | .call callee arguments _ => callee.names ++ Expr.namesAll arguments
  | .get object _ _ => object.names
  | .set object _ value _ => object.names ++ value.names
  | .base | .stray _ | .literal .. => []

def Expr.namesAll : List Expr → List (Nat × Expr)
  | [] => []
  | e :: rest => e.names ++ Expr.namesAll rest

end

def Expr.names? : Option Expr → List (Nat × Expr)
  | none => []
  | some e => e.names

def VarDecl.namesAll (decls : List VarDecl) : List (Nat × Expr) :=
  decls.flatMap fun decl => Expr.names? decl.initializer

/-- Names as they are seen from the scope around. -/
def deeper (names : List (Nat × Expr)) : List (Nat × Expr) :=
  names.map fun name => (name.1 + 1, name.2)

mutual

/-- The names that are looked up when a statement is executed. The body of a function
is not executed where it is declared. -/
def Stmt.names : Stmt → List (Nat × Expr)
  | .expression e => e.names
  | .varDecl decl => Expr.names? decl.initializer
  | .classDecl _ _ fields _ _ => VarDecl.namesAll fields
  | .block body => deeper (Stmt.namesAll body)
  | .branch condition thenBranch elseBranch =>
      condition.names ++ (thenBranch.names ++ Stmt.names? elseBranch)
  | .loop condition body => condition.names ++ body.names
  | .each _ iterable body => iterable.names ++ deeper body.names
  | .ret value _ => Expr.names? value
  | .base | .stray _ | .funDecl _ => []

def Stmt.names? : Option Stmt → List (Nat × Expr)
  | none => []
  | some stmt => stmt.names

def Stmt.namesAll : List Stmt → List (Nat × Expr)
  | [] => []
  | stmt :: rest => stmt.names ++ Stmt.namesAll rest

end

/-! ## What scopes can be searched for -/

/-- A variable of some name, or classes. -/
inductive Sought where
  | binding (name : String)
  | classes
deriving DecidableEq, Repr

def Scope.Lacks (scope : Scope) : Sought → Prop
  | .binding name => scope.bindings.find? name = none
  | .classes => scope.classes = []

mutual

/-- What a statement can put into the scope that it is executed in. Classes count wherever
they are declared, since a look-up goes outwards. -/
def Stmt.defines : Stmt → List Sought
  | .varDecl decl => [.binding decl.name]
  | .classDecl .. => [.classes]
  | .block body => (Stmt.definesAll body).filter (· = .classes)
  | .branch _ thenBranch elseBranch => thenBranch.defines ++ Stmt.defines? elseBranch
  | .loop _ body => body.defines
  | .each _ _ body => body.defines.filter (· = .classes)
  | .base | .stray _ | .expression _ | .funDecl _ | .ret .. => []

def Stmt.defines? : Option Stmt → List Sought
  | none => []
  | some stmt => stmt.defines

def Stmt.definesAll : List Stmt → List Sought
  | [] => []
  | stmt :: rest => stmt.defines ++ Stmt.definesAll rest

end

end Mus
