import Mus.Proofs.Machine.Data
import Mus.Proofs.Token.Scanned

/-! Programs as they come from sources. Their values refer to no function, class or
object, not even in the literals of the tokens that their lists are made of, and
what a branch or a loop executes is never a declaration of its own. A machine that
has only run such programs holds such values only. -/
namespace Mus

/-! ## Expressions and values -/

mutual

/-- Nothing, a truth value, a number, a text, or a list of expressions of a source. -/
def Value.Sourced : Value → Prop
  | .nothing | .bool _ | .int _ | .float _ | .str _ => True
  | .list (.cell _) => True
  | .list (.constant values) => Value.AllSourcedCode values
  | _ => False

def Value.SourcedCode : Value → Prop
  | .code e => e.Sourced
  | _ => False

def Value.AllSourcedCode : List Value → Prop
  | [] => True
  | value :: rest => value.SourcedCode ∧ Value.AllSourcedCode rest

/-- The literals and the tokens of the expression are those of a source. -/
def Expr.Sourced : Expr → Prop
  | .base | .stray _ => True
  | .literal value token => value.Sourced ∧ token.Plain
  | .variable _ token | .this token | .super _ token => token.Plain
  | .binary left operator right => left.Sourced ∧ operator.Plain ∧ right.Sourced
  | .unary operator right => operator.Plain ∧ right.Sourced
  | .call callee arguments token => callee.Sourced ∧ Expr.AllSourced arguments ∧ token.Plain
  | .get object _ token => object.Sourced ∧ token.Plain
  | .set object _ value token => object.Sourced ∧ value.Sourced ∧ token.Plain

def Expr.AllSourced : List Expr → Prop
  | [] => True
  | e :: rest => e.Sourced ∧ Expr.AllSourced rest

end

/-- An expression of a source, or the placeholder of what was not understood. -/
def Expr.Runnable (e : Expr) : Prop :=
  e.Sourced ∨ ∃ token, e = .literal .nothing token

theorem Expr.Sourced.runnable {e : Expr} (h : e.Sourced) : e.Runnable := Or.inl h

/-- A token of a source can be a key. -/
theorem Token.Plain.keyFault?_eq {token : Token} (h : token.Plain) : token.keyFault? = none := by
  obtain ⟨kind, lexeme, literal, line, column⟩ := token
  cases literal with
  | nothing | bool | int | str => rfl
  | _ => exact absurd h id

theorem Value.Plain.sourced {value : Value} (h : value.Plain) : value.Sourced := by
  cases value with
  | nothing | bool | int | str => exact trivial
  | _ => exact absurd h id

theorem Value.IsScalar.sourced {value : Value} (h : value.IsScalar) : value.Sourced := by
  cases value with
  | nothing | bool | int | float | str => exact trivial
  | _ => exact absurd h id

/-! Values and expressions of a source are data and tame. -/

mutual

/-- Values of a source are data, and their expressions are tame. By induction over both. -/
theorem Value.Sourced.isData : {value : Value} → value.Sourced → value.IsData
  | .nothing, _ | .bool _, _ | .int _, _ | .float _, _ | .str _, _ | .list (.cell _), _ => trivial
  | .list (.constant _), h => Value.AllSourcedCode.allCode h

theorem Value.AllSourcedCode.allCode : {values : List Value} → Value.AllSourcedCode values →
    Value.AllCode values
  | [], _ => trivial
  | .code _ :: _, ⟨hFirst, hRest⟩ => ⟨Expr.Sourced.tame hFirst, Value.AllSourcedCode.allCode hRest⟩

/-- Expressions of a source have data as literals, and their names can be looked for. -/
theorem Expr.Sourced.tame : {e : Expr} → e.Sourced → e.Tame
  | .base, _ | .stray _, _ => trivial
  | .literal _ _, h => Value.Sourced.isData h.1
  | .variable _ _, h | .this _, h | .super _ _, h => Token.Plain.keyFault?_eq h
  | .binary _ _ _, h => ⟨Expr.Sourced.tame h.1, Expr.Sourced.tame h.2.2⟩
  | .unary _ right, h => Expr.Sourced.tame (e := right) h.2
  | .call _ _ _, h => ⟨Expr.Sourced.tame h.1, Expr.AllSourced.allTame h.2.1⟩
  | .get object _ _, h => Expr.Sourced.tame (e := object) h.1
  | .set _ _ _ _, h => ⟨Expr.Sourced.tame h.1, Expr.Sourced.tame h.2.1⟩

theorem Expr.AllSourced.allTame : {es : List Expr} → Expr.AllSourced es → Expr.AllTame es
  | [], _ => trivial
  | _ :: _, ⟨hFirst, hRest⟩ => ⟨Expr.Sourced.tame hFirst, Expr.AllSourced.allTame hRest⟩

end

theorem Expr.Runnable.tame {e : Expr} (h : e.Runnable) : e.Tame := by
  rcases h with hSourced | ⟨token, rfl⟩
  · exact hSourced.tame
  · exact trivial

/-- What is said of a list by way of its first item and the rest holds of all items. -/
theorem forall_mem_of_cons {α : Type} {good : α → Prop} {allGood : List α → Prop}
    (hCons : ∀ first rest, allGood (first :: rest) → good first ∧ allGood rest) {items : List α}
    (h : allGood items) : ∀ item ∈ items, good item := by
  induction items with
  | nil => exact fun _ hItem => nomatch hItem
  | cons first rest ih =>
      obtain ⟨hFirst, hRest⟩ := hCons first rest h
      exact List.forall_mem_cons.mpr ⟨hFirst, ih hRest⟩

theorem Value.AllSourcedCode.of_mem {values : List Value} (h : Value.AllSourcedCode values) :
    ∀ value ∈ values, value.SourcedCode :=
  forall_mem_of_cons (fun _ _ => id) h

theorem Expr.AllSourced.of_mem {es : List Expr} (h : Expr.AllSourced es) : ∀ e ∈ es, e.Sourced :=
  forall_mem_of_cons (fun _ _ => id) h

/-- Expressions of a source as the items of an array literal. -/
theorem Value.allSourcedCode_map {es : List Expr} (h : Expr.AllSourced es) :
    Value.AllSourcedCode (es.map .code) := by
  induction es with
  | nil => exact trivial
  | cons e rest ih => exact ⟨h.1, ih h.2⟩

/-! ## Statements -/

def Stmt.isDeclaration : Stmt → Bool
  | .varDecl _ | .funDecl _ | .classDecl .. => true
  | _ => false

/-- The variable starts with what a source says and is of no array type. -/
structure VarDecl.Sourced (decl : VarDecl) : Prop where
  initializer : ∀ e ∈ decl.initializer, e.Runnable
  type : Run.elementType? decl.typeName = none

/-- A variable with an initializer of a source and no array type. -/
theorem VarDecl.Sourced.initialized {name type : String} {e : Expr} {token : Token}
    (h : e.Sourced) (hType : Run.elementType? type = none) :
    VarDecl.Sourced ⟨name, type, some e, token⟩ := by
  refine ⟨fun start hStart => ?_, hType⟩
  cases hStart
  exact h.runnable

mutual

def FunDecl.Sourced : FunDecl → Prop
  | ⟨_, _, body, _⟩ => Stmt.AllSourced body

def FunDecl.AllSourced : List FunDecl → Prop
  | [] => True
  | decl :: rest => decl.Sourced ∧ FunDecl.AllSourced rest

/-- The expressions of the statement are those of a source, declarations stand in
blocks only and not directly in a branch or a loop, and there is no loop over a
list. -/
def Stmt.Sourced : Stmt → Prop
  | .base | .stray _ | .each _ _ _ => False
  | .expression e => e.Runnable
  | .varDecl decl => decl.Sourced
  | .funDecl decl => decl.Sourced
  | .classDecl _ _ fields methods _ =>
      (∀ field ∈ fields, field.Sourced) ∧ FunDecl.AllSourced methods
  | .block body => Stmt.AllSourced body
  | .branch condition thenBranch elseBranch =>
      condition.Runnable ∧ (thenBranch.Sourced ∧ thenBranch.isDeclaration = false) ∧
        Stmt.Sourced? elseBranch
  | .loop condition body => condition.Runnable ∧ body.Sourced ∧ body.isDeclaration = false
  | .ret value _ => ∀ e ∈ value, e.Runnable

/-- The alternative of a branch comes from a source and is no declaration, or it is
missing. -/
def Stmt.Sourced? : Option Stmt → Prop
  | none => True
  | some stmt => stmt.Sourced ∧ stmt.isDeclaration = false

def Stmt.AllSourced : List Stmt → Prop
  | [] => True
  | stmt :: rest => stmt.Sourced ∧ Stmt.AllSourced rest

end

theorem Stmt.AllSourced.of_mem {body : List Stmt} (h : Stmt.AllSourced body) :
    ∀ stmt ∈ body, stmt.Sourced :=
  forall_mem_of_cons (fun _ _ => id) h

theorem FunDecl.AllSourced.of_mem {decls : List FunDecl} (h : FunDecl.AllSourced decls) :
    ∀ decl ∈ decls, decl.Sourced :=
  forall_mem_of_cons (fun _ _ => id) h

theorem Stmt.allSourced_append {first second : List Stmt} (hFirst : Stmt.AllSourced first)
    (hSecond : Stmt.AllSourced second) : Stmt.AllSourced (first ++ second) := by
  induction first with
  | nil => exact hSecond
  | cons stmt rest ih => exact ⟨hFirst.1, ih hFirst.2⟩

/-! ## Stores and machines -/

/-- All variables, defaults of fields and lists are of sources, and there is a
global scope. -/
structure Store.Sourced (store : Store) : Prop where
  bindings : ∀ scope ∈ store.scopes, ∀ entry ∈ scope.bindings, entry.2.2.Sourced
  defaults : ∀ classDef ∈ store.classes, ∀ entry ∈ classDef.fields, entry.2.2.Sourced
  cells : ∀ items ∈ store.cells, Value.AllSourcedCode items
  global : 0 < store.scopes.size

/-- The store is that of sources, nothing is noted in the resolution table, and the
global scope is the first one. -/
structure Machine.Sourced (machine : Machine) : Prop where
  store : machine.store.Sourced
  locals : machine.locals = []
  globals : machine.globals = 0

/-- A store of sources holds data. -/
theorem Store.Sourced.holdsData {store : Store} (h : store.Sourced) : store.HoldsData :=
  ⟨fun scope hScope entry hEntry => (h.bindings scope hScope entry hEntry).isData,
    fun classDef hClass entry hEntry => (h.defaults classDef hClass entry hEntry).isData,
    fun items hItems => (h.cells items hItems).allCode⟩

/-- A machine of sources is tame. -/
theorem Machine.Sourced.tame {machine : Machine} (h : machine.Sourced) : machine.Tame :=
  ⟨h.store.holdsData, h.locals, h.globals⟩

/-- A new machine is one of sources: it holds nothing but the builtin functions. -/
theorem Machine.sourced_initial : Machine.initial.Sourced := by
  refine ⟨⟨?_, ?_, ?_, by decide⟩, rfl, rfl⟩
  · intro scope hScope entry hEntry
    simp only [Machine.initial, List.mem_toArray, List.mem_singleton] at hScope
    subst hScope
    cases hEntry
  · intro classDef hClass
    simp [Machine.initial] at hClass
  · intro items hItems
    simp [Machine.initial] at hItems

end Mus
