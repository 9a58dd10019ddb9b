import Mus.Number.Basic
import Mus.Store.Object
import Mus.Syntax.Names

/-! Equality of values. Truth values count as zero and one, numbers compare by
value, composite values part by part. What lives at one place is equal to
itself. A comparison that nests too deep, as one of objects that hold
themselves does, has no answer. -/
namespace Mus

def Value.number? : Value → Option Number
  | .bool b => some (.int (if b then 1 else 0))
  | .int n => some (.int n)
  | .float x => some (.float x)
  | _ => none

namespace Store

/-- Both answers in turn; the second is not asked for when the first is no. -/
def both (first : Option Bool) (second : Unit → Option Bool) : Option Bool :=
  match first with
  | some true => second ()
  | other => other

/-- Compares two lists item by item. -/
def equalAll {α : Type} (equal : α → α → Option Bool) : List α → List α → Option Bool
  | [], [] => some true
  | a :: as, b :: bs => both (equal a b) fun _ => equalAll equal as bs
  | _, _ => some false

/-- Compares two lists, which differ if their lengths do. -/
def equalList {α : Type} (equal : α → α → Option Bool) (as bs : List α) : Option Bool :=
  if as.length = bs.length then equalAll equal as bs else some false

/-- Compares the entries of a table with those of the same names in another. -/
def equalEntries {α : Type} (equal : α → α → Option Bool) (other : Table α) :
    Table α → Option Bool
  | [] => some true
  | (name, entry) :: rest =>
      match other.find? name with
      | some found => both (equal entry found) fun _ => equalEntries equal other rest
      | none => some false

/-- Compares two tables by name, in the order of the first. -/
def equalTable {α : Type} (equal : α → α → Option Bool) (left right : Table α) : Option Bool :=
  if left.length = right.length then equalEntries equal right left else some false

/-- Compares what may be missing. -/
def equalOption {α : Type} (equal : α → α → Option Bool) : Option α → Option α → Option Bool
  | none, none => some true
  | some a, some b => equal a b
  | _, _ => some false

/-- Compares two places: one place is equal to itself. -/
def equalPlace (equal : Nat → Nat → Option Bool) (a b : Nat) : Option Bool :=
  if a = b then some true else equal a b

mutual

/-- Equality of values. -/
def equalValue (store : Store) : Nat → Value → Value → Option Bool
  | 0, _, _ => none
  | depth + 1, a, b =>
      match a, b with
      | .nothing, .nothing => some true
      | .str s, .str t => some (s == t)
      | .list items, .list others => store.equalItems depth items others
      | .array items element, .array others other =>
          both (store.equalItems depth items others) fun _ => some (element == other)
      | .box kind inner, .box other value =>
          if kind = other then store.equalValue depth inner value else some false
      | .function f, .function g => equalPlace (store.equalFunction depth) f g
      | .classDef c, .classDef d => equalPlace (store.equalClass depth) c d
      | .object o, .object p => equalPlace (store.equalObject depth) o p
      | .code e, .code f => store.equalExpr depth e f
      | a, b =>
          match a.number?, b.number? with
          | some m, some n => some (m.compare? n == some .eq)
          | _, _ => some false

def equalItems (store : Store) : Nat → Items → Items → Option Bool
  | 0, _, _ => none
  | depth + 1, .cell a, .cell b =>
      equalPlace (fun a b => equalList (store.equalValue depth) (store.cell a) (store.cell b)) a b
  | depth + 1, items, others =>
      equalList (store.equalValue depth) (store.items items) (store.items others)

def equalToken (store : Store) : Nat → Token → Token → Option Bool
  | 0, _, _ => none
  | depth + 1, a, b =>
      if a.kind = b.kind ∧ a.lexeme = b.lexeme then
        both (store.equalValue depth a.literal b.literal) fun _ =>
          some (a.line == b.line && a.column == b.column)
      else some false

def equalExpr (store : Store) : Nat → Expr → Expr → Option Bool
  | 0, _, _ => none
  | depth + 1, a, b =>
      match a, b with
      | .base, .base => some true
      | .stray kind, .stray other => some (kind == other)
      | .literal v t, .literal w u =>
          both (store.equalValue depth v w) fun _ => store.equalToken depth t u
      | .variable m t, .variable n u =>
          both (some (m == n)) fun _ => store.equalToken depth t u
      | .this t, .this u => store.equalToken depth t u
      | .super m t, .super n u =>
          both (some (m == n)) fun _ => store.equalToken depth t u
      | .binary l o r, .binary m p s =>
          both (store.equalExpr depth l m) fun _ =>
            both (store.equalToken depth o p) fun _ => store.equalExpr depth r s
      | .unary o r, .unary p s =>
          both (store.equalToken depth o p) fun _ => store.equalExpr depth r s
      | .call f as t, .call g bs u =>
          both (store.equalExpr depth f g) fun _ =>
            both (equalList (store.equalExpr depth) as bs) fun _ => store.equalToken depth t u
      | .get o m t, .get p n u =>
          both (store.equalExpr depth o p) fun _ =>
            both (some (m == n)) fun _ => store.equalToken depth t u
      | .set o m v t, .set p n w u =>
          both (store.equalExpr depth o p) fun _ =>
            both (some (m == n)) fun _ =>
              both (store.equalExpr depth v w) fun _ => store.equalToken depth t u
      | _, _ => some false

def equalVarDecl (store : Store) : Nat → VarDecl → VarDecl → Option Bool
  | 0, _, _ => none
  | depth + 1, a, b =>
      if a.name = b.name ∧ a.typeName = b.typeName then
        both (equalOption (store.equalExpr depth) a.initializer b.initializer) fun _ =>
          store.equalToken depth a.token b.token
      else some false

def equalFunDecl (store : Store) : Nat → FunDecl → FunDecl → Option Bool
  | 0, _, _ => none
  | depth + 1, a, b =>
      if a.name = b.name ∧ a.params = b.params then
        both (equalList (store.equalStmt depth) a.body b.body) fun _ =>
          store.equalToken depth a.token b.token
      else some false

def equalStmt (store : Store) : Nat → Stmt → Stmt → Option Bool
  | 0, _, _ => none
  | depth + 1, a, b =>
      match a, b with
      | .base, .base => some true
      | .stray e, .stray f => store.equalExpr depth e f
      | .expression e, .expression f => store.equalExpr depth e f
      | .varDecl d, .varDecl e => store.equalVarDecl depth d e
      | .funDecl d, .funDecl e => store.equalFunDecl depth d e
      | .classDecl n s f m t, .classDecl n' s' f' m' t' =>
          if n = n' ∧ s = s' then
            both (equalList (store.equalVarDecl depth) f f') fun _ =>
              both (equalList (store.equalFunDecl depth) m m') fun _ => store.equalToken depth t t'
          else some false
      | .block b, .block c => equalList (store.equalStmt depth) b c
      | .branch c t e, .branch c' t' e' =>
          both (store.equalExpr depth c c') fun _ =>
            both (store.equalStmt depth t t') fun _ => equalOption (store.equalStmt depth) e e'
      | .loop c b, .loop c' b' =>
          both (store.equalExpr depth c c') fun _ => store.equalStmt depth b b'
      | .each i e b, .each i' e' b' =>
          both (some (i == i')) fun _ =>
            both (store.equalExpr depth e e') fun _ => store.equalStmt depth b b'
      | .ret v t, .ret v' t' =>
          both (equalOption (store.equalExpr depth) v v') fun _ => store.equalToken depth t t'
      | _, _ => some false

def equalScope (store : Store) : Nat → Nat → Nat → Option Bool
  | 0, _, _ => none
  | depth + 1, a, b =>
      let left := store.scope a
      let right := store.scope b
      both (equalOption (equalPlace (store.equalScope depth)) left.parent right.parent) fun _ =>
        both (equalTable
          (fun x y => both (some (x.1 == y.1)) fun _ => store.equalValue depth x.2 y.2)
          left.bindings right.bindings) fun _ =>
        both (equalTable (equalPlace (store.equalFunction depth)) left.functions right.functions)
          fun _ => equalTable (equalPlace (store.equalClass depth)) left.classes right.classes

def equalFunction (store : Store) : Nat → Nat → Nat → Option Bool
  | 0, _, _ => none
  | depth + 1, a, b =>
      let left := store.function a
      let right := store.function b
      if left.name = right.name ∧ left.params = right.params then
        both (equalList (store.equalStmt depth) left.body right.body) fun _ =>
          both (equalOption (equalPlace (store.equalScope depth)) left.closure right.closure)
            fun _ => some (left.builtin == right.builtin)
      else some false

def equalClass (store : Store) : Nat → Nat → Nat → Option Bool
  | 0, _, _ => none
  | depth + 1, a, b =>
      let left := store.classDef a
      let right := store.classDef b
      if left.name = right.name then
        both (equalTable
          (fun x y => both (some (x.1 == y.1)) fun _ => store.equalValue depth x.2 y.2)
          left.fields right.fields) fun _ =>
        both (equalTable (equalPlace (store.equalFunction depth)) left.methods right.methods)
          fun _ =>
        both (equalOption (equalPlace (store.equalClass depth)) left.parent right.parent) fun _ =>
          equalOption (equalPlace (store.equalScope depth)) left.scope right.scope
      else some false

def equalObject (store : Store) : Nat → Nat → Nat → Option Bool
  | 0, _, _ => none
  | depth + 1, a, b =>
      let left := store.object a
      let right := store.object b
      both (equalPlace (store.equalClass depth) left.classDef right.classDef) fun _ =>
        both (equalTable (store.equalValue depth) left.fields right.fields) fun _ =>
          equalOption (equalPlace (store.equalScope depth)) left.scope right.scope

end

end Store

mutual

/-- The name of the type of the first part of a value that cannot be a key. -/
def Value.keyFault? : Value → Option String
  | .list _ | .array .. => some "list"
  | .function _ => some "MusFunction"
  | .classDef _ => some "MusClass"
  | .object _ => some "MusObject"
  | .box _ inner => inner.keyFault?
  | .code e => e.keyFault?
  | .nothing | .bool _ | .int _ | .float _ | .str _ => none

def Token.keyFault? : Token → Option String
  | ⟨_, _, literal, _, _⟩ => literal.keyFault?

def Expr.keyFault? : Expr → Option String
  | .base => none
  | .stray kind => some kind.nodeName
  | .literal value token => value.keyFault? <|> token.keyFault?
  | .variable _ token | .this token | .super _ token => token.keyFault?
  | .binary left operator right => left.keyFault? <|> operator.keyFault? <|> right.keyFault?
  | .unary operator right => operator.keyFault? <|> right.keyFault?
  | .call callee arguments token =>
      callee.keyFault? <|> Expr.keyFaultAll? arguments <|> token.keyFault?
  | .get object _ token => object.keyFault? <|> token.keyFault?
  | .set object _ value token => object.keyFault? <|> value.keyFault? <|> token.keyFault?

def Expr.keyFaultAll? : List Expr → Option String
  | [] => none
  | e :: rest => e.keyFault? <|> Expr.keyFaultAll? rest

end

end Mus
