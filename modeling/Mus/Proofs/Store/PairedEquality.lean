import Mus.Proofs.Machine.Steady
import Mus.Proofs.Store.PairedLookup

/-! Equality in two stores that correspond. Values, trees and places that values can
lead to are compared alike: which scopes are one and the same does not depend on the
store, and what else is compared is the same in both. -/
namespace Mus.Store

/-! ## Tables and options -/

theorem equalEntries_eq {α : Type} {equal equal' : α → α → Option Bool} {other : Table α} :
    {table : Table α} → (∀ x ∈ table, ∀ y ∈ other, equal x.2 y.2 = equal' x.2 y.2) →
      equalEntries equal other table = equalEntries equal' other table
  | [], _ => rfl
  | (name, entry) :: rest, h => by
      have hRest : equalEntries equal other rest = equalEntries equal' other rest :=
        equalEntries_eq fun x hx => h x (List.mem_cons_of_mem _ hx)
      rw [equalEntries, equalEntries, hRest]
      cases hFound : other.find? name with
      | none => rfl
      | some found =>
          dsimp only
          rw [h _ (List.mem_cons_self ..) _ (Table.mem_of_find? hFound)]

/-- Tables are compared alike if their entries are. -/
theorem equalTable_eq {α : Type} {equal equal' : α → α → Option Bool} {left right : Table α}
    (h : ∀ x ∈ left, ∀ y ∈ right, equal x.2 y.2 = equal' x.2 y.2) :
    equalTable equal left right = equalTable equal' left right := by
  rw [equalTable, equalTable, equalEntries_eq h]

theorem equalOption_eq {α : Type} {equal equal' : α → α → Option Bool} {x y : Option α}
    (h : ∀ a ∈ x, ∀ b ∈ y, equal a b = equal' a b) :
    equalOption equal x y = equalOption equal' x y := by
  cases x with
  | none => cases y <;> rfl
  | some a =>
      cases y with
      | none => rfl
      | some b => exact h a rfl b rfl

/-- Places are compared alike if they are the same places in both stores. -/
theorem equalPlace_eq {equal equal' : Nat → Nat → Option Bool} {a b a' b' : Nat}
    (hSame : a = b ↔ a' = b') (h : equal a b = equal' a' b') :
    equalPlace equal a b = equalPlace equal' a' b' := by
  unfold equalPlace
  by_cases hEq : a = b
  · rw [if_pos hEq, if_pos (hSame.mp hEq)]
  · rw [if_neg hEq, if_neg (mt hSame.mpr hEq), h]

end Mus.Store

namespace Mus.World

open Store

variable {w : World} {a b : Store} {depth : Nat}

/-- The two stores compare alike what values can lead to, down to a depth. -/
structure EqualAlike (w : World) (a b : Store) (depth : Nat) : Prop where
  value {x y : Value} : w.Covers x.places → w.Covers y.places →
    a.equalValue depth x y = b.equalValue depth x y
  items {x y : Items} : w.Covers x.places → w.Covers y.places →
    a.equalItems depth x y = b.equalItems depth x y
  token {x y : Token} : w.Covers x.places → w.Covers y.places →
    a.equalToken depth x y = b.equalToken depth x y
  expr {x y : Expr} : w.Covers x.places → w.Covers y.places →
    a.equalExpr depth x y = b.equalExpr depth x y
  varDecl {x y : VarDecl} : w.Covers x.places → w.Covers y.places →
    a.equalVarDecl depth x y = b.equalVarDecl depth x y
  funDecl {x y : FunDecl} : w.Covers x.places → w.Covers y.places →
    a.equalFunDecl depth x y = b.equalFunDecl depth x y
  stmt {x y : Stmt} : w.Covers x.places → w.Covers y.places →
    a.equalStmt depth x y = b.equalStmt depth x y
  scope {s t s' t' : Nat} : w.Joined s t → w.Joined s' t' →
    a.equalScope depth s s' = b.equalScope depth t t'
  function {x y : Nat} : w.known (.function x) → w.known (.function y) →
    a.equalFunction depth x y = b.equalFunction depth x y
  classDef {x y : Nat} : w.known (.classDef x) → w.known (.classDef y) →
    a.equalClass depth x y = b.equalClass depth x y
  object {x y : Nat} : w.known (.object x) → w.known (.object y) →
    a.equalObject depth x y = b.equalObject depth x y

namespace EqualAlike

/-- At no depth, no comparison has an answer. -/
theorem zero : EqualAlike w a b 0 where
  value _ _ := by rw [equalValue, equalValue]
  items _ _ := by rw [equalItems, equalItems]
  token _ _ := by rw [equalToken, equalToken]
  expr _ _ := by rw [equalExpr, equalExpr]
  varDecl _ _ := by rw [equalVarDecl, equalVarDecl]
  funDecl _ _ := by rw [equalFunDecl, equalFunDecl]
  stmt _ _ := by rw [equalStmt, equalStmt]
  scope _ _ := by rw [equalScope, equalScope]
  function _ _ := by rw [equalFunction, equalFunction]
  classDef _ _ := by rw [equalClass, equalClass]
  object _ _ := by rw [equalObject, equalObject]

/-! ## Values and trees -/

/-- One level deeper: a value compares its parts and the places that it refers to. -/
theorem value_succ (h : EqualAlike w a b depth) {x y : Value} (hx : w.Covers x.places)
    (hy : w.Covers y.places) : a.equalValue (depth + 1) x y = b.equalValue (depth + 1) x y := by
  rw [equalValue.eq_def, equalValue.eq_def]
  dsimp only
  split
  · rfl
  · rfl
  · rw [Value.places] at hx hy
    exact h.items hx hy
  · rw [Value.places] at hx hy
    rw [h.items hx hy]
  · rw [Value.places] at hx hy
    rw [h.value hx hy]
  · rw [Value.places, covers_singleton] at hx hy
    exact equalPlace_eq Iff.rfl (h.function hx hy)
  · rw [Value.places, covers_singleton] at hx hy
    exact equalPlace_eq Iff.rfl (h.classDef hx hy)
  · rw [Value.places, covers_singleton] at hx hy
    exact equalPlace_eq Iff.rfl (h.object hx hy)
  · rw [Value.places] at hx hy
    exact h.expr hx hy
  · rfl

/-- One level deeper: lists compare the items of their cells, which both stores have. -/
theorem items_succ (h : EqualAlike w a b depth) (hMatches : w.Matches a b) {x y : Items}
    (hx : w.Covers x.places) (hy : w.Covers y.places) :
    a.equalItems (depth + 1) x y = b.equalItems (depth + 1) x y := by
  have hList : equalList (a.equalValue depth) (a.items x) (a.items y) =
      equalList (b.equalValue depth) (b.items x) (b.items y) := by
    have hLeft := hMatches.items hx
    have hRight := hMatches.items hy
    rw [Value.placesAll_eq, covers_flatMap] at hLeft hRight
    rw [← hMatches.parallel.items x, ← hMatches.parallel.items y]
    exact equalList_eq fun v hv v' hv' => h.value (hLeft v hv) (hRight v' hv')
  cases x with
  | constant values =>
      unfold equalItems
      exact hList
  | cell place =>
      cases y with
      | constant values =>
          unfold equalItems
          exact hList
      | cell other =>
          rw [equalItems, equalItems]
          exact equalPlace_eq Iff.rfl hList

theorem token_succ (h : EqualAlike w a b depth) {x y : Token} (hx : w.Covers x.places)
    (hy : w.Covers y.places) : a.equalToken (depth + 1) x y = b.equalToken (depth + 1) x y := by
  obtain ⟨kind, lexeme, literal, line, column⟩ := x
  obtain ⟨kind', lexeme', literal', line', column'⟩ := y
  rw [Token.places] at hx hy
  unfold equalToken
  rw [h.value hx hy]

/-- One level deeper: an expression compares its parts, with a case for each kind. -/
theorem expr_succ (h : EqualAlike w a b depth) {x y : Expr} (hx : w.Covers x.places)
    (hy : w.Covers y.places) : a.equalExpr (depth + 1) x y = b.equalExpr (depth + 1) x y := by
  rw [equalExpr.eq_def, equalExpr.eq_def]
  dsimp only
  split
  case h_12 => rfl
  all_goals simp only [Expr.places, covers_append] at hx hy
  · rfl
  · rfl
  · rw [h.value hx.1 hy.1, h.token hx.2 hy.2]
  · rw [h.token hx hy]
  · exact h.token hx hy
  · rw [h.token hx hy]
  · rw [h.expr hx.1 hy.1, h.token hx.2.1 hy.2.1, h.expr hx.2.2 hy.2.2]
  · rw [h.token hx.1 hy.1, h.expr hx.2 hy.2]
  · next f as t g bs u =>
    have hArguments :
        equalList (a.equalExpr depth) as bs = equalList (b.equalExpr depth) as bs := by
      rw [Expr.placesAll_eq, covers_flatMap] at hx hy
      exact equalList_eq fun e he e' he' => h.expr (hx.2.1 e he) (hy.2.1 e' he')
    rw [h.expr hx.1 hy.1, hArguments, h.token hx.2.2 hy.2.2]
  · rw [h.expr hx.1 hy.1, h.token hx.2 hy.2]
  · rw [h.expr hx.1 hy.1, h.expr hx.2.1 hy.2.1, h.token hx.2.2 hy.2.2]

theorem expr? (h : EqualAlike w a b depth) {x y : Option Expr} (hx : w.Covers (Expr.places? x))
    (hy : w.Covers (Expr.places? y)) :
    equalOption (a.equalExpr depth) x y = equalOption (b.equalExpr depth) x y :=
  equalOption_eq fun e he e' he' => by
    cases he
    cases he'
    exact h.expr hx hy

theorem stmt? (h : EqualAlike w a b depth) {x y : Option Stmt} (hx : w.Covers (Stmt.places? x))
    (hy : w.Covers (Stmt.places? y)) :
    equalOption (a.equalStmt depth) x y = equalOption (b.equalStmt depth) x y :=
  equalOption_eq fun e he e' he' => by
    cases he
    cases he'
    rw [Stmt.places?] at hx hy
    exact h.stmt hx hy

theorem stmts (h : EqualAlike w a b depth) {x y : List Stmt} (hx : w.Covers (Stmt.placesAll x))
    (hy : w.Covers (Stmt.placesAll y)) :
    equalList (a.equalStmt depth) x y = equalList (b.equalStmt depth) x y := by
  rw [Stmt.placesAll_eq, covers_flatMap] at hx hy
  exact equalList_eq fun e he e' he' => h.stmt (hx e he) (hy e' he')

theorem varDecl_succ (h : EqualAlike w a b depth) {x y : VarDecl} (hx : w.Covers x.places)
    (hy : w.Covers y.places) :
    a.equalVarDecl (depth + 1) x y = b.equalVarDecl (depth + 1) x y := by
  rw [VarDecl.places, covers_append] at hx hy
  rw [equalVarDecl, equalVarDecl, h.expr? hx.1 hy.1, h.token hx.2 hy.2]

theorem funDecl_succ (h : EqualAlike w a b depth) {x y : FunDecl} (hx : w.Covers x.places)
    (hy : w.Covers y.places) :
    a.equalFunDecl (depth + 1) x y = b.equalFunDecl (depth + 1) x y := by
  obtain ⟨name, params, body, token⟩ := x
  obtain ⟨name', params', body', token'⟩ := y
  rw [FunDecl.places, covers_append] at hx hy
  rw [equalFunDecl, equalFunDecl, h.stmts hx.1 hy.1, h.token hx.2 hy.2]

/-- One level deeper: a statement compares its parts, with a case for each kind. -/
theorem stmt_succ (h : EqualAlike w a b depth) {x y : Stmt} (hx : w.Covers x.places)
    (hy : w.Covers y.places) : a.equalStmt (depth + 1) x y = b.equalStmt (depth + 1) x y := by
  rw [equalStmt.eq_def, equalStmt.eq_def]
  dsimp only
  split
  case h_12 => rfl
  all_goals simp only [Stmt.places, covers_append] at hx hy
  · rfl
  · exact h.expr hx hy
  · exact h.expr hx hy
  · exact h.varDecl hx hy
  · exact h.funDecl hx hy
  · next n s f m t n' s' f' m' t' =>
    rw [VarDecl.placesAll, covers_flatMap, FunDecl.placesAll_eq, covers_flatMap] at hx hy
    have hFields : equalList (a.equalVarDecl depth) f f' = equalList (b.equalVarDecl depth) f f' :=
      equalList_eq fun d hd d' hd' => h.varDecl (hx.1 d hd) (hy.1 d' hd')
    have hMethods : equalList (a.equalFunDecl depth) m m' = equalList (b.equalFunDecl depth) m m' :=
      equalList_eq fun d hd d' hd' => h.funDecl (hx.2.1 d hd) (hy.2.1 d' hd')
    rw [hFields, hMethods, h.token hx.2.2 hy.2.2]
  · exact h.stmts hx hy
  · rw [h.expr hx.1 hy.1, h.stmt hx.2.1 hy.2.1, h.stmt? hx.2.2 hy.2.2]
  · rw [h.expr hx.1 hy.1, h.stmt hx.2 hy.2]
  · rw [h.expr hx.1 hy.1, h.stmt hx.2 hy.2]
  · rw [h.expr? hx.1 hy.1, h.token hx.2 hy.2]

/-! ## Parts of the stores -/

/-- Scopes that may be missing, as the closure of a function may. -/
theorem scope? (h : EqualAlike w a b depth) (hMatches : w.Matches a b) {p q p' q' : Option Nat}
    (hJoins : Option.Rel w.Joined p q) (hJoins' : Option.Rel w.Joined p' q') :
    equalOption (equalPlace (a.equalScope depth)) p p' =
      equalOption (equalPlace (b.equalScope depth)) q q' := by
  rcases joins_cases hJoins with ⟨rfl, rfl⟩ | ⟨s, t, rfl, rfl, hJoined⟩ <;>
    rcases joins_cases hJoins' with ⟨rfl, rfl⟩ | ⟨s', t', rfl, rfl, hJoined'⟩
  · rfl
  · rfl
  · rfl
  · exact equalPlace_eq (hMatches.apart hJoined.1 hJoined'.1) (h.scope hJoined hJoined')

theorem functions (h : EqualAlike w a b depth) {left right : Table Nat}
    (hLeft : w.Covers (left.places ([.function ·])))
    (hRight : w.Covers (right.places ([.function ·]))) :
    equalTable (equalPlace (a.equalFunction depth)) left right =
      equalTable (equalPlace (b.equalFunction depth)) left right :=
  equalTable_eq fun x hx y hy => equalPlace_eq Iff.rfl
    (h.function (covers_singleton.mp (covers_flatMap.mp hLeft x hx))
      (covers_singleton.mp (covers_flatMap.mp hRight y hy)))

theorem classes (h : EqualAlike w a b depth) {left right : Table Nat}
    (hLeft : w.Covers (left.places ([.classDef ·])))
    (hRight : w.Covers (right.places ([.classDef ·]))) :
    equalTable (equalPlace (a.equalClass depth)) left right =
      equalTable (equalPlace (b.equalClass depth)) left right :=
  equalTable_eq fun x hx y hy => equalPlace_eq Iff.rfl
    (h.classDef (covers_singleton.mp (covers_flatMap.mp hLeft x hx))
      (covers_singleton.mp (covers_flatMap.mp hRight y hy)))

/-- Tables of types and values. -/
theorem typed {α : Type} [BEq α] (h : EqualAlike w a b depth) {left right : Table (α × Value)}
    (hLeft : w.Covers (left.places (·.2.places))) (hRight : w.Covers (right.places (·.2.places))) :
    equalTable (fun x y => both (some (x.1 == y.1)) fun _ => a.equalValue depth x.2 y.2) left
        right =
      equalTable (fun x y => both (some (x.1 == y.1)) fun _ => b.equalValue depth x.2 y.2) left
        right :=
  equalTable_eq fun x hx y hy => by
    rw [h.value (covers_flatMap.mp hLeft x hx) (covers_flatMap.mp hRight y hy)]

/-- One level deeper: joined scopes compare their tables and the scopes around them, which are
joined again. -/
theorem scope_succ (h : EqualAlike w a b depth) (hMatches : w.Matches a b) {s t s' t' : Nat}
    (hJoined : w.Joined s t) (hJoined' : w.Joined s' t') :
    a.equalScope (depth + 1) s s' = b.equalScope (depth + 1) t t' := by
  obtain ⟨hFunctions, hParent, hCovers⟩ := hMatches.joined hJoined
  obtain ⟨hFunctions', hParent', hCovers'⟩ := hMatches.joined hJoined'
  rw [Scope.places, covers_append, covers_append] at hCovers hCovers'
  rw [equalScope, equalScope]
  rw [← hMatches.bindings hJoined.1, ← hMatches.bindings hJoined'.1, ← hFunctions, ← hFunctions',
    ← hMatches.classes hJoined.1, ← hMatches.classes hJoined'.1, h.scope? hMatches hParent hParent',
    h.typed hCovers.1 hCovers'.1, h.functions hCovers.2.1 hCovers'.2.1,
    h.classes hCovers.2.2 hCovers'.2.2]

/-- One level deeper: functions compare their closures, which are joined. -/
theorem function_succ (h : EqualAlike w a b depth) (hMatches : w.Matches a b) {x y : Nat}
    (hx : w.known (.function x)) (hy : w.known (.function y)) :
    a.equalFunction (depth + 1) x y = b.equalFunction (depth + 1) x y := by
  obtain ⟨hName, hParams, hBody, hBuiltin⟩ := Function.of_bare (hMatches.parallel.function x)
  obtain ⟨hName', hParams', hBody', hBuiltin'⟩ := Function.of_bare (hMatches.parallel.function y)
  obtain ⟨hClosure, hCovers⟩ := hMatches.function hx
  obtain ⟨hClosure', hCovers'⟩ := hMatches.function hy
  rw [equalFunction, equalFunction]
  rw [← hName, ← hName', ← hParams, ← hParams', ← hBody, ← hBody', ← hBuiltin, ← hBuiltin',
    h.stmts hCovers hCovers', h.scope? hMatches hClosure hClosure']

/-- One level deeper: classes compare their methods, their parents and their scopes. -/
theorem class_succ (h : EqualAlike w a b depth) (hMatches : w.Matches a b) {x y : Nat}
    (hx : w.known (.classDef x)) (hy : w.known (.classDef y)) :
    a.equalClass (depth + 1) x y = b.equalClass (depth + 1) x y := by
  obtain ⟨hName, hFields, hMethods, hParent⟩ := ClassDef.of_bare (hMatches.parallel.classDef x)
  obtain ⟨hName', hFields', hMethods', hParent'⟩ := ClassDef.of_bare (hMatches.parallel.classDef y)
  obtain ⟨hScope, hCovers⟩ := hMatches.classDef hx
  obtain ⟨hScope', hCovers'⟩ := hMatches.classDef hy
  rw [ClassDef.places, covers_append, covers_append] at hCovers hCovers'
  have hParents : equalOption (equalPlace (a.equalClass depth)) (a.classDef x).parent
      (a.classDef y).parent = equalOption (equalPlace (b.equalClass depth)) (a.classDef x).parent
      (a.classDef y).parent :=
    equalOption_eq fun c hc d hd => equalPlace_eq Iff.rfl
      (h.classDef ((hMatches.classParts hx).1 c hc) ((hMatches.classParts hy).1 d hd))
  rw [equalClass, equalClass]
  rw [← hName, ← hName', ← hFields, ← hFields', ← hMethods, ← hMethods', ← hParent, ← hParent',
    hParents, h.typed hCovers.1 hCovers'.1, h.functions hCovers.2.1 hCovers'.2.1,
    h.scope? hMatches hScope hScope']

/-- One level deeper: objects compare their classes, their fields and their scopes. -/
theorem object_succ (h : EqualAlike w a b depth) (hMatches : w.Matches a b) {x y : Nat}
    (hx : w.known (.object x)) (hy : w.known (.object y)) :
    a.equalObject (depth + 1) x y = b.equalObject (depth + 1) x y := by
  obtain ⟨hClass, hFields⟩ := Object.of_bare (hMatches.parallel.object x)
  obtain ⟨hClass', hFields'⟩ := Object.of_bare (hMatches.parallel.object y)
  obtain ⟨hScope, -⟩ := hMatches.object hx
  obtain ⟨hScope', -⟩ := hMatches.object hy
  obtain ⟨hKnown, hCovers⟩ := hMatches.objectParts hx
  obtain ⟨hKnown', hCovers'⟩ := hMatches.objectParts hy
  have hTables : equalTable (a.equalValue depth) (a.object x).fields (a.object y).fields =
      equalTable (b.equalValue depth) (a.object x).fields (a.object y).fields :=
    equalTable_eq fun v hv v' hv' =>
      h.value (covers_flatMap.mp hCovers v hv) (covers_flatMap.mp hCovers' v' hv')
  rw [equalObject, equalObject]
  rw [← hClass, ← hClass', ← hFields, ← hFields', hTables,
    equalPlace_eq Iff.rfl (h.classDef hKnown hKnown'), h.scope? hMatches hScope hScope']

end EqualAlike

/-- By induction on the depth. -/
theorem Matches.equalAlike (h : w.Matches a b) (depth : Nat) : EqualAlike w a b depth := by
  induction depth with
  | zero => exact .zero
  | succ depth ih =>
      exact ⟨ih.value_succ, ih.items_succ h, ih.token_succ, ih.expr_succ, ih.varDecl_succ,
        ih.funDecl_succ, ih.stmt_succ, ih.scope_succ h, ih.function_succ h, ih.class_succ h,
        ih.object_succ h⟩

end Mus.World
