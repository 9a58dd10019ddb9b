import Mathlib.Data.List.Forall2
import Mus.Proofs.Store.PairedEquality

/-! Texts in two stores that correspond. What values can lead to has the same
descriptions and is shown alike. A description that meets again what it is inside of is
cut short, so besides the stores also the places on the way are compared: scopes as they
are paired, all else by its place. -/
namespace Mus

/-! ## Trees -/

/-- The two ways to write what lives in a store agree on what values can lead to. -/
structure World.TextAlike (w : World) (first second : StoreText) : Prop where
  list {c : Nat} : w.known (.cell c) → first.listAt c = second.listAt c
  items {c : Nat} : w.known (.cell c) → first.itemsAt c = second.itemsAt c
  array {c : Nat} (element : String) : w.known (.cell c) →
    first.arrayAt c element = second.arrayAt c element
  described (value : Value) :
    w.Covers value.places → first.describeAt value = second.describeAt value
  shown (value : Value) : w.Covers value.places → first.showAt value = second.showAt value

section

open World

variable {w : World} {first second : StoreText}

mutual

/-- A value is described alike if values can lead to all that it refers to. By induction over
values, tokens and expressions, which hold each other. -/
theorem Value.describe_alike (h : w.TextAlike first second) : (value : Value) →
    w.Covers value.places → value.describe first = value.describe second
  | .nothing, _ | .bool _, _ | .int _, _ | .float _, _ | .str _, _ => by
      rw [Value.describe, Value.describe]
  | .list items, hValue => by
      rw [Value.places] at hValue
      rw [Value.describe, Value.describe, Items.describe_alike h items hValue]
  | .array (.cell place) element, hValue => by
      rw [Value.places, Items.places, covers_singleton] at hValue
      rw [Value.describe, Value.describe, h.array element hValue]
  | .array (.constant values) element, hValue => by
      rw [Value.places, Items.places] at hValue
      rw [Value.describe, Value.describe, Value.describeAll_alike h values hValue]
  | .box kind inner, hValue => by
      rw [Value.places] at hValue
      rw [Value.describe, Value.describe, Value.describe_alike h inner hValue]
  | .function place, hValue | .classDef place, hValue | .object place, hValue => by
      rw [Value.describe, Value.describe, h.described _ hValue]
  | .code e, hValue => by
      rw [Value.places] at hValue
      rw [Value.describe, Value.describe, Expr.describe_alike h e hValue]

theorem Items.describe_alike (h : w.TextAlike first second) : (items : Items) →
    w.Covers items.places → items.describe first = items.describe second
  | .constant values, hItems => by
      rw [Items.places] at hItems
      rw [Items.describe, Items.describe, Value.describeAll_alike h values hItems]
  | .cell place, hItems => by
      rw [Items.places, covers_singleton] at hItems
      rw [Items.describe, Items.describe, h.list hItems]

theorem Value.describeAll_alike (h : w.TextAlike first second) : (values : List Value) →
    w.Covers (Value.placesAll values) →
      Value.describeAll first values = Value.describeAll second values
  | [], _ => by rw [Value.describeAll, Value.describeAll]
  | value :: rest, hValues => by
      rw [Value.placesAll, covers_append] at hValues
      rw [Value.describeAll, Value.describeAll, Value.describe_alike h value hValues.1,
        Value.describeAll_alike h rest hValues.2]

theorem Token.describe_alike (h : w.TextAlike first second) : (token : Token) →
    w.Covers token.places → token.describe first = token.describe second
  | ⟨kind, lexeme, literal, line, column⟩, hToken => by
      rw [Token.places] at hToken
      rw [Token.describe, Token.describe, Value.describe_alike h literal hToken]

/-- An expression is described alike if all that it refers to is. -/
theorem Expr.describe_alike (h : w.TextAlike first second) : (e : Expr) →
    w.Covers e.places → e.describe first = e.describe second
  | .base, _ | .stray _, _ => by rw [Expr.describe, Expr.describe]
  | .literal value token, hExpr => by
      rw [Expr.places, covers_append] at hExpr
      rw [Expr.describe, Expr.describe, Value.describe_alike h value hExpr.1,
        Token.describe_alike h token hExpr.2]
  | .variable name token, hExpr | .this token, hExpr | .super method token, hExpr => by
      rw [Expr.places] at hExpr
      rw [Expr.describe, Expr.describe, Token.describe_alike h token hExpr]
  | .binary left operator right, hExpr => by
      rw [Expr.places, covers_append, covers_append] at hExpr
      rw [Expr.describe, Expr.describe, Expr.describe_alike h left hExpr.1,
        Token.describe_alike h operator hExpr.2.1, Expr.describe_alike h right hExpr.2.2]
  | .unary operator right, hExpr => by
      rw [Expr.places, covers_append] at hExpr
      rw [Expr.describe, Expr.describe, Token.describe_alike h operator hExpr.1,
        Expr.describe_alike h right hExpr.2]
  | .call callee arguments token, hExpr => by
      rw [Expr.places, covers_append, covers_append] at hExpr
      rw [Expr.describe, Expr.describe, Expr.describe_alike h callee hExpr.1,
        Expr.describeAll_alike h arguments hExpr.2.1, Token.describe_alike h token hExpr.2.2]
  | .get object name token, hExpr => by
      rw [Expr.places, covers_append] at hExpr
      rw [Expr.describe, Expr.describe, Expr.describe_alike h object hExpr.1,
        Token.describe_alike h token hExpr.2]
  | .set object name value token, hExpr => by
      rw [Expr.places, covers_append, covers_append] at hExpr
      rw [Expr.describe, Expr.describe, Expr.describe_alike h object hExpr.1,
        Expr.describe_alike h value hExpr.2.1, Token.describe_alike h token hExpr.2.2]

theorem Expr.describeAll_alike (h : w.TextAlike first second) : (es : List Expr) →
    w.Covers (Expr.placesAll es) → Expr.describeAll first es = Expr.describeAll second es
  | [], _ => by rw [Expr.describeAll, Expr.describeAll]
  | e :: rest, hExprs => by
      rw [Expr.placesAll, covers_append] at hExprs
      rw [Expr.describeAll, Expr.describeAll, Expr.describe_alike h e hExprs.1,
        Expr.describeAll_alike h rest hExprs.2]

end

theorem describeExpr?_alike (h : w.TextAlike first second) {e : Option Expr}
    (hExpr : w.Covers (Expr.places? e)) : describeExpr? first e = describeExpr? second e := by
  cases e with
  | none => rfl
  | some e => exact Expr.describe_alike h e hExpr

/-- A declaration refers to places by its initializer and by its token. -/
theorem VarDecl.describe_alike (h : w.TextAlike first second) {decl : VarDecl}
    (hDecl : w.Covers decl.places) : decl.describe first = decl.describe second := by
  rw [VarDecl.places, covers_append] at hDecl
  rw [VarDecl.describe, VarDecl.describe, describeExpr?_alike h hDecl.1,
    Token.describe_alike h decl.token hDecl.2]

theorem VarDecl.mapM_describe_alike (h : w.TextAlike first second) {decls : List VarDecl}
    (hDecls : w.Covers (VarDecl.placesAll decls)) :
    decls.mapM (VarDecl.describe first) = decls.mapM (VarDecl.describe second) := by
  induction decls with
  | nil => rfl
  | cons decl decls ih =>
      rw [VarDecl.placesAll, List.flatMap_cons, covers_append] at hDecls
      rw [List.mapM_cons, List.mapM_cons, VarDecl.describe_alike h hDecls.1, ih hDecls.2]

mutual

theorem FunDecl.describe_alike (h : w.TextAlike first second) : (decl : FunDecl) →
    w.Covers decl.places → decl.describe first = decl.describe second
  | ⟨name, params, body, token⟩, hDecl => by
      rw [FunDecl.places, covers_append] at hDecl
      rw [FunDecl.describe, FunDecl.describe, Stmt.describeAll_alike h body hDecl.1,
        Token.describe_alike h token hDecl.2]

theorem FunDecl.describeAll_alike (h : w.TextAlike first second) : (decls : List FunDecl) →
    w.Covers (FunDecl.placesAll decls) →
      FunDecl.describeAll first decls = FunDecl.describeAll second decls
  | [], _ => by rw [FunDecl.describeAll, FunDecl.describeAll]
  | decl :: rest, hDecls => by
      rw [FunDecl.placesAll, covers_append] at hDecls
      rw [FunDecl.describeAll, FunDecl.describeAll, FunDecl.describe_alike h decl hDecls.1,
        FunDecl.describeAll_alike h rest hDecls.2]

/-- A statement is described alike, by induction over statements and functions. -/
theorem Stmt.describe_alike (h : w.TextAlike first second) : (stmt : Stmt) →
    w.Covers stmt.places → stmt.describe first = stmt.describe second
  | .base, _ => by rw [Stmt.describe, Stmt.describe]
  | .stray e, hStmt | .expression e, hStmt => by
      rw [Stmt.places] at hStmt
      rw [Stmt.describe, Stmt.describe, Expr.describe_alike h e hStmt]
  | .varDecl decl, hStmt => by
      rw [Stmt.places] at hStmt
      rw [Stmt.describe, Stmt.describe, VarDecl.describe_alike h hStmt]
  | .funDecl decl, hStmt => by
      rw [Stmt.places] at hStmt
      rw [Stmt.describe, Stmt.describe, FunDecl.describe_alike h decl hStmt]
  | .classDecl name superclass fields methods token, hStmt => by
      rw [Stmt.places, covers_append, covers_append] at hStmt
      rw [Stmt.describe, Stmt.describe, VarDecl.mapM_describe_alike h hStmt.1,
        FunDecl.describeAll_alike h methods hStmt.2.1, Token.describe_alike h token hStmt.2.2]
  | .block body, hStmt => by
      rw [Stmt.places] at hStmt
      rw [Stmt.describe, Stmt.describe, Stmt.describeAll_alike h body hStmt]
  | .branch condition thenBranch elseBranch, hStmt => by
      rw [Stmt.places, covers_append, covers_append] at hStmt
      rw [Stmt.describe, Stmt.describe, Expr.describe_alike h condition hStmt.1,
        Stmt.describe_alike h thenBranch hStmt.2.1, Stmt.describe?_alike h elseBranch hStmt.2.2]
  | .loop condition body, hStmt => by
      rw [Stmt.places, covers_append] at hStmt
      rw [Stmt.describe, Stmt.describe, Expr.describe_alike h condition hStmt.1,
        Stmt.describe_alike h body hStmt.2]
  | .each iterator iterable body, hStmt => by
      rw [Stmt.places, covers_append] at hStmt
      rw [Stmt.describe, Stmt.describe, Expr.describe_alike h iterable hStmt.1,
        Stmt.describe_alike h body hStmt.2]
  | .ret value token, hStmt => by
      rw [Stmt.places, covers_append] at hStmt
      rw [Stmt.describe, Stmt.describe, describeExpr?_alike h hStmt.1,
        Token.describe_alike h token hStmt.2]

theorem Stmt.describe?_alike (h : w.TextAlike first second) : (stmt : Option Stmt) →
    w.Covers (Stmt.places? stmt) → Stmt.describe? first stmt = Stmt.describe? second stmt
  | none, _ => by rw [Stmt.describe?, Stmt.describe?]
  | some stmt, hStmt => by
      rw [Stmt.places?] at hStmt
      rw [Stmt.describe?, Stmt.describe?, Stmt.describe_alike h stmt hStmt]

theorem Stmt.describeAll_alike (h : w.TextAlike first second) : (body : List Stmt) →
    w.Covers (Stmt.placesAll body) → Stmt.describeAll first body = Stmt.describeAll second body
  | [], _ => by rw [Stmt.describeAll, Stmt.describeAll]
  | stmt :: rest, hBody => by
      rw [Stmt.placesAll, covers_append] at hBody
      rw [Stmt.describeAll, Stmt.describeAll, Stmt.describe_alike h stmt hBody.1,
        Stmt.describeAll_alike h rest hBody.2]

end

mutual

/-- Values are shown alike. Only arrays and boxes are shown by what is in them. -/
theorem Value.shown_alike (h : w.TextAlike first second) : (value : Value) →
    w.Covers value.places → value.shown first = value.shown second
  | .nothing, _ | .bool _, _ | .int _, _ | .float _, _ | .str _, _ => by
      rw [Value.shown, Value.shown]
  | .list items, hValue => by
      rw [Value.places] at hValue
      rw [Value.shown, Value.shown, Items.describe_alike h items hValue]
  | .array items element, hValue => by
      rw [Value.places] at hValue
      rw [Value.shown, Value.shown, Items.shown_alike h items hValue]
  | .box .string inner, _ => by
      rw [Value.shown.eq_def, Value.shown.eq_def]
  | .box .integer inner, hValue | .box .boolean inner, hValue => by
      rw [Value.places] at hValue
      rw [Value.shown, Value.shown, Value.shown_alike h inner hValue]
  | .function place, hValue | .classDef place, hValue | .object place, hValue => by
      rw [Value.shown, Value.shown, h.shown _ hValue]
  | .code e, hValue => by
      rw [Value.places] at hValue
      rw [Value.shown, Value.shown, Expr.describe_alike h e hValue]

theorem Items.shown_alike (h : w.TextAlike first second) : (items : Items) →
    w.Covers items.places → items.shown first = items.shown second
  | .constant values, hItems => by
      rw [Items.places] at hItems
      rw [Items.shown, Items.shown, Value.shownAll_alike h values hItems]
  | .cell place, hItems => by
      rw [Items.places, covers_singleton] at hItems
      rw [Items.shown, Items.shown, h.items hItems]

theorem Value.shownAll_alike (h : w.TextAlike first second) : (values : List Value) →
    w.Covers (Value.placesAll values) → Value.shownAll first values = Value.shownAll second values
  | [], _ => by rw [Value.shownAll, Value.shownAll]
  | value :: rest, hValues => by
      rw [Value.placesAll, covers_append] at hValues
      rw [Value.shownAll, Value.shownAll, Value.shown_alike h value hValues.1,
        Value.shownAll_alike h rest hValues.2]

end

end

/-! ## Stores -/

/-- Tables are described alike if their entries are. -/
theorem Store.describeEntries_eq {α : Type} {describe describe' : α → Except TextFault String}
    {table : Table α} (h : ∀ entry ∈ table, describe entry.2 = describe' entry.2) :
    Store.describeEntries describe table = Store.describeEntries describe' table := by
  induction table with
  | nil => rfl
  | cons entry rest ih =>
      rw [Store.describeEntries, Store.describeEntries, h entry (List.mem_cons_self ..),
        ih fun other hOther => h other (List.mem_cons_of_mem _ hOther)]

namespace World

open Store

variable {w : World} {a b : Store} {depth : Nat}

/-- Two places that are the same for the world: scopes that belong together, or one place
of any other kind. -/
inductive SamePlace (w : World) : Store.Place → Store.Place → Prop where
  | scope {s t : Nat} (hPaired : w.paired s t) : SamePlace w (.scope s) (.scope t)
  | other {place : Store.Place} (hPlace : place.isScope = false) : SamePlace w place place

/-- A place that is met again in one store is met again in the other one, since pairs of scopes are
one to one. -/
theorem Matches.eq_iff (h : w.Matches a b) {x x' y y' : Store.Place} (hx : w.SamePlace x x')
    (hy : w.SamePlace y y') : x = y ↔ x' = y' := by
  cases hx with
  | scope hPaired =>
      cases hy with
      | scope hPaired' =>
          rw [Store.Place.scope.injEq, Store.Place.scope.injEq]
          exact h.apart hPaired hPaired'
      | other hPlace =>
          exact iff_of_false (by rintro rfl; cases hPlace) (by rintro rfl; cases hPlace)
  | other hPlace =>
      cases hy with
      | scope _ => exact iff_of_false (by rintro rfl; cases hPlace) (by rintro rfl; cases hPlace)
      | other hPlace' => exact Iff.rfl

/-- The same is met again in both stores. -/
theorem Matches.mem_iff (h : w.Matches a b) {path path' : List Store.Place}
    (hPath : List.Forall₂ w.SamePlace path path') {x x' : Store.Place} (hx : w.SamePlace x x') :
    x ∈ path ↔ x' ∈ path' := by
  induction hPath with
  | nil => exact iff_of_false List.not_mem_nil List.not_mem_nil
  | cons hy _ ih => rw [List.mem_cons, List.mem_cons, h.eq_iff hx hy, ih]

/-- The two stores describe alike what values can lead to, down to a depth. -/
structure DescribeAlike (w : World) (a b : Store) (depth : Nat) : Prop where
  text {path path' : List Store.Place} : List.Forall₂ w.SamePlace path path' →
    w.TextAlike (a.textWithin path depth) (b.textWithin path' depth)
  place {path path' : List Store.Place} {value : Value} : List.Forall₂ w.SamePlace path path' →
    w.Covers value.places → a.describePlace path value depth = b.describePlace path' value depth
  scope {path path' : List Store.Place} {p q : Option Nat} : List.Forall₂ w.SamePlace path path' →
    Option.Rel w.Joined p q → a.describeScope path p depth = b.describeScope path' q depth

namespace DescribeAlike

variable {path path' : List Store.Place}

/-- At no depth, nothing has a description. -/
theorem zero : DescribeAlike w a b 0 where
  text _ := by
    rw [textWithin, textWithin]
    exact ⟨fun _ => rfl, fun _ => rfl, fun _ _ => rfl, fun _ _ => rfl, fun _ _ => rfl⟩
  place _ _ := by rw [describePlace, describePlace]
  scope _ _ := by rw [describeScope, describeScope]

/-- What a program prints for a function, a class or an object does not tell of its scope. -/
theorem shownAt_eq (hMatches : w.Matches a b) (value : Value) :
    a.shownAt value = b.shownAt value := by
  cases value with
  | function f =>
      obtain ⟨hName, hParams, -, -⟩ := Function.of_bare (hMatches.parallel.function f)
      rw [shownAt, shownAt, functionText, functionText, hName, hParams]
  | classDef c =>
      obtain ⟨hName, -, -, -⟩ := ClassDef.of_bare (hMatches.parallel.classDef c)
      rw [shownAt, shownAt, classText, classText, hName]
  | object o =>
      obtain ⟨hClass, -⟩ := Object.of_bare (hMatches.parallel.object o)
      obtain ⟨hName, -, -, -⟩ := ClassDef.of_bare (hMatches.parallel.classDef (b.object o).classDef)
      rw [shownAt, shownAt, objectText, objectText, hClass, hName]
  | _ => rfl

/-- One level deeper: what the path has met already is cut off alike. -/
theorem text_succ (h : DescribeAlike w a b depth) (hMatches : w.Matches a b)
    (hPath : List.Forall₂ w.SamePlace path path') :
    w.TextAlike (a.textWithin path (depth + 1)) (b.textWithin path' (depth + 1)) := by
  have hMet {place : Store.Place} (hPlace : place.isScope = false) : place ∈ path ↔ place ∈ path' :=
    hMatches.mem_iff hPath (.other hPlace)
  rw [textWithin, textWithin]
  refine ⟨fun {c} hKnown => ?_, fun {c} hKnown => ?_, fun {c} element hKnown => ?_,
    fun _ hCovers => h.place hPath hCovers, fun value _ => ?_⟩
  · have hText := h.text (.cons (.other (rfl : (Store.Place.cell c).isScope = false)) hPath)
    refine if_congr (hMet rfl) rfl ?_
    rw [Value.describeAll_alike hText _ (hMatches.cell hKnown), hMatches.parallel.cell]
  · dsimp only
    rw [Value.shownAll_alike (h.text hPath) _ (hMatches.cell hKnown), hMatches.parallel.cell]
  · have hText := h.text
      (.cons (.other (rfl : (Store.Place.array c element).isScope = false)) hPath)
    refine if_congr (hMet rfl) rfl ?_
    rw [hText.list hKnown]
  · dsimp only
    rw [shownAt_eq hMatches]

theorem pair_eq {text text' : StoreText} (h : w.TextAlike text text') (type : Option String)
    {value : Value} (hValue : w.Covers value.places) :
    describePair text type value = describePair text' type value := by
  rw [describePair, describePair, Value.describe_alike h value hValue]

/-- Tables of functions and of classes. -/
theorem entries_eq {text text' : StoreText} (h : w.TextAlike text text') (kind : Nat → Value)
    (table : Table Nat) (hTable : w.Covers (table.places fun place => (kind place).places)) :
    describeEntries (fun place => text.describeAt (kind place)) table =
      describeEntries (fun place => text'.describeAt (kind place)) table :=
  describeEntries_eq fun entry hEntry => h.described _ (covers_flatMap.mp hTable entry hEntry)

/-- One level deeper: joined scopes are described by their tables and by what is around them. -/
theorem scope_succ (h : DescribeAlike w a b depth) (hMatches : w.Matches a b)
    (hPath : List.Forall₂ w.SamePlace path path') {p q : Option Nat}
    (hJoins : Option.Rel w.Joined p q) :
    a.describeScope path p (depth + 1) = b.describeScope path' q (depth + 1) := by
  rcases joins_cases hJoins with ⟨rfl, rfl⟩ | ⟨s, t, rfl, rfl, hJoined⟩
  · rw [describeScope, describeScope]
  · obtain ⟨hFunctions, hParent, hCovers⟩ := hMatches.joined hJoined
    rw [Scope.places, covers_append, covers_append] at hCovers
    have hInner : List.Forall₂ w.SamePlace (.scope s :: path) (.scope t :: path') :=
      .cons (.scope hJoined.1) hPath
    have hText := h.text hInner
    have hValues :
        describeEntries (fun entry =>
          describePair (a.textWithin (.scope s :: path) depth) entry.1 entry.2)
            (a.scope s).bindings =
        describeEntries (fun entry =>
          describePair (b.textWithin (.scope t :: path') depth) entry.1 entry.2)
            (a.scope s).bindings :=
      describeEntries_eq fun entry hEntry =>
        pair_eq hText entry.2.1 (covers_flatMap.mp hCovers.1 entry hEntry)
    have hOwn := entries_eq hText .function (a.scope s).functions hCovers.2.1
    have hClasses := entries_eq hText .classDef (a.scope s).classes hCovers.2.2
    rw [describeScope, describeScope]
    refine if_congr (hMatches.mem_iff hPath (.scope hJoined.1)) rfl ?_
    dsimp only
    rw [hValues, hOwn, hClasses, h.scope hInner hParent, hMatches.bindings hJoined.1,
      hFunctions, hMatches.classes hJoined.1]

/-- One level deeper: functions, classes and objects are described with their scopes, which are
joined. -/
theorem place_succ (h : DescribeAlike w a b depth) (hMatches : w.Matches a b)
    (hPath : List.Forall₂ w.SamePlace path path') {value : Value} (hValue : w.Covers value.places) :
    a.describePlace path value (depth + 1) = b.describePlace path' value (depth + 1) := by
  have hMet {place : Store.Place} (hPlace : place.isScope = false) : place ∈ path ↔ place ∈ path' :=
    hMatches.mem_iff hPath (.other hPlace)
  cases value with
  | function f =>
      rw [Value.places, covers_singleton] at hValue
      obtain ⟨hName, hParams, hBody, hBuiltin⟩ := Function.of_bare (hMatches.parallel.function f)
      obtain ⟨hClosure, hCovers⟩ := hMatches.function hValue
      have hInner : List.Forall₂ w.SamePlace (.function f :: path) (.function f :: path') :=
        .cons (.other rfl) hPath
      rw [describePlace, describePlace]
      refine if_congr (hMet rfl) rfl ?_
      dsimp only
      rw [Stmt.describeAll_alike (h.text hInner) _ hCovers, h.scope hInner hClosure, hName, hParams,
        hBody, hBuiltin]
  | classDef c =>
      rw [Value.places, covers_singleton] at hValue
      obtain ⟨hName, hFields, hMethods, hParent⟩ := ClassDef.of_bare (hMatches.parallel.classDef c)
      obtain ⟨hScope, hCovers⟩ := hMatches.classDef hValue
      rw [ClassDef.places, covers_append, covers_append] at hCovers
      have hInner : List.Forall₂ w.SamePlace (.classDef c :: path) (.classDef c :: path') :=
        .cons (.other rfl) hPath
      have hText := h.text hInner
      have hDefaults :
          describeEntries (fun field =>
            describePair (a.textWithin (.classDef c :: path) depth) (some field.1) field.2)
              (a.classDef c).fields =
          describeEntries (fun field =>
            describePair (b.textWithin (.classDef c :: path') depth) (some field.1) field.2)
              (a.classDef c).fields :=
        describeEntries_eq fun entry hEntry =>
          pair_eq hText (some entry.2.1) (covers_flatMap.mp hCovers.1 entry hEntry)
      have hOwn := entries_eq hText .function (a.classDef c).methods hCovers.2.1
      rw [describePlace, describePlace]
      refine if_congr (hMet rfl) rfl ?_
      dsimp only
      rw [hDefaults, hOwn, h.scope hInner hScope, ← hName, ← hFields, ← hMethods, ← hParent]
      cases hSuper : (a.classDef c).parent with
      | none => rfl
      | some parent =>
          have hKnown := (hMatches.classParts hValue).1 parent hSuper
          dsimp only
          rw [hText.described (.classDef parent) (covers_singleton.mpr hKnown)]
  | object o =>
      rw [Value.places, covers_singleton] at hValue
      obtain ⟨hClass, hFields⟩ := Object.of_bare (hMatches.parallel.object o)
      obtain ⟨hScope, -⟩ := hMatches.object hValue
      obtain ⟨hKnown, hCovers⟩ := hMatches.objectParts hValue
      have hInner : List.Forall₂ w.SamePlace (.object o :: path) (.object o :: path') :=
        .cons (.other rfl) hPath
      have hText := h.text hInner
      have hValues : describeEntries (fun value => value.describe
          (a.textWithin (.object o :: path) depth)) (a.object o).fields =
          describeEntries (fun value => value.describe
          (b.textWithin (.object o :: path') depth)) (a.object o).fields :=
        describeEntries_eq fun entry hEntry =>
          Value.describe_alike hText entry.2 (covers_flatMap.mp hCovers entry hEntry)
      have hOwn := hText.described (.classDef (a.object o).classDef) (covers_singleton.mpr hKnown)
      rw [describePlace, describePlace]
      refine if_congr (hMet rfl) rfl ?_
      dsimp only
      rw [hValues, hOwn, h.scope hInner hScope, hClass, hFields]
  | _ => rw [describePlace.eq_def, describePlace.eq_def]

end DescribeAlike

/-- Corresponding stores describe alike down to every depth, by induction on it. -/
theorem Matches.describeAlike (h : w.Matches a b) (depth : Nat) : DescribeAlike w a b depth := by
  induction depth with
  | zero => exact .zero
  | succ depth ih =>
      exact ⟨ih.text_succ h, fun hPath => ih.place_succ h hPath, fun hPath => ih.scope_succ h hPath⟩

/-- What a program prints for a value does not depend on the store. -/
theorem Matches.shown_eq (h : w.Matches a b) {value : Value} (hValue : w.Covers value.places) :
    a.shown value = b.shown value :=
  Value.shown_alike ((h.describeAlike depthLimit).text .nil) value hValue

end World

end Mus
