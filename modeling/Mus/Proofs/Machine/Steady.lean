import Mus.Proofs.Machine.Sourced

/-! What a value of a source shows and which values it is equal to. Both depend on
the lists of the store only: as such a value refers to no function, class or object,
two stores with the same lists show and compare it alike. -/
namespace Mus

/-! ## Descriptions -/

section

variable {first second : StoreText}

theorem Value.Plain.describe_eq {value : Value} (h : value.Plain) :
    value.describe first = value.describe second := by
  cases value with
  | nothing | bool | int | str => rw [Value.describe, Value.describe]
  | _ => exact absurd h id

theorem Token.Plain.describe_eq {token : Token} (h : token.Plain) :
    token.describe first = token.describe second := by
  obtain ⟨kind, lexeme, literal, line, column⟩ := token
  have hLiteral : literal.describe first = literal.describe second := Value.Plain.describe_eq h
  rw [Token.describe, Token.describe, hLiteral]

mutual

/-- Values of a source refer to nothing but lists, so that stores with the same lists describe them
alike. -/
theorem Value.Sourced.describe_eq (hLists : ∀ place, first.listAt place = second.listAt place) :
    {value : Value} → value.Sourced → value.describe first = value.describe second
  | .nothing, _ | .bool _, _ | .int _, _ | .float _, _ | .str _, _ => by
      rw [Value.describe, Value.describe]
  | .list (.cell place), _ => by
      rw [Value.describe, Value.describe, Items.describe, Items.describe, hLists]
  | .list (.constant values), h => by
      rw [Value.describe, Value.describe, Items.describe, Items.describe,
        Value.AllSourcedCode.describeAll_eq hLists h]

theorem Value.AllSourcedCode.describeAll_eq
    (hLists : ∀ place, first.listAt place = second.listAt place) :
    {values : List Value} → Value.AllSourcedCode values →
      Value.describeAll first values = Value.describeAll second values
  | [], _ => by rw [Value.describeAll, Value.describeAll]
  | .code e :: rest, ⟨hFirst, hRest⟩ => by
      rw [Value.describeAll, Value.describeAll, Value.describe, Value.describe,
        Expr.Sourced.describe_eq hLists hFirst, Value.AllSourcedCode.describeAll_eq hLists hRest]

/-- Expressions of a source are described alike, too. -/
theorem Expr.Sourced.describe_eq (hLists : ∀ place, first.listAt place = second.listAt place) :
    {e : Expr} → e.Sourced → e.describe first = e.describe second
  | .base, _ | .stray _, _ => by rw [Expr.describe, Expr.describe]
  | .literal value token, ⟨hValue, hToken⟩ => by
      rw [Expr.describe, Expr.describe, Value.Sourced.describe_eq hLists hValue,
        Token.Plain.describe_eq hToken]
  | .variable name token, hToken | .this token, hToken | .super method token, hToken => by
      rw [Expr.describe, Expr.describe, Token.Plain.describe_eq hToken]
  | .binary left operator right, ⟨hLeft, hOperator, hRight⟩ => by
      rw [Expr.describe, Expr.describe, Expr.Sourced.describe_eq hLists hLeft,
        Token.Plain.describe_eq hOperator, Expr.Sourced.describe_eq hLists hRight]
  | .unary operator right, ⟨hOperator, hRight⟩ => by
      rw [Expr.describe, Expr.describe, Token.Plain.describe_eq hOperator,
        Expr.Sourced.describe_eq hLists hRight]
  | .call callee arguments token, ⟨hCallee, hArguments, hToken⟩ => by
      rw [Expr.describe, Expr.describe, Expr.Sourced.describe_eq hLists hCallee,
        Expr.AllSourced.describeAll_eq hLists hArguments, Token.Plain.describe_eq hToken]
  | .get object name token, ⟨hObject, hToken⟩ => by
      rw [Expr.describe, Expr.describe, Expr.Sourced.describe_eq hLists hObject,
        Token.Plain.describe_eq hToken]
  | .set object name value token, ⟨hObject, hValue, hToken⟩ => by
      rw [Expr.describe, Expr.describe, Expr.Sourced.describe_eq hLists hObject,
        Expr.Sourced.describe_eq hLists hValue, Token.Plain.describe_eq hToken]

theorem Expr.AllSourced.describeAll_eq
    (hLists : ∀ place, first.listAt place = second.listAt place) :
    {es : List Expr} → Expr.AllSourced es → Expr.describeAll first es = Expr.describeAll second es
  | [], _ => by rw [Expr.describeAll, Expr.describeAll]
  | e :: rest, ⟨hFirst, hRest⟩ => by
      rw [Expr.describeAll, Expr.describeAll, Expr.Sourced.describe_eq hLists hFirst,
        Expr.AllSourced.describeAll_eq hLists hRest]

end

/-- A value of a source is shown by its description, up to quotes. -/
theorem Value.Sourced.shown_eq (hLists : ∀ place, first.listAt place = second.listAt place)
    {value : Value} (h : value.Sourced) : value.shown first = value.shown second := by
  cases value with
  | nothing | bool | int | float | str => rw [Value.shown, Value.shown]
  | list items =>
      have hDescribe : (Value.list items).describe first = (Value.list items).describe second :=
        Value.Sourced.describe_eq hLists h
      rw [Value.describe, Value.describe] at hDescribe
      rw [Value.shown, Value.shown, hDescribe]
  | _ => exact absurd h id

end

namespace Store

variable {first second : Store}

theorem cell_eq (hCells : first.cells = second.cells) (place : Nat) :
    first.cell place = second.cell place := by
  unfold cell
  rw [hCells]

/-- The items of every cell come from a source; where there is no cell there are no items. -/
theorem allSourcedCode_cell (hSourced : ∀ items ∈ first.cells, Value.AllSourcedCode items)
    (place : Nat) : Value.AllSourcedCode (first.cell place) := by
  unfold cell
  cases hCell : first.cells[place]? with
  | none => exact trivial
  | some items => exact hSourced items (Array.mem_of_getElem? hCell)

variable (hCells : first.cells = second.cells)
    (hSourced : ∀ items ∈ first.cells, Value.AllSourcedCode items)

include hCells hSourced

/-- By induction on the depth, as a list may hold lists and be met again inside its
own description. -/
theorem listAt_eq (depth : Nat) (path : List Place) (place : Nat) :
    (first.textWithin path depth).listAt place = (second.textWithin path depth).listAt place := by
  induction depth generalizing path place with
  | zero => rw [textWithin, textWithin]
  | succ depth ih =>
      have hItems := Value.AllSourcedCode.describeAll_eq (ih (.cell place :: path))
        (allSourcedCode_cell hSourced place)
      rw [textWithin, textWithin]
      dsimp only
      rw [hItems, cell_eq hCells]

/-- Stores with the same lists show a value of a source alike. -/
theorem shown_eq {value : Value} (h : value.Sourced) : first.shown value = second.shown value :=
  Value.Sourced.shown_eq (listAt_eq hCells hSourced depthLimit []) h

end Store

/-! ## Equality -/

namespace Store

/-- Lists are compared alike if their items are. -/
theorem equalAll_eq {α : Type} {equal equal' : α → α → Option Bool} :
    {as bs : List α} → (∀ a ∈ as, ∀ b ∈ bs, equal a b = equal' a b) →
      equalAll equal as bs = equalAll equal' as bs
  | [], [], _ | [], _ :: _, _ | _ :: _, [], _ => rfl
  | a :: as, b :: bs, h => by
      have hRest : equalAll equal as bs = equalAll equal' as bs :=
        equalAll_eq fun a ha b hb => h a (List.mem_cons_of_mem _ ha) b (List.mem_cons_of_mem _ hb)
      rw [equalAll, equalAll, h a (List.mem_cons_self ..) b (List.mem_cons_self ..), hRest]

theorem equalList_eq {α : Type} {equal equal' : α → α → Option Bool} {as bs : List α}
    (h : ∀ a ∈ as, ∀ b ∈ bs, equal a b = equal' a b) :
    equalList equal as bs = equalList equal' as bs := by
  rw [equalList, equalList, equalAll_eq h]

variable {first second : Store}

/-- Two stores compare values, lists, tokens and expressions of a source alike, down
to a depth. -/
structure CompareAlike (first second : Store) (depth : Nat) : Prop where
  value : ∀ a b : Value, a.Sourced ∨ a.SourcedCode → b.Sourced ∨ b.SourcedCode →
    first.equalValue depth a b = second.equalValue depth a b
  items : ∀ a b : Items, (Value.list a).Sourced → (Value.list b).Sourced →
    first.equalItems depth a b = second.equalItems depth a b
  token : ∀ a b : Token, a.Plain → b.Plain →
    first.equalToken depth a b = second.equalToken depth a b
  expr : ∀ a b : Expr, a.Sourced → b.Sourced →
    first.equalExpr depth a b = second.equalExpr depth a b

/-- At no depth, no comparison has an answer. -/
theorem CompareAlike.zero : CompareAlike first second 0 where
  value _ _ _ _ := by rw [equalValue, equalValue]
  items _ _ _ _ := by rw [equalItems, equalItems]
  token _ _ _ _ := by rw [equalToken, equalToken]
  expr _ _ _ _ := by rw [equalExpr, equalExpr]

namespace CompareAlike

variable {depth : Nat}

/-- One level deeper: a value compares its parts, and lists their items in the cells. -/
theorem value_succ (h : CompareAlike first second depth) {a b : Value}
    (ha : a.Sourced ∨ a.SourcedCode) (hb : b.Sourced ∨ b.SourcedCode) :
    first.equalValue (depth + 1) a b = second.equalValue (depth + 1) a b := by
  unfold equalValue
  cases a with
  | list items =>
      cases b with
      | list others => exact h.items items others (ha.resolve_right id) (hb.resolve_right id)
      | _ => rfl
  | code e =>
      cases b with
      | code f => exact h.expr e f (ha.resolve_left id) (hb.resolve_left id)
      | _ => rfl
  | nothing | bool | int | float | str => cases b <;> rfl
  | array | box | function | classDef | object => exact (or_self_iff.mp ha).elim

/-- The items of a list of a source are expressions of a source. -/
theorem items_succ (h : CompareAlike first second depth)
    (hCells : first.cells = second.cells)
    (hSourced : ∀ items ∈ first.cells, Value.AllSourcedCode items) {a b : Items}
    (ha : (Value.list a).Sourced) (hb : (Value.list b).Sourced) :
    first.equalItems (depth + 1) a b = second.equalItems (depth + 1) a b := by
  have hCode : ∀ items : Items, (Value.list items).Sourced →
      first.items items = second.items items ∧ Value.AllSourcedCode (first.items items) := by
    intro items hItems
    cases items with
    | constant values => exact ⟨rfl, hItems⟩
    | cell place => exact ⟨cell_eq hCells place, allSourcedCode_cell hSourced place⟩
  have hList : equalList (first.equalValue depth) (first.items a) (first.items b) =
      equalList (second.equalValue depth) (second.items a) (second.items b) := by
    rw [← (hCode a ha).1, ← (hCode b hb).1]
    exact equalList_eq fun x hx y hy => h.value x y (Or.inr ((hCode a ha).2.of_mem x hx))
      (Or.inr ((hCode b hb).2.of_mem y hy))
  cases a with
  | constant values =>
      unfold equalItems
      exact hList
  | cell place =>
      cases b with
      | constant values =>
          unfold equalItems
          exact hList
      | cell other =>
          rw [equalItems, equalItems, equalPlace, equalPlace]
          exact congrArg (if place = other then some true else ·) hList

theorem token_succ (h : CompareAlike first second depth) {a b : Token} (ha : a.Plain)
    (hb : b.Plain) : first.equalToken (depth + 1) a b = second.equalToken (depth + 1) a b := by
  unfold equalToken
  rw [h.value a.literal b.literal (Or.inl (Value.Plain.sourced ha))
    (Or.inl (Value.Plain.sourced hb))]

/-- One level deeper: an expression compares its literals, tokens and parts. -/
theorem expr_succ (h : CompareAlike first second depth) {a b : Expr} (ha : a.Sourced)
    (hb : b.Sourced) : first.equalExpr (depth + 1) a b = second.equalExpr (depth + 1) a b := by
  rw [equalExpr.eq_def, equalExpr.eq_def]
  dsimp only
  split
  · rfl
  · rfl
  · next v t w u => rw [h.value v w (Or.inl ha.1) (Or.inl hb.1), h.token t u ha.2 hb.2]
  · next m t n u => rw [h.token t u ha hb]
  · next t u => exact h.token t u ha hb
  · next m t n u => rw [h.token t u ha hb]
  · next l o r m p s =>
    rw [h.expr l m ha.1 hb.1, h.token o p ha.2.1 hb.2.1, h.expr r s ha.2.2 hb.2.2]
  · next o r p s => rw [h.token o p ha.1 hb.1, h.expr r s ha.2 hb.2]
  · next f as t g bs u =>
    have hArguments : equalList (first.equalExpr depth) as bs =
        equalList (second.equalExpr depth) as bs :=
      equalList_eq fun x hx y hy => h.expr x y (ha.2.1.of_mem x hx) (hb.2.1.of_mem y hy)
    rw [h.expr f g ha.1 hb.1, hArguments, h.token t u ha.2.2 hb.2.2]
  · next o m t p n u => rw [h.expr o p ha.1 hb.1, h.token t u ha.2 hb.2]
  · next o m v t p n w u =>
    rw [h.expr o p ha.1 hb.1, h.expr v w ha.2.1 hb.2.1, h.token t u ha.2.2 hb.2.2]
  · rfl

end CompareAlike

/-- Stores with the same lists compare alike down to every depth, by induction on it. -/
theorem compareAlike (hCells : first.cells = second.cells)
    (hSourced : ∀ items ∈ first.cells, Value.AllSourcedCode items) (depth : Nat) :
    CompareAlike first second depth := by
  induction depth with
  | zero => exact .zero
  | succ depth ih =>
      exact ⟨fun _ _ => ih.value_succ, fun _ _ => ih.items_succ hCells hSourced,
        fun _ _ => ih.token_succ, fun _ _ => ih.expr_succ⟩

/-- Stores with the same lists compare values of a source alike. -/
theorem equalValue_eq (hCells : first.cells = second.cells)
    (hSourced : ∀ items ∈ first.cells, Value.AllSourcedCode items) {a b : Value}
    (ha : a.Sourced) (hb : b.Sourced) (depth : Nat) :
    first.equalValue depth a b = second.equalValue depth a b :=
  (compareAlike hCells hSourced depth).value a b (Or.inl ha) (Or.inl hb)

end Store

/-! ## Evaluation -/

/-- Machines with the same global variables and the same lists, both of sources. -/
structure Machine.Alike (machine machine' : Machine) : Prop where
  sourced : machine.Sourced
  sourced' : machine'.Sourced
  bindings : (machine.store.scope 0).bindings = (machine'.store.scope 0).bindings
  cells : machine.store.cells = machine'.store.cells

theorem Machine.Sourced.alike {machine : Machine} (h : machine.Sourced) :
    machine.Alike machine :=
  ⟨h, h, rfl, rfl⟩

/-- What a runnable call is applied to is runnable. -/
theorem Expr.Runnable.target {e target : Expr} (h : e.Runnable)
    (hTarget : e.target? = some target) : target.Runnable := by
  rcases h with hSourced | ⟨token, rfl⟩
  · cases e with
    | call | get | set =>
        cases hTarget
        exact Or.inl hSourced.1
    | _ => cases hTarget
  · cases hTarget

/-- Alike machines have the same global variables. -/
theorem Machine.Alike.readVariable_eq {machine machine' : Machine} (h : machine.Alike machine')
    (name : String) :
    machine.store.readVariable machine.globals name =
      machine'.store.readVariable machine'.globals name := by
  unfold Store.readVariable Store.findVariable?
  rw [h.sourced.globals, h.sourced'.globals, Store.inScopes_zero, Store.inScopes_zero, h.bindings]

/-- Evaluating an expression of a source is a look at the global variables and the
lists. -/
theorem Run.views_sourced : Views Machine.Alike Value.Sourced Expr.Runnable where
  locals _ _ h := ⟨h.sourced.locals, h.sourced'.locals⟩
  read name _ _ h := ⟨h.readVariable_eq name,
    Store.good_readVariable trivial h.sourced.store.bindings _ _⟩
  shown _ hValue _ _ h := Store.shown_eq h.cells h.sourced.store.cells hValue
  equal _ _ ha hb _ _ h := Store.equalValue_eq h.cells h.sourced.store.cells ha hb _
  scalar _ h := h.sourced
  inert _ h := h.isData.inert
  literal value token h := by
    rcases h with hSourced | ⟨_, hEq⟩
    · exact hSourced.1
    · cases hEq
      exact trivial
  binary left operator right h := by
    rcases h with hSourced | ⟨_, hEq⟩
    · exact ⟨Or.inl hSourced.1, Or.inl hSourced.2.2⟩
    · cases hEq
  unary operator right h := by
    rcases h with hSourced | ⟨_, hEq⟩
    · exact Or.inl hSourced.2
    · cases hEq
  target _ _ h hTarget := h.target hTarget

end Mus
