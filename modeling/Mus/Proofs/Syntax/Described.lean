import Mus.Syntax.Description

/-! Descriptions that exist. The description of an index becomes the name of a
property, so the parser needs it; only a whole number with too many digits is
without one. -/
namespace Mus

def Value.Described (value : Value) : Prop :=
  ∃ text, value.describe .none = .ok text

def Token.Described (token : Token) : Prop :=
  token.literal.Described

def Expr.Described (e : Expr) : Prop :=
  ∃ text, e.describe .none = .ok text

/-- A token as a whole is described by means of its literal. -/
theorem Token.describe_ok {token : Token} (h : token.Described) :
    ∃ text, token.describe .none = .ok text := by
  obtain ⟨kind, lexeme, literal, line, column⟩ := token
  obtain ⟨text, hText⟩ := h
  unfold Token.describe
  rw [hText]
  exact ⟨_, rfl⟩

namespace Expr

/-- The tokens, the values and the expressions that the expression is made of have
descriptions. -/
def PartsDescribed : Expr → Prop
  | .base | .stray _ => True
  | .literal value token => value.Described ∧ token.Described
  | .variable _ token | .this token | .super _ token => token.Described
  | .binary left operator right => left.Described ∧ operator.Described ∧ right.Described
  | .unary operator right => operator.Described ∧ right.Described
  | .call callee arguments token =>
      callee.Described ∧ (∀ e ∈ arguments, e.Described) ∧ token.Described
  | .get object _ token => object.Described ∧ token.Described
  | .set object _ value token => object.Described ∧ value.Described ∧ token.Described

/-- Expressions that have descriptions have them all together. -/
theorem describeAll_ok {es : List Expr} (h : ∀ e ∈ es, e.Described) :
    ∃ texts, Expr.describeAll .none es = .ok texts := by
  induction es with
  | nil => exact ⟨[], by rw [Expr.describeAll]⟩
  | cons e rest ih =>
      obtain ⟨text, hText⟩ := h e (List.mem_cons_self ..)
      obtain ⟨texts, hTexts⟩ := ih fun other hOther => h other (List.mem_cons_of_mem _ hOther)
      rw [Expr.describeAll, hText, hTexts]
      exact ⟨_, rfl⟩

/-- An expression is described by means of its parts. -/
theorem described_of_parts {e : Expr} (h : e.PartsDescribed) : e.Described := by
  unfold Described describe
  match e, h with
  | .base, _ | .stray _, _ => exact ⟨_, rfl⟩
  | .literal value token, ⟨⟨valueText, hValue⟩, hToken⟩ =>
      obtain ⟨tokenText, hToken⟩ := Token.describe_ok hToken
      dsimp only
      rw [hValue, hToken]
      exact ⟨_, rfl⟩
  | .variable _ token, hToken | .this token, hToken | .super _ token, hToken =>
      obtain ⟨tokenText, hToken⟩ := Token.describe_ok hToken
      dsimp only
      rw [hToken]
      exact ⟨_, rfl⟩
  | .binary left operator right, ⟨⟨leftText, hLeft⟩, hOperator, ⟨rightText, hRight⟩⟩ =>
      obtain ⟨operatorText, hOperator⟩ := Token.describe_ok hOperator
      dsimp only
      rw [hLeft, hOperator, hRight]
      exact ⟨_, rfl⟩
  | .unary operator right, ⟨hOperator, ⟨rightText, hRight⟩⟩ =>
      obtain ⟨operatorText, hOperator⟩ := Token.describe_ok hOperator
      dsimp only
      rw [hOperator, hRight]
      exact ⟨_, rfl⟩
  | .call callee arguments token, ⟨⟨calleeText, hCallee⟩, hArguments, hToken⟩ =>
      obtain ⟨argumentTexts, hArguments⟩ := describeAll_ok hArguments
      obtain ⟨tokenText, hToken⟩ := Token.describe_ok hToken
      dsimp only
      rw [hCallee, hArguments, hToken]
      exact ⟨_, rfl⟩
  | .get object _ token, ⟨⟨objectText, hObject⟩, hToken⟩ =>
      obtain ⟨tokenText, hToken⟩ := Token.describe_ok hToken
      dsimp only
      rw [hObject, hToken]
      exact ⟨_, rfl⟩
  | .set object _ value token, ⟨⟨objectText, hObject⟩, ⟨valueText, hValue⟩, hToken⟩ =>
      obtain ⟨tokenText, hToken⟩ := Token.describe_ok hToken
      dsimp only
      rw [hObject, hValue, hToken]
      exact ⟨_, rfl⟩

end Expr

theorem Value.describeAll_code {es : List Expr} (h : ∀ e ∈ es, e.Described) :
    ∃ texts, Value.describeAll .none (es.map .code) = .ok texts := by
  induction es with
  | nil => exact ⟨[], by rw [List.map_nil, Value.describeAll]⟩
  | cons e rest ih =>
      obtain ⟨text, hText⟩ := h e (List.mem_cons_self ..)
      obtain ⟨texts, hTexts⟩ := ih fun other hOther => h other (List.mem_cons_of_mem _ hOther)
      rw [List.map_cons, Value.describeAll, Value.describe, hText, hTexts]
      exact ⟨_, rfl⟩

/-- An array literal is described by its elements. -/
theorem Value.described_list_code {es : List Expr} (h : ∀ e ∈ es, e.Described) :
    (Value.list (.constant (es.map .code))).Described := by
  obtain ⟨texts, hTexts⟩ := describeAll_code h
  unfold Value.Described
  rw [Value.describe, Items.describe, hTexts]
  exact ⟨_, rfl⟩

/-! ## Values without a description -/

/-- The one fault of a description, if it has any, is a number with too many
digits. -/
def OnlyDigits {α : Type} (answer : Except TextFault α) : Prop :=
  ∀ fault, answer = .error fault → fault = .tooManyDigits

theorem onlyDigits_ok {α : Type} (value : α) : OnlyDigits (.ok value : Except TextFault α) := by
  intro fault h
  cases h

/-- A description fails only by its parts. -/
theorem onlyDigits_bind {α β : Type} {answer : Except TextFault α}
    {next : α → Except TextFault β} (hAnswer : OnlyDigits answer)
    (hNext : ∀ value, OnlyDigits (next value)) : OnlyDigits (answer >>= next) := by
  intro fault h
  cases answer with
  | ok value => exact hNext value fault h
  | error other =>
      cases h
      exact hAnswer fault rfl

/-- A whole number fails to have a text only by its length. -/
theorem onlyDigits_integerText (n : Int) : OnlyDigits (integerText n) := by
  intro fault h
  unfold integerText at h
  split at h <;> cases h
  rfl

mutual

/-- The numbers in a value are all that can keep it from having a description. By induction over
values, tokens and expressions, which hold each other. -/
theorem Value.onlyDigits_describe (value : Value) : OnlyDigits (value.describe .none) := by
  match value with
  | .nothing | .bool _ | .float _ | .str _ | .function _ | .classDef _ | .object _ =>
      unfold Value.describe
      exact onlyDigits_ok _
  | .array (.cell _) _ =>
      unfold Value.describe
      exact onlyDigits_ok _
  | .int n =>
      unfold Value.describe
      exact onlyDigits_integerText n
  | .list items =>
      unfold Value.describe
      exact items.onlyDigits_describe
  | .array (.constant values) _ =>
      unfold Value.describe
      exact onlyDigits_bind (Value.onlyDigits_describeAll values) fun _ => onlyDigits_ok _
  | .box _ inner =>
      unfold Value.describe
      exact onlyDigits_bind inner.onlyDigits_describe fun _ => onlyDigits_ok _
  | .code e =>
      unfold Value.describe
      exact e.onlyDigits_describe

theorem Items.onlyDigits_describe (items : Items) : OnlyDigits (items.describe .none) := by
  match items with
  | .constant values =>
      unfold Items.describe
      exact onlyDigits_bind (Value.onlyDigits_describeAll values) fun _ => onlyDigits_ok _
  | .cell _ =>
      unfold Items.describe
      exact onlyDigits_ok _

theorem Value.onlyDigits_describeAll (values : List Value) :
    OnlyDigits (Value.describeAll .none values) := by
  match values with
  | [] =>
      unfold Value.describeAll
      exact onlyDigits_ok _
  | value :: rest =>
      unfold Value.describeAll
      exact onlyDigits_bind value.onlyDigits_describe fun _ =>
        onlyDigits_bind (Value.onlyDigits_describeAll rest) fun _ => onlyDigits_ok _

theorem Token.onlyDigits_describe (token : Token) : OnlyDigits (token.describe .none) := by
  match token with
  | ⟨_, _, literal, _, _⟩ =>
      unfold Token.describe
      exact onlyDigits_bind literal.onlyDigits_describe fun _ => onlyDigits_ok _

/-- The numbers in an expression are all that can keep it from having a description. -/
theorem Expr.onlyDigits_describe (e : Expr) : OnlyDigits (e.describe .none) := by
  match e with
  | .base | .stray _ =>
      unfold Expr.describe
      exact onlyDigits_ok _
  | .literal value token =>
      unfold Expr.describe
      exact onlyDigits_bind value.onlyDigits_describe fun _ =>
        onlyDigits_bind token.onlyDigits_describe fun _ => onlyDigits_ok _
  | .variable _ token | .this token | .super _ token =>
      unfold Expr.describe
      exact onlyDigits_bind token.onlyDigits_describe fun _ => onlyDigits_ok _
  | .binary left operator right =>
      unfold Expr.describe
      exact onlyDigits_bind left.onlyDigits_describe fun _ =>
        onlyDigits_bind operator.onlyDigits_describe fun _ =>
          onlyDigits_bind right.onlyDigits_describe fun _ => onlyDigits_ok _
  | .unary operator right =>
      unfold Expr.describe
      exact onlyDigits_bind operator.onlyDigits_describe fun _ =>
        onlyDigits_bind right.onlyDigits_describe fun _ => onlyDigits_ok _
  | .call callee arguments token =>
      unfold Expr.describe
      exact onlyDigits_bind callee.onlyDigits_describe fun _ =>
        onlyDigits_bind (Expr.onlyDigits_describeAll arguments) fun _ =>
          onlyDigits_bind token.onlyDigits_describe fun _ => onlyDigits_ok _
  | .get object _ token =>
      unfold Expr.describe
      exact onlyDigits_bind object.onlyDigits_describe fun _ =>
        onlyDigits_bind token.onlyDigits_describe fun _ => onlyDigits_ok _
  | .set object _ value token =>
      unfold Expr.describe
      exact onlyDigits_bind object.onlyDigits_describe fun _ =>
        onlyDigits_bind value.onlyDigits_describe fun _ =>
          onlyDigits_bind token.onlyDigits_describe fun _ => onlyDigits_ok _

theorem Expr.onlyDigits_describeAll (es : List Expr) :
    OnlyDigits (Expr.describeAll .none es) := by
  match es with
  | [] =>
      unfold Expr.describeAll
      exact onlyDigits_ok _
  | e :: rest =>
      unfold Expr.describeAll
      exact onlyDigits_bind e.onlyDigits_describe fun _ =>
        onlyDigits_bind (Expr.onlyDigits_describeAll rest) fun _ => onlyDigits_ok _

end

end Mus
