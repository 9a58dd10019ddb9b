import Mus.Proofs.Session.Assignment

/-! Indexing an array. The tree of an item names it by the description of the index
expression and not by its value. A description starts with the name of a kind of
expression, so that it is never a number. That is why no item of an array can be read
or set by an index in a source. In a tree that names an item by a number the item is
found. -/
namespace Mus

open Written (Printed Term Word describe)

/-! ## Descriptions are no numbers -/

def Capital (text : String) : Prop :=
  ∃ c rest, text.toList = c :: rest ∧ c.isUpper = true

theorem Capital.append {front : String} (h : Capital front) (back : String) :
    Capital (front ++ back) := by
  obtain ⟨c, rest, hFront, hUpper⟩ := h
  exact ⟨c, rest ++ back.toList, by rw [String.toList_append, hFront, List.cons_append], hUpper⟩

theorem Capital.isAlpha {c : Char} (h : c.isUpper = true) : c.isAlpha = true := by
  show (c.isUpper || c.isLower) = true
  rw [h, Bool.true_or]

theorem Capital.toNat_lt {c : Char} (h : c.isUpper = true) : c.toNat < 128 := by
  have hRange : 'A'.val ≤ c.val ∧ c.val ≤ 'Z'.val := of_decide_eq_true h
  exact Nat.lt_of_le_of_lt (UInt32.le_iff_toNat_le.mp hRange.2) (by decide)

/-- What starts with a capital letter is not read as a number. -/
theorem Capital.read_eq {text : String} (h : Capital text) :
    Integer.read text.toList = .error .malformed := by
  obtain ⟨c, rest, hText, hUpper⟩ := h
  rw [hText]
  refine Integer.read_name (Or.inl ?_)
  rw [Text.isLetter_of_ascii (Capital.toNat_lt hUpper)]
  exact Capital.isAlpha hUpper

/-- A description, if there is one, starts with the name of a kind of expression. -/
def DescribesKind (answer : Except TextFault String) : Prop :=
  ∀ text, answer = .ok text → Capital text

/-- A description that starts with a kind does so whatever its parts are. -/
theorem describesKind_bind {α : Type} {answer : Except TextFault α}
    {next : α → Except TextFault String} (hNext : ∀ value, DescribesKind (next value)) :
    DescribesKind (answer >>= next) := by
  intro text h
  cases answer with
  | ok value => exact hNext value text h
  | error fault => cases h

theorem describesKind_ok {text : String} (h : Capital text) : DescribesKind (.ok text) := by
  intro other hOther
  cases hOther
  exact h

/-- Every description of an expression starts with the name of its kind, which is in capitals at the
front. -/
theorem Expr.describesKind (store : StoreText) (e : Expr) : DescribesKind (e.describe store) := by
  cases e with
  | base =>
      rw [Expr.describe]
      exact describesKind_ok ⟨_, _, rfl, by decide⟩
  | stray kind =>
      have hName : Capital kind.nodeName := by cases kind <;> exact ⟨_, _, rfl, by decide⟩
      rw [Expr.describe]
      exact describesKind_ok (hName.append _)
  | _ =>
      rw [Expr.describe]
      repeat refine describesKind_bind fun _ => ?_
      refine describesKind_ok ?_
      repeat with_reducible refine Capital.append ?_ _
      exact ⟨_, _, rfl, by decide⟩

/-- The name that an index gets is no number. -/
theorem capital_describe (index : Term) : Capital (describe index.expr) := by
  obtain ⟨text, hText⟩ := index.described
  have hCapital := index.expr.describesKind .none text hText
  rwa [describe, hText]

/-! ## Parsing -/

/-- A term that is printed alone is parsed to the statement of its expression. -/
theorem parse_term {e : Term} {tokens : List Token} {mark : Token}
    (hPrinted : Printed (e.print .assignment) tokens) (hMark : mark.kind = .eof) :
    parse (tokens ++ [mark]) = .ok ⟨[.expression e.expr], []⟩ := by
  have hProgram : Printed (Written.Declaration.printAll [.statement (.expression e)]) tokens := by
    simpa [Written.Declaration.printAll, Written.Declaration.print, Written.Statement.print]
      using hPrinted
  exact parse_of_reads (Parse.reads_program hProgram ⟨trivial, by decide, trivial⟩) hMark

/-! ## Items of arrays -/

namespace Run

variable {fuel room : Nat} {object value : Expr} {name element : String} {token : Token}
  {items : Items} {machine after later : Machine} {result : Value} {n : Nat}

/-- An index that is no number is taken for a property that arrays do not have. -/
theorem evaluate_get_array_refused
    (hObject : evaluate fuel room object machine = .ok (.array items element) after)
    (hName : Capital name) :
    evaluate (fuel + 1) room (.get object name token) machine =
      .error (.runtime ⟨.unknownArrayMethod name, token⟩) after := by
  have hLength : name ≠ "length" := by
    rintro rfl
    obtain ⟨c, rest, hText, hUpper⟩ := hName
    cases hText
    cases hUpper
  rw [evaluate]
  refine (bind_ok hObject).trans ?_
  dsimp only
  rw [arrayProperty, if_neg hLength, hName.read_eq]
  rfl

/-- Setting a property with a capital name on an array is refused, since the name is no number. The
value is not evaluated. -/
theorem evaluate_set_array_refused
    (hObject : evaluate (fuel + 1) room object machine = .ok (.array items element) after)
    (hName : Capital name) :
    evaluate (fuel + 2) room (.set object name value token) machine =
      .error (.runtime ⟨.invalidArrayIndex name, token⟩) after := by
  rw [evaluate]
  refine (bind_ok hObject).trans ?_
  dsimp only
  rw [assignItem, hName.read_eq]
  rfl

/-- An index inside an array is the place of its item. -/
theorem itemIndex_ok (h : n < (machine.store.items items).length) :
    itemIndex items (.int n) machine = .ok n machine := by
  have hLook : (get : Run Machine) machine = .ok machine machine := rfl
  rw [itemIndex, bind_ok hLook]
  dsimp only
  rw [if_pos ⟨Int.natCast_nonneg n, Int.ofNat_lt.mpr h⟩]
  rfl

/-- An index that is a number leads to the item. -/
theorem evaluate_get_array
    (hObject : evaluate fuel room object machine = .ok (.array items element) after)
    (hName : Integer.read name.toList = .ok n)
    (hItem : (after.store.items items)[n]? = some result) :
    evaluate (fuel + 1) room (.get object name token) machine = .ok result after := by
  have hLength : name ≠ "length" := by
    rintro rfl
    have hWord : Integer.read "length".toList = .error .malformed :=
      Integer.read_name (Or.inl (by decide))
    cases hWord.symm.trans hName
  have hPlace : n < (after.store.items items).length := (List.getElem?_eq_some_iff.mp hItem).1
  have hLook : (get : Run Machine) after = .ok after after := rfl
  rw [evaluate]
  refine (bind_ok hObject).trans ?_
  dsimp only
  rw [arrayProperty, if_neg hLength, hName]
  dsimp only
  rw [readItem, bind_ok (itemIndex_ok hPlace), bind_ok hLook, hItem]
  rfl

/-- An index that is a number leads to the item that is set. -/
theorem evaluate_set_array
    (hObject : evaluate (fuel + 1) room object machine = .ok (.array items element) after)
    (hName : Integer.read name.toList = .ok n)
    (hValue : evaluate fuel room value after = .ok result later)
    (hItem : n < (later.store.items items).length) :
    evaluate (fuel + 2) room (.set object name value token) machine =
      .ok result { later with store := later.store.setItem items n result } := by
  rw [evaluate]
  refine (bind_ok hObject).trans ?_
  dsimp only
  rw [assignItem, hName]
  dsimp only
  rw [bind_ok hValue, writeItem, bind_assoc, bind_ok (itemIndex_ok hItem)]
  rfl

end Run

/-- Setting an item of a cell changes this one item. -/
theorem Store.cell_setItem (store : Store) (place n : Nat) (value : Value) :
    (store.setItem (.cell place) n value).cell place = (store.cell place).set n value := by
  simp only [setItem, changeCell, cell, Array.getElem?_modify, if_pos]
  cases store.cells[place]? <;> rfl

/-- Setting an item of a cell changes no other cell. -/
theorem Store.cell_setItem_of_ne (store : Store) {place other : Nat} (h : other ≠ place) (n : Nat)
    (value : Value) : (store.setItem (.cell place) n value).cell other = store.cell other := by
  simp only [setItem, changeCell, cell, Array.getElem?_modify, if_neg (Ne.symm h)]

/-! ## Items of variables -/

def Expr.item (name : Token) (index : String) (close : Token) : Expr :=
  .get (.variable name.lexeme name) index close

def Expr.setItem (name : Token) (index : String) (value : Expr) (equals : Token) : Expr :=
  .set (.variable name.lexeme name) index value equals

/-- The global variable of a name holds an array, and no names have been resolved. -/
structure Machine.HoldsArray (machine : Machine) (name : String) (items : Items)
    (element : String) : Prop where
  locals : machine.locals = []
  held : ∃ type, (machine.store.scope machine.globals).bindings.find? name =
    some (type, .array items element)

/-- The variable is evaluated to its array, and nothing changes. -/
theorem Machine.HoldsArray.evaluate_eq {machine : Machine} {name : Token} {items : Items}
    {element : String} (h : machine.HoldsArray name.lexeme items element)
    (hName : name.keyFault? = none) (fuel room : Nat) :
    Run.evaluate (fuel + 1) room (.variable name.lexeme name) machine =
      .ok (.array items element) machine := by
  obtain ⟨type, hHeld⟩ := h.held
  rw [Run.evaluate_unresolved h.locals hName, Store.readVariable_of_find? hHeld]

/-- The last token of a source is its end mark. -/
theorem tokenize_mark {source : String} {tokens : List Token} {mark : Token}
    (h : tokenize source = .ok (tokens ++ [mark])) : mark.kind = .eof := by
  obtain ⟨front, last, hSplit, hLast⟩ := (tokenize_scanned h).2
  obtain ⟨-, hSame⟩ := List.append_inj' hSplit rfl
  cases hSame
  exact hLast

/-- The first word of what has been scanned can be looked for in the resolution table. -/
theorem keyFault?_first {source : String} {tokens : List Token} {first mark : Token}
    {pieces : List Written.Piece} (hTokens : tokenize source = .ok (tokens ++ [mark]))
    (hPrinted : Printed (.word first :: pieces) tokens) : first.keyFault? = none := by
  have hMem : first ∈ tokens ++ [mark] := by
    obtain ⟨rest, rfl, -⟩ := Written.printed_word hPrinted
    simp
  exact (tokenize_plain hTokens _ hMem).keyFault?_eq

/-- No item of an array is reached by an index in a source. What stands in the brackets
is parsed to a name that is no number. So reading the item fails with the complaint that
arrays have no such property, and setting it with the complaint that this is no index; in
both cases the machine is left as it was, and the value to be set has not been evaluated.
Only a tree that names the item by its number reads the item, or replaces it and nothing
else. -/
theorem indexing_reaches_no_item {machine : Machine} {name : Word [.identifier]} {items : Items}
    {element : String} (hArray : machine.HoldsArray name.token.lexeme items element)
    (fuel room : Nat) :
    (∀ source tokens mark, ∀ (index : Term) (close : Word [.rightBracket]),
      tokenize source = .ok (tokens ++ [mark]) →
      Printed ((Term.index (.variable name) index close).print .assignment) tokens →
      parse (tokens ++ [mark]) =
        .ok ⟨[.expression (.item name.token (describe index.expr) close.token)], []⟩ ∧
      Run.evaluate (fuel + 2) room (.item name.token (describe index.expr) close.token) machine =
        .error (.runtime ⟨.unknownArrayMethod (describe index.expr), close.token⟩) machine) ∧
    (∀ source tokens mark, ∀ (index : Term) (close : Word [.rightBracket])
      (equals : Word [.assign]) (value : Term), tokenize source = .ok (tokens ++ [mark]) →
      Printed ((Term.setIndex (.variable name) index close equals value).print .assignment)
        tokens →
      parse (tokens ++ [mark]) =
        .ok ⟨[.expression (.setItem name.token (describe index.expr) value.expr equals.token)],
          []⟩ ∧
      ∀ e, Run.execute (fuel + 3) room
          (.expression (.setItem name.token (describe index.expr) e equals.token)) machine =
        .error (.runtime ⟨.invalidArrayIndex (describe index.expr), equals.token⟩) machine) ∧
    ∀ place number token, ∀ n : Nat, items = .cell place → name.token.keyFault? = none →
      Integer.read number.toList = .ok n → n < (machine.store.cell place).length →
      (∃ item, (machine.store.cell place)[n]? = some item ∧
        Run.evaluate (fuel + 2) room (.item name.token number token) machine = .ok item machine) ∧
      ∀ e result after, Run.evaluate fuel room e machine = .ok result after →
        after.store.cell place = machine.store.cell place →
        ∃ written, Run.evaluate (fuel + 2) room (.setItem name.token number e token) machine =
            .ok result { after with store := written } ∧
          written.cell place = (machine.store.cell place).set n result ∧
          ∀ other, other ≠ place → written.cell other = after.store.cell other := by
  refine ⟨?_, ?_, ?_⟩
  · intro source tokens mark index close hTokens hPrinted
    have hHeld := hArray.evaluate_eq (keyFault?_first hTokens hPrinted) fuel room
    exact ⟨parse_term hPrinted (tokenize_mark hTokens),
      Run.evaluate_get_array_refused hHeld (capital_describe index)⟩
  · intro source tokens mark index close equals value hTokens hPrinted
    have hHeld := hArray.evaluate_eq (keyFault?_first hTokens hPrinted) fuel room
    refine ⟨parse_term hPrinted (tokenize_mark hTokens), fun e => ?_⟩
    rw [Run.execute]
    exact bind_error (Run.evaluate_set_array_refused hHeld (capital_describe index))
  · rintro place number token n rfl hKey hNumber hItem
    have hHeld := hArray.evaluate_eq hKey fuel room
    refine ⟨⟨_, List.getElem?_eq_getElem hItem, ?_⟩, fun e result after hValue hSame => ?_⟩
    · exact Run.evaluate_get_array hHeld hNumber (List.getElem?_eq_getElem hItem)
    · have hStill : n < (after.store.cell place).length := by rwa [hSame]
      refine ⟨after.store.setItem (.cell place) n result, ?_, ?_, ?_⟩
      · exact Run.evaluate_set_array hHeld hNumber hValue hStill
      · rw [Store.cell_setItem, hSame]
      · exact fun other hOther => Store.cell_setItem_of_ne _ hOther n result

/-- A machine whose global variable `a` holds an array of 10 and 20. -/
def Machine.withArray : Machine :=
  let (place, store) := Machine.initial.store.addCell [.int 10, .int 20]
  { Machine.initial with
    store := store.defineVariable 0 "a" (some "array<integer>") (.array (.cell place) "integer") }

/-- The source that reads the second item of this array fails. The tree that names the
item by its number yields it. -/
theorem indexing_reaches_no_item_second :
    (∃ tokens name index close, tokenize "a[1]" = .ok tokens ∧
      parse tokens = .ok ⟨[.expression (.item name index close)], []⟩ ∧
      Run.evaluate 2 0 (.item name index close) Machine.withArray =
        .error (.runtime ⟨.unknownArrayMethod index, close⟩) Machine.withArray) ∧
    Run.evaluate 2 0 (.item ⟨.identifier, "a", .nothing, 1, 1⟩ "1" .nowhere) Machine.withArray =
      .ok (.int 20) Machine.withArray := by
  have hTokens : tokenize "a[1]" = .ok ([⟨.identifier, "a", .nothing, 1, 1⟩,
      ⟨.leftBracket, "[", .nothing, 1, 2⟩, ⟨.integer, "1", .int 1, 1, 3⟩,
      ⟨.rightBracket, "]", .nothing, 1, 4⟩] ++ [⟨.eof, "", .nothing, 1, 5⟩]) := by
    with_unfolding_all rfl
  have hPrinted : Printed ((Term.index (.variable (nameAt "a" 1 1))
      (.literal ⟨⟨.integer, "1", .int 1, 1, 3⟩, by decide,
        tokenize_described hTokens _ (by simp)⟩)
      ⟨⟨.rightBracket, "]", .nothing, 1, 4⟩, by decide, _, rfl⟩).print .assignment)
      [⟨.identifier, "a", .nothing, 1, 1⟩, ⟨.leftBracket, "[", .nothing, 1, 2⟩,
        ⟨.integer, "1", .int 1, 1, 3⟩, ⟨.rightBracket, "]", .nothing, 1, 4⟩] :=
    .cons rfl (.cons rfl (.cons rfl (.cons rfl .nil)))
  have hArray : Machine.withArray.HoldsArray (nameAt "a" 1 1).token.lexeme (.cell 0) "integer" :=
    ⟨rfl, _, rfl⟩
  obtain ⟨hReads, -, hNumbered⟩ := indexing_reaches_no_item hArray 0 0
  obtain ⟨hParse, hFails⟩ := hReads _ _ _ _ _ hTokens hPrinted
  refine ⟨⟨_, _, _, _, hTokens, hParse, hFails⟩, ?_⟩
  obtain ⟨⟨item, hItem, hYields⟩, -⟩ :=
    hNumbered 0 "1" .nowhere 1 rfl rfl (by with_unfolding_all rfl) (by decide)
  cases hItem
  exact hYields

end Mus
