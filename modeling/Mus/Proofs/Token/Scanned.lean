import Mus.Proofs.Syntax.Described
import Mus.Session

/-! The tokens of a source. Each has a literal with a text: a number that is read
has no more digits than can be written. An end mark stands at their end. -/
namespace Mus

/-! ## Numbers that are read -/

namespace Integer

/-- Each digit makes the bound ten times as large. -/
theorem foldl_digits_lt {digits : List Nat} (h : ∀ digit ∈ digits, digit < 10) (total : Nat) :
    digits.foldl (fun total digit => total * 10 + digit) total <
      (total + 1) * Nat.pow 10 digits.length := by
  induction digits generalizing total with
  | nil => exact Nat.lt_of_lt_of_eq (Nat.lt_succ_self total) (Nat.mul_one (total + 1)).symm
  | cons digit digits ih =>
      have hDigit := h digit (List.mem_cons_self ..)
      have hRest := ih (fun other hOther => h other (List.mem_cons_of_mem _ hOther))
        (total * 10 + digit)
      calc digits.foldl (fun total digit => total * 10 + digit) (total * 10 + digit)
          < (total * 10 + digit + 1) * Nat.pow 10 digits.length := hRest
        _ ≤ ((total + 1) * 10) * Nat.pow 10 digits.length := Nat.mul_le_mul_right _ (by omega)
        _ = (total + 1) * (Nat.pow 10 digits.length * 10) := by
          rw [Nat.mul_assoc, Nat.mul_comm 10]

/-- A number of so many digits is less than the power of ten. -/
theorem ofDigits_lt {digits : List Nat} (h : ∀ digit ∈ digits, digit < 10) :
    ofDigits digits < Nat.pow 10 digits.length := by
  have hLt := foldl_digits_lt h 0
  rwa [Nat.zero_add, Nat.one_mul] at hLt

theorem digit_lt {c : Char} (h : c.isDigit = true) : c.toNat - 48 < 10 := by
  simp only [Char.isDigit, Bool.and_eq_true, decide_eq_true_eq] at h
  have hUpper : c.toNat ≤ 57 := h.2
  omega

/-- The number that a text of digits writes is not longer than the text. -/
theorem ofDigits_chars_lt {cs : List Char} (h : ∀ c ∈ cs, c.isDigit = true) {length : Nat}
    (hLength : cs.length ≤ length) :
    ofDigits (cs.map fun c => c.toNat - 48) < Nat.pow 10 length := by
  have hDigits : ∀ digit ∈ cs.map fun c => c.toNat - 48, digit < 10 := by
    intro digit hDigit
    obtain ⟨c, hMem, rfl⟩ := List.mem_map.mp hDigit
    exact digit_lt (h c hMem)
  have hLt := ofDigits_lt hDigits
  rw [List.length_map] at hLt
  exact Nat.lt_of_lt_of_le hLt (Nat.pow_le_pow_right (by decide) hLength)

/-- What is read has no more digits than can be shown. -/
theorem readUnsigned_lt {cs : List Char} {n : Nat} (h : readUnsigned cs = .ok n) :
    n < Nat.pow 10 digitLimit := by
  unfold readUnsigned at h
  dsimp only at h
  split at h
  · cases h
  · split at h
    · cases h
    · next hLength =>
      split at h
      · cases h
        exact ofDigits_chars_lt (fun c hMem => (List.mem_filter.mp hMem).2)
          (Nat.le_of_not_lt hLength)
      · cases h

/-- A number is read from an optional sign and digits, with blanks in front. -/
theorem read_cases {cs : List Char} {n : Int} (h : read cs = .ok n) :
    ∃ (sign rest : List Char) (m : Nat), (plain cs).dropWhile isPadding = sign ++ rest ∧
      (sign = [] ∨ sign = ['-'] ∨ sign = ['+']) ∧ readUnsigned rest = .ok m ∧ n.natAbs = m := by
  have hMap : ∀ {rest : List Char} {change : Int → Int},
      (∀ m, (change m).natAbs = m.natAbs) →
      (do let m ← readUnsigned rest; pure (m : Int) : Except ReadFault Int).map change = .ok n →
      ∃ m, readUnsigned rest = .ok m ∧ n.natAbs = m := by
    intro rest change hChange hRead
    cases hUnsigned : readUnsigned rest with
    | error fault =>
        rw [hUnsigned] at hRead
        cases hRead
    | ok m =>
        rw [hUnsigned] at hRead
        cases hRead
        exact ⟨m, rfl, by rw [hChange, Int.natAbs_natCast]⟩
  unfold read at h
  split at h
  · next rest hText =>
    obtain ⟨m, hUnsigned, hAbs⟩ := hMap Int.natAbs_neg h
    exact ⟨['-'], rest, m, hText, Or.inr (Or.inl rfl), hUnsigned, hAbs⟩
  · next rest hText =>
    obtain ⟨m, hUnsigned, hAbs⟩ := hMap (fun _ => rfl) h
    exact ⟨['+'], rest, m, hText, Or.inr (Or.inr rfl), hUnsigned, hAbs⟩
  · obtain ⟨m, hUnsigned, hAbs⟩ := hMap (fun _ => rfl) h
    exact ⟨[], _, m, rfl, Or.inl rfl, hUnsigned, hAbs⟩

/-- A number that is read can be written. -/
theorem read_natAbs_lt {cs : List Char} {n : Int} (h : read cs = .ok n) :
    n.natAbs < Nat.pow 10 digitLimit := by
  obtain ⟨sign, rest, m, -, -, hUnsigned, hAbs⟩ := read_cases h
  rw [hAbs]
  exact readUnsigned_lt hUnsigned

end Integer

/-! ## Literals -/

/-- A literal as it is found in a source. -/
def Value.Plain : Value → Prop
  | .nothing | .bool _ | .str _ => True
  | .int n => n.natAbs < Nat.pow 10 Integer.digitLimit
  | _ => False

/-- A number below the bound has a text. -/
theorem integerText_ok {n : Int} (h : n.natAbs < Nat.pow 10 Integer.digitLimit) :
    ∃ text, integerText n = .ok text := by
  unfold integerText Integer.text?
  rw [if_pos h]
  exact ⟨_, rfl⟩

/-- A literal of a source has a description. -/
theorem Value.Plain.described {value : Value} (h : value.Plain) : value.Described := by
  unfold Value.Described
  cases value with
  | nothing | bool | str => exact ⟨_, by rw [Value.describe]⟩
  | int n =>
      rw [Value.describe]
      exact integerText_ok h
  | float | list | array | box | function | classDef | object | code => exact absurd h id

/-- A literal of a source can be shown. -/
theorem Value.Plain.shown_ok {value : Value} (h : value.Plain) :
    ∃ text, value.shown .none = .ok text := by
  cases value with
  | nothing | bool | str => exact ⟨_, by rw [Value.shown]⟩
  | int n =>
      rw [Value.shown]
      exact integerText_ok h
  | float | list | array | box | function | classDef | object | code => exact absurd h id

def Token.Plain (token : Token) : Prop := token.literal.Plain

theorem Token.Plain.label_ok {token : Token} (h : token.Plain) :
    ∃ text, token.label = .ok text := by
  obtain ⟨text, hText⟩ := Value.Plain.shown_ok h
  unfold Token.label
  split
  · exact ⟨_, rfl⟩
  · rw [hText]
    exact ⟨_, rfl⟩

/-- The tokens of a source can be listed. -/
theorem Session.tokenLine_ok {tokens : List Token} (h : ∀ token ∈ tokens, token.Plain) :
    ∃ line, Session.tokenLine tokens = .ok line := by
  have hLabels : ∃ labels, tokens.mapM Token.label = .ok labels := by
    induction tokens with
    | nil => exact ⟨[], rfl⟩
    | cons token rest ih =>
        obtain ⟨text, hText⟩ := (h token (List.mem_cons_self ..)).label_ok
        obtain ⟨texts, hTexts⟩ := ih fun other hOther => h other (List.mem_cons_of_mem _ hOther)
        rw [List.mapM_cons, hText, hTexts]
        exact ⟨_, rfl⟩
  obtain ⟨labels, hLabels⟩ := hLabels
  unfold Session.tokenLine
  rw [hLabels]
  exact ⟨_, rfl⟩

/-! ## Scanning -/

namespace Scanner

/-- All tokens found so far have literals as they are found in a source. -/
def Plain (s : Scanner) : Prop := ∀ token ∈ s.tokens, token.Plain

variable {s t : Scanner}

/-- Adding a token with a plain literal keeps all literals plain. -/
theorem plain_emit {kind : TokenKind} {literal : Value} (h : s.Plain) (hLiteral : literal.Plain) :
    (s.emit kind literal).Plain := by
  intro token hToken
  rcases Array.mem_push.mp hToken with hOld | rfl
  · exact h token hOld
  · exact hLiteral

theorem Plain.of_tokens_eq (h : s.Plain) (hTokens : t.tokens = s.tokens) : t.Plain := by
  unfold Plain
  rwa [hTokens]

theorem accept_tokens {expected : Char} (h : s.accept expected = some t) :
    t.tokens = s.tokens := by
  unfold accept at h
  split at h
  · cases h
  · split at h
    · cases h
      rfl
    · cases h

theorem plain_pair {second : Char} {kind : TokenKind} {otherwise : Scanner} (h : s.Plain)
    (hOtherwise : otherwise.Plain) : (s.pair second kind otherwise).Plain := by
  unfold pair
  split
  · next hAccept => exact plain_emit (h.of_tokens_eq (accept_tokens hAccept)) trivial
  · exact hOtherwise

theorem plain_commentOr {second : Char} {kind : TokenKind} (h : s.Plain) :
    (s.commentOr second kind).Plain := by
  unfold commentOr
  split
  · next hAccept =>
    have hTokens := accept_tokens hAccept
    exact h.of_tokens_eq hTokens
  · exact plain_emit h trivial

theorem plain_identifier (h : s.Plain) : s.identifier.Plain := by
  unfold identifier
  dsimp only
  refine plain_emit h ?_
  split <;> exact trivial

theorem plain_skipNumber (h : s.Plain) : s.skipNumber.Plain := by
  unfold skipNumber
  dsimp only
  split
  · split
    · split
      · next hAccept =>
        have hTokens := accept_tokens hAccept
        exact h.of_tokens_eq hTokens
      · exact h
    · exact h
  · exact h

/-- A number that is read from a source is small enough to be shown. -/
theorem plain_number (h : s.Plain) (hNumber : s.number = .ok t) : t.Plain := by
  unfold number at hNumber
  dsimp only at hNumber
  split at hNumber
  · next n hRead =>
    cases hNumber
    exact plain_emit (plain_skipNumber h) (Integer.read_natAbs_lt hRead)
  · cases hNumber
  · cases hNumber

theorem plain_string (h : s.Plain) (hString : s.string = .ok t) : t.Plain := by
  unfold string at hString
  dsimp only at hString
  split at hString
  · cases hString
  · next hAccept =>
    cases hString
    have hTokens := accept_tokens hAccept
    exact plain_emit (h.of_tokens_eq hTokens) trivial

/-- Whatever a token starts with, its literal is plain. -/
theorem plain_scanAfter {c : Char} (h : s.Plain) (hScan : s.scanAfter c = .ok t) : t.Plain := by
  refine scanAfter_cases (motive := Plain) hScan ?emit ?pair ?commentOr ?blank ?newline ?string
    ?number ?identifier
  case emit => exact fun _ => plain_emit h trivial
  case pair => exact fun _ _ _ => plain_pair h
  case commentOr => exact fun _ _ => plain_commentOr h
  case blank => exact h
  case newline => exact h
  case string => exact fun _ => plain_string h
  case number => exact fun _ => plain_number h
  case identifier => exact plain_identifier h

/-- A step adds a token with such a literal, or none. -/
theorem plain_scanToken (h : s.Plain) (hScan : s.scanToken = .ok t) : t.Plain := by
  unfold scanToken advance at hScan
  split at hScan
  · cases hScan
  · next c next hNext =>
    split at hNext
    · cases hNext
    · cases hNext
      refine plain_scanAfter ?_ hScan
      exact h

/-- Scanning to the end: all tokens are plain, and an end mark is the last. -/
theorem plain_scanTokens (h : s.Plain) (hScan : s.scanTokens = .ok t) :
    t.Plain ∧ ∃ front mark, t.tokens.toList = front ++ [mark] ∧ mark.kind = .eof := by
  fun_induction scanTokens s with
  | case1 s hEnd =>
      cases hScan
      refine ⟨?_, s.tokens.toList, ⟨.eof, "", .nothing, s.line, s.column⟩, Array.toList_push, rfl⟩
      intro token hToken
      rcases Array.mem_push.mp hToken with hOld | rfl
      · exact h token hOld
      · exact trivial
  | case2 s hEnd failure hStep => cases hScan
  | case3 s hEnd next hStep ih =>
      have hBegin : s.begin.Plain := h
      exact ih (plain_scanToken hBegin hStep) hScan

end Scanner

variable {source : String} {tokens : List Token}

/-- The tokens of a source have plain literals, and the last one is the end mark. -/
theorem tokenize_scanned (h : tokenize source = .ok tokens) :
    (∀ token ∈ tokens, token.Plain) ∧
      ∃ front mark, tokens = front ++ [mark] ∧ mark.kind = .eof := by
  unfold tokenize at h
  cases hScan : (Scanner.ofChars source.toList).scanTokens with
  | error failure =>
      rw [hScan] at h
      cases h
  | ok s =>
      rw [hScan] at h
      cases h
      have hStart : (Scanner.ofChars source.toList).Plain :=
        fun token hToken => absurd hToken (Array.not_mem_empty token)
      obtain ⟨hPlain, hMark⟩ := Scanner.plain_scanTokens hStart hScan
      exact ⟨fun token hToken => hPlain token (Array.mem_toList_iff.mp hToken), hMark⟩

/-- Every token of a source has a literal as it is found in a source. -/
theorem tokenize_plain (h : tokenize source = .ok tokens) : ∀ token ∈ tokens, token.Plain :=
  (tokenize_scanned h).1

/-- The literals of a source have a description. -/
theorem tokenize_described (h : tokenize source = .ok tokens) :
    ∀ token ∈ tokens, token.Described :=
  fun token hToken => (tokenize_plain h token hToken).described

/-- The tokens of a source end with an end mark. -/
theorem tokenize_ended (h : tokenize source = .ok tokens) :
    ∃ token ∈ tokens, token.kind = .eof := by
  obtain ⟨front, mark, rfl, hMark⟩ := (tokenize_scanned h).2
  exact ⟨mark, List.mem_append_right _ (List.mem_singleton.mpr rfl), hMark⟩

end Mus
