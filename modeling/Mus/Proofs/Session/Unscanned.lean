import Mus.Proofs.Session.Running
import Mus.Proofs.Token.Cut

/-! Sources that cannot be scanned. Scanning stops at the first text that starts no
token. For a character that fits nowhere and for a quotation without an end the
fault has a place, and the session notes it. A number that is not whole, or too
long, is a fault without a place: the session prints a line and goes on as if the
source had been in order. -/
namespace Mus

open Mus.Text

/-- A text before the rest of a source that is made of gaps and lexemes. -/
inductive Scanned (rest : List Char) : List Char → Prop where
  | nil : Scanned rest []
  | gap {gap text : List Char} (hGap : GapBefore (text ++ rest) gap) (hText : Scanned rest text) :
      Scanned rest (gap ++ text)
  | lexeme {lexeme text : List Char} (hLexeme : Longest (text ++ rest) lexeme)
      (hText : Scanned rest text) : Scanned rest (lexeme ++ text)

/-- A text as it is taken for a number: digits, and perhaps a point and more digits. -/
inductive NumberText : List Char → Prop where
  | whole {digits : List Char} (hNonempty : digits ≠ []) (hDigits : digits.all isDigit = true) :
      NumberText digits
  | fraction {digits decimals : List Char} (hNonempty : digits ≠ [])
      (hDigits : digits.all isDigit = true) (hDecimals : decimals ≠ [])
      (hDecimalDigits : decimals.all isDigit = true) : NumberText (digits ++ '.' :: decimals)

/-- The fault that scanning comes to where the rest of a source starts no token. A
line is given by the line ends up to where scanning has come. -/
inductive Unscanned (before : List Char) : List Char → LexFault → Prop where
  | unexpected {c : Char} {rest : List Char} {column : Nat} (hSpecial : c ∉ Token.specials)
      (hDigit : isDigit c = false) (hLetter : ¬(isLetter c = true ∨ c = '_')) :
      Unscanned before (c :: rest) (.unexpected c (1 + before.count '\n') column)
  | unterminated {body : List Char} {column : Nat} (hBody : '\x22' ∉ body) :
      Unscanned before ('\x22' :: body) (.unterminated (1 + (before ++ body).count '\n') column)
  | malformed {text rest : List Char} (hText : NumberText text)
      (hRead : Integer.read text = .error .malformed) :
      Unscanned before (text ++ rest) (.malformedNumber (String.ofList text))
  | tooLong {text rest : List Char} {digits : Nat} (hText : NumberText text)
      (hRead : Integer.read text = .error (.tooLong digits)) :
      Unscanned before (text ++ rest) (.numberTooLong digits)

def LexFault.place? : LexFault → Option (Nat × Nat)
  | .unexpected _ line column | .unterminated line column => some (line, column)
  | .malformedNumber _ | .numberTooLong _ | .pastEnd => none

/-- The line of a fault is a line of the source. -/
theorem Unscanned.line_bounds {before rest : List Char} {fault : LexFault} {line column : Nat}
    (h : Unscanned before rest fault) (hPlace : fault.place? = some (line, column)) :
    1 ≤ line ∧ line ≤ 1 + (before ++ rest).count '\n' := by
  cases h with
  | unexpected =>
      cases hPlace
      rw [List.count_append]
      omega
  | unterminated =>
      cases hPlace
      rw [List.count_append, List.count_append, List.count_cons]
      omega
  | malformed => cases hPlace
  | tooLong => cases hPlace

namespace Scanner

variable {s : Scanner} {c : Char} {rest before : List Char} {failure : Failure}

/-! ## One step of the scanner -/

/-- What is read of a number. -/
theorem exists_skipNumber (hDigit : isDigit c = true) :
    ∃ text more, (s.past [c] rest).skipNumber = s.past text more ∧ c :: rest = text ++ more ∧
      NumberText text := by
  have hWhole : (c :: rest.takeWhile isDigit).all isDigit = true := by
    rw [List.all_cons, hDigit, List.all_takeWhile, Bool.and_self]
  have hRest : c :: rest = c :: rest.takeWhile isDigit ++ rest.dropWhile isDigit := by
    rw [List.cons_append, List.takeWhile_append_dropWhile]
  unfold skipNumber
  dsimp only
  rw [skip_past_eq, past_rest, List.singleton_append]
  split
  · next d more hPoint =>
    rw [hPoint] at hRest ⊢
    by_cases hDecimal : isDigit d = true
    · rw [if_pos hDecimal, accept_past, List.head?_cons, if_pos rfl, List.tail_cons]
      dsimp only
      rw [skip_past_eq]
      refine ⟨_, _, rfl, ?_, ?_⟩
      · rw [hRest, List.append_assoc, List.append_assoc, List.takeWhile_append_dropWhile]
        rfl
      · rw [List.append_assoc]
        refine .fraction (List.cons_ne_nil _ _) hWhole ?_ List.all_takeWhile
        rw [List.takeWhile_cons_of_pos hDecimal]
        exact List.cons_ne_nil _ _
    · rw [if_neg hDecimal]
      exact ⟨_, _, rfl, hRest, .whole (List.cons_ne_nil _ _) hWhole⟩
  · exact ⟨_, _, rfl, hRest, .whole (List.cons_ne_nil _ _) hWhole⟩

/-- A number that cannot be scanned is malformed or has too many digits. -/
theorem unscanned_number (hDigit : isDigit c = true)
    (h : (s.past [c] rest).number = .error failure) :
    Unscanned before (c :: rest) failure.fault := by
  obtain ⟨text, more, hSkip, hText, hNumber⟩ := @exists_skipNumber s c rest hDigit
  unfold number at h
  rw [hSkip] at h
  rw [hText]
  dsimp only [past] at h
  split at h
  · cases h
  · next hRead =>
    cases h
    exact .malformed hNumber hRead
  · next hRead =>
    cases h
    exact .tooLong hNumber hRead

/-- A string cannot be scanned if nothing closes it. The line that is given is the last one of the
source. -/
theorem unscanned_string (hLine : s.line = 1 + before.count '\n')
    (h : (s.past ['\x22'] rest).string = .error failure) :
    Unscanned before ('\x22' :: rest) failure.fault := by
  unfold string at h
  dsimp only [past] at h
  split at h
  · next hClosed =>
    cases h
    -- Without a quote that could be read, what is left is the body.
    have hBody : '\x22' ∉ rest := by
      intro hMem
      cases hDrop : rest.dropWhile (· != '\x22') with
      | nil =>
          have hAll := List.dropWhile_eq_nil_iff.mp hDrop '\x22' hMem
          exact absurd hAll (by decide)
      | cons d more =>
          have hQuote := head?_dropWhile_eq_false (· != '\x22') rest d (by rw [hDrop]; rfl)
          simp only [accept, hDrop] at hClosed
          rw [if_pos (by simpa using hQuote)] at hClosed
          cases hClosed
    have hRun : rest.takeWhile (· != '\x22') = rest := by
      refine List.takeWhile_eq_self_iff.mpr fun d hMem => ?_
      simpa using fun hEq : d = '\x22' => hBody (hEq ▸ hMem)
    rw [hRun, hLine, Nat.add_assoc, ← List.count_append]
    exact .unterminated hBody
  · cases h

/-- A step that fails. -/
theorem unscanned_scanToken (hLexeme : s.lexeme = []) (hRest : s.rest ≠ [])
    (hLine : s.line = 1 + before.count '\n') (h : s.scanToken = .error failure) :
    Unscanned before s.rest failure.fault := by
  obtain ⟨c, rest, hCons⟩ := List.exists_cons_of_ne_nil hRest
  rw [scanToken_cons hLexeme hCons] at h
  rw [hCons]
  by_cases hSpecial : c ∈ Token.specials
  · cases hSymbol : symbol? c with
    | some kind =>
        unfold scanAfter at h
        rw [hSymbol] at h
        cases h
    | none =>
        -- Of the special characters only a quote can be followed by a failure.
        have hSign := sign_of_special hSpecial hSymbol
        simp only [List.mem_cons, List.not_mem_nil, or_false] at hSign
        rcases hSign with rfl | rfl | rfl | rfl | rfl | rfl | rfl | rfl | rfl | rfl | rfl
        case inr.inr.inr.inr.inr.inr.inr.inr.inr.inr => exact unscanned_string hLine h
        all_goals cases h
  · rw [Token.scanAfter_of_not_special hSpecial] at h
    split_ifs at h with hDigit hLetter
    · exact unscanned_number hDigit h
    · cases h
      change Unscanned before (c :: rest) (.unexpected c s.line _)
      rw [hLine]
      exact .unexpected hSpecial (by simpa using hDigit) hLetter

/-! ## Whole runs -/

/-- What a step reads stands in front of what is read after it. -/
theorem Steps.scanned {t : Scanner} (h : Steps s t) :
    ∃ read, s.rest = read ++ t.rest ∧ t.line = s.line + read.count '\n' ∧
      ∀ text rest, t.rest = text ++ rest → Scanned rest text → Scanned rest (read ++ text) := by
  cases h with
  | gap read hRest hLine hTokens hGap =>
      exact ⟨read, hRest, hLine, fun text rest hText => .gap (hText ▸ hGap)⟩
  | token read hRest hLine hTokens hText hNonempty hLongest hClass hStands =>
      exact ⟨read, hRest, hLine, fun text rest hText => .lexeme (hText ▸ hLongest)⟩

/-- A run that fails has read gaps and lexemes up to where it fails. -/
theorem exists_unscanned (hLine : s.line = 1 + before.count '\n')
    (h : s.scanTokens = .error failure) :
    ∃ text rest, s.rest = text ++ rest ∧ Scanned rest text ∧
      Unscanned (before ++ text) rest failure.fault := by
  fun_induction scanTokens s generalizing before with
  | case1 s hEnd => cases h
  | case2 s hEnd fault hStep =>
      cases h
      have hRest : s.rest ≠ [] := fun hNil => hEnd (List.isEmpty_iff.mpr hNil)
      have hFails := @unscanned_scanToken s.begin before failure rfl hRest hLine hStep
      exact ⟨[], s.rest, rfl, .nil, by rwa [List.append_nil]⟩
  | case3 s hEnd next hStep ih =>
      obtain ⟨read, hRest, hLines, hScanned⟩ := (@steps_scanToken s.begin next rfl hStep).scanned
      have hNext : next.line = 1 + (before ++ read).count '\n' := by
        rw [hLines, show s.begin.line = s.line from rfl, hLine, List.count_append, Nat.add_assoc]
      obtain ⟨text, rest, hText, hMore, hFails⟩ := ih hNext h
      refine ⟨read ++ text, rest, ?_, hScanned text rest hText hMore, ?_⟩
      · rw [List.append_assoc, ← hText]
        exact hRest
      · rwa [← List.append_assoc]

end Scanner

variable {source : String} {failure : Scanner.Failure}

/-- A source that cannot be scanned is made of gaps and lexemes up to where no token starts. -/
theorem exists_unscanned_source (h : tokenize source = .error failure) :
    ∃ before rest, source.toList = before ++ rest ∧ Scanned rest before ∧
      Unscanned before rest failure.fault := by
  unfold tokenize at h
  cases hScan : (Scanner.ofChars source.toList).scanTokens with
  | ok s =>
      rw [hScan] at h
      cases h
  | error other =>
      rw [hScan] at h
      cases h
      exact @Scanner.exists_unscanned (Scanner.ofChars source.toList) [] failure rfl hScan

/-! ## Sessions -/

namespace Session

variable (session : Session)

/-- A fault with a place is printed and noted. -/
theorem exists_lexFault_placed {fault : LexFault} (h : fault.place?.isSome = true) :
    ∃ told, session.lexFault fault = { session.printed told with hadError := true } := by
  have hError (line column : Int) (message details : String) :
      ∃ told, (session.error line column message).tell details =
        { session.printed told with hadError := true } := by
    obtain ⟨told, hTell⟩ := (session.error line column message).exists_tell details
    obtain ⟨report, hReport⟩ : ∃ report, session.error line column message =
        { session.printed report with hadError := true } := ⟨_, rfl⟩
    refine ⟨report ++ told, ?_⟩
    rw [← printed_printed, hTell, hReport]
    rfl
  cases fault with
  | unexpected c line column => exact hError ..
  | unterminated line column => exact hError ..
  | malformedNumber | numberTooLong | pastEnd => cases h

/-- A fault without a place is reported as unexpected, and the source does not count as faulty. -/
theorem lexFault_unplaced {fault : LexFault} (h : fault.place? = none) :
    session.lexFault fault = session.printed ("Unexpected error: " ++ fault.message ++ "\n") := by
  cases fault with
  | unexpected c line column => cases h
  | unterminated line column => cases h
  | malformedNumber | numberTooLong | pastEnd => rfl

/-- Nothing is run of a source that cannot be scanned, and its fault is reported. -/
theorem run_of_error (h : tokenize source = .error failure) :
    session.run source = (session.tell "\nLexical analysis...").lexFault failure.fault := by
  unfold run
  rw [h]

/-- A fault with a place makes the source faulty. -/
theorem exists_run_placed (h : tokenize source = .error failure)
    (hPlace : failure.fault.place?.isSome = true) :
    ∃ told, session.run source = { session.printed told with hadError := true } := by
  obtain ⟨told, hTell⟩ := session.exists_tell "\nLexical analysis..."
  obtain ⟨report, hReport⟩ := (session.printed told).exists_lexFault_placed hPlace
  rw [run_of_error session h, hTell, hReport, printed_printed]
  exact ⟨_, rfl⟩

/-- A fault without a place leaves the session as it was, up to what is printed. -/
theorem exists_run_unplaced (h : tokenize source = .error failure)
    (hPlace : failure.fault.place? = none) :
    ∃ told, session.run source =
      session.printed (told ++ ("Unexpected error: " ++ failure.fault.message ++ "\n")) := by
  obtain ⟨told, hTell⟩ := session.exists_tell "\nLexical analysis..."
  rw [run_of_error session h, hTell, lexFault_unplaced _ hPlace, printed_printed]
  exact ⟨told, rfl⟩

/-- What becomes of a source that cannot be scanned. Scanning stops where the rest of
the source starts no token. If the fault has a place, its line is a line of the
source, the session notes that a source was faulty, and a file ends with the exit
code 65. If it has none, a number was at fault; the session prints a line and
notes nothing, and a file ends with the exit code of what was run before. -/
theorem run_unscanned (hFails : tokenize source = .error failure) :
    (∃ before rest, source.toList = before ++ rest ∧ Scanned rest before ∧
      Unscanned before rest failure.fault) ∧
    (∀ line column, failure.fault.place? = some (line, column) →
      (1 ≤ line ∧ line ≤ 1 + source.toList.count '\n') ∧
      ∀ session : Session,
        (∃ told, session.run source = { session.printed told with hadError := true }) ∧
        ∀ (path : String) (bytes : Except Source.FileFault (List Nat)),
          bytes.bind Source.textOfBytes = .ok source →
            (session.runFile path bytes).2 = some 65) ∧
    (failure.fault.place? = none →
      ∀ session : Session,
        (∃ told, session.run source =
          session.printed (told ++ ("Unexpected error: " ++ failure.fault.message ++ "\n"))) ∧
        ∀ (path : String) (bytes : Except Source.FileFault (List Nat)),
          bytes.bind Source.textOfBytes = .ok source →
            (session.runFile path bytes).2 = session.exitCode?) := by
  obtain ⟨before, rest, hSource, hScanned, hStops⟩ := exists_unscanned_source hFails
  refine ⟨⟨before, rest, hSource, hScanned, hStops⟩, ?_, ?_⟩
  · intro line column hPlace
    have hPlaced : failure.fault.place?.isSome = true := by
      rw [hPlace]
      rfl
    refine ⟨hSource ▸ hStops.line_bounds hPlace, fun session => ?_⟩
    refine ⟨exists_run_placed session hFails hPlaced, fun path bytes hBytes => ?_⟩
    obtain ⟨told, hFile⟩ := session.exists_runFile hBytes
    obtain ⟨report, hRun⟩ := exists_run_placed (session.printed told) hFails hPlaced
    rw [hFile, exitCode?_eq, hRun]
  · intro hPlace session
    refine ⟨exists_run_unplaced session hFails hPlace, fun path bytes hBytes => ?_⟩
    obtain ⟨told, hFile⟩ := session.exists_runFile hBytes
    obtain ⟨report, hRun⟩ := exists_run_unplaced (session.printed told) hFails hPlace
    rw [hFile, hRun]
    rfl

/-- A number with a fraction is taken for a number and cannot be read as one. The file
that holds it ends well. -/
theorem run_unscanned_fraction :
    ∃ failure, tokenize "1.5" = .error failure ∧ failure.fault = .malformedNumber "1.5" ∧
      (∃ before rest, "1.5".toList = before ++ rest ∧ Scanned rest before ∧
        Unscanned before rest failure.fault) ∧
      (∃ told, (start false).run "1.5" =
        (start false).printed (told ++ ("Unexpected error: " ++ failure.fault.message ++ "\n"))) ∧
      ((start false).runFile "p.mus" (.ok [49, 46, 53])).2 = none := by
  have hFails : tokenize "1.5" =
      .error ⟨.malformedNumber "1.5", ⟨3, ['1', '.', '5'], [], 1, 4, #[]⟩⟩ := by
    with_unfolding_all rfl
  have hBytes : (Except.ok [49, 46, 53]).bind Source.textOfBytes = .ok "1.5" := by
    with_unfolding_all rfl
  obtain ⟨hStops, -, hUnplaced⟩ := run_unscanned hFails
  obtain ⟨hRun, hFile⟩ := hUnplaced rfl (start false)
  exact ⟨_, hFails, rfl, hStops, hRun, hFile "p.mus" _ hBytes⟩

end Session

end Mus
