import Mus.Proofs.Machine.Echo
import Mus.Proofs.Session.Unscanned

/-! Sessions that are typed in. A session takes one input after the other. Each line that
can be scanned is parsed and interpreted on the machine that the lines before it have
left, also where these have failed; all other inputs leave the machine alone. Whether a
line was faulty is forgotten before the next one is read. Where sources are run without
this, one faulty source keeps all later ones from being interpreted. -/
namespace Mus

open Mus.Text

/-! ## Leaving a session -/

namespace Text

/-- The small letters of the capitals beyond ASCII are beyond ASCII as well, with one
exception: that of the Kelvin sign is a `k`. -/
theorem capitalRuns_beyond_ascii :
    capitalRuns.all (fun run =>
      decide (128 ≤ run.1 + run.2.2.2) || run == (8490, 8490, 1, -8383)) = true := by
  decide +kernel

/-- What has such a letter of ASCII as its small letter is of ASCII itself. -/
theorem toNat_lt_of_lowerChar {c : Char} (hAscii : (lowerChar c).toNat < 128)
    (hNull : (lowerChar c).toNat ≠ 0) (hKelvin : lowerChar c ≠ 'k') : c.toNat < 128 := by
  by_contra hBeyond
  unfold lowerChar at hAscii hNull hKelvin
  rw [if_neg hBeyond] at hAscii hNull hKelvin
  split at hAscii
  · next run hFind =>
    rw [hFind] at hNull hKelvin
    dsimp only at hNull hKelvin
    have hFirst : run.1 ≤ c.toNat ∧ c.toNat ≤ run.2.1 := by
      have hFound := List.find?_some hFind
      simp only [Bool.and_eq_true, decide_eq_true_eq] at hFound
      exact hFound.1
    have hRun := List.all_eq_true.mp capitalRuns_beyond_ascii run (List.mem_of_find?_eq_some hFind)
    simp only [Bool.or_eq_true, decide_eq_true_eq, beq_iff_eq] at hRun
    rcases hRun with hFar | rfl
    · have hCode (n : Nat) : (Char.ofNat n).toNat = n ∨ (Char.ofNat n).toNat = 0 := by
        by_cases hValid : n.isValidChar
        · exact Or.inl (congrArg Char.toNat (dif_pos hValid))
        · exact Or.inr (congrArg Char.toNat (dif_neg hValid))
      rcases hCode (c.toNat + run.2.2.2).toNat with hSame | hZero
      · rw [hSame] at hAscii
        omega
      · exact hNull hZero
    · have hSign : c.toNat = 8490 := Nat.le_antisymm hFirst.2 hFirst.1
      rw [hSign] at hKelvin
      exact hKelvin (by decide)
  · exact hBeyond hAscii

/-- A letter that can be told by its small letter alone. -/
def isTold (c : Char) : Bool :=
  decide (c.toNat < 128) && c.toNat != 0 && c != 'k'

/-- The letter `k` cannot be told, since a capital beyond ASCII has it as its small letter, too. -/
theorem isTold_iff {c : Char} : isTold c = true ↔ c.toNat < 128 ∧ c.toNat ≠ 0 ∧ c ≠ 'k' := by
  simp [isTold, and_assoc]

/-- A character beyond ASCII leaves one beyond ASCII, or a `k`. -/
theorem exists_mem_lowerAfter {before rest : List Char} {c : Char} (h : 128 ≤ c.toNat) :
    ∃ d ∈ lowerAfter before (c :: rest), isTold d = false := by
  unfold lowerAfter
  dsimp only
  split_ifs with hSigma hFinal hDotted
  · exact ⟨_, List.mem_append_left _ (List.mem_singleton.mpr rfl), by decide⟩
  · exact ⟨_, List.mem_append_left _ (List.mem_singleton.mpr rfl), by decide⟩
  · exact ⟨Char.ofNat 0x307, List.mem_append_left _ (by simp), by decide⟩
  · refine ⟨lowerChar c, List.mem_append_left _ (List.mem_singleton.mpr rfl), ?_⟩
    refine Bool.eq_false_iff.mpr fun hTold => ?_
    obtain ⟨hAscii, hNull, hKelvin⟩ := isTold_iff.mp hTold
    exact absurd (toNat_lt_of_lowerChar hAscii hNull hKelvin) (Nat.not_lt.mpr h)

/-- For a word of such letters, all that has its small letters is the word in other
cases. -/
theorem lowerAfter_eq_iff {before cs word : List Char} (hWord : word.all isTold = true) :
    lowerAfter before cs = word ↔ cs.map Char.toLower = word := by
  induction cs generalizing before word with
  | nil => rfl
  | cons c rest ih =>
      by_cases hAscii : c.toNat < 128
      · have hSmall :
            lowerAfter before (c :: rest) = c.toLower :: lowerAfter (c :: before) rest := by
          have hSigma : c.toNat ≠ 0x3A3 := by omega
          have hDotted : c.toNat ≠ 0x130 := by omega
          rw [lowerAfter, if_neg hSigma, if_neg hDotted, lowerChar, if_pos hAscii]
          rfl
        rw [hSmall, List.map_cons]
        cases word with
        | nil => simp
        | cons first others =>
            rw [List.all_cons, Bool.and_eq_true] at hWord
            rw [List.cons.injEq, List.cons.injEq, ih hWord.2]
      · have hBeyond : 128 ≤ c.toNat := Nat.not_lt.mp hAscii
        constructor
        · rintro rfl
          obtain ⟨d, hMem, hTold⟩ := @exists_mem_lowerAfter before rest c hBeyond
          rw [List.all_eq_true.mp hWord d hMem] at hTold
          cases hTold
        · intro hEq
          have hSame : c.toLower = c := by
            unfold Char.toLower
            refine dif_neg ?_
            rintro ⟨_, hZ⟩
            have hNat : c.toNat ≤ 'Z'.toNat := hZ
            have hZed : 'Z'.toNat = 90 := rfl
            omega
          have hMem : c ∈ word := by
            rw [← hEq, List.map_cons, hSame]
            exact List.mem_cons_self
          have hTold := (isTold_iff.mp (List.all_eq_true.mp hWord c hMem)).1
          omega

end Text

/-- Does the input ask to leave? It is then one of two words, in capitals or small letters. -/
def Input.leaves : Input → Bool
  | .line text => text.toLower == "exit" || text.toLower == "quit"
  | .interrupt | .failure _ => false

/-- Asking to leave is decided by the two words, letter by letter and without regard to case. -/
theorem Session.isExit_eq_leaves (text : String) :
    Session.isExit text = (Input.line text).leaves := by
  have hWord {word : String} (h : word.toList.all isTold = true) :
      (lower text == word) = (text.toLower == word) := by
    have hLower : text.toLower = text.map Char.toLower := rfl
    rw [hLower, Bool.eq_iff_iff, beq_iff_eq, beq_iff_eq, ← String.toList_inj, ← String.toList_inj,
      String.toList_map, lower, String.toList_ofList, lowerAfter_eq_iff h]
  unfold Session.isExit Input.leaves
  rw [hWord (by decide), hWord (by decide)]

/-! ## The programs of the lines -/

/-- The program that an input asks to be run. There is none for an empty line, for one that
cannot be scanned and for a failure to read one. -/
def Input.program? : Input → Option (List Stmt)
  | .line text =>
      if text = "" then none
      else (tokenize text).toOption.bind fun tokens =>
        (parse tokens).toOption.map Program.statements
  | .interrupt | .failure _ => none

/-- The programs of the inputs up to the first one that asks to leave. -/
def Input.programs (inputs : List Input) : List (List Stmt) :=
  (inputs.takeWhile fun input => !input.leaves).filterMap Input.program?

/-- What interpreting a program leaves of a machine, whether or not it fails. -/
def Machine.interpreted (machine : Machine) (statements : List Stmt) : Machine :=
  Run.machineAfter ((do
    let loaded ← Run.load (Stmt.loadAll statements)
    Run.interpret loaded) machine)

section

variable {text : String} {tokens : List Token} {program : Program}

/-- A line that cannot be scanned asks for no program. -/
theorem Input.program?_of_error {failure : Scanner.Failure} (h : tokenize text = .error failure) :
    (Input.line text).program? = none := by
  unfold Input.program?
  dsimp only
  rw [h]
  exact ite_self _

theorem Input.program?_of_ok (hText : text ≠ "") (hTokens : tokenize text = .ok tokens)
    (hParse : parse tokens = .ok program) :
    (Input.line text).program? = some program.statements := by
  unfold Input.program?
  dsimp only
  rw [if_neg hText, hTokens]
  change (parse tokens).toOption.map Program.statements = _
  rw [hParse]
  rfl

/-- Of the lines that are not empty, exactly those that cannot be scanned have no program. -/
theorem Input.program?_eq_none_iff :
    (Input.line text).program? = none ↔
      text = "" ∨ ∃ failure, tokenize text = .error failure := by
  constructor
  · intro h
    by_cases hText : text = ""
    · exact Or.inl hText
    · cases hTokens : tokenize text with
      | error failure => exact Or.inr ⟨failure, rfl⟩
      | ok tokens =>
          obtain ⟨program, hParse⟩ := Session.parse_scanned hTokens
          rw [Input.program?_of_ok hText hTokens hParse] at h
          cases h
  · rintro (rfl | ⟨failure, hFails⟩)
    · rfl
    · exact Input.program?_of_error hFails

/-- A line asks for a program exactly if it is not empty, and can be scanned and parsed. -/
theorem Input.program?_eq_some_iff {statements : List Stmt} :
    (Input.line text).program? = some statements ↔
      text ≠ "" ∧ ∃ tokens program, tokenize text = .ok tokens ∧ parse tokens = .ok program ∧
        program.statements = statements := by
  constructor
  · intro h
    have hNone : ¬(text = "" ∨ ∃ failure, tokenize text = .error failure) := by
      rw [← Input.program?_eq_none_iff, h]
      exact Option.some_ne_none _
    rw [not_or] at hNone
    refine ⟨hNone.1, ?_⟩
    cases hTokens : tokenize text with
    | error failure => exact absurd ⟨failure, hTokens⟩ hNone.2
    | ok tokens =>
        obtain ⟨program, hParse⟩ := Session.parse_scanned hTokens
        rw [Input.program?_of_ok hNone.1 hTokens hParse, Option.some.injEq] at h
        exact ⟨tokens, program, rfl, hParse, h⟩
  · rintro ⟨hText, tokens, program, hTokens, hParse, rfl⟩
    exact Input.program?_of_ok hText hTokens hParse

end

/-- What interpreting leaves does not depend on what has been printed before. -/
theorem Machine.silent_interpreted (machine : Machine) (statements : List Stmt) :
    (machine.interpreted statements).silent = (machine.silent.interpreted statements).silent := by
  have hEchoes : Run.Echoes (do
      let loaded ← Run.load (Stmt.loadAll statements)
      Run.interpret loaded) :=
    Run.echoes_bind (Run.echoes_withStore _) fun loaded => Run.echoes_interpret loaded
  exact hEchoes.silent machine

/-- Programs do the same on machines that differ in what they have printed. -/
theorem Machine.silent_foldl_interpreted (programs : List (List Stmt)) {machine machine' : Machine}
    (h : machine.silent = machine'.silent) :
    (programs.foldl interpreted machine).silent = (programs.foldl interpreted machine').silent := by
  induction programs generalizing machine machine' with
  | nil => exact h
  | cons statements rest ih =>
      refine ih ?_
      rw [silent_interpreted machine, silent_interpreted machine', h]

namespace Session

variable (session : Session)

/-! ## One input -/

/-- Telling what it does changes nothing of a session but what is printed. -/
theorem silent_tell (text : String) :
    (session.tell text).machine.silent = session.machine.silent := by
  unfold tell
  split <;> rfl

theorem silent_fault (fault : Fault) :
    (session.fault fault).machine.silent = session.machine.silent := by
  unfold Session.fault
  split
  · rw [silent_tell]
    rfl
  · split <;> rfl

/-- Up to what is printed, a session interprets as its machine does. -/
theorem silent_interpret (statements : List Stmt) :
    (session.interpret statements).machine.silent =
      (session.machine.interpreted statements).silent := by
  unfold interpret Machine.interpreted
  dsimp only
  split
  · next machine hRun =>
    rw [hRun]
    rfl
  · next failure machine hRun =>
    rw [hRun, silent_fault]
    rfl

/-- A source that cannot be scanned leaves no trace but what is printed. -/
theorem silent_run_unscanned {source : String} {failure : Scanner.Failure}
    (h : tokenize source = .error failure) :
    (session.run source).machine.silent = session.machine.silent := by
  cases hPlace : failure.fault.place? with
  | none =>
      obtain ⟨told, hRun⟩ := exists_run_unplaced session h hPlace
      rw [hRun]
      rfl
  | some place =>
      obtain ⟨told, hRun⟩ := exists_run_placed session h (by rw [hPlace]; rfl)
      rw [hRun]
      rfl

/-- A source that can be scanned is interpreted, unless an earlier one was faulty. -/
theorem silent_run_scanned {source : String} {tokens : List Token} {program : Program}
    (hTokens : tokenize source = .ok tokens) (hParse : parse tokens = .ok program) :
    (session.run source).machine.silent =
      (if session.hadError then session.machine
        else session.machine.interpreted program.statements).silent := by
  obtain ⟨told, hRun⟩ := @exists_run session source tokens program hTokens hParse
  rw [hRun]
  split
  · rfl
  · rw [silent_interpret, Machine.silent_interpreted,
      Machine.silent_interpreted session.machine]
    rfl

variable {session}

/-- An input that does not ask to leave: its program is interpreted if it has one, and no
fault of it is remembered. -/
theorem exists_answer {input : Input} (hStays : input.leaves = false)
    (hFaultless : session.hadError = false) :
    ∃ next, session.answer input = (next, true) ∧ next.hadError = false ∧
      next.machine.silent =
        (input.program?.elim session.machine session.machine.interpreted).silent := by
  cases input with
  | interrupt | failure => exact ⟨_, rfl, hFaultless, rfl⟩
  | line text =>
      have hExit : ¬isExit text = true := by
        rw [isExit_eq_leaves, hStays]
        exact Bool.false_ne_true
      by_cases hText : text = ""
      · refine ⟨session, if_pos hText, hFaultless, ?_⟩
        rw [Input.program?_eq_none_iff.mpr (Or.inl hText)]
        rfl
      · refine ⟨{ session.run text with hadError := false },
          (if_neg hText).trans (if_neg hExit), rfl, ?_⟩
        change (session.run text).machine.silent = _
        cases hTokens : tokenize text with
        | error failure =>
            rw [silent_run_unscanned session hTokens, Input.program?_of_error hTokens]
            rfl
        | ok tokens =>
            obtain ⟨program, hParse⟩ := parse_scanned hTokens
            rw [silent_run_scanned session hTokens hParse, hFaultless,
              Input.program?_of_ok hText hTokens hParse]
            rfl

/-- A request to leave ends the session as it is. -/
theorem answer_of_leaves {input : Input} (h : input.leaves = true) :
    session.answer input = (session, false) := by
  cases input with
  | interrupt | failure => cases h
  | line text =>
      rw [← isExit_eq_leaves] at h
      have hText : text ≠ "" := by
        rintro rfl
        exact absurd h (by decide)
      exact (if_neg hText).trans (if_pos h)

/-! ## All inputs -/

/-- What the session is each time it reads an input or finds that there is none. -/
inductive Reads : Session → List Input → Session → Prop where
  | now {session : Session} {inputs : List Input} : Reads session inputs session.prompt
  | later {session next reading : Session} {input : Input} {rest : List Input}
      (hAnswer : session.prompt.answer input = (next, true)) (hReads : Reads next rest reading) :
      Reads session (input :: rest) reading

/-- No input makes the session stop running sources, by induction on what it reads. -/
theorem Reads.hadError_eq {reading : Session} {inputs : List Input}
    (h : session.Reads inputs reading) (hFaultless : session.hadError = false) :
    reading.hadError = false := by
  induction h with
  | now => exact hFaultless
  | @later session next reading input rest hAnswer hReads ih =>
      refine ih ?_
      cases hLeaves : input.leaves with
      | false =>
          obtain ⟨_, hNext, hNoted, -⟩ := @exists_answer session.prompt input hLeaves hFaultless
          rw [hNext] at hAnswer
          cases hAnswer
          exact hNoted
      | true =>
          rw [answer_of_leaves hLeaves] at hAnswer
          cases hAnswer

/-- The inputs are answered one after the other, up to the first that asks to leave. -/
theorem silent_answerAll (inputs : List Input) (hFaultless : session.hadError = false) :
    (session.answerAll inputs).hadError = false ∧
      (session.answerAll inputs).machine.silent =
        ((Input.programs inputs).foldl Machine.interpreted session.machine).silent := by
  induction inputs generalizing session with
  | nil => exact ⟨hFaultless, rfl⟩
  | cons input rest ih =>
      unfold answerAll Input.programs
      cases hLeaves : input.leaves with
      | true =>
          rw [answer_of_leaves hLeaves, List.takeWhile_cons_of_neg (by rw [hLeaves]; decide)]
          exact ⟨hFaultless, rfl⟩
      | false =>
          obtain ⟨next, hAnswer, hNoted, hMachine⟩ :=
            @exists_answer session.prompt input hLeaves hFaultless
          rw [hAnswer, List.takeWhile_cons_of_pos (by rw [hLeaves]; rfl), List.filterMap_cons]
          obtain ⟨hEnd, hFold⟩ := ih hNoted
          refine ⟨hEnd, hFold.trans ?_⟩
          cases hProgram : input.program? with
          | none =>
              rw [hProgram] at hMachine
              exact Machine.silent_foldl_interpreted _ hMachine
          | some statements =>
              rw [hProgram] at hMachine
              refine Machine.silent_foldl_interpreted _ (hMachine.trans ?_)
              change (session.prompt.machine.interpreted statements).silent =
                (session.machine.interpreted statements).silent
              rw [Machine.silent_interpreted, Machine.silent_interpreted session.machine]
              rfl

/-- After a faulty source no other one is interpreted. -/
theorem silent_run_faulty (source : String) (hFaulty : session.hadError = true) :
    (session.run source).hadError = true ∧
      (session.run source).machine.silent = session.machine.silent := by
  cases hTokens : tokenize source with
  | error failure =>
      refine ⟨?_, silent_run_unscanned session hTokens⟩
      cases hPlace : failure.fault.place? with
      | none =>
          obtain ⟨told, hRun⟩ := exists_run_unplaced session hTokens hPlace
          rw [hRun]
          exact hFaulty
      | some place =>
          obtain ⟨told, hRun⟩ := exists_run_placed session hTokens (by rw [hPlace]; rfl)
          rw [hRun]
  | ok tokens =>
      obtain ⟨program, hParse⟩ := parse_scanned hTokens
      refine ⟨(hadError_run hTokens).trans hFaulty, ?_⟩
      rw [silent_run_scanned session hTokens hParse, hFaulty]
      rfl

/-- Once a source was faulty, no later one is run. -/
theorem silent_runs_faulty (sources : List String) (hFaulty : session.hadError = true) :
    (sources.foldl (fun session source => session.run source) session).machine.silent =
      session.machine.silent := by
  induction sources generalizing session with
  | nil => rfl
  | cons source rest ih =>
      obtain ⟨hStill, hMachine⟩ := silent_run_faulty source hFaulty
      exact (ih hStill).trans hMachine

/-- A session that is typed in does to its machine what interpreting the programs of its
lines one after the other does, each on what the ones before it have left, up to the
first line that asks to leave. Only the empty lines and those that cannot be scanned
have no program. Whenever an input is read, and in the end, the session takes its
sources for faultless. A session that does not never interprets a source again. -/
theorem answerAll_folds_programs (session : Session) (inputs : List Input)
    (hFaultless : session.hadError = false) :
    (session.answerAll inputs).machine.silent =
        ((Input.programs inputs).foldl Machine.interpreted session.machine).silent ∧
      (session.answerAll inputs).hadError = false ∧
      (∀ reading, session.Reads inputs reading → reading.hadError = false) ∧
      (∀ text, (Input.line text).program? = none ↔
        text = "" ∨ ∃ failure, tokenize text = .error failure) ∧
      (∀ text statements, (Input.line text).program? = some statements ↔
        text ≠ "" ∧ ∃ tokens program, tokenize text = .ok tokens ∧
          parse tokens = .ok program ∧ program.statements = statements) ∧
      ∀ (faulty : Session) (sources : List String), faulty.hadError = true →
        (sources.foldl (fun session source => session.run source) faulty).machine.silent =
          faulty.machine.silent := by
  obtain ⟨hEnd, hFold⟩ := silent_answerAll inputs hFaultless
  exact ⟨hFold, hEnd, fun _ hReads => hReads.hadError_eq hFaultless,
    fun _ => Input.program?_eq_none_iff, fun _ _ => Input.program?_eq_some_iff,
    fun _ sources hFaulty => silent_runs_faulty sources hFaulty⟩

/-- Three lines that are run, of which one fails, a line that cannot be scanned, an empty
one, two failures to read, and a line after the one that asks to leave. -/
def typedInputs : List Input :=
  [.line "var x => integer = 1", .line "@", .interrupt, .line "", .line "x()",
    .failure "closed", .line "var y => integer = 2", .line "eXit", .line "var z => integer = 3"]

/-- The three programs are interpreted, and the line after the request to leave is not. In
a session in which a source was faulty nothing is. -/
theorem answerAll_folds_typedInputs :
    (Input.programs typedInputs).length = 3 ∧
      ((start false).answerAll typedInputs).machine.silent =
        ((Input.programs typedInputs).foldl Machine.interpreted (start false).machine).silent ∧
      ((start false).answerAll typedInputs).hadError = false ∧
      (((start false).answerAll typedInputs).machine.store.findVariable? 0 "y").isSome = true ∧
      (((start false).answerAll typedInputs).machine.store.findVariable? 0 "z").isSome = false ∧
      ((start false).run "@").hadError = true ∧
      (((start false).run "@").run "var x => integer = 1").machine.silent =
        ((start false).run "@").machine.silent := by
  obtain ⟨hFold, hEnd, -, -, -, hFaulty⟩ :=
    answerAll_folds_programs (start false) typedInputs rfl
  have hNoted : ((start false).run "@").hadError = true := by decide +kernel
  exact ⟨by decide +kernel, hFold, hEnd, by decide +kernel, by decide +kernel, hNoted,
    hFaulty _ ["var x => integer = 1"] hNoted⟩

end Session

end Mus
