import Mus.Proofs.Machine.Closed
import Mus.Syntax.Parser.Statement

/-! The step of a counting loop. It is written at the end of the body, and where the body is
a block it is evaluated in the scope of that block. A loop that gives the body a scope of its
own and evaluates the step outside of it does the same, unless the resolution table leads a
name of the step into the scope of the body, or one of the body out of the loop. -/
namespace Mus

/-- The counting loop whose body is a statement of its own, followed by the step. -/
def steppedLoop (iterator : String) (start condition increment : Expr) (body : Stmt) : Stmt :=
  .block [.varDecl ⟨iterator, "integer", some start, ⟨.identifier, iterator, .nothing, 0, 0⟩⟩,
    .loop condition (.block [body, .expression increment])]

/-- A name of the body leads at most to the scope just outside of the loop, and to this one
only if it is not the iterator. The superclass is the same if the body declares no class. -/
def InLoop (iterator : String) (statements : List Stmt) (depth distance : Nat) : Expr → Prop
  | .variable name _ => distance ≤ depth ∨ distance = depth + 1 ∧ name ≠ iterator
  | .this _ => distance ≤ depth ∨ distance = depth + 1 ∧ "this" ≠ iterator
  | .super .. => .classes ∉ Stmt.definesAll statements
  | _ => True

/-- A name of the step leads out of the scope of the body, unless the body does not declare it.
The superclass is the same if the body declares neither its name nor a class. -/
def OutOfBody (statements : List Stmt) (distance : Nat) : Expr → Prop
  | .variable name _ => 0 < distance ∨ .binding name ∉ Stmt.definesAll statements
  | .this _ => 0 < distance ∨ .binding "this" ∉ Stmt.definesAll statements
  | .super .. => .binding "super" ∉ Stmt.definesAll statements ∧
      .classes ∉ Stmt.definesAll statements
  | _ => True

instance (iterator : String) (statements : List Stmt) (depth distance : Nat) :
    DecidablePred (InLoop iterator statements depth distance)
  | .variable name _ =>
      inferInstanceAs (Decidable (distance ≤ depth ∨ distance = depth + 1 ∧ name ≠ iterator))
  | .this _ =>
      inferInstanceAs (Decidable (distance ≤ depth ∨ distance = depth + 1 ∧ "this" ≠ iterator))
  | .super .. => inferInstanceAs (Decidable (.classes ∉ Stmt.definesAll statements))
  | .base | .stray _ | .literal .. | .binary .. | .unary .. | .call .. | .get .. | .set .. =>
      .isTrue trivial

instance (statements : List Stmt) (distance : Nat) : DecidablePred (OutOfBody statements distance)
  | .variable name _ =>
      inferInstanceAs (Decidable (0 < distance ∨ .binding name ∉ Stmt.definesAll statements))
  | .this _ =>
      inferInstanceAs (Decidable (0 < distance ∨ .binding "this" ∉ Stmt.definesAll statements))
  | .super .. =>
      inferInstanceAs (Decidable (.binding "super" ∉ Stmt.definesAll statements ∧
        .classes ∉ Stmt.definesAll statements))
  | .base | .stray _ | .literal .. | .binary .. | .unary .. | .call .. | .get .. | .set .. =>
      .isTrue trivial

/-- The table keeps the step apart from the body: what is noted about the body stays in the
loop, and what is noted about the step leads out of the body. -/
structure StepApart (table : List (Expr × Int)) (iterator : String) (statements : List Stmt)
    (increment : Expr) : Prop where
  body : ∀ name ∈ (Stmt.block statements).names, ∀ distance, Noted table name.2 distance →
    InLoop iterator statements name.1 distance name.2
  step : ∀ name ∈ increment.names, ∀ distance, Noted table name.2 distance →
    OutOfBody statements distance name.2

/-- The machine in a new scope inside the given one. -/
def Machine.entered (machine : Machine) (scope : Nat) : Machine :=
  { machine with
    store := (machine.store.addScope { parent := some scope }).2
    current := machine.store.scopes.size }

namespace Run

open World

variable {w : World} {view : View} {room extra : Nat}

/-! ## Statements in their order -/

/-- Statements are executed after those in front of them, with one unit of fuel less for each. -/
theorem executeAll_append (fuel room : Nat) (front back : List Stmt) :
    executeAll fuel room (front ++ back) =
      executeAll fuel room front >>= fun _ => executeAll (fuel - front.length) room back := by
  induction front generalizing fuel with
  | nil =>
      cases fuel with
      | zero =>
          rw [executeAll, executeAll]
          rfl
      | succ fuel =>
          rw [executeAll, pure_bind]
          rfl
  | cons stmt front ih =>
      cases fuel with
      | zero =>
          rw [executeAll, executeAll]
          rfl
      | succ fuel =>
          rw [List.cons_append, executeAll, executeAll, ih, bind_assoc, List.length_cons,
            Nat.add_sub_add_right]

/-- A block is executed in a new scope in which nothing is declared at first. -/
theorem execute_block (fuel room : Nat) (body : List Stmt) :
    execute (fuel + 1) room (.block body) = within (fun _ store => store)
      (executeAll fuel room body) := by
  rw [execute]
  rfl

/-- Without fuel the first machine corresponds to any other, so that it is enough to look at the
runs of both that have some. -/
theorem sim_of_succ {stmt stmt' : Stmt} (h : ∀ fuel, Sim w view Any
      (execute (fuel + 1) room stmt) (execute (extra + fuel + 1) room stmt')) (fuel : Nat) :
    Sim w view Any (execute fuel room stmt) (execute (extra + fuel) room stmt') := by
  cases fuel with
  | zero =>
      rw [execute]
      exact sim_outOfFuel _
  | succ fuel => exact h fuel

/-- Nothing is left to execute on either side. -/
theorem sim_nil (fuel : Nat) :
    Sim w view Any (executeAll fuel room []) (executeAll (extra + fuel) room []) := by
  cases fuel with
  | zero =>
      rw [executeAll]
      exact sim_outOfFuel _
  | succ fuel =>
      rw [← Nat.add_assoc, executeAll, executeAll]
      exact sim_any _

/-- Statements correspond if their first ones do and the others in every later world. -/
theorem sim_cons {stmt stmt' : Stmt} {rest rest' : List Stmt}
    (hFirst : ∀ fuel, Sim w view Any (execute fuel room stmt) (execute (extra + fuel) room stmt'))
    (hRest : ∀ w', w ≤ w' → ∀ fuel, Sim w' view Any (executeAll fuel room rest)
      (executeAll (extra + fuel) room rest')) (fuel : Nat) :
    Sim w view Any (executeAll fuel room (stmt :: rest))
      (executeAll (extra + fuel) room (stmt' :: rest')) := by
  cases fuel with
  | zero =>
      rw [executeAll]
      exact sim_outOfFuel _
  | succ fuel =>
      rw [← Nat.add_assoc, executeAll, executeAll]
      exact sim_bind (hFirst fuel) fun w' hLe _ _ => hRest w' hLe fuel

/-- An expression as a statement does the same wherever the machines stand. -/
theorem sim_step {e : Expr} (hExpr : w.Covers e.places) (hClear : Clear w view e.names)
    (room extra fuel : Nat) :
    Sim w view Any (executeAll fuel room [.expression e])
      (executeAll (extra + fuel) room [.expression e]) := by
  refine sim_cons (sim_of_succ fun fuel => ?_) (fun _ _ => sim_nil) fuel
  rw [execute, execute]
  exact sim_bind (sim_evaluate extra fuel room w view e hExpr hClear) fun _ _ _ _ => sim_any _

/-! ## One turn of the loop -/

mutual

/-- An expression is evaluated where it stands. -/
theorem depth_of_mem_names : ∀ (e : Expr), ∀ name ∈ e.names, name.1 = 0
  | .variable _ _, name, hName | .this _, name, hName | .super _ _, name, hName => by
      rw [Expr.names, List.mem_singleton] at hName
      rw [hName]
  | .binary left _ right, name, hName | .set left _ right _, name, hName => by
      rw [Expr.names, List.mem_append] at hName
      exact hName.elim (depth_of_mem_names left name) (depth_of_mem_names right name)
  | .unary _ right, name, hName | .get right _ _, name, hName => by
      rw [Expr.names] at hName
      exact depth_of_mem_names right name hName
  | .call callee arguments _, name, hName => by
      rw [Expr.names, List.mem_append] at hName
      exact hName.elim (depth_of_mem_names callee name) (depth_of_mem_namesAll arguments name)
  | .base, name, hName | .stray _, name, hName | .literal .., name, hName => by
      rw [Expr.names] at hName
      cases hName

theorem depth_of_mem_namesAll : ∀ (es : List Expr), ∀ name ∈ Expr.namesAll es, name.1 = 0
  | [], name, hName => by
      rw [Expr.namesAll] at hName
      cases hName
  | e :: rest, name, hName => by
      rw [Expr.namesAll, List.mem_append] at hName
      exact hName.elim (depth_of_mem_names e name) (depth_of_mem_namesAll rest name)

end

section

variable {iterator : String} {statements : List Stmt} {increment : Expr}

/-- What the scope of the loop lacks: all variables but the iterator. -/
def loopLacks (iterator : String) (sought : Sought) : Prop :=
  ∃ name, sought = .binding name ∧ name ≠ iterator

/-- What the scope of the body lacks: all that the body does not declare. -/
def bodyLacks (statements : List Stmt) (sought : Sought) : Prop :=
  sought ∉ Stmt.definesAll statements

section

variable {w' : World} {loop inner inner' outer outer' : Nat}
    (hBetween : Matches.Between w loop (bodyLacks statements) w' inner inner' outer outer')

include hBetween

/-- What the body declares may be put into its scope. -/
theorem allowed_body : Allowed w' inner (Stmt.definesAll statements) :=
  fun sought hMem hLacks => (hBetween.lacks sought).mp hLacks hMem

variable (hApart : StepApart view.locals iterator statements increment)

include hApart

/-- The body does the same in the scopes that belong together. -/
theorem clear_body (hLoop : ∀ sought, loopLacks iterator sought → w.lacks loop sought) :
    Clear w' (view.at inner inner') (Stmt.namesAll statements) := by
  intro name hName distance hNoted
  have hMem : (name.1 + 1, name.2) ∈ (Stmt.block statements).names := by
    rw [Stmt.names]
    exact List.mem_map_of_mem hName
  have hInLoop := hApart.body _ hMem distance hNoted
  have hVariable {key : String} (hNear : distance ≤ name.1 + 1 ∨
      distance = name.1 + 1 + 1 ∧ key ≠ iterator) :
      distance < name.1 ∨ w'.sees inner inner' (distance - name.1) (.binding key) := by
    rcases hNear with hNear | ⟨rfl, hOther⟩
    · exact Or.inr (hBetween.near key (Nat.sub_le_iff_le_add'.mpr hNear))
    · have hTwo : name.1 + 1 + 1 - name.1 = 2 := by omega
      rw [hTwo]
      exact Or.inr (hBetween.past (hLoop _ ⟨key, rfl, hOther⟩))
  refine Or.inr ?_
  obtain ⟨depth, e⟩ := name
  cases e with
  | «variable» => exact hVariable hInLoop
  | this => exact hVariable hInLoop
  | super =>
      exact ⟨Or.inr (hBetween.near "super" (Nat.zero_le 1)), hBetween.classes hInLoop,
        fun _ => (hBetween.lacks .classes).mpr hInLoop⟩
  | _ => trivial

/-- The step does the same in the scope of the body and outside of it. -/
theorem clear_step : Clear w' (view.at outer outer') increment.names := by
  intro name hName distance hNoted
  have hOut := hApart.step name hName distance hNoted
  have hVariable {key : String} (hApart : 0 < distance ∨ bodyLacks statements (.binding key)) :
      distance < 0 ∨ w'.sees outer outer' (distance - 0) (.binding key) := by
    rcases Nat.eq_zero_or_pos distance with rfl | hFar
    · exact Or.inr (hBetween.same (hApart.resolve_left (Nat.lt_irrefl 0)))
    · exact Or.inr (hBetween.beyond _ hFar)
  refine Or.inr ?_
  rw [depth_of_mem_names increment name hName]
  obtain ⟨depth, e⟩ := name
  cases e with
  | «variable» => exact hVariable hOut
  | this => exact hVariable hOut
  | super =>
      exact ⟨Or.inr (hBetween.same hOut.1), hBetween.same hOut.2,
        fun hDepth => absurd hDepth (Nat.lt_irrefl 0)⟩
  | _ => trivial

end

/-- The step with more fuel. -/
theorem sim_step_of_le (hStep : w.Covers increment.places)
    (hClear : Clear w view increment.names) (room : Nat) {fuel fuel' : Nat}
    (hFuel : fuel ≤ fuel') :
    Sim w view Any (executeAll fuel room [.expression increment])
      (executeAll fuel' room [.expression increment]) := by
  have hSim := sim_step hStep hClear room (fuel' - fuel) fuel
  rwa [Nat.sub_add_cancel hFuel] at hSim

variable (hApart : StepApart view.locals iterator statements increment)
    (hBody : w.Covers (Stmt.placesAll statements)) (hStep : w.Covers increment.places)
    (hJoined : w.Joined view.current view.current')
    (hLoop : ∀ sought, loopLacks iterator sought → w.lacks view.current sought)

include hApart hBody hStep hJoined hLoop

/-- A turn with the step in the scope of the body, and one with the step outside of it. The
second machine opens a scope more. -/
theorem sim_turn_apart (room fuel : Nat) :
    Sim w view Any (execute fuel room (.block (statements ++ [.expression increment])))
      (execute (2 + fuel) room (.block [.block statements, .expression increment])) := by
  refine sim_of_succ (fun fuel => ?_) fuel
  intro w' hLe m m' hRelated
  obtain ⟨w₁, hLe₁, hStore, hBetween⟩ :=
    hRelated.store.addBetweenRight (hJoined.mono hLe) (bodyLacks statements)
  have hLe₁' := le_trans hLe hLe₁
  have hClear := clear_body hBetween hApart fun sought hLacks => hLe.lacks (hLoop sought hLacks)
  have hTurn := sim_executeAll 0 fuel room w₁ _ statements hBetween.paired
    (hBody.mono hLe₁') hClear (allowed_body hBetween) w₁ w₁.le_refl _ _
    (hRelated.move hLe₁ hStore _ _)
  rw [Nat.zero_add] at hTurn
  have hBlock : Agree w₁ (view.at m.store.scopes.size m'.store.scopes.size) Any
      (executeAll fuel room statements (m.entered view.current))
      (execute (fuel + 1) room (.block statements) (m'.entered view.current')) := by
    rw [execute_block, within_apply, inScope_apply]
    exact hTurn.moved_right m'.store.scopes.size
  have hAgree := agree_inScope hRelated (agree_bind hBlock fun w₂ hLe₂ _ _ =>
    sim_step_of_le (hStep.mono (le_trans hLe₁' hLe₂)) ((clear_step hBetween hApart).mono hLe₂)
      room (Nat.le_succ_of_le (Nat.sub_le fuel statements.length))) hLe₁
  have hFuel : 2 + fuel + 1 = fuel + 1 + 1 + 1 := by omega
  rw [hFuel, execute_block, execute_block, executeAll, executeAll_append]
  simpa only [within_apply, hRelated.current, hRelated.current'] using hAgree

/-- A turn with the step outside of the scope of the body, and one with the step in it. The
first machine opens a scope more. -/
theorem sim_turn_merged (room fuel : Nat) :
    Sim w view Any (execute fuel room (.block [.block statements, .expression increment]))
      (execute (statements.length + fuel) room
        (.block (statements ++ [.expression increment]))) := by
  refine sim_of_succ (fun fuel => ?_) fuel
  intro w' hLe m m' hRelated
  obtain ⟨w₁, hLe₁, hStore, hBetween⟩ :=
    hRelated.store.addBetweenLeft (hJoined.mono hLe) (bodyLacks statements)
  have hLe₁' := le_trans hLe hLe₁
  have hClear := clear_body hBetween hApart fun sought hLacks => hLe.lacks (hLoop sought hLacks)
  have hBlock (fuel : Nat) : Agree w₁ (view.at m.store.scopes.size m'.store.scopes.size) Any
      (execute fuel room (.block statements) (m.entered view.current))
      (executeAll (statements.length + (fuel + 1)) room statements
        (m'.entered view.current')) := by
    cases fuel with
    | zero =>
        rw [execute]
        exact .outOfFuel _
    | succ fuel =>
        have hTurn := sim_executeAll (statements.length + 2) fuel room w₁ _ statements
          hBetween.paired (hBody.mono hLe₁') hClear (allowed_body hBetween) w₁
          w₁.le_refl _ _ (hRelated.move hLe₁ hStore _ _)
        have hFuel : statements.length + (fuel + 1 + 1) = statements.length + 2 + fuel := by
          omega
        rw [hFuel, execute_block, within_apply, inScope_apply]
        exact hTurn.moved_left m.store.scopes.size
  have hInside : Agree w₁ (view.at m.store.scopes.size m'.store.scopes.size) Any
      (executeAll fuel room [.block statements, .expression increment] (m.entered view.current))
      (executeAll (statements.length + fuel) room (statements ++ [.expression increment])
        (m'.entered view.current')) := by
    cases fuel with
    | zero =>
        rw [executeAll]
        exact .outOfFuel _
    | succ fuel =>
        rw [executeAll, executeAll_append, Nat.add_sub_cancel_left]
        exact agree_bind (hBlock fuel) fun w₂ hLe₂ _ _ =>
          sim_step_of_le (hStep.mono (le_trans hLe₁' hLe₂))
            ((clear_step hBetween hApart).mono hLe₂) room (Nat.le_succ fuel)
  have hAgree := agree_inScope hRelated hInside hLe₁
  rw [execute_block, execute_block]
  simpa only [within_apply, hRelated.current, hRelated.current'] using hAgree

end

/-! ## The whole loop -/

/-- Loops whose bodies do the same do the same. -/
theorem sim_loop {condition : Expr} {body body' : Stmt} (hCondition : w.Covers condition.places)
    (hClear : Clear w view condition.names)
    (hTurn : ∀ w', w ≤ w' → ∀ fuel, Sim w' view Any (execute fuel room body)
      (execute (extra + fuel) room body')) (fuel : Nat) :
    Sim w view Any (execute fuel room (.loop condition body))
      (execute (extra + fuel) room (.loop condition body')) := by
  have hRepeat (fuel : Nat) : ∀ w', w ≤ w' → Sim w' view Any
      (repeatWhile fuel room condition body) (repeatWhile (extra + fuel) room condition body') := by
    -- each turn uses one of the fuel, so the turns are counted by it
    induction fuel with
    | zero =>
        intro w' _
        rw [repeatWhile]
        exact sim_outOfFuel _
    | succ fuel ih =>
        intro w' hLe
        rw [← Nat.add_assoc, repeatWhile, repeatWhile]
        refine sim_bind (sim_evaluate extra fuel room w' view condition (hCondition.mono hLe)
          (hClear.mono hLe)) fun w₁ hLe₁ value _ => ?_
        have hLe₁' := le_trans hLe hLe₁
        split
        · exact sim_bind (hTurn w₁ hLe₁' fuel) fun w₂ hLe₂ _ _ => ih w₂ (le_trans hLe₁' hLe₂)
        · exact sim_any _
  refine sim_of_succ (fun fuel => ?_) fuel
  rw [execute, execute]
  exact hRepeat fuel w w.le_refl

/-- A declaration and a loop in a block of their own. -/
theorem sim_declaredLoop {decl : VarDecl} {condition : Expr} {body body' : Stmt}
    (hJoined : w.Joined view.current view.current')
    (hDecl : w.Covers (Stmt.varDecl decl).places) (hCondition : w.Covers condition.places)
    (hTurn : ∀ w' s t, w ≤ w' → w'.Joined s t →
      (∀ sought, loopLacks decl.name sought → w'.lacks s sought) → ∀ fuel,
      Sim w' (view.at s t) Any (execute fuel room body) (execute (extra + fuel) room body'))
    (fuel : Nat) :
    Sim w view Any (execute fuel room (.block [.varDecl decl, .loop condition body]))
      (execute (extra + fuel) room (.block [.varDecl decl, .loop condition body'])) := by
  refine sim_of_succ (fun fuel => ?_) fuel
  rw [execute_block, execute_block]
  refine sim_within hJoined.1 (loopLacks decl.name) (fun _ _ _ _ _ _ hMatches _ => hMatches)
    fun w₁ s t hLe₁ hInside => ?_
  have hLoop := hInside.joined hJoined
  have hAllowed : Allowed w₁ s (Stmt.varDecl decl).defines := by
    rw [Stmt.defines]
    intro sought hMem hLacks
    obtain ⟨name, rfl, hOther⟩ := (hInside.lacks sought).mp hLacks
    cases List.mem_singleton.mp hMem
    exact hOther rfl
  refine sim_cons (fun fuel => sim_execute extra fuel room w₁ _ _ hInside.paired
    (hDecl.mono hLe₁) (clear_of_joined hLoop _) hAllowed)
    (fun w₂ hLe₂ => sim_cons ?_ fun _ _ => sim_nil) fuel
  have hLe₂' := le_trans hLe₁ hLe₂
  exact sim_loop (hCondition.mono hLe₂')
    (clear_of_joined (hLoop.mono hLe₂) _) fun w₃ hLe₃ =>
      hTurn w₃ s t (le_trans hLe₂' hLe₃) (hLoop.mono (le_trans hLe₂ hLe₃)) fun sought hLacks =>
        (le_trans hLe₂ hLe₃).lacks ((hInside.lacks sought).mpr hLacks)

end Run

open Run

/-- A body that is no block stands beside the step already. -/
theorem countingLoop_eq_steppedLoop (iterator : String) (start condition increment : Expr)
    {body : Stmt} (hBody : ∀ statements, body ≠ .block statements) :
    Parse.countingLoop iterator start condition increment body =
      steppedLoop iterator start condition increment body := by
  cases body with
  | block statements => exact absurd rfl (hBody statements)
  | _ => rfl

/-- What the code of a counting loop refers to, by its parts. -/
theorem covers_countingLoop {w : World} {iterator : String} {start condition increment : Expr}
    {statements : List Stmt}
    (h : w.Covers
      (Parse.countingLoop iterator start condition increment (.block statements)).places) :
    w.Covers (Stmt.varDecl ⟨iterator, "integer", some start,
        ⟨.identifier, iterator, .nothing, 0, 0⟩⟩).places ∧
      w.Covers condition.places ∧ w.Covers (Stmt.placesAll statements) ∧
      w.Covers increment.places := by
  have hParts : (Parse.countingLoop iterator start condition increment (.block statements)).places =
      (Stmt.varDecl ⟨iterator, "integer", some start,
        ⟨.identifier, iterator, .nothing, 0, 0⟩⟩).places ++
      (condition.places ++ (Stmt.placesAll statements ++ increment.places)) := by
    simp [Parse.countingLoop, Stmt.places, Stmt.placesAll, Stmt.placesAll_eq]
  rw [hParts] at h
  simpa only [World.covers_append] using h

/-- A counting loop does what the loop does whose step stands outside of the body: it ends
with the same fault or none, prints the same, and leaves the same globals, functions, classes,
objects and cells; where one of the two never ends, the other one does not end either. -/
theorem countingLoop_hygienic (iterator : String) (start condition increment : Expr)
    (body : Stmt) (room : Nat) (machine : Machine)
    (hClosed : machine.Closed
      (Parse.countingLoop iterator start condition increment body).places)
    (hApart : ∀ statements, body = .block statements →
      StepApart machine.locals iterator statements increment) (observation : Observation) :
    (∃ fuel, observe (execute fuel room
        (Parse.countingLoop iterator start condition increment body) machine) =
          some observation) ↔
      ∃ fuel, observe (execute fuel room
        (steppedLoop iterator start condition increment body) machine) = some observation := by
  by_cases hBody : ∃ statements, body = .block statements
  · obtain ⟨statements, rfl⟩ := hBody
    have hNames := hApart statements rfl
    obtain ⟨hDecl, hCondition, hStatements, hStep⟩ :=
      covers_countingLoop (machine.covers_code
        (Parse.countingLoop iterator start condition increment (.block statements)).places)
    have hJoined := machine.joined_current
      (Parse.countingLoop iterator start condition increment (.block statements)).places
    have hApartTurn := sim_declaredLoop hJoined hDecl hCondition fun w s t hLe hLoop hLacks =>
      sim_turn_apart hNames (hStatements.mono hLe) (hStep.mono hLe) hLoop hLacks room
    have hMergedTurn := sim_declaredLoop hJoined hDecl hCondition fun w s t hLe hLoop hLacks =>
      sim_turn_merged hNames (hStatements.mono hLe) (hStep.mono hLe) hLoop hLacks room
    constructor
    · rintro ⟨fuel, hEnd⟩
      exact ⟨2 + fuel, (hApartTurn fuel _ (World.le_refl _) _ _ hClosed.related).observe hEnd⟩
    · rintro ⟨fuel, hEnd⟩
      exact ⟨statements.length + fuel,
        (hMergedTurn fuel _ (World.le_refl _) _ _ hClosed.related).observe hEnd⟩
  · rw [countingLoop_eq_steppedLoop iterator start condition increment
      fun statements hBlock => hBody ⟨statements, hBlock⟩]

/-! ## Loops that shadow

Both loops stand in one line, `for (i = 0; true; 1 / i) …` and `for (i = 0; true; 1 / x) …`,
and declare the name of the step in the body. -/

def wordAt (name : String) (column : Nat) : Token := ⟨.identifier, name, .nothing, 1, column⟩

def numberAt (n : Int) (column : Nat) : Expr :=
  .literal (.int n) ⟨.integer, toString n, .int n, 1, column⟩

def always : Expr := .literal (.bool true) ⟨.boolean, "true", .bool true, 1, 13⟩

def divideBy (name : String) : Expr :=
  .binary (numberAt 1 19) ⟨.divide, "/", .nothing, 1, 21⟩ (.variable name (wordAt name 23))

/-- The body `var j => integer = i var i => integer = 5`, which reads the iterator and then
shadows it. -/
def shadowing : List Stmt :=
  [.varDecl ⟨"j", "integer", some (.variable "i" (wordAt "i" 47)), wordAt "j" 32⟩,
    .varDecl ⟨"i", "integer", some (numberAt 5 68), wordAt "i" 53⟩]

/-- The iterator is noted one step out, both in the body and in the step. -/
def shadowed : Machine :=
  { Machine.initial with
    locals := [(.variable "i" (wordAt "i" 23), 1), (.variable "i" (wordAt "i" 47), 1)] }

/-- In the sample only the iterator is noted, one step out. -/
theorem distance_of_noted {e : Expr} {distance : Nat} (h : Noted shadowed.locals e distance) :
    distance = 1 := by
  obtain ⟨entry, hEntry, rfl, -⟩ := h
  rcases List.mem_pair.mp hEntry with rfl | rfl <;> rfl

/-- The step divides by the iterator and not by the variable of the body. -/
theorem countingLoop_hygienic_shadowing :
    shadowed.Closed (Parse.countingLoop "i" (numberAt 0 10) always (divideBy "i")
      (.block shadowing)).places ∧
    StepApart shadowed.locals "i" shadowing (divideBy "i") ∧
    ∃ observation, observation.text = some "Division by zero at line 1, column 21" ∧
      (∃ fuel, observe (execute fuel 0 (Parse.countingLoop "i" (numberAt 0 10) always
        (divideBy "i") (.block shadowing)) shadowed) = some observation) ∧
      ∃ fuel, observe (execute fuel 0 (steppedLoop "i" (numberAt 0 10) always
        (divideBy "i") (.block shadowing)) shadowed) = some observation := by
  have hClosed : shadowed.Closed (Parse.countingLoop "i" (numberAt 0 10) always (divideBy "i")
      (.block shadowing)).places := Machine.closed_initial rfl
  have hBody : ∀ name ∈ (Stmt.block shadowing).names, InLoop "i" shadowing name.1 1 name.2 := by
    decide
  have hStep : ∀ name ∈ (divideBy "i").names, OutOfBody shadowing 1 name.2 := by
    decide
  have hApart : StepApart shadowed.locals "i" shadowing (divideBy "i") :=
    ⟨fun name hName _ hNoted => distance_of_noted hNoted ▸ hBody name hName,
      fun name hName _ hNoted => distance_of_noted hNoted ▸ hStep name hName⟩
  have hText : (observe (execute 20 0 (Parse.countingLoop "i" (numberAt 0 10) always
      (divideBy "i") (.block shadowing)) shadowed)).map Observation.text =
      some (some "Division by zero at line 1, column 21") := by
    decide +kernel
  obtain ⟨observation, hEnd, hText⟩ := Option.map_eq_some_iff.mp hText
  refine ⟨hClosed, hApart, observation, hText, ⟨20, hEnd⟩, ?_⟩
  refine (countingLoop_hygienic _ _ _ _ _ _ _ hClosed ?_ observation).mp ⟨20, hEnd⟩
  rintro statements ⟨⟩
  exact hApart

/-- A statement ends, and always with a fault of this text. -/
def EndsWith (stmt : Stmt) (machine : Machine) (text : String) : Prop :=
  (∃ fuel observation, observe (execute fuel 0 stmt machine) = some observation) ∧
    ∀ fuel observation, observe (execute fuel 0 stmt machine) = some observation →
      observation.text = some text

/-- On a closed machine one run that ends shows how every run with more fuel ends. -/
theorem endsWith_of_closed {machine : Machine} {stmt : Stmt} (h : machine.Closed stmt.places)
    (fuel : Nat) {text : String}
    (hText : (observe (execute fuel 0 stmt machine)).map Observation.text = some (some text)) :
    EndsWith stmt machine text := by
  obtain ⟨observation, hEnd, hText⟩ := Option.map_eq_some_iff.mp hText
  refine ⟨⟨fuel, observation, hEnd⟩, fun fuel' other hOther => ?_⟩
  rw [h.observe_unique hOther hEnd, hText]

/-- The divisor of the step is noted in the scope that the step is evaluated in. -/
def meeting : Machine :=
  { Machine.initial with locals := [(.variable "x" (wordAt "x" 23), 0)] }

/-- The divisor of the body is noted two steps out. -/
def leaving : Machine :=
  { Machine.initial with locals := [(.variable "x" (wordAt "x" 28), 2)] }

def declaring : List Stmt :=
  [.varDecl ⟨"x", "integer", some (numberAt 0 47), wordAt "x" 32⟩]

/-- The body `1 / x` of a loop with the iterator `x`. -/
def dividing : List Stmt :=
  [.expression (.binary (numberAt 1 24) ⟨.divide, "/", .nothing, 1, 26⟩
    (.variable "x" (wordAt "x" 28)))]

/-- A step that is noted in the scope of the body divides by the variable of the body, which
a step outside does not find. A body that is noted beyond the scope of the loop passes by the
iterator, which a body with a scope more around it finds. -/
theorem countingLoop_step_meets_body :
    (EndsWith (Parse.countingLoop "i" (numberAt 0 10) always (divideBy "x") (.block declaring))
        meeting "Division by zero at line 1, column 21" ∧
      EndsWith (steppedLoop "i" (numberAt 0 10) always (divideBy "x") (.block declaring))
        meeting "Operands must be numbers at line 1, column 21") ∧
    EndsWith (Parse.countingLoop "x" (numberAt 0 10) always (numberAt 1 19) (.block dividing))
        leaving "Operands must be numbers at line 1, column 26" ∧
      EndsWith (steppedLoop "x" (numberAt 0 10) always (numberAt 1 19) (.block dividing))
        leaving "Division by zero at line 1, column 26" := by
  refine ⟨⟨?_, ?_⟩, ?_, ?_⟩
  · exact endsWith_of_closed (Machine.closed_initial rfl) 20 (by decide +kernel)
  · exact endsWith_of_closed (Machine.closed_initial rfl) 20 (by decide +kernel)
  · exact endsWith_of_closed (Machine.closed_initial rfl) 20 (by decide +kernel)
  · exact endsWith_of_closed (Machine.closed_initial rfl) 20 (by decide +kernel)

end Mus
