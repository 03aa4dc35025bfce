/-
This file proves that the tree of a `for` statement means what the statement
says: one scope for the loop, the initializer in it once, and then by turns the
condition, the body and the increment, all in that scope.

The tree is made of blocks and a `while` loop. It opens a scope for the body and
the increment of every turn, and none at all for a loop without an initializer.
None of these scopes ever binds a name, so nothing can tell that they are there.
-/

import Lox.Proofs.Likeness.Courses

namespace Lox

open Token (Kind)

/-! ### Loops -/

/-- A loop with its clauses and its body. -/
structure ForLoop where
  initializer : Option Stmt
  condition : Option Expr
  increment : Option Expr
  body : Stmt

namespace ForLoop

/-- The value of the condition, true if it is missing. -/
def test (loop : ForLoop) (fuel : Nat) (scope : ScopeId) : Run Value :=
  match loop.condition with
  | none => return .boolean true
  | some condition => evaluate fuel scope condition

/-- The body and then the increment, unless the body returns. -/
def turn (loop : ForLoop) (fuel : Nat) (scope : ScopeId) : Run Completion := do
  match ← execute fuel scope loop.body with
  | .normal =>
    match loop.increment with
    | none => return .normal
    | some increment => do
      let _ ← evaluate fuel scope increment
      return .normal
  | .returned value => return .returned value

/-- Turns as long as the condition holds and nothing is returned. -/
def turns (loop : ForLoop) (scope : ScopeId) : Nat → Run Completion
  | 0 => Run.starve
  | fuel + 1 => do
    let value ← loop.test fuel scope
    if value.truthy then
      match ← loop.turn fuel scope with
      | .normal => loop.turns scope fuel
      | .returned value => return .returned value
    else
      return .normal

/-- The initializer and then the turns, all in one new scope. -/
def run (loop : ForLoop) (fuel : Nat) (scope : ScopeId) : Run Completion := do
  let inner ← Run.openScope scope
  match loop.initializer with
  | none => loop.turns inner fuel
  | some initializer =>
    match ← execute fuel inner initializer with
    | .normal => loop.turns inner fuel
    | .returned value => return .returned value

/-- The tokens behind the keyword are the clauses and the body of the loop. -/
inductive Written : ForLoop → List Token → List Token → Prop
  | clauses {tail : Grammar.Tail} {opening semicolon closing : Token}
      {tokens afterInitializer afterCondition afterClauses rest : List Token}
      {initializer : Option Stmt} {condition increment : Option Expr} {body : Stmt} :
    opening.kind = .leftParen → Grammar.Initializer tokens initializer afterInitializer →
    Grammar.Clause afterInitializer condition (semicolon :: afterCondition) →
    semicolon.kind = .semicolon →
    Grammar.Clause afterCondition increment (closing :: afterClauses) →
    closing.kind = .rightParen → Grammar.Statement tail afterClauses body rest →
    Written ⟨initializer, condition, increment, body⟩ (opening :: tokens) rest

/-! ### Courses of loops -/

/-- The course of the test. -/
def testCourse (loop : ForLoop) (fuel : Nat) (scope : ScopeId) : Course Value :=
  match loop.condition with
  | none => return .boolean true
  | some condition => Course.evaluate fuel scope condition

/-- The course of a turn. -/
def turnCourse (loop : ForLoop) (fuel : Nat) (scope : ScopeId) : Course Unit := do
  Course.execute fuel scope loop.body
  match loop.increment with
  | none => return ()
  | some increment => do
    let _ ← Course.evaluate fuel scope increment

/-- The course of the turns. -/
def turnsCourse (loop : ForLoop) (scope : ScopeId) : Nat → Course Unit
  | 0 => Course.starve
  | fuel + 1 => do
    let value ← loop.testCourse fuel scope
    if value.truthy then
      loop.turnCourse fuel scope
      loop.turnsCourse scope fuel

/-- The course of a loop. -/
def course (loop : ForLoop) (fuel : Nat) (scope : ScopeId) : Course Unit := do
  let inner ← Course.openScope scope
  match loop.initializer with
  | none => loop.turnsCourse inner fuel
  | some initializer =>
    Course.execute fuel inner initializer
    loop.turnsCourse inner fuel

theorem follows_test (loop : ForLoop) (fuel : Nat) (scope : ScopeId) :
    Follows .value (loop.test fuel scope) (loop.testCourse fuel scope) := by
  rw [test, testCourse]
  cases loop.condition with
  | none => exact .pure rfl
  | some condition => exact .evaluate fuel scope condition

theorem follows_turn (loop : ForLoop) (fuel : Nat) (scope : ScopeId) :
    Follows Completion.exit (loop.turn fuel scope) (loop.turnCourse fuel scope) := by
  rw [turn, turnCourse]
  cases loop.increment with
  | none => exact .unlessReturned (.execute fuel scope loop.body) (.pure rfl)
  | some increment =>
    refine .unlessReturned (.execute fuel scope loop.body) ?_
    exact .bind (.evaluate fuel scope increment) fun _ => .pure rfl

theorem follows_turns (loop : ForLoop) (scope : ScopeId) (fuel : Nat) :
    Follows Completion.exit (loop.turns scope fuel) (loop.turnsCourse scope fuel) := by
  induction fuel with
  | zero => exact .starve
  | succ fuel inductionHypothesis =>
    refine .bind (loop.follows_test fuel scope) fun value => ?_
    show Follows Completion.exit (if _ then _ else _) (if _ then _ else _)
    split
    · exact .unlessReturned (loop.follows_turn fuel scope) inductionHypothesis
    · exact .pure rfl

theorem follows_run (loop : ForLoop) (fuel : Nat) (scope : ScopeId) :
    Follows Completion.exit (loop.run fuel scope) (loop.course fuel scope) := by
  refine .bind (.openScope scope) fun inner => ?_
  cases loop.initializer with
  | none => exact loop.follows_turns inner fuel
  | some initializer =>
    exact .unlessReturned (.execute fuel inner initializer) (loop.follows_turns inner fuel)

/-! ### Parts of the tree -/

/-- The tree of the loop. -/
def tree (loop : ForLoop) : Stmt :=
  .forLoop loop.initializer loop.condition loop.increment loop.body

/-- The condition in the tree. -/
def guard (loop : ForLoop) : Expr := loop.condition.getD (.literal (.boolean true))

/-- What the tree has for a turn. -/
def lap (loop : ForLoop) : Stmt :=
  match loop.increment with
  | none => loop.body
  | some increment => .block [loop.body, .expression increment]

/-- What the tree has for all turns. -/
def laps (loop : ForLoop) : Stmt := .while loop.guard loop.lap

theorem tree_eq (loop : ForLoop) :
    loop.tree =
      match loop.initializer with
      | none => loop.laps
      | some initializer => .block [initializer, loop.laps] := rfl

/-! ### The tree and the loop -/

section

open Course (Mirrors mirrors_evaluate mirrors_execute mirrors_openScope mirrors_pure mirrors_starve)

variable {links : Links} {scope scope' : ScopeId} {loop : ForLoop} {fuel more : Nat}

theorem mirrors_guard_test (enough : fuel ≤ more) (sees : links.Sees scope scope') :
    Mirrors links Value.Like (Course.evaluate fuel scope loop.guard)
      (loop.testCourse more scope') := by
  rw [guard, testCourse]
  cases loop.condition with
  | none =>
    cases fuel with
    | zero => exact mirrors_starve _
    | succ fuel => exact mirrors_pure fun _ _ => .plain fun _ => nofun
  | some condition => exact mirrors_evaluate enough sees condition

theorem mirrors_test_guard (enough : fuel < more) (sees : links.Sees scope scope') :
    Mirrors links Value.Like (loop.testCourse fuel scope)
      (Course.evaluate more scope' loop.guard) := by
  rw [guard, testCourse]
  cases loop.condition with
  | none =>
    obtain ⟨less, rfl⟩ := Nat.exists_eq_add_of_lt enough
    exact mirrors_pure fun _ _ => .plain fun _ => nofun
  | some condition => exact mirrors_evaluate (Nat.le_of_lt enough) sees condition

variable (quiet : ¬ loop.body.Declares)

include quiet

theorem mirrors_body (enough : fuel ≤ more) (sees : links.Sees scope scope') :
    Mirrors links (fun _ _ _ => True) (Course.execute fuel scope loop.body)
      (Course.execute more scope' loop.body) :=
  mirrors_execute enough sees loop.body fun declares => absurd declares quiet

/-- The block of a turn has a scope of its own, which stays hollow. -/
theorem mirrors_lap_turn (enough : fuel ≤ more) (sees : links.Sees scope scope') :
    Mirrors links (fun _ _ _ => True) (Course.execute fuel scope loop.lap)
      (loop.turnCourse more scope') := by
  rw [lap, turnCourse]
  cases loop.increment with
  | none =>
    show Mirrors _ _ _ (Course.execute more scope' loop.body >>= fun _ => pure ())
    rw [Course.bind_nothing]
    exact mirrors_body quiet enough sees
  | some increment =>
    cases fuel with
    | zero =>
      rw [Course.execute]
      exact mirrors_starve _
    | succ fuel =>
      refine Mirrors.openFirst sees fun now _ inner seesInner => ?_
      rw [Course.inOrder_pair]
      refine (mirrors_body quiet (Nat.le_of_succ_le enough) seesInner).bind
        fun later grows _ _ _ => ?_
      have less : fuel ≤ more + 1 := Nat.le_succ_of_le (Nat.le_of_succ_le enough)
      exact mirrors_execute less (seesInner.grow grows) (.expression increment) False.elim

theorem mirrors_turn_lap (enough : fuel + 2 ≤ more) (sees : links.Sees scope scope') :
    Mirrors links (fun _ _ _ => True) (loop.turnCourse fuel scope)
      (Course.execute more scope' loop.lap) := by
  rw [lap, turnCourse]
  cases loop.increment with
  | none =>
    show Mirrors _ _ (Course.execute fuel scope loop.body >>= fun _ => pure ()) _
    rw [Course.bind_nothing]
    exact mirrors_body quiet (Nat.le_of_add_right_le enough) sees
  | some increment =>
    obtain ⟨extra, rfl⟩ := Nat.exists_eq_add_of_le' enough
    refine Mirrors.openSecond sees fun now _ inner seesInner => ?_
    rw [Course.inOrder_pair]
    have less : fuel + 1 ≤ extra + (fuel + 1) := Nat.le_add_left _ _
    refine (mirrors_body quiet (Nat.le_of_succ_le less) seesInner).bind fun later grows _ _ _ => ?_
    exact mirrors_execute less (seesInner.grow grows) (.expression increment) False.elim

theorem mirrors_laps_turns (enough : fuel ≤ more) (sees : links.Sees scope scope') :
    Mirrors links (fun _ _ _ => True) (Course.execute fuel scope loop.laps)
      (loop.turnsCourse scope' more) := by
  induction fuel generalizing more links with
  | zero =>
    rw [Course.execute.eq_def 0]
    exact mirrors_starve _
  | succ fuel inductionHypothesis =>
    obtain ⟨less, rfl⟩ := Nat.exists_eq_add_of_le' (Nat.le_trans (Nat.le_add_left 1 fuel) enough)
    have enough := Nat.le_of_succ_le_succ enough
    refine (mirrors_guard_test enough sees).bind fun now grows value value' like => ?_
    rw [like.truthy_eq]
    have seesNow := sees.grow grows
    split
    · exact (mirrors_lap_turn quiet enough seesNow).bind fun later growsLater _ _ _ =>
        inductionHypothesis enough (seesNow.grow growsLater)
    · exact mirrors_pure fun _ _ => trivial

theorem mirrors_turns_laps (enough : fuel + 2 ≤ more) (sees : links.Sees scope scope') :
    Mirrors links (fun _ _ _ => True) (loop.turnsCourse scope fuel)
      (Course.execute more scope' loop.laps) := by
  induction fuel generalizing more links with
  | zero => exact mirrors_starve _
  | succ fuel inductionHypothesis =>
    obtain ⟨less, rfl⟩ := Nat.exists_eq_add_of_le' (Nat.le_trans (Nat.le_add_left 1 _) enough)
    have enough : fuel + 2 ≤ less := Nat.le_of_succ_le_succ enough
    refine (mirrors_test_guard (by omega) sees).bind fun now grows value value' like => ?_
    rw [like.truthy_eq]
    have seesNow := sees.grow grows
    split
    · exact (mirrors_turn_lap quiet enough seesNow).bind fun later growsLater _ _ _ =>
        inductionHypothesis enough (seesNow.grow growsLater)
    · exact mirrors_pure fun _ _ => trivial

/-- What the tree does, the loop does. -/
theorem mirrors_tree_course (pair : links.paired scope scope') :
    Mirrors links (fun _ _ _ => True) (Course.execute fuel scope loop.tree)
      (loop.course fuel scope') := by
  have sees := Links.Sees.paired pair
  rw [tree_eq, course]
  cases loop.initializer with
  | none =>
    exact Mirrors.openSecond sees fun now _ inner seesInner =>
      mirrors_laps_turns quiet (Nat.le_refl _) seesInner
  | some initializer =>
    cases fuel with
    | zero =>
      rw [Course.execute]
      exact mirrors_starve _
    | succ fuel =>
      refine (mirrors_openScope sees).bind fun now _ inner inner' pair => ?_
      rw [Course.inOrder_pair]
      have less := Nat.le_succ fuel
      refine (mirrors_execute less (.paired pair) initializer fun _ => pair).bind
        fun later grows _ _ _ => ?_
      exact mirrors_laps_turns quiet less (.paired (grows.paired pair))

/-- What the loop does, the tree does. -/
theorem mirrors_course_tree (pair : links.paired scope scope') :
    Mirrors links (fun _ _ _ => True) (loop.course fuel scope)
      (Course.execute (fuel + 3) scope' loop.tree) := by
  have sees := Links.Sees.paired pair
  rw [tree_eq, course]
  cases loop.initializer with
  | none =>
    exact Mirrors.openFirst sees fun now _ inner seesInner =>
      mirrors_turns_laps quiet (Nat.le_succ _) seesInner
  | some initializer =>
    refine (mirrors_openScope sees).bind fun now _ inner inner' pair => ?_
    rw [Course.inOrder_pair]
    have less := Nat.le_add_right fuel 2
    refine (mirrors_execute less (.paired pair) initializer fun _ => pair).bind
      fun later grows _ _ _ => ?_
    exact mirrors_turns_laps quiet (Nat.le_refl _) (.paired (grows.paired pair))

end

/-! ### Loops in the source -/

/-- Nothing that is parsed as a statement is a declaration. -/
theorem isDeclaration_of_statement {tail : Grammar.Tail} {tokens rest : List Token}
    {statement : Stmt} (derives : Grammar.Statement tail tokens statement rest) :
    statement.isDeclaration = false := by
  cases derives with
  | expression derives =>
    cases derives
    rfl
  | @«for» _ _ _ _ _ _ _ _ _ _ initializer _ increment _ _ _ _ _ _ _ _ body =>
    cases initializer with
    | some initializer => rfl
    | none => rfl
  | print _ _ _ | block _ _ _ | ifThen _ _ _ _ _ | ifElse _ _ _ _ _ _ _ | «while» _ _ _ _ _
  | returnNothing _ _ | returnValue _ _ _ => rfl

theorem occurs_body (loop : ForLoop) : loop.body.Occurs loop.tree := by
  have inLap : loop.body.Occurs loop.lap := by
    rw [lap]
    cases loop.increment with
    | none => exact .self _
    | some increment => exact .block List.mem_cons_self (.self _)
  rw [tree_eq]
  cases loop.initializer with
  | none => exact .while inLap
  | some initializer =>
    exact .block (List.mem_cons_of_mem _ (List.mem_singleton_self _)) (.while inLap)

/-- A statement that begins with `for` is the tree of the loop that is written there. -/
theorem exists_written {bound : Nat} {keyword : Token} {tokens rest : List Token} {tree : Stmt}
    (isFor : keyword.kind = .for)
    (takes : (Parser.statement bound).Takes (keyword :: tokens) tree rest) :
    ∃ loop : ForLoop, loop.Written tokens rest ∧ tree = loop.tree ∧ ¬ loop.body.Declares := by
  obtain ⟨tail, derives, _⟩ := (Parser.statement_declaration_sound bound).1 takes
  have tidy : tree.Tidy := ((Parser.yields_statement_declaration bound).1 takes).1
  cases derives with
  | @«for» _ _ _ _ _ _ _ _ _ _ initializer condition increment body _ opening first test semicolon
      last closing derivesBody =>
    let loop : ForLoop := ⟨initializer, condition, increment, body⟩
    have quiet := tidy body loop.occurs_body (isDeclaration_of_statement derivesBody)
    exact ⟨loop, .clauses opening first test semicolon last closing derivesBody, rfl, quiet⟩
  | expression derives =>
    cases derives with
    | expression value _ =>
      obtain ⟨first, others, same, starts⟩ := value.begins
      cases same
      rw [isFor] at starts
      exact absurd starts (by decide)
  | print kind _ _ | block kind _ _ | ifThen kind _ _ _ _ | ifElse kind _ _ _ _ _ _
  | «while» kind _ _ _ _ | returnNothing kind _ | returnValue kind _ _ =>
    exact nomatch kind.symm.trans isFor

end ForLoop

/-! ### Runs on one machine -/

/-- On the machine the second run does what the first does and ends alike; where the first runs out
of fuel, the second may go on. The scopes that the machine has correspond to themselves. -/
def Run.Mirrors (run other : Run Completion) (machine : Machine) : Prop :=
  ∃ links between rest, (∀ id < machine.store.size, links.paired id id) ∧
    (run machine).2.Alike links between ∧ (other machine).2 = between.performAll rest ∧
    ((run machine).1.exit Completion.exit).Mirrors links (fun _ _ => True)
      ((other machine).1.exit Completion.exit) rest

theorem Course.Mirrors.run {run other : Run Completion} {course course' : Course Unit}
    {machine : Machine}
    (mirrors : Course.Mirrors machine.ownLinks (fun _ _ _ => True) course course')
    (follows : Follows Completion.exit run course)
    (follows' : Follows Completion.exit other course') (reachable : machine.Reachable) :
    run.Mirrors other machine := by
  obtain ⟨ends, reaches⟩ := follows machine
  obtain ⟨ends', reaches'⟩ := follows' machine
  obtain ⟨later, actions, rest, grows, split, alike, exits⟩ := mirrors (.refl _) reachable.alike
  refine ⟨later, machine.performAll actions, rest, fun id older => grows.paired ⟨rfl, older⟩,
    ?_, ?_, ?_⟩
  · rw [← reaches]
    exact alike
  · rw [← reaches', split, Machine.performAll_append]
  · rw [← ends, ← ends']
    exact exits

/-- A run that ends is mirrored up to its end. -/
theorem Run.Mirrors.ends {run other : Run Completion} {machine : Machine}
    (mirrors : run.Mirrors other machine) (finishes : (run machine).1 ≠ .outOfFuel) :
    (other machine).1 ≠ .outOfFuel ∧ ∃ links, (run machine).2.Alike links (other machine).2 := by
  obtain ⟨links, between, rest, _, alike, reaches, exits⟩ := mirrors
  have finished : (other machine).1.exit Completion.exit ≠ .outOfFuel ∧ rest = [] := by
    generalize (run machine).1 = outcome at finishes exits
    generalize (other machine).1.exit Completion.exit = exit at exits
    cases outcome with
    | value completion => cases completion <;> cases exits <;> exact ⟨nofun, rfl⟩
    | error error =>
      cases exits
      exact ⟨nofun, rfl⟩
    | outOfFuel => exact absurd rfl finishes
  obtain ⟨otherFinishes, rfl⟩ := finished
  refine ⟨fun starved => otherFinishes ?_, links, reaches ▸ alike⟩
  rw [starved]
  rfl

/-- Executing the tree of a `for` statement that is parsed without a report does what the loop does
that is written there, and the other way round, on every machine of a session and in every scope
of it: the same is printed, read and noted, the run ends alike, and all scopes from before bind
like values. A run without enough fuel does the beginning of it, and if one of the two ends with
some amount of fuel, so does the other. -/
theorem executes_for_as_loop {bound : Nat} {keyword : Token} {tokens rest : List Token}
    {tree : Stmt} (isFor : keyword.kind = .for)
    (takes : (Parser.statement bound).Takes (keyword :: tokens) tree rest) :
    ∃ loop : ForLoop, loop.Written tokens rest ∧
      ∀ scope machine, Machine.Reachable machine → scope < machine.store.size →
        (∀ fuel, (execute fuel scope tree).Mirrors (loop.run fuel scope) machine) ∧
        (∀ fuel, (loop.run fuel scope).Mirrors (execute (fuel + 3) scope tree) machine) ∧
        ((∃ fuel, (execute fuel scope tree machine).1 ≠ .outOfFuel) ↔
          ∃ fuel, (loop.run fuel scope machine).1 ≠ .outOfFuel) := by
  obtain ⟨loop, written, rfl, quiet⟩ := ForLoop.exists_written isFor takes
  refine ⟨loop, written, fun scope machine reachable older => ?_⟩
  have pair : machine.ownLinks.paired scope scope := ⟨rfl, older⟩
  have treeMirrors (fuel : Nat) :
      (execute fuel scope loop.tree).Mirrors (loop.run fuel scope) machine :=
    (ForLoop.mirrors_tree_course quiet pair).run (.execute _ _ _) (loop.follows_run _ _) reachable
  have loopMirrors (fuel : Nat) :
      (loop.run fuel scope).Mirrors (execute (fuel + 3) scope loop.tree) machine :=
    (ForLoop.mirrors_course_tree quiet pair).run (loop.follows_run _ _) (.execute _ _ _) reachable
  refine ⟨treeMirrors, loopMirrors, ?_, ?_⟩
  · rintro ⟨fuel, finishes⟩
    exact ⟨fuel, ((treeMirrors fuel).ends finishes).1⟩
  · rintro ⟨fuel, finishes⟩
    exact ⟨fuel + 3, ((loopMirrors fuel).ends finishes).1⟩

/-- A loop that counts to three. -/
theorem executes_for_as_loop_counting :
    let tokens : List Token := [⟨.leftParen, "(", 1⟩, ⟨.var, "var", 1⟩, ⟨.identifier, "i", 1⟩,
      ⟨.equal, "=", 1⟩, ⟨.number, "0", 1⟩, ⟨.semicolon, ";", 1⟩, ⟨.identifier, "i", 1⟩,
      ⟨.less, "<", 1⟩, ⟨.number, "3", 1⟩, ⟨.semicolon, ";", 1⟩, ⟨.identifier, "i", 1⟩,
      ⟨.equal, "=", 1⟩, ⟨.identifier, "i", 1⟩, ⟨.plus, "+", 1⟩, ⟨.number, "1", 1⟩,
      ⟨.rightParen, ")", 1⟩, ⟨.print, "print", 1⟩, ⟨.identifier, "i", 1⟩, ⟨.semicolon, ";", 1⟩]
    let start := Machine.start (.start "" fun _ => 0) 0
    ∃ loop : ForLoop, loop.Written tokens [] ∧
      (loop.run 20 globalScope start).2.output = "0\n1\n2\n" := by
  intro tokens start
  obtain ⟨tree, takes, ends, output⟩ : ∃ tree,
      (Parser.statement 30).Takes (⟨.for, "for", 1⟩ :: tokens) tree [] ∧
        ((execute 20 globalScope tree start).1 matches .value .normal) = true ∧
        (execute 20 globalScope tree start).2.output = "0\n1\n2\n" :=
    ⟨_, rfl, by decide +kernel, by decide +kernel⟩
  obtain ⟨loop, written, mirrors⟩ := executes_for_as_loop rfl takes
  obtain ⟨treeMirrors, _⟩ := mirrors globalScope start (.start _ _)
    (Machine.globalScope_lt_size _ _)
  have finishes : (execute 20 globalScope tree start).1 ≠ .outOfFuel := by
    intro starved
    rw [starved] at ends
    exact nomatch ends
  obtain ⟨_, _, alike⟩ := (treeMirrors 20).ends finishes
  exact ⟨loop, written, alike.output ▸ output⟩

end Lox
