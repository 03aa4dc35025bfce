/-
This file proves that only declarations bind names. Whatever an expression or
another statement calls, opens and declares on its way, and however it ends, the
scopes that existed before keep their names, their constants with their values,
and their enclosing scopes.

So it does no harm that names are tested before initializers and assigned values
are evaluated: a declaration overwrites nothing, and an assignment writes where
its test has looked.
-/

import Lox.Proofs.Course.Agreement
import Lox.Proofs.Course.Lawful

namespace Lox

variable {scope : ScopeId} {machine : Machine}

/-- An expression keeps all scopes. -/
theorem evaluate_keeps (fuel : Nat) (older : scope < machine.store.size) (expression : Expr) :
    machine.store.Keeps (evaluate fuel scope expression machine).2.store := by
  rw [← (Follows.evaluate fuel scope expression machine).2]
  exact (Course.within_evaluate fuel scope expression).keeps older

/-- A statement that hides no declaration keeps all scopes. -/
theorem execute_keeps (fuel : Nat) (older : scope < machine.store.size) {statement : Stmt}
    (plain : ¬ statement.Declares) :
    machine.store.Keeps (execute fuel scope statement machine).2.store := by
  rw [← (Follows.execute fuel scope statement machine).2]
  exact ((Course.within_execute fuel scope statement).mono plain).keeps older

/-! ### Tests -/

namespace Run

theorem get_bind_apply {α β : Type} (view : Machine → α) (next : α → Run β) (machine : Machine) :
    (get view >>= next) machine = next (view machine) machine := rfl

theorem rejectConstant_apply (scope : ScopeId) (name : Token) (machine : Machine) :
    rejectConstant scope name machine =
      (if machine.store.isConstant scope name.lexeme then
        .error ⟨.constantReassigned name.lexeme, name.line⟩ else .value (), machine) := by
  simp only [rejectConstant, get_bind_apply]
  cases machine.store.isConstant scope name.lexeme <;> rfl

theorem rejectDeclared_apply (scope : ScopeId) (name : Token) (machine : Machine) :
    rejectDeclared scope name machine =
      (if machine.store.binds scope name.lexeme then
        .error ⟨.alreadyDeclared name.lexeme, name.line⟩ else .value (), machine) := by
  simp only [rejectDeclared, get_bind_apply]
  cases machine.store.binds scope name.lexeme <;> rfl

/-- A test that changes nothing and an evaluation either have values, and then the rest follows, or
the run ends with the scopes that they leave and has no value. -/
theorem cases_of_tested {α β : Type} {test : Run Unit} {argument : Run α} {rest : α → Run β}
    {outcome : Outcome Unit} (tested : test machine = (outcome, machine))
    (keeps : machine.store.Keeps (argument machine).2.store) {run : Outcome β × Machine}
    (runs : run = (do test; let value ← argument; rest value) machine) :
    (machine.store.Keeps run.2.store ∧ ∀ result, run.1 ≠ .value result) ∨
      ∃ value reached, outcome = .value () ∧ argument machine = (.value value, reached) ∧
        run = rest value reached := by
  cases outcome with
  | value passed =>
    rw [bind_of_value tested] at runs
    cases ends : argument machine with
    | mk outcome reached =>
      rw [ends] at keeps
      cases outcome with
      | value value =>
        rw [bind_of_value ends] at runs
        exact .inr ⟨value, reached, rfl, rfl, runs⟩
      | error error =>
        rw [bind_of_error ends] at runs
        subst runs
        exact .inl ⟨keeps, fun _ equal => by cases equal⟩
      | outOfFuel =>
        rw [bind_of_outOfFuel ends] at runs
        subst runs
        exact .inl ⟨keeps, fun _ equal => by cases equal⟩
  | error error =>
    rw [bind_of_error tested] at runs
    subst runs
    exact .inl ⟨.refl _, fun _ equal => by cases equal⟩
  | outOfFuel =>
    rw [bind_of_outOfFuel tested] at runs
    subst runs
    exact .inl ⟨.refl _, fun _ equal => by cases equal⟩

end Run

/-! ### Declarations -/

theorem Binding.define_of_unbound {name : String} {bindings : List Binding}
    (unbound : Binding.find? name bindings = none) (value : Value) (constant : Bool) :
    Binding.define name value constant bindings = bindings ++ [⟨name, value, constant⟩] := by
  induction bindings with
  | nil => rfl
  | cons binding rest inductionHypothesis =>
    rw [find?] at unbound
    split at unbound
    · cases unbound
    · next different =>
      rw [define, if_neg different, inductionHypothesis unbound, List.cons_append]

/-- A binding of a new name is added to a scope behind the others, and nothing else changes. -/
def Store.Adds (before : Store) (scope : ScopeId) (binding : Binding) (after : Store) : Prop :=
  ∃ found, before.scope? scope = some found ∧ found.binds binding.name = false ∧
    after.scope? scope = some { found with bindings := found.bindings ++ [binding] } ∧
    ∀ other, other ≠ scope → after.scope? other = before.scope? other

theorem Store.adds_define {store : Store} {name : String} (older : scope < store.size)
    (unbound : store.binds scope name = false) (value : Value) (constant : Bool) :
    store.Adds scope ⟨name, value, constant⟩ (store.define scope name value constant) := by
  obtain ⟨found, foundScope⟩ := exists_scope?_of_lt older
  rw [binds, foundScope, Option.any_some] at unbound
  have absent : Binding.find? name found.bindings = none := by
    rwa [← Option.isNone_iff_eq_none, ← Option.isSome_eq_false_iff]
  refine ⟨found, foundScope, unbound, ?_, fun other different => ?_⟩
  · rw [← Binding.define_of_unbound absent]
    exact (scope?_modify_self store scope _).trans (congrArg (Option.map _) foundScope)
  · exact scope?_modify_of_ne store _ different

/-- A declaration that ends has added a binding to what was there when its initializer had been
evaluated, and one that does not end normally has bound nothing. -/
theorem declareVariable_adds {initial : Run Value} (older : scope < machine.store.size)
    (keeps : machine.store.Keeps (initial machine).2.store) (name : Token) (constant : Bool)
    {run : Outcome Completion × Machine}
    (runs : run = (do
      Run.rejectDeclared scope name
      let value ← initial
      Run.define scope name.lexeme value constant
      Run.record (.declared constant name.lexeme value)
      return Completion.normal) machine) :
    ∃ between, machine.store.Keeps between ∧
      ((run.2.store = between ∧ ∀ completion, run.1 ≠ .value completion) ∨
        run.1 = .value .normal ∧
          ∃ value, between.Adds scope ⟨name.lexeme, value, constant⟩ run.2.store) := by
  obtain ⟨kept, failed⟩ | ⟨value, reached, passed, ends, runs⟩ :=
    Run.cases_of_tested (Run.rejectDeclared_apply scope name machine) keeps runs
  · exact ⟨run.2.store, kept, .inl ⟨rfl, failed⟩⟩
  · rw [ends] at keeps
    cases bound : machine.store.binds scope name.lexeme with
    | true =>
      rw [bound, if_pos rfl] at passed
      cases passed
    | false =>
      subst runs
      refine ⟨reached.store, keeps, .inr ⟨rfl, value, ?_⟩⟩
      show reached.store.Adds scope _ (Machine.record _ _).store
      rw [Machine.record_store]
      have unbound := (keeps.binds name.lexeme older).trans bound
      exact Store.adds_define (keeps.lt_size older) unbound value constant

/-! ### Assignments -/

/-- An assignment that ends normally has written to the scope that owned the name before its value
was evaluated, and one that does not has written nothing. -/
theorem assign_updates {assigned : Run Value} (older : scope < machine.store.size)
    (keeps : machine.store.Keeps (assigned machine).2.store) (name : Token)
    {run : Outcome Value × Machine}
    (runs : run = (do
      Run.rejectConstant scope name
      let value ← assigned
      Run.assign scope name value
      return value) machine) :
    ∃ between, machine.store.Keeps between ∧
      ((run.2.store = between ∧ ∀ result, run.1 ≠ .value result) ∨
        ∃ owner result, run.1 = .value result ∧
          machine.store.owner? name.lexeme scope = some owner ∧
          machine.store.isConstant scope name.lexeme = false ∧
          between.owner? name.lexeme scope = some owner ∧
          run.2.store = between.update owner name.lexeme result) := by
  obtain ⟨kept, failed⟩ | ⟨result, reached, passed, ends, runs⟩ :=
    Run.cases_of_tested (Run.rejectConstant_apply scope name machine) keeps runs
  · exact ⟨run.2.store, kept, .inl ⟨rfl, failed⟩⟩
  · rw [ends] at keeps
    refine ⟨reached.store, keeps, ?_⟩
    have same := keeps.owner? name.lexeme older
    cases owned : reached.store.owner? name.lexeme scope with
    | none =>
      have assigns : Run.assign scope name result reached =
          (.error ⟨.undefinedVariable name.lexeme, name.line⟩, reached) := by
        rw [Run.assign, owned]
      rw [Run.bind_of_error assigns] at runs
      subst runs
      exact .inl ⟨rfl, fun _ equal => by cases equal⟩
    | some owner =>
      have assigns : Run.assign scope name result reached =
          (.value (), { reached with
            store := reached.store.update owner name.lexeme result }) := by
        rw [Run.assign, owned]
      rw [Run.bind_of_value assigns] at runs
      subst runs
      refine .inr ⟨owner, result, rfl, same.symm.trans owned, ?_, rfl, rfl⟩
      cases constant : machine.store.isConstant scope name.lexeme with
      | true =>
        rw [constant, if_pos rfl] at passed
        cases passed
      | false => rfl

/-! ### Isolation -/

/-- Expressions, and all statements of programs but declarations, keep all scopes that there are.
Hence a variable declaration adds a binding or none, and an assignment writes to the scope where its
test has found a variable. -/
theorem only_declarations_bind (fuel : Nat) (older : scope < machine.store.size) :
    (∀ expression, machine.store.Keeps (evaluate fuel scope expression machine).2.store) ∧
    (∀ stream whole statement, whole ∈ (Program.ofStream stream).statements →
      statement.Occurs whole → statement.isDeclaration = false →
      machine.store.Keeps (execute fuel scope statement machine).2.store) ∧
    (∀ constant name initializer,
      let run := execute fuel scope (.var constant name initializer) machine
      ∃ between, machine.store.Keeps between ∧
        ((run.2.store = between ∧ ∀ completion, run.1 ≠ .value completion) ∨
          run.1 = .value .normal ∧
            ∃ value, between.Adds scope ⟨name.lexeme, value, constant⟩ run.2.store)) ∧
    ∀ name value,
      let run := evaluate fuel scope (.assign name value) machine
      ∃ between, machine.store.Keeps between ∧
        ((run.2.store = between ∧ ∀ result, run.1 ≠ .value result) ∨
          ∃ owner result, run.1 = .value result ∧
            machine.store.owner? name.lexeme scope = some owner ∧
            machine.store.isConstant scope name.lexeme = false ∧
            between.owner? name.lexeme scope = some owner ∧
            run.2.store = between.update owner name.lexeme result) := by
  refine ⟨evaluate_keeps fuel older, fun stream whole statement member occurs other => ?_,
    fun constant name initializer => ?_, fun name value => ?_⟩
  · exact execute_keeps fuel older (Program.tidy member statement occurs other)
  · cases fuel with
    | zero => exact ⟨machine.store, .refl _, .inl ⟨rfl, fun _ equal => by cases equal⟩⟩
    | succ fuel =>
      cases initializer with
      | none => exact declareVariable_adds older (.refl _) name constant rfl
      | some initializer =>
        exact declareVariable_adds older (evaluate_keeps fuel older initializer) name constant rfl
  · cases fuel with
    | zero => exact ⟨machine.store, .refl _, .inl ⟨rfl, fun _ equal => by cases equal⟩⟩
    | succ fuel => exact assign_updates older (evaluate_keeps fuel older value) name rfl

/-- The block `{ var x; }` runs on a new machine and leaves the global scope as it was. -/
theorem only_declarations_bind_block :
    let machine := Machine.start (.start "" fun _ => 0) 0
    let name : Token := ⟨.identifier, "x", 1⟩
    let stream : TokenStream :=
      ⟨[⟨.leftBrace, "\x7b", 1⟩, ⟨.var, "var", 1⟩, name, ⟨.semicolon, ";", 1⟩, ⟨.rightBrace, "\x7d", 1⟩],
        ⟨.eof, "", 1⟩⟩
    globalScope < machine.store.size ∧
      (Program.ofStream stream).statements = [.block [.var false name none]] ∧
      machine.store.Keeps
        (execute 3 globalScope (.block [.var false name none]) machine).2.store := by
  intro machine name stream
  have older : globalScope < machine.store.size := by decide
  have parsed : (Program.ofStream stream).statements = [.block [.var false name none]] := rfl
  refine ⟨older, parsed, ?_⟩
  refine (only_declarations_bind 3 older).2.1 stream _ _ ?_ (.self _) rfl
  exact parsed ▸ List.mem_singleton_self _

end Lox
