/-
This file proves that no program can tell like machines apart. In scopes that
see the same, the same expression or statement does the same on both, scope by
scope, and ends alike; a statement that may bind names in the very scope it runs
in needs that scope to be paired.

One side may have more fuel. It then does all that the other does, and goes on
only where the other has run out of fuel.
-/

import Lox.Proofs.Course.Agreement
import Lox.Proofs.Likeness.Machines
import Lox.Proofs.Parsing.Branches

namespace Lox

variable {α β γ δ : Type}

/-- The exits are alike. Behind an exit without fuel the other course may go on with more actions,
in whatever way it ends. -/
inductive Exit.Mirrors (links : Links) (answer : α → β → Prop) :
    Exit α → Exit β → List Action → Prop
  | value {value : α} {value' : β} : answer value value' →
    Mirrors links answer (.value value) (.value value') []
  | returned {value value' : Value} : value.Like links value' →
    Mirrors links answer (.returned value) (.returned value') []
  | error (error : RuntimeError) : Mirrors links answer (.error error) (.error error) []
  | outOfFuel (exit : Exit β) (rest : List Action) : Mirrors links answer .outOfFuel exit rest

namespace Course

/-- On machines that are alike with all of these links, the second course does what the first does
and ends alike, or goes on where the first has run out of fuel. -/
def Mirrors (links : Links) (answer : Links → α → β → Prop) (course : Course α)
    (other : Course β) : Prop :=
  ∀ ⦃now : Links⦄, links.Grows now → ∀ ⦃machine machine' : Machine⦄, machine.Alike now machine' →
    ∃ later actions rest, now.Grows later ∧ (other machine').1 = actions ++ rest ∧
      (machine.performAll (course machine).1).Alike later (machine'.performAll actions) ∧
      (course machine).2.Mirrors later (answer later) (other machine').2 rest

variable {links : Links} {answer : Links → α → β → Prop}

theorem Mirrors.grow {course : Course α} {other : Course β} {more : Links}
    (mirrors : Mirrors links answer course other) (grows : links.Grows more) :
    Mirrors more answer course other :=
  fun _ growsNow => mirrors (grows.trans growsNow)

/-! ### Sequences -/

theorem mirrors_pure {value : α} {value' : β}
    (holds : ∀ ⦃now : Links⦄, links.Grows now → answer now value value') :
    Mirrors links answer (pure value) (pure value') :=
  fun now grows _ _ alike => ⟨now, [], [], .refl now, rfl, alike, .value (holds grows)⟩

/-- A sequence begins with all actions of its first part. -/
theorem exists_append_of_bind (first : Course α) (next : α → Course β) (machine : Machine) :
    ∃ behind, ((first >>= next) machine).1 = (first machine).1 ++ behind := by
  show ∃ behind, (Course.bind first next machine).1 = _
  rw [Course.bind]
  generalize first machine = part
  obtain ⟨actions, exit⟩ := part
  cases exit with
  | value value => exact ⟨_, rfl⟩
  | returned _ | error _ | outOfFuel => exact ⟨[], (List.append_nil _).symm⟩

theorem Mirrors.bind {after : Links → γ → δ → Prop} {first : Course α} {first' : Course β}
    {next : α → Course γ} {next' : β → Course δ} (firstMirrors : Mirrors links answer first first')
    (nextMirrors : ∀ ⦃now : Links⦄, links.Grows now → ∀ ⦃value value'⦄, answer now value value' →
      Mirrors now after (next value) (next' value')) :
    Mirrors links after (first >>= next) (first' >>= next') := by
  intro now grows machine machine' alike
  obtain ⟨between, actions, rest, growsBetween, split, alikeBetween, ends⟩ :=
    firstMirrors grows alike
  rcases part : first machine with ⟨done, exit⟩
  rcases part' : first' machine' with ⟨done', exit'⟩
  rw [part] at alikeBetween ends
  rw [part'] at split ends
  obtain rfl : done' = actions ++ rest := split
  cases ends with
  | value holds =>
    obtain ⟨later, behind, rest, growsLater, splitBehind, alikeLater, endsLater⟩ :=
      nextMirrors (grows.trans growsBetween) holds (.refl between) alikeBetween
    rw [List.append_nil] at part'
    rw [bind_of_value part, bind_of_value part']
    refine ⟨later, actions ++ behind, rest, growsBetween.trans growsLater, ?_, ?_, endsLater⟩
    · rw [splitBehind, List.append_assoc]
    · rw [Machine.performAll_append, Machine.performAll_append]
      exact alikeLater
  | returned like =>
    rw [bind_of_returned part, bind_of_returned part']
    exact ⟨between, actions, [], growsBetween, rfl, alikeBetween, .returned like⟩
  | error error =>
    rw [bind_of_error part, bind_of_error part']
    exact ⟨between, actions, [], growsBetween, rfl, alikeBetween, .error error⟩
  | outOfFuel =>
    obtain ⟨behind, longer⟩ := exists_append_of_bind first' next' machine'
    rw [part'] at longer
    rw [bind_of_outOfFuel part, longer, List.append_assoc]
    exact ⟨between, actions, rest ++ behind, growsBetween, rfl, alikeBetween, .outOfFuel _ _⟩

/-! ### Single steps -/

theorem mirrors_starve (other : Course β) : Mirrors links answer starve other :=
  fun now _ _ machine' alike =>
    ⟨now, [], (other machine').1, .refl now, rfl, alike, .outOfFuel _ _⟩

theorem mirrors_fail (fault : Fault) (line : Nat) :
    Mirrors links answer (fail fault line) (fail fault line) :=
  fun now _ _ _ alike => ⟨now, [], [], .refl now, rfl, alike, .error _⟩

theorem mirrors_leave {value value' : Value} (like : value.Like links value') :
    Mirrors links answer (leave value) (leave value') :=
  fun now grows _ _ alike => ⟨now, [], [], .refl now, rfl, alike, .returned (like.grow grows)⟩

theorem mirrors_act {action action' : Action} (like : action.Like links action') :
    Mirrors links (fun _ _ _ => True) (act action) (act action') :=
  fun now grows _ _ alike =>
    ⟨now, [action'], [], .refl now, rfl, alike.perform (like.grow grows), .value trivial⟩

theorem mirrors_openScope {scope scope' : ScopeId} (sees : links.Sees scope scope') :
    Mirrors links (fun now inner inner' => now.paired inner inner') (openScope scope)
      (openScope scope') := by
  intro now grows machine machine' alike
  have stores := alike.stores.push (sees.grow grows)
  exact ⟨_, [.openScope scope'], [], now.grows_pair _ _, rfl, { alike with stores := stores },
    .value (.inr ⟨rfl, rfl⟩)⟩

/-- The first course may begin with a scope that stays hollow. -/
theorem Mirrors.openFirst {after : Links → γ → δ → Prop} {scope scope' : ScopeId}
    {next : ScopeId → Course γ} {other : Course δ} (sees : links.Sees scope scope')
    (nextMirrors : ∀ ⦃now : Links⦄, links.Grows now → ∀ ⦃inner⦄, now.Sees inner scope' →
      Mirrors now after (next inner) other) :
    Mirrors links after (openScope scope >>= next) other := by
  intro now grows machine machine' alike
  have seesNow := sees.grow grows
  have opens := now.grows_addHollowFirst machine.store.size scope
  have stores := alike.stores.pushFirst (alike.stores.lt_size seesNow).1
  have alikeInside : (machine.performAll [.openScope scope]).Alike _ machine' :=
    { alike with stores := stores }
  have seesInner : (now.addHollowFirst machine.store.size scope).Sees machine.store.size scope' :=
    .hollowFirst (.inr ⟨rfl, rfl⟩) (seesNow.grow opens)
  obtain ⟨later, actions, rest, growsLater, split, alikeLater, ends⟩ :=
    nextMirrors (grows.trans opens) seesInner (.refl _) alikeInside
  exact ⟨later, actions, rest, opens.trans growsLater, split, alikeLater, ends⟩

/-- The second course may begin with a scope that stays hollow. -/
theorem Mirrors.openSecond {after : Links → γ → δ → Prop} {scope scope' : ScopeId}
    {next : ScopeId → Course δ} {course : Course γ} (sees : links.Sees scope scope')
    (nextMirrors : ∀ ⦃now : Links⦄, links.Grows now → ∀ ⦃inner⦄, now.Sees scope inner →
      Mirrors now after course (next inner)) :
    Mirrors links after course (openScope scope' >>= next) := by
  intro now grows machine machine' alike
  have seesNow := sees.grow grows
  have opens := now.grows_addHollowSecond machine'.store.size scope'
  have stores := alike.stores.pushSecond (alike.stores.lt_size seesNow).2
  have alikeInside : machine.Alike _ (machine'.performAll [.openScope scope']) :=
    { alike with stores := stores }
  have seesInner :
      (now.addHollowSecond machine'.store.size scope').Sees scope machine'.store.size :=
    .hollowSecond (.inr ⟨rfl, rfl⟩) (seesNow.grow opens)
  obtain ⟨later, actions, rest, growsLater, split, alikeLater, ends⟩ :=
    nextMirrors (grows.trans opens) seesInner (.refl _) alikeInside
  refine ⟨later, .openScope scope' :: actions, rest, opens.trans growsLater, ?_, alikeLater, ends⟩
  exact congrArg (Action.openScope scope' :: ·) split

/-- What an operator computes is alike to itself. -/
theorem mirrors_ofExcept (line : Nat) {result : Except Fault Value}
    (noFunction : ∀ value, result = .ok value → value.NoFunction) :
    Mirrors links Value.Like (ofExcept line result) (ofExcept line result) := by
  cases result with
  | ok value => exact mirrors_pure fun _ _ => .plain (noFunction value rfl)
  | error fault => exact mirrors_fail fault line

theorem mirrors_lookup {scope scope' : ScopeId} (sees : links.Sees scope scope') (name : Token) :
    Mirrors links Value.Like (lookup scope name) (lookup scope' name) := by
  intro now grows machine machine' alike
  have values := alike.stores.get?_rel name.lexeme (sees.grow grows)
  rw [lookup_apply, lookup_apply]
  generalize machine.store.get? scope name.lexeme = value?,
    machine'.store.get? scope' name.lexeme = value?' at values
  cases values with
  | none => exact ⟨now, [], [], .refl now, rfl, alike, .error _⟩
  | some like => exact ⟨now, [], [], .refl now, rfl, alike, .value like⟩

theorem mirrors_assign {scope scope' : ScopeId} (sees : links.Sees scope scope') (name : Token)
    {value value' : Value} (like : value.Like links value') :
    Mirrors links (fun _ _ _ => True) (assign scope name value) (assign scope' name value') := by
  intro now grows machine machine' alike
  have owners := alike.stores.owner?_rel name.lexeme (sees.grow grows)
  rw [assign_apply, assign_apply]
  generalize machine.store.owner? name.lexeme scope = owner?,
    machine'.store.owner? name.lexeme scope' = owner?' at owners
  cases owners with
  | none => exact ⟨now, [], [], .refl now, rfl, alike, .error _⟩
  | some pair =>
    have update : Action.Like now _ _ := .update name.lexeme pair (like.grow grows)
    exact ⟨now, [_], [], .refl now, rfl, alike.perform update, .value trivial⟩

theorem mirrors_callNative (native : Native) {arguments arguments' : List Value}
    (like : List.Forall₂ (Value.Like links) arguments arguments') (line : Nat) :
    Mirrors links Value.Like (callNative native arguments line)
      (callNative native arguments' line) := by
  intro now grows machine machine' alike
  have call : Action.Like links _ _ := .callNative native like
  have alikeBehind := alike.perform (call.grow grows)
  rw [callNative_apply, callNative_apply, alike.inputs, Native.call_eq like]
  refine ⟨now, [_], [], .refl now, rfl, alikeBehind, ?_⟩
  cases answer : (native.call arguments' machine'.inputs).1 with
  | ok value => exact .value (.plain (Native.noFunction_call answer))
  | error fault => exact .error _

theorem mirrors_rejectConstant {scope scope' : ScopeId} (sees : links.Sees scope scope')
    (name : Token) :
    Mirrors links (fun _ _ _ => True) (rejectConstant scope name)
      (rejectConstant scope' name) := by
  intro now grows machine machine' alike
  rw [rejectConstant_apply, rejectConstant_apply,
    alike.stores.isConstant_eq name.lexeme (sees.grow grows)]
  refine ⟨now, [], [], .refl now, rfl, alike, ?_⟩
  split
  · exact .error _
  · exact .value trivial

theorem mirrors_rejectDeclared {scope scope' : ScopeId} (pair : links.paired scope scope')
    (name : Token) :
    Mirrors links (fun _ _ _ => True) (rejectDeclared scope name)
      (rejectDeclared scope' name) := by
  intro now grows machine machine' alike
  rw [rejectDeclared_apply, rejectDeclared_apply,
    alike.stores.binds_eq name.lexeme (grows.paired pair)]
  refine ⟨now, [], [], .refl now, rfl, alike, ?_⟩
  split
  · exact .error _
  · exact .value trivial

/-! ### Lists and calls -/

theorem mirrors_each {course course' : α → Course Value} {items : List α}
    (mirrors : ∀ item ∈ items, Mirrors links Value.Like (course item) (course' item)) :
    Mirrors links (fun now => List.Forall₂ (Value.Like now)) (each course items)
      (each course' items) := by
  induction items with
  | nil => exact mirrors_pure fun _ _ => .nil
  | cons first rest inductionHypothesis =>
    obtain ⟨firstMirrors, restMirrors⟩ := List.forall_mem_cons.mp mirrors
    refine firstMirrors.bind fun now grows value value' like => ?_
    refine ((inductionHypothesis restMirrors).grow grows).bind fun later growsLater _ _ likes => ?_
    exact mirrors_pure fun last growsLast =>
      .cons ((like.grow growsLater).grow growsLast)
        (likes.imp fun _ _ like => like.grow growsLast)

theorem mirrors_inOrder {course course' : α → Course Unit} {items : List α}
    (mirrors : ∀ item ∈ items, Mirrors links (fun _ _ _ => True) (course item) (course' item)) :
    Mirrors links (fun _ _ _ => True) (inOrder course items) (inOrder course' items) := by
  induction items with
  | nil => exact mirrors_pure fun _ _ => trivial
  | cons first rest inductionHypothesis =>
    obtain ⟨firstMirrors, restMirrors⟩ := List.forall_mem_cons.mp mirrors
    exact firstMirrors.bind fun now grows _ _ _ => (inductionHypothesis restMirrors).grow grows

theorem mirrors_bindParameters {scope scope' : ScopeId} (pair : links.paired scope scope')
    (parameters : List String) {arguments arguments' : List Value}
    (like : List.Forall₂ (Value.Like links) arguments arguments') :
    Mirrors links (fun _ _ _ => True) (bindParameters scope (parameters.zip arguments))
      (bindParameters scope' (parameters.zip arguments')) := by
  induction parameters generalizing arguments arguments' with
  | nil => exact mirrors_pure fun _ _ => trivial
  | cons parameter parameters inductionHypothesis =>
    cases like with
    | nil => exact mirrors_pure fun _ _ => trivial
    | cons first others =>
      exact (mirrors_act (.bindParameter parameter pair first)).bind fun now grows _ _ _ =>
        (inductionHypothesis others).grow grows

theorem Mirrors.catchReturn {body body' : Course Unit}
    (mirrors : Mirrors links (fun _ _ _ => True) body body') :
    Mirrors links Value.Like (catchReturn body) (catchReturn body') := by
  intro now grows machine machine' alike
  obtain ⟨later, actions, rest, growsLater, split, alikeLater, ends⟩ := mirrors grows alike
  refine ⟨later, actions, rest, growsLater, (fst_catchReturn _ _).trans split, ?_, ?_⟩
  · rw [fst_catchReturn]
    exact alikeLater
  · rw [Course.catchReturn, Course.catchReturn]
    generalize body machine = part at ends
    generalize body' machine' = part' at ends
    obtain ⟨done, exit⟩ := part
    obtain ⟨done', exit'⟩ := part'
    cases ends with
    | value _ => exact .value (.plain (Literal.noFunction_value .nil))
    | returned like => exact .value like
    | error error => exact .error error
    | outOfFuel => exact .outOfFuel _ _

/-- Like functions do alike if their bodies do in all scopes that are paired. -/
theorem mirrors_callValue {body body' : ScopeId → List Stmt → Course Unit}
    (mirrors : ∀ ⦃now : Links⦄ ⦃scope scope' : ScopeId⦄, now.paired scope scope' →
      ∀ statements, Mirrors now (fun _ _ _ => True) (body scope statements)
        (body' scope' statements))
    {callee callee' : Value} (like : callee.Like links callee') {arguments arguments' : List Value}
    (likes : List.Forall₂ (Value.Like links) arguments arguments') (line : Nat) :
    Mirrors links Value.Like (callValue body callee arguments line)
      (callValue body' callee' arguments' line) := by
  have callables := like.callable?
  rw [callValue, callValue]
  generalize callee.callable? = callable?, callee'.callable? = callable?' at callables
  cases callables with
  | none => exact mirrors_fail _ _
  | @some callable callable' callableLike =>
    have arity_eq : callable.arity = callable'.arity := by cases callableLike <;> rfl
    dsimp only
    rw [← likes.length_eq, ← arity_eq]
    split
    · have called := TraceEvent.like_called callableLike arguments.length line
      refine (mirrors_act (.record called)).bind fun now grows _ _ _ => ?_
      have likesNow := likes.imp fun _ _ like => Value.Like.grow like grows
      cases callableLike with
      | native native => exact mirrors_callNative native likesNow line
      | closure sees =>
        refine (mirrors_openScope (sees.grow grows)).bind fun inside growsInside _ _ pair => ?_
        have likesInside := likesNow.imp fun _ _ like => Value.Like.grow like growsInside
        refine (mirrors_bindParameters pair _ likesInside).bind fun later growsLater _ _ _ => ?_
        exact (mirrors (growsLater.paired pair) _).catchReturn
    · exact mirrors_fail _ _

/-! ### Expressions and statements -/

section

variable {fuel more : Nat}
  (evaluates : ∀ ⦃links : Links⦄ ⦃scope scope' : ScopeId⦄, links.Sees scope scope' →
    ∀ expression, Mirrors links Value.Like (evaluate fuel scope expression)
      (evaluate more scope' expression))
  (executes : ∀ ⦃links : Links⦄ ⦃scope scope' : ScopeId⦄, links.Sees scope scope' →
    ∀ statement, (statement.Declares → links.paired scope scope') →
      Mirrors links (fun _ _ _ => True) (execute fuel scope statement)
        (execute more scope' statement))

include executes

/-- In paired scopes any statements may run. -/
theorem mirrors_inOrder_execute ⦃links : Links⦄ ⦃scope scope' : ScopeId⦄
    (pair : links.paired scope scope') (statements : List Stmt) :
    Mirrors links (fun _ _ _ => True) (inOrder (execute fuel scope) statements)
      (inOrder (execute more scope') statements) :=
  mirrors_inOrder fun statement _ => executes (.paired pair) statement fun _ => pair

include evaluates

theorem mirrors_evaluate_succ ⦃links : Links⦄ ⦃scope scope' : ScopeId⦄
    (sees : links.Sees scope scope') (expression : Expr) :
    Mirrors links Value.Like (evaluate (fuel + 1) scope expression)
      (evaluate (more + 1) scope' expression) := by
  cases expression with
  | literal literal => exact mirrors_pure fun _ _ => .plain (Literal.noFunction_value literal)
  | grouping inner => exact evaluates sees inner
  | «variable» name => exact mirrors_lookup sees name
  | assign name value =>
    refine (mirrors_rejectConstant sees name).bind fun now grows _ _ _ => ?_
    have seesNow := sees.grow grows
    refine (evaluates seesNow value).bind fun later growsLater value value' like => ?_
    refine (mirrors_assign (seesNow.grow growsLater) name like).bind fun last growsLast _ _ _ => ?_
    exact mirrors_pure fun _ growsMore => (like.grow growsLast).grow growsMore
  | unary operator operand =>
    refine (evaluates sees operand).bind fun now _ operand operand' like => ?_
    rw [Operator.unary_eq like]
    exact mirrors_ofExcept _ fun _ computes => Operator.noFunction_unary computes
  | binary left operator right =>
    refine (evaluates sees left).bind fun now grows left left' like => ?_
    refine (evaluates (sees.grow grows) right).bind
      fun later growsLater right right' likeRight => ?_
    rw [Operator.binary_eq (like.grow growsLater) likeRight]
    exact mirrors_ofExcept _ fun _ computes => Operator.noFunction_binary computes
  | logical left operator right =>
    refine (evaluates sees left).bind fun now grows left left' like => ?_
    rw [like.truthy_eq]
    split
    · exact mirrors_pure fun _ growsNow => like.grow growsNow
    · exact evaluates (sees.grow grows) right
  | call callee paren arguments =>
    refine (evaluates sees callee).bind fun now grows callee callee' like => ?_
    have seesNow := sees.grow grows
    refine (mirrors_each fun argument _ => evaluates seesNow argument).bind
      fun later growsLater arguments arguments' likes => ?_
    exact mirrors_callValue (mirrors_inOrder_execute executes) (like.grow growsLater)
      likes paren.line

theorem mirrors_execute_succ ⦃links : Links⦄ ⦃scope scope' : ScopeId⦄
    (sees : links.Sees scope scope') (statement : Stmt)
    (pairs : statement.Declares → links.paired scope scope') :
    Mirrors links (fun _ _ _ => True) (execute (fuel + 1) scope statement)
      (execute (more + 1) scope' statement) := by
  cases statement with
  | expression value =>
    exact (evaluates sees value).bind fun _ _ _ _ _ => mirrors_pure fun _ _ => trivial
  | print value =>
    refine (evaluates sees value).bind fun now _ value value' like => ?_
    rw [like.text_eq]
    exact mirrors_act (.print _)
  | var constant name initializer =>
    have pair := pairs trivial
    have declares : ∀ ⦃now : Links⦄, links.Grows now → ∀ ⦃value value' : Value⦄,
        value.Like now value' → Mirrors now (fun _ _ _ => True)
          (do
            act (.declareVariable scope name.lexeme value constant)
            act (.record (.declared constant name.lexeme value)))
          (do
            act (.declareVariable scope' name.lexeme value' constant)
            act (.record (.declared constant name.lexeme value'))) := by
      intro now grows value value' like
      have declares := mirrors_act (.declareVariable name.lexeme constant (grows.paired pair) like)
      exact declares.bind fun _ _ _ _ _ =>
        mirrors_act (.record (TraceEvent.like_declared like constant name.lexeme))
    refine (mirrors_rejectDeclared pair name).bind fun now grows _ _ _ => ?_
    cases initializer with
    | none =>
      exact Mirrors.bind (mirrors_pure fun _ _ => .plain fun _ => nofun)
        fun later growsLater _ _ like => declares (grows.trans growsLater) like
    | some initializer =>
      exact (evaluates (sees.grow grows) initializer).bind
        fun later growsLater _ _ like => declares (grows.trans growsLater) like
  | block body =>
    exact (mirrors_openScope sees).bind fun now _ inner inner' pair =>
      mirrors_inOrder_execute executes pair body
  | ifThen condition consequent =>
    refine (evaluates sees condition).bind fun now grows value value' like => ?_
    refine (mirrors_act (.record (TraceEvent.like_decided like))).bind
      fun later growsLater _ _ _ => ?_
    rw [like.truthy_eq]
    have growsBoth := grows.trans growsLater
    split
    · exact executes (sees.grow growsBoth) consequent fun declares =>
        growsBoth.paired (pairs declares)
    · exact mirrors_pure fun _ _ => trivial
  | ifElse condition consequent alternative =>
    refine (evaluates sees condition).bind fun now grows value value' like => ?_
    refine (mirrors_act (.record (TraceEvent.like_decided like))).bind
      fun later growsLater _ _ _ => ?_
    rw [like.truthy_eq]
    have growsBoth := grows.trans growsLater
    split
    · exact executes (sees.grow growsBoth) consequent fun declares =>
        growsBoth.paired (pairs (.inl declares))
    · exact executes (sees.grow growsBoth) alternative fun declares =>
        growsBoth.paired (pairs (.inr declares))
  | «while» condition body =>
    refine (evaluates sees condition).bind fun now grows value value' like => ?_
    rw [like.truthy_eq]
    split
    · refine (executes (sees.grow grows) body fun declares =>
        grows.paired (pairs declares)).bind fun later growsLater _ _ _ => ?_
      have growsBoth := grows.trans growsLater
      exact executes (sees.grow growsBoth) (.while condition body) fun declares =>
        growsBoth.paired (pairs declares)
    · exact mirrors_pure fun _ _ => trivial
  | function name parameters body =>
    have declares := mirrors_act
      (.declareFunction name.lexeme (parameters.map Token.lexeme) body (pairs trivial))
    exact declares.bind fun _ _ _ _ _ => mirrors_act (.record (.refl _))
  | «return» keyword value =>
    cases value with
    | none => exact mirrors_leave (.plain fun _ => nofun)
    | some value => exact (evaluates sees value).bind fun _ _ _ _ like => mirrors_leave like

end

theorem mirrors_evaluate_execute {fuel more : Nat} (enough : fuel ≤ more) :
    (∀ ⦃links : Links⦄ ⦃scope scope' : ScopeId⦄, links.Sees scope scope' →
      ∀ expression, Mirrors links Value.Like (evaluate fuel scope expression)
        (evaluate more scope' expression)) ∧
    ∀ ⦃links : Links⦄ ⦃scope scope' : ScopeId⦄, links.Sees scope scope' →
      ∀ statement, (statement.Declares → links.paired scope scope') →
        Mirrors links (fun _ _ _ => True) (execute fuel scope statement)
          (execute more scope' statement) := by
  induction fuel generalizing more with
  | zero =>
    refine ⟨fun _ _ _ _ _ => ?_, fun _ _ _ _ _ _ => ?_⟩
    · rw [evaluate.eq_def 0]
      exact mirrors_starve _
    · rw [execute.eq_def 0]
      exact mirrors_starve _
  | succ fuel inductionHypothesis =>
    obtain ⟨less, rfl⟩ := Nat.exists_eq_add_of_le' (Nat.le_trans (Nat.le_add_left 1 fuel) enough)
    obtain ⟨evaluates, executes⟩ := inductionHypothesis (Nat.le_of_succ_le_succ enough)
    exact ⟨mirrors_evaluate_succ evaluates executes, mirrors_execute_succ evaluates executes⟩

variable {fuel more : Nat} {scope scope' : ScopeId}

/-- In scopes that see the same, an expression does alike and has like values. -/
theorem mirrors_evaluate (enough : fuel ≤ more) (sees : links.Sees scope scope')
    (expression : Expr) :
    Mirrors links Value.Like (evaluate fuel scope expression) (evaluate more scope' expression) :=
  (mirrors_evaluate_execute enough).1 sees expression

/-- In scopes that see the same, a statement does alike, if these are paired or it binds no names
there. -/
theorem mirrors_execute (enough : fuel ≤ more) (sees : links.Sees scope scope') (statement : Stmt)
    (pairs : statement.Declares → links.paired scope scope') :
    Mirrors links (fun _ _ _ => True) (execute fuel scope statement)
      (execute more scope' statement) :=
  (mirrors_evaluate_execute enough).2 sees statement pairs

end Course

end Lox
