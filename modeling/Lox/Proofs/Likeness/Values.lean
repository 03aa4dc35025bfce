/-
This file compares values across machines on which the same program has opened
different scopes. No program can see the number of a scope, and none can tell
whether a scope that binds nothing stands between two others. So functions are
alike if they are declared alike in scopes that see the same.

Like values are printed and traced alike, and operators and natives cannot tell
one from the other.
-/

import Mathlib.Data.List.Forall2
import Lox.Proofs.Scopes.Anchors

namespace Lox

/-! ### Scopes that see the same -/

/-- How the scopes of two machines correspond. Some scopes of the first are paired with scopes of
the second; other scopes, of either machine, bind nothing and are known with the scope around
them. -/
structure Links where
  paired : ScopeId → ScopeId → Prop
  hollowFirst : ScopeId → ScopeId → Prop
  hollowSecond : ScopeId → ScopeId → Prop

namespace Links

/-- All that is known is known later as well. -/
structure Grows (links more : Links) : Prop where
  paired {first second : ScopeId} : links.paired first second → more.paired first second
  hollowFirst {hollow outer : ScopeId} :
    links.hollowFirst hollow outer → more.hollowFirst hollow outer
  hollowSecond {hollow outer : ScopeId} :
    links.hollowSecond hollow outer → more.hollowSecond hollow outer

theorem Grows.refl (links : Links) : links.Grows links := ⟨id, id, id⟩

theorem Grows.trans {links more most : Links} (grows : links.Grows more)
    (further : more.Grows most) : links.Grows most :=
  ⟨further.paired ∘ grows.paired, further.hollowFirst ∘ grows.hollowFirst,
    further.hollowSecond ∘ grows.hollowSecond⟩

/-- One pair more. -/
def pair (links : Links) (first second : ScopeId) : Links :=
  { links with paired := fun id id' => links.paired id id' ∨ id = first ∧ id' = second }

/-- One hollow scope more on the first machine. -/
def addHollowFirst (links : Links) (hollow outer : ScopeId) : Links :=
  { links with
    hollowFirst := fun id parent => links.hollowFirst id parent ∨ id = hollow ∧ parent = outer }

/-- One hollow scope more on the second machine. -/
def addHollowSecond (links : Links) (hollow outer : ScopeId) : Links :=
  { links with
    hollowSecond := fun id parent => links.hollowSecond id parent ∨ id = hollow ∧ parent = outer }

theorem grows_pair (links : Links) (first second : ScopeId) :
    links.Grows (links.pair first second) := ⟨.inl, id, id⟩

theorem grows_addHollowFirst (links : Links) (hollow outer : ScopeId) :
    links.Grows (links.addHollowFirst hollow outer) := ⟨id, .inl, id⟩

theorem grows_addHollowSecond (links : Links) (hollow outer : ScopeId) :
    links.Grows (links.addHollowSecond hollow outer) := ⟨id, id, .inl⟩

/-- The scopes are paired, or would be without hollow scopes. -/
inductive Sees (links : Links) : ScopeId → ScopeId → Prop
  | paired {first second : ScopeId} : links.paired first second → Sees links first second
  | hollowFirst {hollow first second : ScopeId} :
    links.hollowFirst hollow first → Sees links first second → Sees links hollow second
  | hollowSecond {hollow first second : ScopeId} :
    links.hollowSecond hollow second → Sees links first second → Sees links first hollow

variable {links more : Links}

theorem Sees.grow {first second : ScopeId} (sees : links.Sees first second)
    (grows : links.Grows more) : more.Sees first second := by
  induction sees with
  | paired pair => exact .paired (grows.paired pair)
  | hollowFirst hollow _ inductionHypothesis =>
    exact .hollowFirst (grows.hollowFirst hollow) inductionHypothesis
  | hollowSecond hollow _ inductionHypothesis =>
    exact .hollowSecond (grows.hollowSecond hollow) inductionHypothesis

end Links

/-! ### Like values -/

/-- The values are the same, or functions that are the same but for scopes that see the same. -/
inductive Value.Like (links : Links) : Value → Value → Prop
  | plain {value : Value} : value.NoFunction → Like links value value
  | function {name : String} {parameters : List String} {body : List Stmt}
      {first second : ScopeId} :
    links.Sees first second →
    Like links (.function ⟨name, parameters, body, first⟩)
      (.function ⟨name, parameters, body, second⟩)

/-- The callables are the same, or functions that are alike. -/
inductive Callable.Like (links : Links) : Callable → Callable → Prop
  | native (native : Native) : Like links (.native native) (.native native)
  | closure {name : String} {parameters : List String} {body : List Stmt}
      {first second : ScopeId} :
    links.Sees first second →
    Like links (.closure ⟨name, parameters, body, first⟩)
      (.closure ⟨name, parameters, body, second⟩)

namespace Value.Like

variable {links more : Links} {first second : Value}

theorem grow (like : Like links first second) (grows : links.Grows more) :
    Like more first second := by
  cases like with
  | plain noFunction => exact .plain noFunction
  | function sees => exact .function (sees.grow grows)

theorem text_eq (like : Like links first second) : first.text = second.text := by
  cases like <;> rfl

theorem truthy_eq (like : Like links first second) : first.truthy = second.truthy := by
  cases like <;> rfl

theorem typeName_eq (like : Like links first second) : first.typeName = second.typeName := by
  cases like <;> rfl

theorem callable? (like : Like links first second) :
    Option.Rel (Callable.Like links) first.callable? second.callable? := by
  cases like with
  | function sees => exact .some (.closure sees)
  | plain noFunction =>
    cases first with
    | nil | boolean _ | int _ | float _ | string _ => exact .none
    | native native => exact .some (.native native)
    | function closure => exact absurd rfl (noFunction closure)

end Value.Like

/-! ### Operators and natives -/

section

variable {links : Links}

theorem Operator.unary_eq {first second : Value} (like : first.Like links second)
    (operator : Token) : unary operator first = unary operator second := by
  cases like <;> rfl

theorem Value.Like.equal_eq {left left' right right' : Value} (likeLeft : left.Like links left')
    (likeRight : right.Like links right') : left.equal right = left'.equal right' := by
  cases likeLeft with
  | plain _ =>
    cases likeRight with
    | plain _ => rfl
    | function _ => cases left <;> rfl
  | function _ =>
    cases likeRight with
    | plain _ => cases right <;> rfl
    | function _ => rfl

theorem NumberPair.of?_eq {left left' right right' : Value} (likeLeft : left.Like links left')
    (likeRight : right.Like links right') : of? left right = of? left' right' := by
  cases likeLeft with
  | plain _ =>
    cases likeRight with
    | plain _ => rfl
    | function _ => cases left <;> rfl
  | function _ =>
    cases likeRight with
    | plain _ => rfl
    | function _ => rfl

theorem Operator.binary_eq {left left' right right' : Value} (likeLeft : left.Like links left')
    (likeRight : right.Like links right') (operator : Token) :
    binary operator left right = binary operator left' right' := by
  unfold binary
  rw [likeLeft.equal_eq likeRight, NumberPair.of?_eq likeLeft likeRight]
  cases likeLeft with
  | plain _ =>
    cases likeRight with
    | plain _ => rfl
    | function _ => cases left <;> rfl
  | function _ =>
    cases likeRight with
    | plain _ => rfl
    | function _ => rfl

theorem Native.hasType_eq {first second : Value} (like : first.Like links second) (type : String) :
    hasType type first = hasType type second := by
  unfold hasType
  rw [like.typeName_eq]

/-- A pair of arguments is asked for strings and for types. -/
theorem Native.pureResult_pair {left left' right right' : Value} (likeLeft : left.Like links left')
    (likeRight : right.Like links right') {native : Native} (notText : native ≠ .toText) :
    native.pureResult [left, right] = native.pureResult [left', right'] := by
  cases native with
  | toText => exact absurd rfl notText
  | clock | input => rfl
  | parseText =>
    cases likeLeft with
    | function _ => rfl
    | plain _ =>
      cases likeRight with
      | plain _ => rfl
      | function _ => cases left <;> rfl
  | isInstance =>
    cases likeLeft with
    | function _ => rfl
    | plain _ =>
      cases left with
      | string type => exact hasType_eq likeRight _
      | nil | boolean _ | int _ | float _ | function _ | native _ => rfl

theorem Native.pureResult_of_length_ne {native : Native} (notText : native ≠ .toText)
    {arguments : List Value} (notPair : arguments.length ≠ 2) :
    native.pureResult arguments = .error .argumentCount := by
  unfold pureResult
  split
  · exact absurd rfl notText
  · exact absurd rfl notPair
  · exact absurd rfl notPair
  · exact absurd rfl notPair
  · exact absurd rfl notPair
  · rfl

theorem Native.pureResult_eq {arguments arguments' : List Value}
    (like : List.Forall₂ (Value.Like links) arguments arguments') (native : Native) :
    native.pureResult arguments = native.pureResult arguments' := by
  by_cases isText : native = .toText
  · subst isText
    cases like with
    | nil => rfl
    | cons first _ =>
      exact congrArg (fun text => Except.ok (Value.string text)) first.text_eq
  · by_cases isPair : arguments.length = 2
    · cases like with
      | nil => exact nomatch isPair
      | cons first others =>
        cases others with
        | nil => exact nomatch isPair
        | cons second others =>
          cases others with
          | nil => exact pureResult_pair first second isText
          | cons _ _ => exact nomatch isPair
    · have notPair : arguments'.length ≠ 2 := like.length_eq ▸ isPair
      rw [pureResult_of_length_ne isText isPair, pureResult_of_length_ne isText notPair]

theorem Native.call_eq {arguments arguments' : List Value}
    (like : List.Forall₂ (Value.Like links) arguments arguments') (native : Native)
    (inputs : Inputs) : native.call arguments inputs = native.call arguments' inputs := by
  unfold call
  rw [pureResult_eq like]

end

end Lox
