import GameScript.Syntax.Basic

/-! What structured statements do.

Expressions are opaque: each is a computation that may change the variables and
gives one value.  Statements run them in the order of the source. -/

namespace GameScript.Execution

open Syntax

inductive Datum (α : Type) where
  | boolean (value : Bool)
  | int32 (value : Int32)
  | other (value : α)

/-- What code computes between two statements. -/
inductive Computation where
  | value (expr : Expr)
  | update (v : Variable) (op : BinaryOp) (expr : Expr)

structure Interpretation where
  State : Type
  Value : Type
  evaluate : Computation → State → State × Datum Value
  store : String → Datum Value → State → State
  truth : Datum Value → Bool
  toInt32 : Datum Value → Int32
  equal : Datum Value → Datum Value → Bool
  truth_boolean : ∀ value, truth (.boolean value) = value
  truth_int32 : ∀ value, 0 ≤ value → truth (.int32 value) = decide (value ≠ 0)
  toInt32_int32 : ∀ value, toInt32 (.int32 value) = value

/-- There is nothing to store, and nothing but numbers and booleans. -/
def Interpretation.idle : Interpretation where
  State := Unit
  Value := Empty
  evaluate _ s := (s, .int32 0)
  store _ _ s := s
  truth
    | .boolean value => value
    | .int32 value => decide (value ≠ 0)
  toInt32
    | .boolean _ => 0
    | .int32 value => value
  equal _ _ := true
  truth_boolean _ := rfl
  truth_int32 _ _ := rfl
  toInt32_int32 _ := rfl

inductive Outcome where
  | normal | breakLoop | continueLoop | exit
deriving DecidableEq, Repr

def Outcome.Continues (outcome : Outcome) : Prop :=
  outcome = .normal ∨ outcome = .continueLoop

/-- From which variables a statement leads to which, and how it ends. -/
abbrev Meaning (State : Type) := State → Outcome → State → Prop

namespace Meaning

variable {State : Type}

def skip : Meaning State := fun s outcome t => outcome = .normal ∧ t = s

def leave (how : Outcome) : Meaning State := fun s outcome t => outcome = how ∧ t = s

def seq (first second : Meaning State) : Meaning State := fun s outcome t =>
  (∃ middle, first s .normal middle ∧ second middle outcome t) ∨
    outcome ≠ .normal ∧ first s outcome t

def choose (test : State → State × Bool) (yes no : Meaning State) : Meaning State :=
  fun s outcome t =>
    if (test s).2 then yes (test s).1 outcome t else no (test s).1 outcome t

/-- `while`, and `for` with a step. -/
inductive loop (test : State → State × Bool) (body step : Meaning State) :
    Meaning State where
  | done {s} (fails : (test s).2 = false) : loop test body step s .normal (test s).1
  | again {s middle next t inner outcome} (holds : (test s).2 = true)
      (ran : body (test s).1 inner middle) (continues : inner.Continues)
      (stepped : step middle .normal next) (rest : loop test body step next outcome t) :
      loop test body step s outcome t
  | broken {s t} (holds : (test s).2 = true) (ran : body (test s).1 .breakLoop t) :
      loop test body step s .normal t
  | exited {s t} (holds : (test s).2 = true) (ran : body (test s).1 .exit t) :
      loop test body step s .exit t

inductive doUntil (body : Meaning State) (test : State → State × Bool) :
    Meaning State where
  | done {s middle inner} (ran : body s inner middle) (continues : inner.Continues)
      (holds : (test middle).2 = true) : doUntil body test s .normal (test middle).1
  | again {s middle t inner outcome} (ran : body s inner middle)
      (continues : inner.Continues) (fails : (test middle).2 = false)
      (rest : doUntil body test (test middle).1 outcome t) :
      doUntil body test s outcome t
  | broken {s t} (ran : body s .breakLoop t) : doUntil body test s .normal t
  | exited {s t} (ran : body s .exit t) : doUntil body test s .exit t

inductive times (body : Meaning State) : Nat → Meaning State where
  | done {s} : times body 0 s .normal s
  | again {s middle t inner outcome count} (ran : body s inner middle)
      (continues : inner.Continues)
      (rest : times body count middle outcome t) : times body (count + 1) s outcome t
  | broken {s t count} (ran : body s .breakLoop t) : times body (count + 1) s .normal t
  | exited {s t count} (ran : body s .exit t) : times body (count + 1) s .exit t

/-- Statements from one arm of a `switch` on, whose `break` ends them all. -/
def fallThrough : List (Meaning State) → Meaning State
  | [] => skip
  | body :: rest => seq body (fallThrough rest)

def breakable (body : Meaning State) : Meaning State := fun s outcome t =>
  ∃ inner, body s inner t ∧ outcome = if inner = .breakLoop then .normal else inner

end Meaning

namespace Interpretation

variable (I : Interpretation)

def assign (computation : Computation) (name : String) : Meaning I.State :=
  fun s outcome t =>
  outcome = .normal ∧
    t = I.store name (I.evaluate computation s).2 (I.evaluate computation s).1

def test (computation : Computation) (s : I.State) : I.State × Bool :=
  ((I.evaluate computation s).1, I.truth (I.evaluate computation s).2)

def optionalTest : Option Computation → I.State → I.State × Bool
  | none, s => (s, true)
  | some computation, s => I.test computation s

def repeated (count : Computation) (body : Meaning I.State) : Meaning I.State := fun s =>
  Meaning.times body (I.toInt32 (I.evaluate count s).2).toInt.toNat (I.evaluate count s).1

/-- Labels are evaluated in their order up to the first that equals the value. -/
def select (value : Datum I.Value) : List (Option Computation) → I.State →
      I.State × Option Nat
  | [], s => (s, none)
  | none :: rest, s => ((select value rest s).1, (select value rest s).2.map (· + 1))
  | some label :: rest, s =>
    let found := I.evaluate label s
    if I.equal value found.2 then (found.1, some 0)
    else ((select value rest found.1).1, (select value rest found.1).2.map (· + 1))

/-- Index of the arm without a label, the number of arms if all have one. -/
def defaultArm (labels : List (Option Computation)) : Nat := labels.findIdx (·.isNone)

def switch (value : Computation) (labels : List (Option Computation))
    (bodies : List (Meaning I.State)) : Meaning I.State := fun s =>
  let chosen := I.evaluate value s
  let arm := I.select chosen.2 labels chosen.1
  Meaning.breakable (.fallThrough (bodies.drop (arm.2.getD (defaultArm labels)))) arm.1

end Interpretation

end GameScript.Execution

namespace GameScript.Syntax

open Execution

def AssignOp.computation (op : AssignOp) (v : Variable) (value : Expr) : Computation :=
  match op.binary? with
  | some binary => .update v binary value
  | none => .value value

/-- A variable of its own scope is assigned. -/
def Stmt.isAssignment : Stmt → Bool
  | .assign _ _ (.var v []) _ => v.owner.isNone
  | _ => false

def SwitchArm.computation? : SwitchArm → Option Computation
  | .mk _ label _ => label.map .value

mutual

def Stmt.isStructured : Stmt → Bool
  | .assign _ _ (.var v []) _ => v.owner.isNone
  | .block body => areStructured body.stmts
  | .ifElse _ _ yes no => yes.isStructured && isStructuredOption no
  | .whileLoop _ _ body | .doUntil _ body _ | .repeatLoop _ _ body => body.isStructured
  | .forLoop _ init _ step body =>
    init.all Stmt.isAssignment && step.all Stmt.isAssignment && body.isStructured
  | .switch _ _ arms => armsAreStructured arms
  | .breakLoop _ | .continueLoop _ | .exit _ | .empty _ => true
  | _ => false

def areStructured : List Stmt → Bool
  | [] => true
  | stmt :: rest => stmt.isStructured && areStructured rest

def isStructuredOption : Option Stmt → Bool
  | none => true
  | some stmt => stmt.isStructured

def armsAreStructured : List SwitchArm → Bool
  | [] => true
  | .mk _ _ body :: rest => areStructured body && armsAreStructured rest

end

def Stmt.assigned : Stmt → List Computation
  | .assign _ op (.var v _) value => [op.computation v value]
  | _ => []

mutual

def Stmt.computations : Stmt → List Computation
  | .assign _ op (.var v _) value => [op.computation v value]
  | .block body => computationsOf body.stmts
  | .ifElse _ condition yes no =>
    .value condition :: (yes.computations ++ computationsOfOption no)
  | .whileLoop _ condition body => .value condition :: body.computations
  | .forLoop _ init condition step body =>
    init.toList.flatMap Stmt.assigned ++ (condition.map Computation.value).toList ++
      body.computations ++ step.toList.flatMap Stmt.assigned
  | .doUntil _ body condition => body.computations ++ [.value condition]
  | .repeatLoop _ count body => .value count :: body.computations
  | .switch _ value arms =>
    .value value :: (arms.filterMap SwitchArm.computation? ++ computationsOfArms arms)
  | _ => []

def computationsOf : List Stmt → List Computation
  | [] => []
  | stmt :: rest => stmt.computations ++ computationsOf rest

def computationsOfOption : Option Stmt → List Computation
  | none => []
  | some stmt => stmt.computations

def computationsOfArms : List SwitchArm → List Computation
  | [] => []
  | .mk _ _ body :: rest => computationsOf body ++ computationsOfArms rest

end

section

variable (I : Interpretation)

def Stmt.assigns : Stmt → Meaning I.State
  | .assign _ op (.var v _) value => I.assign (op.computation v value) v.name
  | _ => .skip

def assignsOption : Option Stmt → Meaning I.State
  | none => .skip
  | some stmt => stmt.assigns I

mutual

def Stmt.meaning : Stmt → Meaning I.State
  | .assign _ op (.var v _) value => I.assign (op.computation v value) v.name
  | .block body => meaningOf body.stmts
  | .ifElse _ condition yes no =>
    .choose (I.test (.value condition)) yes.meaning (meaningOfOption no)
  | .whileLoop _ condition body => .loop (I.test (.value condition)) body.meaning .skip
  | .forLoop _ init condition step body =>
    .seq (assignsOption I init)
      (.loop (I.optionalTest (condition.map .value)) body.meaning (assignsOption I step))
  | .doUntil _ body condition => .doUntil body.meaning (I.test (.value condition))
  | .repeatLoop _ count body => I.repeated (.value count) body.meaning
  | .switch _ value arms =>
    I.switch (.value value) (arms.map SwitchArm.computation?) (meaningsOf arms)
  | .breakLoop _ => .leave .breakLoop
  | .continueLoop _ => .leave .continueLoop
  | .exit _ => .leave .exit
  | .empty _ => .skip
  | _ => fun _ _ _ => False

def meaningOf : List Stmt → Meaning I.State
  | [] => .skip
  | stmt :: rest => .seq stmt.meaning (meaningOf rest)

def meaningOfOption : Option Stmt → Meaning I.State
  | none => .skip
  | some stmt => stmt.meaning

def meaningsOf : List SwitchArm → List (Meaning I.State)
  | [] => []
  | .mk _ _ body :: rest => meaningOf body :: meaningsOf rest

end

end

end GameScript.Syntax
