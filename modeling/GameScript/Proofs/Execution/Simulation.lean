import GameScript.Proofs.Execution.Placement

/-! Code at given positions does what statements mean.

Each construct is run from the runs of its parts; positions are indices of
instructions. -/

namespace GameScript.Execution

open Bytecode Emission Syntax

def kept : List LoopKind → Nat
  | [] => 0
  | .switch _ :: outer | .repeatLoop :: outer => kept outer + 1
  | .plain :: outer | .withLoop :: outer => kept outer

theorem length_switchTypes_le (kinds : List LoopKind) :
    (switchTypes kinds).length ≤ kept kinds := by
  induction kinds with
  | nil => exact Nat.le_refl 0
  | cons kind outer induction =>
    cases kind with
    | switch type => exact Nat.succ_le_succ induction
    | plain | repeatLoop | withLoop => exact Nat.zero_le _

namespace Site

variable {I : Interpretation} (site : Site I)

def HasAll (start : Nat) (cells : Piece) : Prop :=
  ∀ (index : Nat) (cell : Cell), cells[index]? = some cell → site.Has (start + index) cell

/-- A single instruction that leads elsewhere. -/
structure Jumps (start stop : Nat) (opcode : Opcode) (target : Nat) : Prop where
  stop : stop = start + 1
  has : site.Has start (Cell.branch opcode ((target : Int) - start))

/-- Where control is after a statement that ended in a way, with which stack. -/
def Finishes (start : Config I) (last : Nat) (exits : Exits) (kinds : List LoopKind)
    (stack : List (Datum I.Value)) : Outcome → I.State → Prop
  | .normal, t => site.Runs start ⟨last, stack, t⟩
  | .breakLoop, t => ∃ target, exits .breakLoop = some target ∧
      site.Runs start ⟨target, stack, t⟩
  | .continueLoop, t => ∃ target, exits .continueLoop = some target ∧
      site.Runs start ⟨target, stack.drop (switchTypes kinds).length, t⟩
  | .exit, t => ∃ index, site.Has index (Cell.single .exit .int32) ∧
      site.Runs start ⟨index, [], t⟩

/-- Code that leads to where a statement leads. -/
def Simulates (start stop : Nat) (exits : Exits) (kinds : List LoopKind)
    (meaning : Meaning I.State) : Prop :=
  ∀ stack s outcome t, stack.length = kept kinds → meaning s outcome t →
    site.Finishes ⟨start, stack, s⟩ stop exits kinds stack outcome t

def Computes (start stop : Nat) (value : I.State → I.State × Datum I.Value) : Prop :=
  ∀ stack s, site.Runs ⟨start, stack, s⟩ ⟨stop, (value s).2 :: stack, (value s).1⟩

def Tests (start stop : Nat) (test : I.State → I.State × Bool) : Prop :=
  ∀ stack s, ∃ x, I.truth x = (test s).2 ∧
    site.Runs ⟨start, stack, s⟩ ⟨stop, x :: stack, (test s).1⟩

/-- Code that pushes a count and whether there is nothing to count. -/
def Counts (start stop : Nat) (value : I.State → I.State × Datum I.Value) : Prop :=
  ∀ stack s, ∃ x, I.toInt32 x = I.toInt32 (value s).2 ∧
    site.Runs ⟨start, stack, s⟩
      ⟨stop, .boolean (decide (I.toInt32 x ≤ 0)) :: x :: stack, (value s).1⟩

/-- Code that leads to the arm whose label equals the value on the stack. -/
def Selects (start stop : Nat) (arms : Nat → Nat) (labels : List (Option Computation)) :
    Prop :=
  ∀ value stack s, site.Runs ⟨start, value :: stack, s⟩
    ⟨(I.select value labels s).2.elim stop arms, value :: stack,
      (I.select value labels s).1⟩

end Site

namespace Site

variable {I : Interpretation} {site : Site I} {exits inner : Exits} {kinds : List LoopKind}
  {start stop p q r u v w : Nat} {stack : List (Datum I.Value)} {s t : I.State}
  {outcome : Outcome} {meaning first second yes no body step : Meaning I.State}
  {test : I.State → I.State × Bool} {value : I.State → I.State × Datum I.Value}

theorem Jumps.run (jumps : site.Jumps start stop .branch p) :
    site.Runs ⟨start, stack, s⟩ ⟨p, stack, s⟩ := jumps.has.jump

variable {x : Datum I.Value} {before : Config I} {type : DataType}

theorem Jumps.ifFalse (jumps : site.Jumps start stop .branchFalse p) :
    site.Runs ⟨start, x :: stack, s⟩ ⟨if I.truth x then stop else p, stack, s⟩ := by
  rw [jumps.stop]
  exact jumps.has.branchFalse

theorem Jumps.ifTrue (jumps : site.Jumps start stop .branchTrue p) :
    site.Runs ⟨start, x :: stack, s⟩ ⟨if I.truth x then p else stop, stack, s⟩ := by
  rw [jumps.stop]
  exact jumps.has.branchTrue

/-! What comes before and after a statement. -/

theorem Finishes.after {middle : Config I} (runs : site.Runs before middle)
    (finishes : site.Finishes middle stop exits kinds stack outcome t) :
    site.Finishes before stop exits kinds stack outcome t := by
  cases outcome with
  | normal => exact runs.trans finishes
  | breakLoop =>
    obtain ⟨target, leads, rest⟩ := finishes
    exact ⟨target, leads, runs.trans rest⟩
  | continueLoop =>
    obtain ⟨target, leads, rest⟩ := finishes
    exact ⟨target, leads, runs.trans rest⟩
  | exit =>
    obtain ⟨index, isExit, rest⟩ := finishes
    exact ⟨index, isExit, runs.trans rest⟩

theorem Finishes.andThen {last : Nat}
    (finishes : site.Finishes before stop exits kinds stack outcome t)
    (more : outcome = .normal → site.Runs ⟨stop, stack, t⟩ ⟨last, stack, t⟩) :
    site.Finishes before last exits kinds stack outcome t := by
  cases outcome with
  | normal => exact Reaches.trans finishes (more rfl)
  | breakLoop => exact finishes
  | continueLoop => exact finishes
  | exit => exact finishes

theorem Simulates.congr (simulates : site.Simulates start stop inner kinds meaning)
    (breaks : inner .breakLoop = exits .breakLoop)
    (continues : inner .continueLoop = exits .continueLoop) :
    site.Simulates start stop exits kinds meaning := by
  intro stack s outcome t height ran
  have finishes := simulates stack s outcome t height ran
  cases outcome with
  | normal => exact finishes
  | breakLoop => rwa [Finishes, breaks] at finishes
  | continueLoop => rwa [Finishes, continues] at finishes
  | exit => exact finishes

theorem Simulates.thenJump (simulates : site.Simulates start stop exits kinds meaning)
    (jumps : site.Jumps stop q .branch p) : site.Simulates start p exits kinds meaning :=
  fun stack s outcome t height ran =>
    (simulates stack s outcome t height ran).andThen fun _ => jumps.run

theorem simulates_skip : site.Simulates start start exits kinds .skip := by
  rintro stack s outcome t - ⟨rfl, rfl⟩
  exact .refl _

theorem simulates_seq (one : site.Simulates start p exits kinds first)
    (other : site.Simulates p stop exits kinds second) :
    site.Simulates start stop exits kinds (.seq first second) := by
  rintro stack s outcome t height (⟨middle, ran, rest⟩ | ⟨abrupt, ran⟩)
  · exact .after (one stack s .normal middle height ran)
      (other stack middle outcome t height rest)
  · exact (one stack s outcome t height ran).andThen fun normal => absurd normal abrupt

theorem simulates_assign {computation : Computation} {resolved : String × Instance}
    (computes : site.Computes start p (I.evaluate computation))
    (stores : site.Has p (storeCell type resolved)) :
    site.Simulates start (p + 1) exits kinds (I.assign computation resolved.1) := by
  rintro stack s outcome t - ⟨rfl, rfl⟩
  exact (computes stack s).trans stores.store

theorem simulates_if (tests : site.Tests start p test)
    (skips : site.Jumps p q .branchFalse stop)
    (one : site.Simulates q stop exits kinds yes) :
    site.Simulates start stop exits kinds (.choose test yes .skip) := by
  intro stack s outcome t height ran
  obtain ⟨x, truth, tested⟩ := tests stack s
  have runs := tested.trans skips.ifFalse
  rw [truth] at runs
  unfold Meaning.choose at ran
  cases holds : (test s).2 with
  | true =>
    rw [holds] at runs ran
    exact .after runs (one stack _ outcome t height ran)
  | false =>
    rw [holds] at runs ran
    obtain ⟨rfl, rfl⟩ := ran
    exact runs

theorem simulates_ifElse (tests : site.Tests start p test)
    (skips : site.Jumps p q .branchFalse u) (one : site.Simulates q r exits kinds yes)
    (joins : site.Jumps r u .branch stop) (other : site.Simulates u stop exits kinds no) :
    site.Simulates start stop exits kinds (.choose test yes no) := by
  intro stack s outcome t height ran
  obtain ⟨x, truth, tested⟩ := tests stack s
  have runs := tested.trans skips.ifFalse
  rw [truth] at runs
  unfold Meaning.choose at ran
  cases holds : (test s).2 with
  | true =>
    rw [holds] at runs ran
    exact .after runs (one.thenJump joins stack _ outcome t height ran)
  | false =>
    rw [holds] at runs ran
    exact .after runs (other stack _ outcome t height ran)

theorem Finishes.goesOn {continued : Nat}
    (finishes : site.Finishes before stop inner (.plain :: kinds) stack outcome t)
    (continues : inner .continueLoop = some continued) (goesOn : outcome.Continues) :
    site.Runs before ⟨stop, stack, t⟩ ∨ site.Runs before ⟨continued, stack, t⟩ := by
  rcases goesOn with rfl | rfl
  · exact Or.inl finishes
  · obtain ⟨target, leads, runs⟩ := finishes
    obtain rfl : continued = target := Option.some.inj (continues.symm.trans leads)
    exact Or.inr runs

/-- `while` and `for`: after the body, from its end or by `continue`, the step is made. -/
theorem simulates_loop {continued : Nat} (tests : site.Tests start p test)
    (skips : site.Jumps p q .branchFalse stop)
    (runsBody : site.Simulates q r inner (.plain :: kinds) body)
    (breaks : inner .breakLoop = some stop)
    (continues : inner .continueLoop = some continued)
    (steps : ∀ stack s t, stack.length = kept kinds → step s .normal t →
      site.Runs ⟨r, stack, s⟩ ⟨start, stack, t⟩ ∧
      site.Runs ⟨continued, stack, s⟩ ⟨start, stack, t⟩) :
    site.Simulates start stop exits kinds (.loop test body step) := by
  intro stack s outcome t height ran
  have tested (s : I.State) : site.Runs ⟨start, stack, s⟩
      ⟨if (test s).2 then q else stop, stack, (test s).1⟩ := by
    obtain ⟨x, truth, runs⟩ := tests stack s
    have all := runs.trans skips.ifFalse
    rwa [truth] at all
  have entered {s : I.State} (holds : (test s).2 = true) :
      site.Runs ⟨start, stack, s⟩ ⟨q, stack, (test s).1⟩ := by
    have runs := tested s
    rwa [holds] at runs
  induction ran with
  | @done s fails =>
    have runs := tested s
    rwa [fails] at runs
  | again holds ran goesOn stepped rest induction =>
    have finishes := runsBody stack _ _ _ height ran
    refine .after ((entered holds).trans ?_) induction
    rcases finishes.goesOn continues goesOn with runs | runs
    · exact runs.trans (steps stack _ _ height stepped).1
    · exact runs.trans (steps stack _ _ height stepped).2
  | broken holds ran =>
    obtain ⟨target, leads, runs⟩ := runsBody stack _ _ _ height ran
    obtain rfl : stop = target := Option.some.inj (breaks.symm.trans leads)
    exact (entered holds).trans runs
  | exited holds ran =>
    exact Finishes.after (entered holds) (runsBody stack _ .exit _ height ran)

theorem simulates_doUntil (runsBody : site.Simulates start p inner (.plain :: kinds) body)
    (breaks : inner .breakLoop = some stop) (continues : inner .continueLoop = some p)
    (tests : site.Tests p q test) (back : site.Jumps q stop .branchFalse start) :
    site.Simulates start stop exits kinds (.doUntil body test) := by
  intro stack s outcome t height ran
  have tested {s middle : I.State} {inner : Outcome} (ran : body s inner middle)
      (goesOn : inner.Continues) : site.Runs ⟨start, stack, s⟩
        ⟨if (test middle).2 then stop else start, stack, (test middle).1⟩ := by
    obtain ⟨x, truth, runs⟩ := tests stack middle
    have all := runs.trans back.ifFalse
    rw [truth] at all
    rcases (runsBody stack _ _ _ height ran).goesOn continues goesOn with runs | runs
    · exact runs.trans all
    · exact runs.trans all
  induction ran with
  | done ran goesOn holds =>
    have runs := tested ran goesOn
    rwa [holds] at runs
  | again ran goesOn fails rest induction =>
    have runs := tested ran goesOn
    rw [fails] at runs
    exact .after runs induction
  | broken ran =>
    obtain ⟨target, leads, runs⟩ := runsBody stack _ _ _ height ran
    obtain rfl : stop = target := Option.some.inj (breaks.symm.trans leads)
    exact runs
  | exited ran => exact runsBody stack _ .exit _ height ran

theorem toInt_pred {x : Int32} (positive : 0 < x.toInt) : (x - 1).toInt = x.toInt - 1 := by
  have one : (1 : Int32).toInt = 1 := rfl
  have high := x.toInt_lt
  rw [Int32.toInt_sub, one, Int.bmod_eq_of_le]
  · omega
  · omega

/-- What the end of a counted body does: the counter loses one and is tested. -/
def Recounts (site : Site I) (start stop : Nat) : Prop :=
  ∀ x stack s, site.Runs ⟨start, x :: stack, s⟩
    ⟨stop, .boolean (I.truth (.int32 (I.toInt32 x - 1))) :: .int32
      (I.toInt32 x - 1) :: stack, s⟩

theorem simulates_times (runsBody : site.Simulates p q inner (.repeatLoop :: kinds) body)
    (breaks : inner .breakLoop = some u) (continues : inner .continueLoop = some q)
    (recounts : site.Recounts q r) (back : site.Jumps r u .branchTrue p)
    (drops : site.Has u (Cell.single .discard type)) {count : Nat}
    (height : stack.length = kept kinds) (ran : Meaning.times body count s outcome t)
    (isCount : (I.toInt32 x).toInt = count) (isPositive : 0 < count) :
    site.Finishes ⟨p, x :: stack, s⟩ (u + 1) exits kinds stack outcome t := by
  have higher (x : Datum I.Value) : (x :: stack).length = kept (.repeatLoop :: kinds) := by
    rw [List.length_cons, height]
    rfl
  induction ran generalizing x with
  | done => omega
  | @again s middle t way outcome count ran goesOn rest induction =>
    have turned : site.Runs ⟨p, x :: stack, s⟩ ⟨q, x :: stack, middle⟩ := by
      rcases goesOn with rfl | rfl
      · exact runsBody _ _ _ _ (higher x) ran
      · obtain ⟨target, leads, runs⟩ := runsBody _ _ _ _ (higher x) ran
        obtain rfl : q = target := Option.some.inj (continues.symm.trans leads)
        exact runs
    have lower : (I.toInt32 x - 1).toInt = count := by
      rw [toInt_pred (by omega)]
      omega
    have runs := (turned.trans (recounts x stack middle)).trans back.ifTrue
    rw [I.truth_boolean, I.truth_int32 _ (Int32.le_iff_toInt_le.mpr (by
      rw [lower]
      exact Int.natCast_nonneg count))] at runs
    cases count with
    | zero =>
      have isLast : I.toInt32 x - 1 = 0 := Int32.toInt_inj.mp lower
      rw [isLast] at runs
      cases rest with
      | done => exact runs.trans drops.discard
    | succ count =>
      have more : I.toInt32 x - 1 ≠ 0 := by
        intro isZero
        rw [isZero] at lower
        exact absurd lower (by
          show (0 : Int) ≠ _
          omega)
      rw [decide_eq_true more] at runs
      exact .after runs (induction (by rw [I.toInt32_int32, lower]) (by omega))
  | broken ran =>
    obtain ⟨target, leads, runs⟩ := runsBody _ _ _ _ (higher x) ran
    obtain rfl : u = target := Option.some.inj (breaks.symm.trans leads)
    exact runs.trans drops.discard
  | exited ran => exact runsBody _ _ .exit _ (higher x) ran

theorem simulates_repeat (counts : site.Counts start v value)
    (skips : site.Jumps v p .branchTrue u)
    (runsBody : site.Simulates p q inner (.repeatLoop :: kinds) body)
    (breaks : inner .breakLoop = some u) (continues : inner .continueLoop = some q)
    (recounts : site.Recounts q r) (back : site.Jumps r u .branchTrue p)
    (drops : site.Has u (Cell.single .discard type)) (isLast : stop = u + 1) :
    site.Simulates start stop exits kinds fun s =>
      Meaning.times body (I.toInt32 (value s).2).toInt.toNat (value s).1 := by
  subst isLast
  intro stack s outcome t height ran
  obtain ⟨x, isCount, counted⟩ := counts stack s
  have runs := counted.trans skips.ifTrue
  rw [I.truth_boolean] at runs
  rw [← isCount] at ran
  by_cases none : I.toInt32 x ≤ 0
  · have negative : (I.toInt32 x).toInt ≤ 0 := Int32.le_iff_toInt_le.mp none
    rw [Int.toNat_of_nonpos negative] at ran
    rw [decide_eq_true none] at runs
    cases ran with
    | done => exact runs.trans drops.discard
  · have positive : ¬ (I.toInt32 x).toInt ≤ 0 := fun least =>
      none (Int32.le_iff_toInt_le.mpr least)
    rw [decide_eq_false none] at runs
    exact .after runs
      (simulates_times runsBody breaks continues recounts back drops height ran
      (by omega) (by omega))

theorem simulates_fallThrough {meanings : List (Meaning I.State)} {arms : Nat → Nat}
    (each : ∀ (arm : Nat) (meaning : Meaning I.State), meanings[arm]? = some meaning →
      site.Simulates (arms arm) (arms (arm + 1)) exits kinds meaning) {first : Nat}
    (bound : first ≤ meanings.length) :
    site.Simulates (arms first) (arms meanings.length) exits kinds
      (.fallThrough (meanings.drop first)) := by
  obtain ⟨rest, isRest⟩ := Nat.exists_eq_add_of_le bound
  induction rest generalizing first with
  | zero =>
    have last : first = meanings.length := by omega
    rw [last, List.drop_length]
    exact simulates_skip
  | succ rest induction =>
    have inside : first < meanings.length := by omega
    rw [List.drop_eq_getElem_cons inside]
    exact simulates_seq (each first _ (List.getElem?_eq_getElem inside))
      (induction inside (by omega))

theorem select_lt {labels : List (Option Computation)} {value : Datum I.Value}
    {s : I.State} {arm : Nat} (chosen : (I.select value labels s).2 = some arm) :
    arm < labels.length := by
  induction labels generalizing s arm with
  | nil => simp [Interpretation.select] at chosen
  | cons label rest induction =>
    have later {t : I.State} (found : (I.select value rest t).2.map (· + 1) = some arm) :
        arm < (label :: rest).length := by
      obtain ⟨inner, isInner, rfl⟩ := Option.map_eq_some_iff.mp found
      exact Nat.succ_lt_succ (induction isInner)
    cases label with
    | none => exact later chosen
    | some computation =>
      rw [Interpretation.select] at chosen
      split at chosen
      case isTrue =>
        obtain rfl : 0 = arm := Option.some.inj chosen
        exact Nat.succ_pos _
      case isFalse => exact later chosen

section

variable {targets : Nat → Nat} {labels : List (Option Computation)}

theorem elim_map_succ (arm : Option Nat) :
    (arm.map (· + 1)).elim stop targets = arm.elim stop fun arm => targets (arm + 1) := by
  cases arm <;> rfl

theorem Selects.skip
    (selects : site.Selects start stop (fun arm => targets (arm + 1)) labels) :
    site.Selects start stop targets (none :: labels) := by
  intro value stack s
  rw [Interpretation.select, elim_map_succ]
  exact selects value stack s

theorem Selects.tested {computation : Computation}
    (selects : site.Selects p stop (fun arm => targets (arm + 1)) labels)
    (tested : ∀ value stack s, site.Runs ⟨start, value :: stack, s⟩
      ⟨if I.equal value (I.evaluate computation s).2 then targets 0 else p, value :: stack,
        (I.evaluate computation s).1⟩) :
    site.Selects start stop targets (some computation :: labels) := by
  intro value stack s
  have runs := tested value stack s
  rw [Interpretation.select]
  split
  case isTrue same =>
    rw [if_pos same] at runs
    exact runs
  case isFalse differs =>
    rw [if_neg differs] at runs
    rw [elim_map_succ]
    exact runs.trans (selects value stack _)

end

theorem simulates_switch {computation : Computation}
    {labels : List (Option Computation)} {bodies : List (Meaning I.State)}
    {arms : Nat → Nat} (computes : site.Computes start p (I.evaluate computation))
    (selects : site.Selects p q arms labels)
    (falls : site.Jumps q r .branch (arms (Interpretation.defaultArm labels)))
    (each : ∀ (arm : Nat) (meaning : Meaning I.State), bodies[arm]? = some meaning →
      site.Simulates (arms arm) (arms (arm + 1)) inner (.switch type :: kinds) meaning)
    (sizes : labels.length = bodies.length)
    (breaks : inner .breakLoop = some (arms bodies.length))
    (continues : inner .continueLoop = exits .continueLoop)
    (drops : site.Has (arms bodies.length) (Cell.single .discard type))
    (isLast : stop = arms bodies.length + 1) :
    site.Simulates start stop exits kinds (I.switch computation labels bodies) := by
  subst isLast
  intro stack s outcome t height ran
  generalize isValue : (I.evaluate computation s).2 = value at *
  generalize isMiddle : (I.evaluate computation s).1 = middle at *
  obtain ⟨way, ran, isOutcome⟩ := ran
  rw [isValue, isMiddle] at ran
  -- The arm that is chosen, or that for all other values.
  have chosen : site.Runs ⟨start, stack, s⟩
      ⟨arms ((I.select value labels middle).2.getD (Interpretation.defaultArm labels)),
        value :: stack, (I.select value labels middle).1⟩ := by
    have computed := computes stack s
    rw [isValue, isMiddle] at computed
    have selected := computed.trans (selects value stack middle)
    cases arm : (I.select value labels middle).2 with
    | none =>
      rw [arm] at selected
      exact selected.trans falls.run
    | some index =>
      rw [arm] at selected
      exact selected
  have bound : (I.select value labels middle).2.getD (Interpretation.defaultArm labels) ≤
      bodies.length := by
    rw [← sizes]
    cases arm : (I.select value labels middle).2 with
    | none => exact List.findIdx_le_length
    | some index => exact Nat.le_of_lt (select_lt arm)
  have higher : (value :: stack).length = kept (.switch type :: kinds) := by
    rw [List.length_cons, height]
    rfl
  have finishes := simulates_fallThrough each bound (value :: stack) _ way t higher ran
  subst isOutcome
  cases way with
  | normal => exact (chosen.trans finishes).trans drops.discard
  | breakLoop =>
    obtain ⟨target, leads, runs⟩ := finishes
    obtain rfl : arms bodies.length = target := Option.some.inj (breaks.symm.trans leads)
    exact (chosen.trans runs).trans drops.discard
  | continueLoop =>
    obtain ⟨target, leads, runs⟩ := finishes
    exact ⟨target, continues ▸ leads, chosen.trans runs⟩
  | exit =>
    obtain ⟨index, isExit, runs⟩ := finishes
    exact ⟨index, isExit, chosen.trans runs⟩

theorem simulates_break (leads : exits .breakLoop = some p)
    (jumps : site.Jumps start stop .branch p) :
    site.Simulates start stop exits kinds (.leave .breakLoop) := by
  rintro stack s outcome t - ⟨rfl, rfl⟩
  exact ⟨p, leads, jumps.run⟩

theorem runs_discards {types : List DataType} (has : site.HasAll start (discards types))
    (enough : types.length ≤ stack.length) :
    site.Runs ⟨start, stack, s⟩ ⟨start + types.length, stack.drop types.length, s⟩ := by
  induction types generalizing start stack with
  | nil => exact .refl _
  | cons type rest induction =>
    cases stack with
    | nil => simp at enough
    | cons x stack =>
      have drops : site.Has start (Cell.single .discard type) := has 0 _ rfl
      have later : site.HasAll (start + 1) (discards rest) := by
        intro index cell found
        rw [Nat.add_assoc, Nat.add_comm 1 index]
        exact has (index + 1) cell found
      have runs := induction later (Nat.le_of_succ_le_succ enough)
      rw [Nat.add_assoc, Nat.add_comm 1 rest.length] at runs
      exact drops.discard.trans runs

theorem simulates_continue (has : site.HasAll start (discards (switchTypes kinds)))
    (leads : exits .continueLoop = some p)
    (jumps : site.Jumps (start + (switchTypes kinds).length) stop .branch p) :
    site.Simulates start stop exits kinds (.leave .continueLoop) := by
  rintro stack s outcome t height ⟨rfl, rfl⟩
  have enough : (switchTypes kinds).length ≤ stack.length := by
    rw [height]
    exact length_switchTypes_le kinds
  exact ⟨p, leads, (runs_discards has enough).trans jumps.run⟩

def keptTypes : List LoopKind → List DataType
  | [] => []
  | .switch type :: outer => type :: keptTypes outer
  | .repeatLoop :: outer => .int32 :: keptTypes outer
  | .plain :: outer | .withLoop :: outer => keptTypes outer

theorem length_keptTypes (kinds : List LoopKind) :
    (keptTypes kinds).length = kept kinds := by
  induction kinds with
  | nil => rfl
  | cons kind outer induction => cases kind <;> simp [keptTypes, kept, induction]

theorem unwindPiece_eq (plain : .withLoop ∉ kinds) :
    unwindPiece kinds = discards (keptTypes kinds) := by
  induction kinds with
  | nil => rfl
  | cons kind outer induction =>
    have rest := induction fun member => plain (List.mem_cons_of_mem kind member)
    rw [unwindPiece, List.flatMap_cons]
    unfold unwindPiece at rest
    rw [rest]
    cases kind with
    | withLoop => exact absurd List.mem_cons_self plain
    | plain | repeatLoop | switch => rfl

theorem simulates_exit (has : site.HasAll start (discards (keptTypes kinds)))
    (leaves : site.Has (start + kept kinds) (Cell.single .exit .int32)) :
    site.Simulates start stop exits kinds (.leave .exit) := by
  rintro stack s outcome t height ⟨rfl, rfl⟩
  have all : (keptTypes kinds).length = stack.length := by rw [length_keptTypes, height]
  have runs : site.Runs ⟨start, stack, t⟩ _ := runs_discards has (Nat.le_of_eq all)
  rw [all, List.drop_length] at runs
  exact ⟨_, height ▸ leaves, runs⟩

end Site

end GameScript.Execution
