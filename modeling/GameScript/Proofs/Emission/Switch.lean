import GameScript.Proofs.Emission.Statements

/-! The code of a `switch`: the tests of all labels, then the arms in their order. -/

namespace GameScript.Emission

open Bytecode Number Syntax

/-- An arm: the actions that emit its label, if it has one, and its body, and what
is told about their code, the type of the value of the `switch` being given. -/
structure ArmSpec where
  label : Option (EmitM Unit)
  body : EmitM Unit
  isLabel : Spot → DataType → Piece → Prop
  isBody : DataType → Spot → Piece → Prop

def ArmSpec.Correct (env : Environment) (kinds : List LoopKind) (params : List String)
    (arm : ArmSpec) : Prop :=
  (∀ label, arm.label = some label → EmitsValue env label arm.isLabel) ∧
    ∀ type, EmitsStatement env (.switch type :: kinds) params arm.body (arm.isBody type)

def emitTestsOf (type : DataType) : List ArmSpec → EmitM (List ForwardPatch)
  | [] => pure []
  | arm :: rest => do
    let jump ← match arm.label with
      | none => pure ({} : ForwardPatch)
      | some label => emitTest type label
    let jumps ← emitTestsOf type rest
    return jump :: jumps

def emitArmsOf (jumps : List ForwardPatch) (fallback : ForwardPatch) :
    List ArmSpec → EmitM ForwardPatch
  | [] => pure fallback
  | arm :: rest => do
    let unused ← emitArm (jumps.headD {}) fallback arm.label.isNone arm.body
    emitArmsOf jumps.tail unused rest

/-- The test of a label whose arm has the given label of the construct. -/
def testPiece (type labelType : DataType) (label : Piece) (arm : Nat) : Piece :=
  [Cell.duplicate type 0] ++ label ++ [Cell.compare .equal labelType type] ++
    [Cell.leave .branchTrue (.ahead arm)]

/-- The tests of arms whose labels of the construct start with the given one. -/
def TestsHold (type : DataType) : List ArmSpec → Nat → Spot → Piece → Prop
  | [], _, _, piece => piece = []
  | arm :: rest, index, spot, piece =>
    match arm.label with
    | none => TestsHold type rest (index + 1) spot piece
    | some _ => ∃ labelType label more,
        arm.isLabel (spot.after [Cell.duplicate type 0]) labelType label ∧
        TestsHold type rest (index + 1)
          (spot.after (testPiece type labelType label index)) more ∧
        piece = testPiece type labelType label index ++ more

/-- Tests have been emitted: `jumps` are their branches to the arms. -/
structure Tested (first count : Nat) (s t : Emitter) (piece : Piece)
    (jumps : List ForwardPatch) : Prop where
  growth : ∀ aims : Aims, (∀ label, first ≤ label → aims (.ahead label) = none) →
    Extends aims s t piece
  only : piece.TakesOnly fun way => ∃ arm, first ≤ arm ∧ arm < first + count ∧
    way = .ahead arm
  noAwait : ∀ way index, piece.awaits way index = []
  sites : ∀ arm, arm < count →
    (jumps.getD arm {}).sites = piece.leaves (.ahead (first + arm)) s.code.size
  length : jumps.length = count
  types : t.types = s.types
  loops : t.loops = s.loops
  frames : t.frames = s.frames

section

variable {env : Environment} {type : DataType}

private theorem emitTest_tested {label : EmitM Unit}
    {isLabel : Spot → DataType → Piece → Prop} (isValue : EmitsValue env label isLabel)
    (first : Nat) (s : Emitter) :
    Ensures env s (emitTest type label) fun jump t => ∃ labelType piece,
      isLabel (s.spot.after [Cell.duplicate type 0]) labelType piece ∧
        Tested first 1 s t (testPiece type labelType piece first) [jump] := by
  unfold emitTest
  refine (emitDuplicate_adds type 0).bind fun _ t copied => ?_
  refine (isValue t).bind fun _ u ⟨labelType, piece, labelling, held⟩ => ?_
  refine ensures_bind.mpr ((ensures_popType labelling.types).mpr ?_)
  have popped := labelling.retyped t.types
  refine (emitCompare_adds .equal labelType type).bind fun _ v compared => ?_
  have adds := (copied.append popped).append compared
  refine ensures_bind.mpr (ensures_emitBranch.mpr (ensures_pure.mpr ?_))
  rw [(copied.growth (fun _ => none)).spot] at held
  refine ⟨labelType, piece, held, ?_⟩
  have size := (adds.growth fun _ => none).size
  exact {
    growth := fun aims unknown => (adds.growth aims).append
      (extends_leave v .branchTrue (unknown first (Nat.le_refl first)))
    only := (adds.closed.takesOnly _).append
      (Piece.TakesOnly.leave ⟨first, Nat.le_refl first, Nat.lt_succ_self first, rfl⟩)
    noAwait := by
      intro way index
      simp only [testPiece, Piece.awaits_append way index _
        [Cell.leave .branchTrue (.ahead first)], adds.closed.awaits]
      simp
    sites := by
      intro arm bound
      obtain rfl : arm = 0 := by omega
      simp only [testPiece, Piece.leaves_append _ _ _
        [Cell.leave .branchTrue (.ahead first)], adds.closed.leaves]
      simp [ForwardPatch.ofSite, size]
    length := rfl
    types := by
      rw [← copied.types]
      exact compared.types
    loops := adds.loops
    frames := adds.frames }

private theorem Tested.nil (first : Nat) (s : Emitter) : Tested first 0 s s [] [] where
  growth := fun aims _ => .refl aims s
  only := .nil
  noAwait := fun _ _ => rfl
  sites := fun arm bound => absurd bound (Nat.not_lt_zero arm)
  length := rfl
  types := rfl
  loops := rfl
  frames := rfl

variable {count : Nat} {kinds : List LoopKind} {params : List String}

private theorem Tested.skip {first : Nat} {s t : Emitter} {piece : Piece}
    {jumps : List ForwardPatch} (tested : Tested (first + 1) count s t piece jumps) :
    Tested first (count + 1) s t piece ({} :: jumps) where
  growth := fun aims unknown =>
    tested.growth aims fun label bound => unknown label (Nat.le_of_succ_le bound)
  only :=
    tested.only.mono fun way ⟨arm, low, high, isArm⟩ => ⟨arm, by omega, by omega, isArm⟩
  noAwait := tested.noAwait
  sites := by
    intro arm bound
    cases arm with
    | zero =>
      rw [Piece.leaves_eq_nil]
      · rfl
      · refine tested.only.not_takes ?_
        rintro ⟨arm, low, -, isArm⟩
        rw [Way.ahead.injEq] at isArm
        omega
    | succ arm =>
      have later := tested.sites arm (by omega)
      rw [Nat.add_right_comm, Nat.add_assoc] at later
      exact later
  length := by rw [List.length_cons, tested.length]
  types := tested.types
  loops := tested.loops
  frames := tested.frames

private theorem Tested.cons {first : Nat} {s t u : Emitter} {left right : Piece}
    {jump : ForwardPatch} {jumps : List ForwardPatch}
    (one : Tested first 1 s t left [jump])
    (more : Tested (first + 1) count t u right jumps) :
    Tested first (count + 1) s u (left ++ right) (jump :: jumps) := by
  have leftAbsent : ∀ arm, first < arm → ∀ index, left.leaves (.ahead arm) index = [] := by
    intro arm above index
    refine Piece.leaves_eq_nil (one.only.not_takes ?_) index
    rintro ⟨other, -, high, same⟩
    rw [Way.ahead.injEq] at same
    omega
  have rightAbsent : ∀ index, right.leaves (.ahead first) index = [] := by
    intro index
    refine Piece.leaves_eq_nil (more.only.not_takes ?_) index
    rintro ⟨other, low, -, same⟩
    rw [Way.ahead.injEq] at same
    omega
  have size := (one.growth (fun _ => none) fun _ _ => rfl).size
  exact {
    growth := fun aims unknown => (one.growth aims unknown).append
      (more.growth aims fun label bound => unknown label (Nat.le_of_succ_le bound))
    only :=
      (one.only.mono fun way ⟨arm, low, high, isArm⟩ =>
        ⟨arm, by omega, by omega, isArm⟩).append
      (more.only.mono fun way ⟨arm, low, high, isArm⟩ => ⟨arm, by omega, by omega, isArm⟩)
    noAwait := fun way index => by rw [Piece.awaits_append, one.noAwait, more.noAwait]; rfl
    sites := by
      intro arm bound
      cases arm with
      | zero =>
        have here := one.sites 0 (by omega)
        rw [Nat.add_zero] at here ⊢
        rw [Piece.leaves_append, rightAbsent, List.append_nil]
        exact here
      | succ arm =>
        have later := more.sites arm (by omega)
        rw [Nat.add_right_comm, Nat.add_assoc] at later
        rw [Piece.leaves_append, leftAbsent _ (by omega), List.nil_append, ← size]
        exact later
    length := by rw [List.length_cons, more.length]
    types := more.types.trans one.types
    loops := more.loops.trans one.loops
    frames := more.frames.trans one.frames }

private theorem emitTestsOf_tested (arms : List ArmSpec)
    (correct : ∀ arm ∈ arms, ∀ label, arm.label = some label →
      EmitsValue env label arm.isLabel)
    (first : Nat) (s : Emitter) :
    Ensures env s (emitTestsOf type arms) fun jumps t => ∃ piece,
      TestsHold type arms first s.spot piece ∧
      Tested first arms.length s t piece jumps := by
  induction arms generalizing first s with
  | nil => exact ensures_pure.mpr ⟨[], rfl, Tested.nil first s⟩
  | cons arm rest induction =>
    have later :=
      induction fun other member => correct other (List.mem_cons_of_mem arm member)
    unfold emitTestsOf TestsHold
    cases label : arm.label with
    | none =>
      refine ensures_bind.mpr (ensures_pure.mpr ?_)
      refine (later (first + 1) s).bind fun jumps t ⟨piece, held, tested⟩ => ?_
      exact ensures_pure.mpr ⟨piece, held, tested.skip⟩
    | some action =>
      have isValue := correct arm (List.mem_cons_self) action label
      refine (emitTest_tested isValue first s).bind
        fun jump t ⟨labelType, piece, held, tested⟩ => ?_
      refine (later (first + 1) t).bind fun jumps u ⟨more, heldMore, testedMore⟩ => ?_
      have spot := (tested.growth (fun _ => none) fun _ _ => rfl).spot
      rw [spot] at heldMore
      exact ensures_pure.mpr
        ⟨_, ⟨labelType, piece, more, held, heldMore, rfl⟩, tested.cons testedMore⟩

def BodiesHold (type : DataType) : List ArmSpec → Spot → List Piece → Prop
  | [], _, bodies => bodies = []
  | arm :: rest, spot, bodies => ∃ body more, arm.isBody type spot body ∧
      BodiesHold type rest (spot.after body) more ∧ bodies = body :: more

/-- Index of the first arm without a label, the number of arms if all have one. -/
def firstDefault (arms : List ArmSpec) : Nat := arms.findIdx (·.label.isNone)

/-- Arms are about to be emitted: their branches and the one to `default` wait. -/
private structure ArmsReady (aims : Aims) (s t : Emitter) (segments : List Piece)
    (types : List DataType) (first count : Nat) (jumps : List ForwardPatch)
    (fallback : ForwardPatch) : Prop where
  builds : Builds aims s t segments types
  low : 3 ≤ first
  unknown : ∀ arm, arm < count → aims (.ahead (first + arm)) = none
  noAwait : ∀ label, Piece.awaits (.ahead label) s.code.size segments.flatten = []
  sites : ∀ arm, arm < count → (jumps.getD arm {}).sites =
    Piece.leaves (.ahead (first + arm)) s.code.size segments.flatten
  byDefault : match aims (.ahead 2) with
    | none => fallback.sites = Piece.leaves (.ahead 2) s.code.size segments.flatten
    | some _ => fallback = {}

/-- Arms have been emitted: their aims are known, and that of the first `default`. -/
private structure ArmsDone (aims aims' : Aims) (s u : Emitter)
    (segments bodies : List Piece)
    (types : List DataType) (first : Nat) (arms : List ArmSpec)
    (fallback unused : ForwardPatch) :
    Prop where
  builds : Builds aims' s u (segments ++ bodies) types
  count : bodies.length = arms.length
  reached : ∀ arm, arm < arms.length →
    aims' (.ahead (first + arm)) =
      some (s.length + Piece.size (segments ++ bodies.take arm).flatten)
  others : ∀ label, label < first → label ≠ 2 → aims' (.ahead label) = aims (.ahead label)
  byDefault : match aims (.ahead 2) with
    | some address => aims' (.ahead 2) = some address ∧ unused = {}
    | none =>
      if firstDefault arms < arms.length then
        aims' (.ahead 2) = some (s.length +
          Piece.size (segments ++ bodies.take (firstDefault arms)).flatten) ∧ unused = {}
      else aims' (.ahead 2) = none ∧ unused = fallback
  settled : ∀ body ∈ bodies, body.Settled s.kinds

variable {aims : Aims} {s t : Emitter} {segments : List Piece} {types : List DataType}
  {first : Nat} {jumps : List ForwardPatch} {fallback : ForwardPatch}

private theorem emitBody_ready {aims' : Aims} {t' : Emitter} {unused : ForwardPatch}
    {body : EmitM Unit} {isBody : Spot → Piece → Prop}
    (ready : ArmsReady aims s t segments types first (count + 1) jumps fallback)
    (builds : Builds aims' s t' segments types)
    (agree : ∀ label, label ≠ 2 → label ≠ first →
      aims' (.ahead label) = aims (.ahead label))
    (byDefault : match aims' (.ahead 2) with
      | none => unused.sites = Piece.leaves (.ahead 2) s.code.size segments.flatten
      | some _ => unused = {})
    (sameKinds : s.kinds = kinds) (sameParams : s.params = params)
    (isStatement : EmitsStatement env kinds params body isBody) :
    Ensures env t' (do body; pure unused) fun result u => result = unused ∧
      ∃ piece, isBody t.spot piece ∧ piece.Settled s.kinds ∧
        ArmsReady aims' s u (segments ++ [piece]) types
          (first + 1) count jumps.tail unused := by
  refine (isStatement t' (builds.kinds.trans sameKinds)
    (builds.params.trans sameParams)).bind fun _ u ⟨piece, lays, held⟩ => ?_
  have settled : piece.Settled s.kinds := builds.kinds ▸ lays.settled
  have low := ready.low
  have kept :
    ∀ label, Piece.leaves (.ahead label) s.code.size (segments ++ [piece]).flatten =
      Piece.leaves (.ahead label) s.code.size segments.flatten := by
    intro label
    rw [Piece.flatten_snoc, Piece.leaves_append, settled.leaves_ahead, List.append_nil]
  rw [builds.spot, ← ready.builds.spot] at held
  refine ensures_pure.mpr ⟨rfl, piece, held, settled, ?_⟩
  exact {
    builds := builds.lays lays
    low := by omega
    unknown := by
      intro arm bound
      rw [agree _ (by omega) (by omega), Nat.add_assoc, Nat.add_comm 1]
      exact ready.unknown (arm + 1) (by omega)
    noAwait := by
      intro label
      rw [Piece.flatten_snoc, Piece.awaits_append, ready.noAwait, settled.awaits]
      rfl
    sites := by
      intro arm bound
      have later := ready.sites (arm + 1) (by omega)
      rw [kept, Nat.add_assoc, Nat.add_comm 1, ← later]
      cases jumps <;> rfl
    byDefault := by
      cases aim : aims' (.ahead 2) with
      | none =>
        simp only [aim] at byDefault
        rw [kept, byDefault]
      | some _ =>
        simp only [aim] at byDefault
        exact byDefault }

private theorem emitArm_ready {isDefault : Bool} {body : EmitM Unit}
    {isBody : Spot → Piece → Prop}
    (ready : ArmsReady aims s t segments types first (count + 1) jumps fallback)
    (sameKinds : s.kinds = kinds) (sameParams : s.params = params)
    (isStatement : EmitsStatement env kinds params body isBody) :
    Ensures env t (emitArm (jumps.headD {}) fallback isDefault body) fun unused u =>
      ∃ piece aims', isBody t.spot piece ∧ piece.Settled s.kinds ∧
        ArmsReady aims' s u (segments ++ [piece]) types
          (first + 1) count jumps.tail unused ∧
        (∀ label, label ≠ 2 → label ≠ first → aims' (.ahead label) = aims (.ahead label)) ∧
        aims' (.ahead first) = some (s.length + Piece.size segments.flatten) ∧
        match aims (.ahead 2) with
        | some address => aims' (.ahead 2) = some address
        | none => if isDefault then
              aims' (.ahead 2) = some (s.length + Piece.size segments.flatten) ∧
                unused = {}
            else aims' (.ahead 2) = none ∧ unused = fallback := by
  have low := ready.low
  have length := ready.builds.length
  have unknown : aims (.ahead first) = none := ready.unknown 0 (by omega)
  have sites : (jumps.headD {}).sites =
      Piece.leaves (.ahead first) s.code.size segments.flatten := by
    rw [← Nat.add_zero first, ← ready.sites 0 (by omega)]
    cases jumps <;> rfl
  have landed :=
    ready.builds.land (jumps.headD {}) first unknown (ready.noAwait first) sites
  have differs : (2 : Nat) ≠ first := by omega
  unfold emitArm
  refine ensures_bind.mpr (ensures_land.mpr ?_)
  cases isDefault with
  | false =>
    refine ensures_bind.mpr (ensures_pure.mpr ?_)
    refine (emitBody_ready ready landed ?_ ?_ sameKinds sameParams isStatement).mono
      fun unused u emitted => ?_
    · intro label _ notFirst
      simp [Aims.know, notFirst]
    · simpa [Aims.know, differs] using ready.byDefault
    · obtain ⟨isUnused, piece, held, settled, next⟩ := emitted
      refine ⟨piece, _, held, settled, isUnused ▸ next, ?_, ?_, ?_⟩
      · intro label _ notFirst
        simp [Aims.know, notFirst]
      · simp [Aims.know, length]
      · cases aim : aims (.ahead 2) with
        | none => simp [Aims.know, differs, aim, isUnused]
        | some _ => simp [Aims.know, differs, aim]
  | true =>
    cases aim : aims (.ahead 2) with
    | none =>
      have fallbackSites := ready.byDefault
      simp only [aim] at fallbackSites
      have twice := landed.land fallback 2 (by simp [Aims.know, differs, aim])
        (ready.noAwait 2) fallbackSites
      change Ensures env ((t.landed (jumps.headD {})).landed fallback)
        (do body; pure ({} : ForwardPatch)) _
      refine (emitBody_ready ready twice ?_ ?_ sameKinds sameParams isStatement).mono
        fun unused u emitted => ?_
      · intro label notTwo notFirst
        simp [Aims.know, notTwo, notFirst]
      · simp [Aims.know]
      · obtain ⟨isUnused, piece, held, settled, next⟩ := emitted
        refine ⟨piece, _, held, settled, isUnused ▸ next, ?_, ?_, ?_⟩
        · intro label notTwo notFirst
          simp [Aims.know, notTwo, notFirst]
        · simp [Aims.know, differs.symm, length]
        · refine ⟨?_, isUnused⟩
          rw [Aims.know, if_pos rfl]
          exact congrArg some length
    | some address =>
      -- An earlier `default` has received the branch; landing nothing changes nothing.
      have isEmpty := ready.byDefault
      simp only [aim] at isEmpty
      subst isEmpty
      change Ensures env (t.landed (jumps.headD {})) (do body; pure ({} : ForwardPatch)) _
      refine (emitBody_ready ready landed ?_ ?_ sameKinds sameParams isStatement).mono
        fun unused u emitted => ?_
      · intro label _ notFirst
        simp [Aims.know, notFirst]
      · simp [Aims.know, differs, aim]
      · obtain ⟨isUnused, piece, held, settled, next⟩ := emitted
        refine ⟨piece, _, held, settled, isUnused ▸ next, ?_, ?_, ?_⟩
        · intro label _ notFirst
          simp [Aims.know, notFirst]
        · simp [Aims.know, length]
        · simp [Aims.know, differs, aim]

private theorem emitArmsOf_done (arms : List ArmSpec)
    (correct : ∀ arm ∈ arms, EmitsStatement env kinds params arm.body (arm.isBody type))
    (ready : ArmsReady aims s t segments types first arms.length jumps fallback)
    (sameKinds : s.kinds = kinds) (sameParams : s.params = params) :
    Ensures env t (emitArmsOf jumps fallback arms) fun unused u =>
      ∃ bodies aims', BodiesHold type arms t.spot bodies ∧
        ArmsDone aims aims' s u segments bodies types first arms fallback unused := by
  induction arms generalizing aims t segments first jumps fallback with
  | nil =>
    refine ensures_pure.mpr ⟨[], aims, rfl, ?_⟩
    refine ⟨by simpa using ready.builds, rfl, ?_, fun _ _ _ => rfl, ?_, by simp⟩
    · intro arm bound
      exact absurd bound (Nat.not_lt_zero arm)
    · have pending := ready.byDefault
      cases aim : aims (.ahead 2) with
      | none => simp [firstDefault]
      | some _ =>
        simp only [aim] at pending
        exact ⟨rfl, pending⟩
  | cons arm rest induction =>
    refine (emitArm_ready ready sameKinds sameParams (correct arm List.mem_cons_self)).bind
      fun unused u ⟨piece, aims', held, settled, next, agree, here, there⟩ => ?_
    have later :=
      induction (fun other member => correct other (List.mem_cons_of_mem arm member)) next
    refine later.mono fun unused' v ⟨bodies, aims'', heldBodies, done⟩ => ?_
    have low := ready.low
    have shift : ∀ count, (segments ++ [piece] ++ bodies.take count).flatten =
        (segments ++ (piece :: bodies).take (count + 1)).flatten := by
      intro count
      simp
    refine ⟨piece :: bodies, aims'', ⟨piece, bodies, held, ?_, rfl⟩, ?_⟩
    · rw [next.builds.spot, Piece.flatten_snoc, Spot.after_append,
        ← ready.builds.spot] at heldBodies
      exact heldBodies
    · refine ⟨by simpa using done.builds, by simp [done.count], ?_, ?_, ?_, ?_⟩
      · intro index bound
        cases index with
        | zero =>
          rw [Nat.add_zero, done.others first (by omega) (by omega), here]
          simp
        | succ index =>
          have reached := done.reached index (by simpa using bound)
          rw [shift, Nat.add_assoc, Nat.add_comm 1] at reached
          exact reached
      · intro label bound notTwo
        rw [done.others label (by omega) notTwo, agree label notTwo (by omega)]
      · have final := done.byDefault
        cases aim : aims (.ahead 2) with
        | some address =>
          simp only [aim] at there
          simp only [there] at final
          exact final
        | none =>
          simp only [aim] at there
          cases isDefault : arm.label.isNone with
          | true =>
            simp only [isDefault, if_true] at there
            simp only [there.1] at final
            have isFirst : firstDefault (arm :: rest) = 0 := by
              simp [firstDefault, List.findIdx_cons, isDefault]
            simpa [isFirst] using final
          | false =>
            simp only [isDefault] at there
            have isLater : firstDefault (arm :: rest) = firstDefault rest + 1 := by
              simp [firstDefault, List.findIdx_cons, isDefault]
            simp only [there.1] at final
            rw [shift, there.2] at final
            simpa [isLater] using final
      · intro body member
        rcases List.mem_cons.mp member with rfl | member
        · exact settled
        · exact done.settled body member

end

/-- The `break` of a `switch` as a label of the construct; its loop stays outside. -/
def encloseBreak : Way → Way
  | .breakLoop => .ahead 0
  | way => way

section

variable {aims aims' : Aims} {s t u : Emitter} {segments : List Piece}
  {types : List DataType} {type : DataType}

private theorem flatten_redirect (segments : List Piece) (rename : Way → Way) :
    (segments.map (·.redirect rename)).flatten =
      Piece.redirect rename segments.flatten := by
  induction segments with
  | nil => rfl
  | cons segment rest induction =>
    rw [List.map_cons, List.flatten_cons, List.flatten_cons,
      Piece.redirect_append, induction]

private theorem Builds.enterSwitch (builds : Builds aims s t segments types)
    (type : DataType) (own : Piece.TakesOnly Way.IsOwnLabel segments.flatten) :
    Builds aims { s with loops := { kind := .switch type } :: s.loops }
      { t with loops := { kind := .switch type } :: t.loops } segments types where
  growth := builds.growth.of_same rfl rfl rfl rfl rfl rfl rfl rfl
  breaks := builds.breaks
  continues := by
    rw [builds.continues, continueAim, continueAim, continueLoop?, Option.bind_map]
    rfl
  types := builds.types
  loops := by
    rw [note_of_not_takes _ (own.not_takes id) (own.not_takes id)]
    exact congrArg ({ kind := .switch type } :: ·) (builds.loops_eq own)
  frames := builds.frames

/-- Leaving a `switch`: its breaks become a label, what leaves the loop around it waits
there. -/
private theorem Builds.leaveSwitch
    (builds : Builds aims { s with loops := { kind := .switch type } :: s.loops }
      u segments types)
    (own : ∀ cell ∈ segments.flatten, ∀ way, cell.Takes way → way ≠ .ahead 0)
    (unknown : aims (.ahead 0) = none) :
    ∃ context outer, u.loops = context :: outer ∧
      context.breaks.sites = Piece.leaves (.ahead 0) s.code.size
        (segments.map (·.redirect encloseBreak)).flatten ∧
      Builds aims s { u with loops := outer } (segments.map (·.redirect encloseBreak))
        types := by
  have breakSites : Piece.leaves (.ahead 0) s.code.size
      (segments.map (·.redirect encloseBreak)).flatten =
        Piece.leaves .breakLoop s.code.size segments.flatten := by
    rw [flatten_redirect]
    refine Piece.leaves_redirect encloseBreak .breakLoop ?_ _
    intro cell member other takes
    have notZero := own cell member other takes
    cases other with
    | breakLoop => simp
    | continueLoop => simp [encloseBreak]
    | ahead label => simpa [encloseBreak] using notZero
  have continueSites : Piece.leaves .continueLoop s.code.size
      (segments.map (·.redirect encloseBreak)).flatten =
        Piece.leaves .continueLoop s.code.size segments.flatten := by
    rw [flatten_redirect]
    refine Piece.leaves_redirect encloseBreak .continueLoop ?_ _
    intro cell member other takes
    cases other with
    | breakLoop => simp [encloseBreak]
    | continueLoop => simp
    | ahead label => simp [encloseBreak]
  have noBreak : Piece.leaves .breakLoop s.code.size
      (segments.map (·.redirect encloseBreak)).flatten = [] := by
    rw [flatten_redirect, Piece.leaves_eq_nil_iff]
    intro cell member link
    obtain ⟨old, -, rfl⟩ := Piece.mem_redirect.mp member
    obtain ⟨way, -, renamed⟩ := Cell.redirect_link_leave.mp link
    cases way <;> simp [encloseBreak] at renamed
  have noted := builds.loops
  simp only [note, noteBreaks, noteContinues] at noted
  refine ⟨_, _, noted, breakSites.symm, ?_⟩
  exact {
    growth := by
      rw [flatten_redirect]
      refine (builds.growth.redirect ?_).of_same rfl rfl rfl rfl rfl rfl rfl rfl
      intro cell _ way _
      cases way with
      | breakLoop => rw [encloseBreak, unknown, builds.breaks]
      | continueLoop => rfl
      | ahead label => rfl
    breaks := builds.breaks
    continues := by
      rw [builds.continues, continueAim, continueAim, continueLoop?, Option.bind_map]
      rfl
    types := builds.types
    loops := by rw [note, noBreak, noteBreaks_none, continueSites]
    frames := builds.frames }

variable {count : Nat} {bodies : List Piece} {kinds : List LoopKind} {tests : Piece}

private theorem Builds.tested {first : Nat} {piece : Piece} {jumps : List ForwardPatch}
    (builds : Builds aims s t segments types) (tested : Tested first count t u piece jumps)
    (unknown : ∀ label, first ≤ label → aims (.ahead label) = none) :
    Builds aims s u (segments ++ [piece]) types where
  growth := by
    rw [Piece.flatten_snoc]
    exact builds.growth.append (tested.growth aims unknown)
  breaks := builds.breaks
  continues := builds.continues
  types := tested.types.trans builds.types
  loops := by
    have onlyLabels : piece.TakesOnly Way.IsLabel :=
      tested.only.mono fun way ⟨arm, _, _, isArm⟩ => isArm ▸ trivial
    rw [Piece.flatten_snoc, tested.loops, builds.loops,
      note_append_of_not_takes _ (onlyLabels.not_takes id) (onlyLabels.not_takes id)]
  frames := tested.frames.trans builds.frames

def switchHead (value tests : Piece) : List Piece :=
  [value, tests, [Cell.leave .branch (.ahead 2)]]

def switchSegments (type : DataType) (value tests : Piece) (bodies : List Piece) :
    List Piece :=
  switchHead value tests ++ bodies.map (·.redirect encloseBreak) ++
    [[Cell.single .discard type]]

/-- The segments to which `break`, the lack of a match and the arms lead. -/
def switchTargets (count byDefault : Nat) : List (Option Nat) :=
  some (3 + count) :: none :: some (3 + byDefault) :: (List.range' 3 count).map some

def switchPiece (type : DataType) (value tests : Piece) (bodies : List Piece)
    (byDefault : Nat) :
    Piece :=
  Piece.join (exitsTo (switchTargets bodies.length byDefault))
    (switchSegments type value tests bodies)

theorem take_switchSegments (type : DataType) (value tests : Piece)
    (bound : count ≤ bodies.length) :
    (switchSegments type value tests bodies).take (3 + count) =
      switchHead value tests ++ (bodies.take count).map (·.redirect encloseBreak) := by
  have front : 3 + count ≤
      (switchHead value tests ++ bodies.map (·.redirect encloseBreak)).length := by
    simp [switchHead]
    omega
  have whole : (switchHead value tests).take (3 + count) = switchHead value tests :=
    List.take_of_length_le (by simp [switchHead])
  have rest : 3 + count - (switchHead value tests).length = count := by simp [switchHead]
  rw [switchSegments, List.take_append_of_le_length front, List.take_append,
    List.map_take, whole, rest]

private theorem size_take_switchSegments (type : DataType) (value tests : Piece)
    (bound : count ≤ bodies.length) :
    Piece.size ((switchSegments type value tests bodies).take (3 + count)).flatten =
      Piece.size (switchHead value tests ++ bodies.take count).flatten := by
  rw [take_switchSegments type value tests bound, List.flatten_append, List.flatten_append,
    Piece.size_append, Piece.size_append, flatten_redirect, Piece.size_redirect]

theorem switchTargets_arm {byDefault arm : Nat} (bound : arm < count) :
    (switchTargets count byDefault).getD (3 + arm) none = some (3 + arm) := by
  rw [Nat.add_comm 3 arm]
  simp [switchTargets, bound, Nat.add_comm]

private theorem leadTo_range {base : Nat} {start : Nat}
    (known : ∀ arm, arm < count →
      aims (.ahead (start + arm)) =
        some (base + Piece.size (segments.take (start + arm)).flatten)) :
    aims.LeadTo base segments start ((List.range' start count).map some) := by
  induction count generalizing start with
  | zero => exact trivial
  | succ count induction =>
    refine ⟨known 0 (by omega), induction fun arm bound => ?_⟩
    have later := known (arm + 1) (by omega)
    rwa [Nat.add_comm arm 1, ← Nat.add_assoc] at later

private theorem bodies_redirected (settled : ∀ body ∈ bodies, body.Settled kinds)
    {cell : Cell}
    (member : cell ∈ (bodies.map (·.redirect encloseBreak)).flatten) {way : Way}
    (takes : cell.Takes way) :
    cell.link = .leave way ∧ (way = .ahead 0 ∨ way = .continueLoop) := by
  obtain ⟨segment, segmentMember, member⟩ := List.mem_flatten.mp member
  obtain ⟨body, bodyMember, rfl⟩ := List.mem_map.mp segmentMember
  obtain ⟨old, oldMember, rfl⟩ := Piece.mem_redirect.mp member
  obtain ⟨oldWay, oldTakes, rfl⟩ := Cell.takes_redirect.mp takes
  have taken := settled body bodyMember old oldMember oldWay oldTakes
  refine ⟨Cell.redirect_link_leave.mpr ⟨oldWay, taken.1, rfl⟩, ?_⟩
  cases oldWay with
  | breakLoop => exact Or.inl rfl
  | continueLoop => exact Or.inr rfl
  | ahead label => exact False.elim taken.2

private theorem fitAll_bodies {targets : List (Option Nat)}
    (settled : ∀ body ∈ bodies, body.Settled (.switch type :: kinds))
    (breaks : (targets.getD 0 none).isSome) :
    Piece.FitAll kinds targets (bodies.map (·.redirect encloseBreak)) := by
  induction bodies with
  | nil => exact trivial
  | cons body rest induction =>
    refine ⟨?_, induction fun other member =>
      settled other (List.mem_cons_of_mem body member)⟩
    intro cell member way takes
    obtain ⟨old, oldMember, rfl⟩ := Piece.mem_redirect.mp member
    obtain ⟨oldWay, oldTakes, rfl⟩ := Cell.takes_redirect.mp takes
    have taken := settled body List.mem_cons_self old oldMember oldWay oldTakes
    cases oldWay with
    | breakLoop => exact breaks
    | continueLoop => exact ⟨Cell.redirect_link_leave.mpr ⟨_, taken.1, rfl⟩, taken.2⟩
    | ahead label => exact False.elim taken.2

private theorem Tested.fits {byDefault : Nat}
    {jumps : List ForwardPatch} (tested : Tested 3 count s t tests jumps) :
    tests.Fits kinds (switchTargets count byDefault) := by
  intro cell member way takes
  obtain ⟨arm, low, high, rfl⟩ := tested.only cell member way takes
  obtain ⟨index, rfl⟩ : ∃ index, arm = 3 + index := ⟨arm - 3, by omega⟩
  simp only
  rw [switchTargets_arm (by omega)]
  rfl

private theorem own_switchHead {value : Piece} {jumps : List ForwardPatch}
    (closed : value.Closed) (testing : Tested 3 count t u tests jumps) :
    Piece.TakesOnly Way.IsOwnLabel (switchHead value tests).flatten := by
  refine (closed.takesOnly _).append (.append ?_
    ((Piece.TakesOnly.leave (Nat.le_refl 2)).append .nil))
  refine testing.only.mono fun way ⟨arm, low, _, isArm⟩ => ?_
  rw [isArm]
  exact Nat.le_of_succ_le low

private theorem armsReady {u : Emitter} {value : Piece} (type : DataType)
    {jumps : List ForwardPatch} {labels : Nat → Option Nat}
    (unlabelled : labels = fun _ => none)
    (valuing : Adds s t value types) (testing : Tested 3 count t u tests jumps) :
    ArmsReady (labelled s.loops labels)
      { s with loops := { kind := .switch type } :: s.loops }
      { u.appended { opcode := .branch } with
        loops := { kind := .switch type } :: u.loops }
      (switchHead value tests) types 3 count jumps (.ofSite u.code.size) := by
  subst unlabelled
  have tested :=
    ((Builds.start s fun _ => none).adds valuing).tested testing fun _ _ => rfl
  have branched := tested.branch .branch 2 rfl
  have testsFree : ∀ index, tests.leaves (.ahead 2) index = [] := by
    refine Piece.leaves_eq_nil (testing.only.not_takes ?_)
    rintro ⟨arm, low, -, isArm⟩
    rw [Way.ahead.injEq] at isArm
    omega
  have valuedSize := (valuing.growth fun _ => none).size
  exact {
    builds := branched.enterSwitch type (own_switchHead valuing.closed testing)
    low := Nat.le_refl 3
    unknown := fun _ _ => rfl
    noAwait := by
      intro label
      simp [switchHead, valuing.closed.awaits, testing.noAwait]
    sites := by
      intro arm bound
      have differs : (2 : Nat) ≠ 3 + arm := by omega
      rw [testing.sites arm bound, valuedSize]
      simp [switchHead, valuing.closed.leaves, differs]
    byDefault := by
      have size := tested.size
      simp [switchHead, valuing.closed.leaves, testsFree, ForwardPatch.ofSite,
        labelled, size, Nat.add_assoc] }

private theorem redirect_switchHead {value : Piece}
    {jumps : List ForwardPatch} (closed : value.Closed)
    (testing : Tested 3 count t u tests jumps) :
    (switchHead value tests).map (·.redirect encloseBreak) = switchHead value tests := by
  have sameValue : value.redirect encloseBreak = value :=
    Piece.redirect_eq_self fun _ member _ takes => absurd takes (closed.not_takes member)
  have sameTests : tests.redirect encloseBreak = tests := by
    refine Piece.redirect_eq_self fun cell member way takes => ?_
    obtain ⟨arm, -, -, rfl⟩ := testing.only cell member way takes
    rfl
  simp only [switchHead, List.map_cons, List.map_nil, sameValue, sameTests]
  rfl

private theorem finishSwitch_lays {env : Environment} {t' u w : Emitter}
    {aims aims' : Aims} {v : Piece} {arms : List ArmSpec} {jumps : List ForwardPatch}
    {fallback unused : ForwardPatch} (valued : Adds s t' v s.types)
    (testing : Tested 3 arms.length t' u tests jumps)
    (ready : ArmsReady aims { s with loops := { kind := .switch type } :: s.loops } t
      (switchHead v tests) s.types 3 arms.length jumps fallback)
    (done : ArmsDone aims aims' { s with loops := { kind := .switch type } :: s.loops } w
      (switchHead v tests) bodies s.types 3 arms fallback unused)
    (unknown : ∀ label, label < 3 → aims (.ahead label) = none) :
    Ensures env w (do
      let context ← popLoop
      land unused
      land context.breaks
      emitSingle .discard type) fun _ x =>
        Lays s x (switchPiece type v tests bodies (firstDefault arms)) := by
  have noZero : ∀ cell ∈ (switchHead v tests ++ bodies).flatten, ∀ way, cell.Takes way →
      way ≠ .ahead 0 := by
    rintro cell member _ takes rfl
    rw [List.flatten_append] at member
    rcases List.mem_append.mp member with member | member
    · have own : 2 ≤ 0 := own_switchHead valued.closed testing cell member _ takes
      omega
    · obtain ⟨body, bodyMember, member⟩ := List.mem_flatten.mp member
      exact (done.settled body bodyMember).not_ahead member takes
  obtain ⟨context, outer, loops, breakSites, left⟩ := done.builds.leaveSwitch noZero
    ((done.others 0 (by omega) (by omega)).trans (unknown 0 (by omega)))
  rw [List.map_append, redirect_switchHead valued.closed testing] at left breakSites
  refine ensures_bind.mpr ((ensures_popLoop loops).mpr ?_)
  generalize { w with loops := outer } = w' at left ⊢
  have noAwait : ∀ label, Piece.awaits (.ahead label) s.code.size
      (switchHead v tests ++ bodies.map (·.redirect encloseBreak)).flatten = [] := by
    intro label
    rw [List.flatten_append, Piece.awaits_append, ready.noAwait, List.nil_append,
      Piece.awaits_eq_nil_iff]
    intro cell member link
    have leave := (bodies_redirected done.settled member (Or.inr link)).1
    rw [link] at leave
    exact Link.noConfusion leave
  -- Wherever `default` stands, its aim is known once the rest of it has landed.
  have landed : ∃ aims'', Builds aims'' s (w'.landed unused)
      (switchHead v tests ++ bodies.map (·.redirect encloseBreak)) s.types ∧
      aims'' (.ahead 2) = some (s.length + Piece.size
        ((switchSegments type v tests bodies).take (3 + firstDefault arms)).flatten) ∧
      ∀ label, label ≠ 2 → aims'' (.ahead label) = aims' (.ahead label) := by
    have last := done.byDefault
    have pending := ready.byDefault
    simp only [unknown 2 (by omega)] at last pending
    split at last
    case isTrue inside =>
      obtain ⟨reached, rfl⟩ := last
      refine ⟨aims', left, ?_, fun _ _ => rfl⟩
      rw [reached, size_take_switchSegments type v tests (by rw [done.count]; omega)]
    case isFalse outside =>
      obtain ⟨still, rfl⟩ := last
      have isLast : firstDefault arms = bodies.length := by
        have bound : firstDefault arms ≤ arms.length := List.findIdx_le_length
        rw [done.count]
        omega
      refine ⟨_, left.land unused 2 still (noAwait 2) ?_, ?_, ?_⟩
      · have noLeaves : ∀ index, Piece.leaves (.ahead 2) index
            (bodies.map (·.redirect encloseBreak)).flatten = [] := by
          intro index
          rw [Piece.leaves_eq_nil_iff]
          intro cell member link
          rcases (bodies_redirected done.settled member (Or.inl link)).2 with same | same
          · simp at same
          · simp at same
        rw [pending, List.flatten_append, Piece.leaves_append, noLeaves, List.append_nil]
      · rw [Aims.know, if_pos rfl, left.length,
          size_take_switchSegments type v tests (by omega), isLast, List.take_length,
          List.flatten_append, List.flatten_append, Piece.size_append, Piece.size_append,
          flatten_redirect, Piece.size_redirect]
      · intro label notTwo
        simp [Aims.know, notTwo]
  obtain ⟨aims'', all, byDefault, others⟩ := landed
  refine ensures_bind.mpr (ensures_land.mpr ?_)
  refine ensures_bind.mpr (ensures_land.mpr ?_)
  have broken := all.land context.breaks 0
    ((others 0 (by omega)).trans
      ((done.others 0 (by omega) (by omega)).trans (unknown 0 (by omega))))
    (noAwait 0) breakSites
  refine (emitSingle_adds .discard type).mono fun _ x dropping => ?_
  rw [broken.types] at dropping
  have finished := broken.adds dropping
  refine finished.finish ?_ ?_
  · refine Piece.fitAll_append.mpr
      ⟨Piece.fitAll_append.mpr ⟨?_, ?_⟩, dropping.closed.fits, trivial⟩
    · exact ⟨valued.closed.fits, done.count ▸ testing.fits, Piece.fits_leave rfl, trivial⟩
    · exact fitAll_bodies done.settled rfl
  · refine ⟨?_, ?_, leadTo_range ?_⟩
    · have whole := take_switchSegments type v tests (Nat.le_refl bodies.length)
      rw [List.take_length] at whole
      rw [Aims.know, if_pos rfl, all.length]
      exact congrArg (fun segments : List Piece =>
        some (s.length + Piece.size segments.flatten)) whole.symm
    · rw [Aims.know, if_neg (by decide)]
      exact byDefault
    · intro arm bound
      have differs : Way.ahead (3 + arm) ≠ .ahead 0 := by simp
      rw [Aims.know, if_neg differs, others _ (by omega),
        done.reached arm (done.count ▸ bound)]
      exact congrArg (fun size => some (s.length + size))
        (size_take_switchSegments type v tests (by omega)).symm

theorem emitSwitch_emits {env : Environment} {params : List String}
    {value : EmitM Unit} {isValue : Spot → DataType → Piece → Prop} {arms : List ArmSpec}
    (valueCorrect : EmitsValue env value isValue)
    (correct : ∀ arm ∈ arms, arm.Correct env kinds params) :
    EmitsStatement env kinds params
      (emitSwitch value (emitTestsOf · arms) (emitArmsOf · · arms)) fun spot piece =>
        ∃ type v tests bodies, isValue spot type v ∧
          TestsHold type arms 3 (spot.after v) tests ∧
          BodiesHold type arms (spot.after (switchHead v tests).flatten) bodies ∧
          bodies.length = arms.length ∧
          piece = switchPiece type v tests bodies (firstDefault arms) := by
  intro s sameKinds sameParams
  refine (valueCorrect s).bind fun _ t ⟨type, v, valuing, held⟩ => ?_
  refine ensures_bind.mpr ((ensures_popType valuing.types).mpr ?_)
  have valued := valuing.retyped s.types
  generalize { t with types := s.types } = t' at valued ⊢
  refine (emitTestsOf_tested arms (fun arm member => (correct arm member).1) 3 t').bind
    fun jumps u ⟨tests, heldTests, testing⟩ => ?_
  rw [(valued.growth fun _ => none).spot] at heldTests
  refine ensures_bind.mpr (ensures_emitBranch.mpr ?_)
  refine ensures_bind.mpr (ensures_modify.mpr ?_)
  have ready := armsReady type rfl valued testing
  refine (emitArmsOf_done arms (fun arm member => (correct arm member).2 type) ready ?_
    ?_).bind fun unused w ⟨bodies, aims, heldBodies, done⟩ => ?_
  · exact congrArg (.switch type :: ·) sameKinds
  · exact sameParams
  rw [ready.builds.spot] at heldBodies
  refine (finishSwitch_lays valued testing ready done fun _ _ => rfl).mono
    fun _ x lays => ?_
  exact ⟨_, lays, type, v, tests, bodies, held, heldTests, heldBodies, done.count, rfl⟩

end

end GameScript.Emission
