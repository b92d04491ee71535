import GameScript.Proofs.Bytecode.Addresses
import GameScript.Proofs.Emission.Functions
import GameScript.Proofs.Emission.Leaving
import GameScript.Proofs.Emission.Switch
import GameScript.Proofs.Emission.Try

/-! How emitted code carries the stack of values.

A derivation says what the stack holds before and after a piece, and where ways
are taken.  It follows how pieces are built, so whatever holds of all emitted
code is proved by induction on it. -/

namespace GameScript.Emission

open Builtin Bytecode Number Syntax

/-- What the stack of values holds where a way is taken. -/
abbrev Ways := Way → MarkerStack → Prop

namespace Cell

def resolved (cell : Cell) : Instruction :=
  match cell.symbol with
  | none => cell.ins
  | some (.string _) => { cell.ins with immediate := some (.string 0) }
  | some (.var _ _ access) => { cell.ins with reference := some (.var 0 access) }
  | some (.function _) => { cell.ins with reference := some (.function 0) }

/-- The instruction takes nothing from below the stack `before` and makes it `after`. -/
def Effect (cell : Cell) (before after : MarkerStack) : Prop :=
  ∀ below, MarkerStack.apply cell.resolved (before ++ below) = after ++ below

/-- The instruction holds what its operation encodes and nothing else, but for the number
of its name.  A variable that is named without its instance is stored under the instance it
is read from. -/
def IsDraft (cell : Cell) : Prop :=
  let ins := cell.ins
  match ins.opcode.opcodeClass, ins.immediate, cell.symbol with
  | .singleType, none, none =>
    match ins.opcode with
    | .duplicate | .callValue =>
      ins = { opcode := ins.opcode, type1 := ins.type1, extra := ins.extra }
    | _ => ins = { opcode := ins.opcode, type1 := ins.type1 }
  | .doubleType, none, none =>
    ins = { opcode := ins.opcode, type1 := ins.type1, type2 := ins.type2 }
  | .comparison, none, none =>
    ins = { opcode := ins.opcode, type1 := ins.type1, type2 := ins.type2
            comparison := some (ins.comparison.getD .equal) }
  | .branch, none, none => ins = { opcode := ins.opcode, leavesForGood := true }
  | .pop, none, some (.var _ scope access) =>
    match ins.type1, access with
    -- Such a store exchanges values instead.
    | .int16, _ => False
    | type1, .normal =>
      ins = { opcode := ins.opcode, type1, type2 := ins.type2, owner := scope }
    | type1, _ =>
      ins = { opcode := ins.opcode, type1, type2 := ins.type2, owner := ins.owner }
  | .push, some (.int16 value), none =>
    ins = { opcode := ins.opcode, type1 := .int16, immediate := some (.int16 value) }
  | .push, some (.int32 value), none =>
    ins = { opcode := ins.opcode, type1 := .int32, immediate := some (.int32 value) }
  | .push, some (.int64 value), none =>
    ins = { opcode := ins.opcode, type1 := .int64, immediate := some (.int64 value) }
  | .push, some (.double value), none =>
    ins = { opcode := ins.opcode, type1 := .double, immediate := some (.double value) }
  | .push, none, some (.string _) => ins = { opcode := ins.opcode, type1 := .string }
  | .push, some (.int32 _), some (.function _) =>
    ins = { opcode := ins.opcode, type1 := .int32, immediate := some (.int32 0) }
  | .push, none, some (.var _ scope .normal) =>
    ins = { opcode := ins.opcode, type1 := .variant, owner := scope }
  | .push, none, some (.var _ _ _) =>
    ins = { opcode := ins.opcode, type1 := .variant, owner := ins.owner }
  | .call, some (.int16 count), some (.function _) =>
    0 ≤ count.toInt ∧ ins = { opcode := ins.opcode, immediate := some (.int16 count) }
  | .extended, some (.int16 number), none =>
    (Extension.ofCode? number).isSome ∧
      ins = { opcode := ins.opcode, type1 := ins.type1, immediate := some (.int16 number) }
  | _, _, _ => False

/-- Control passes to the next instruction and nowhere else, and only a name is missing. -/
def IsPlain (cell : Cell) : Prop :=
  cell.link = .none ∧ cell.opensBody = false ∧ cell.ins.isTerminator = false ∧
    cell.ins.mayJump = false ∧ cell.IsDraft

def callsHook (cell : Cell) : Bool :=
  cell.ins.opcode == .call &&
    match cell.symbol with
    | some (.function name) => name == Internal.tryHook
    | _ => true

/-- Control ends here, with nothing on the stack but what is returned. -/
def Ends (cell : Cell) (before : MarkerStack) : Prop :=
  cell.ins.opcode = .exit ∧ before = [] ∨ cell.ins.opcode = .ret ∧ before.length = 1

end Cell

namespace Piece

/-- No branch of the segment leads to itself, but for the end of a `with` without a
body, and no address that it holds is that of the end. -/
def StridesAt (exits : Exits) (segments : List Piece) (index : Nat) (segment : Piece) :
    Prop :=
  ∀ cell ∈ segment, ∀ way target, exits way = some target →
    (cell.link = .leave way → cell.ins.opcode ≠ .leaveWith →
      index < target ∨ startOf segments target < startOf segments index) ∧
    (cell.link = .await way → startOf segments target < segments.flatten.length)

def Strides (exits : Exits) (segments : List Piece) : Prop :=
  ∀ (index : Nat) (segment : Piece), segments[index]? = some segment →
    segment.StridesAt exits segments index

/-- The same for the last of the segments, the first of which has the given index. -/
def StrideFrom (exits : Exits) (segments : List Piece) : Nat → List Piece → Prop
  | _, [] => True
  | index, segment :: rest =>
    segment.StridesAt exits segments index ∧ StrideFrom exits segments (index + 1) rest

theorem StrideFrom.get {exits : Exits} {segments rest : List Piece} {start index : Nat}
    {segment : Piece} (all : StrideFrom exits segments start rest)
    (found : rest[index]? = some segment) :
    segment.StridesAt exits segments (start + index) := by
  induction rest generalizing start index with
  | nil => simp at found
  | cons first rest induction =>
    cases index with
    | zero =>
      simp only [List.getElem?_cons_zero, Option.some.injEq] at found
      exact found ▸ all.1
    | succ index =>
      rw [← Nat.succ_add_eq_add_succ]
      exact induction all.2 found

theorem StrideFrom.append {exits : Exits} {segments front back : List Piece} {start : Nat}
    (first : StrideFrom exits segments start front)
    (second : StrideFrom exits segments (start + front.length) back) :
    StrideFrom exits segments start (front ++ back) := by
  induction front generalizing start with
  | nil => exact second
  | cons segment rest induction =>
    refine ⟨first.1, induction first.2 ?_⟩
    rwa [Nat.succ_add_eq_add_succ]

theorem strides {exits : Exits} {segments : List Piece}
    (all : StrideFrom exits segments 0 segments) : Strides exits segments := by
  intro index segment found
  have strides := all.get found
  rwa [Nat.zero_add] at strides

section

variable {exits : Exits} {targets : List (Option Nat)} {segments : List Piece}
  {index label : Nat} {piece left right : Piece}

theorem StridesAt.append (first : left.StridesAt exits segments index)
    (second : right.StridesAt exits segments index) :
    (left ++ right).StridesAt exits segments index := by
  intro cell member
  rcases List.mem_append.mp member with member | member
  · exact first cell member
  · exact second cell member

theorem Closed.strides (closed : piece.Closed) : piece.StridesAt exits segments index := by
  intro cell member way target _
  exact ⟨fun link => absurd (Or.inl link) (closed.not_takes member),
    fun link => absurd (Or.inr link) (closed.not_takes member)⟩

theorem strides_unlinked {cell : Cell} (link : cell.link = .none) :
    StridesAt exits segments index [cell] := by
  intro other member way target _
  obtain rfl := List.mem_singleton.mp member
  simp [link]

theorem strides_conversion (type wanted : DataType) :
    (conversion type wanted).StridesAt exits segments index := by
  unfold conversion
  split
  · exact Closed.nil.strides
  · exact strides_unlinked rfl

theorem strides_callDiscard (name : String) (count : Nat) :
    (callDiscard name count).StridesAt exits segments index :=
  (strides_unlinked rfl).append (strides_unlinked rfl)

theorem strides_ahead {opcode : Opcode}
    (later : ∀ target, targets.getD label none = some target → index < target) :
    StridesAt (exitsTo targets) segments index [Cell.leave opcode (.ahead label)] := by
  intro cell member way target exit
  obtain rfl := List.mem_singleton.mp member
  refine ⟨fun link _ => Or.inl (later target ?_), nofun⟩
  obtain rfl := Link.leave.inj link
  exact exit

theorem strides_back {opcode : Opcode} {target : Nat}
    (leads : targets.getD label none = some target)
    (earlier : startOf segments target < startOf segments index) :
    StridesAt (exitsTo targets) segments index [Cell.leave opcode (.ahead label)] := by
  intro cell member way other exit
  obtain rfl := List.mem_singleton.mp member
  refine ⟨fun link _ => Or.inr ?_, nofun⟩
  obtain rfl := Link.leave.inj link
  obtain rfl := Option.some.inj (leads.symm.trans exit)
  exact earlier

theorem strides_leaveWith {way : Way} :
    StridesAt exits segments index [Cell.leave .leaveWith way] := by
  intro cell member other target _
  obtain rfl := List.mem_singleton.mp member
  exact ⟨fun _ differs => absurd rfl differs, nofun⟩

theorem strides_await (inside : ∀ target, targets.getD label none = some target →
      startOf segments target < segments.flatten.length) :
    StridesAt (exitsTo targets) segments index [Cell.pushAwait (.ahead label)] := by
  intro cell member way target exit
  obtain rfl := List.mem_singleton.mp member
  refine ⟨nofun, fun link => inside target ?_⟩
  obtain rfl := Link.await.inj link
  exact exit

theorem strides_hook {second : Cell} (isSecond : IsSecondAddress second)
    (inside : ∀ target, targets.getD 2 none = some target →
      startOf segments target < segments.flatten.length)
    (insideSecond : ∀ target, targets.getD 3 none = some target →
      startOf segments target < segments.flatten.length) :
    (hookPiece second).StridesAt (exitsTo targets) segments index := by
  have pushed : StridesAt (exitsTo targets) segments index [second] := by
    rcases isSecond with rfl | rfl
    · exact strides_unlinked rfl
    · exact strides_await insideSecond
  exact (((strides_await inside).append (strides_unlinked rfl)).append pushed).append
    ((strides_unlinked rfl).append ((strides_unlinked rfl).append (strides_unlinked rfl)))

end

end Piece

structure Demands where
  stack : Prop
  hooks : Prop

/-- From one stack before a piece to another one after it, so many `catch` blocks
starting in between. -/
inductive Carries (demands : Demands) : Ways → MarkerStack → Piece → MarkerStack → Nat →
      Prop where
  | nil (ways : Ways) (level : MarkerStack) : Carries demands ways level [] level 0
  | cell {ways : Ways} {before after : MarkerStack} {cell : Cell} (plain : cell.IsPlain)
      (spare : demands.hooks → cell.callsHook = false)
      (effect : demands.stack → cell.Effect before after) :
      Carries demands ways before [cell] after 0
  | stop {ways : Ways} {before after : MarkerStack} (opcode : Opcode) (type : DataType)
      (stops : opcode = .exit ∨ opcode = .ret)
      (effect : demands.stack → (Cell.single opcode type).Ends before) :
      Carries demands ways before [Cell.single opcode type] after 0
  | leave {ways : Ways} {before after level : MarkerStack} {opcode : Opcode} {way : Way}
      (jumps : ({ opcode } : Instruction).mayJump = true) (leads : ways way level)
      (effect : demands.stack → (Cell.leave opcode way).Effect before level ∧
        (opcode ≠ .branch → after = level)) :
      Carries demands ways before [Cell.leave opcode way] after 0
  | hook {ways : Ways} {base : MarkerStack} {second : Cell}
      (isSecond : IsSecondAddress second) (leads : ways (.ahead 2) base)
      (leadsSecond : second = Cell.pushAwait (.ahead 3) →
        ways (.ahead 3) (false :: base)) :
      Carries demands ways base (hookPiece second) base 0
  | append {ways : Ways} {before middle after : MarkerStack} {left right : Piece}
      {n m : Nat} (first : Carries demands ways before left middle n)
      (second : Carries demands ways middle right after m) :
      Carries demands ways before (left ++ right) after (n + m)
  | join {ways inner : Ways} {exits : Exits} {segments : List Piece}
      (levels : List MarkerStack)
      (counts : List Nat) (sizes : segments.length = counts.length)
      (carried : ∀ (index : Nat) (segment : Piece) (count : Nat), segments[index]? =
        some segment → counts[index]? = some count →
        Carries demands inner (levels.getD index []) segment
          (levels.getD (index + 1) []) count)
      (agree : ∀ way index level, exits way = some index → inner way level →
        index ≤ segments.length ∧ levels.getD index [] = level)
      (others : ∀ way level, exits way = none → inner way level → ways way level)
      (strides : Piece.Strides exits segments) :
      Carries demands ways (levels.getD 0 []) (Piece.join exits segments)
        (levels.getD segments.length []) counts.sum
  | redirect {ways renamed : Ways} {before after : MarkerStack} {piece : Piece} {n : Nat}
      (rename : Way → Way) (carried : Carries demands ways before piece after n)
      (unawaited : ∀ cell ∈ piece, ∀ way, cell.link ≠ .await way)
      (implies : ∀ cell ∈ piece, ∀ way, cell.Takes way → ∀ level, ways way level →
        renamed (rename way) level) :
      Carries demands renamed before (piece.redirect rename) after n
  | function {ways : Ways} {base : MarkerStack} {body : Piece} {n : Nat}
      (carried : Carries demands (fun _ _ => False) [] body [] n) :
      Carries demands ways base (functionPiece body) base n
  | handled {ways inner : Ways} {name : String} {body handler cleanup : Piece}
      (levels : List MarkerStack) (counts : List Nat)
      (sizes : (guardedSegments name body handler cleanup).length = counts.length)
      (carried : ∀ (index : Nat) (segment : Piece) (count : Nat),
        (guardedSegments name body handler cleanup)[index]? = some segment →
        counts[index]? = some count →
        Carries demands inner (levels.getD index []) segment
          (levels.getD (index + 1) []) count)
      (agree : ∀ way index level, exitsTo guardedTargets way = some index →
        inner way level →
        index ≤ (guardedSegments name body handler cleanup).length ∧
        levels.getD index [] = level)
      (others : ∀ way level, exitsTo guardedTargets way = none →
        inner way level → ways way level)
      (strides : Piece.Strides (exitsTo guardedTargets)
        (guardedSegments name body handler cleanup))
      (deeper : levels.getD 4 [] = false :: levels.getD 0 []) :
      Carries demands ways (levels.getD 0 [])
        (Piece.join (exitsTo guardedTargets) (guardedSegments name body handler cleanup))
        (levels.getD 9 []) (counts.sum + 1)

def CarryAll (demands : Demands) (ways : Ways) :
    List MarkerStack → List Piece → List Nat → Prop
  | before :: after :: levels, piece :: rest, count :: counts =>
    Carries demands ways before piece after count ∧
    CarryAll demands ways (after :: levels) rest counts
  | [_], [], [] => True
  | _, _, _ => False

/-- Labels of a construct beside the ways out of it. -/
def Ways.within (ways : Ways) (labels : List (Option MarkerStack)) : Ways
  | .ahead label, level => labels.getD label none = some level
  | way, level => ways way level

def LabelsAgree (levels : List MarkerStack) :
    List (Option Nat) → List (Option MarkerStack) → Prop
  | [], [] => True
  | none :: targets, none :: labels => LabelsAgree levels targets labels
  | some index :: targets, some level :: labels =>
    levels[index]? = some level ∧ LabelsAgree levels targets labels
  | _, _ => False

namespace Carries

variable {demands : Demands} {ways inner : Ways} {levels : List MarkerStack}
  {segments : List Piece}
  {counts : List Nat} {before after : MarkerStack} {piece : Piece} {n : Nat}

theorem weaken (carried : Carries demands ways before piece after n)
    (implies : ∀ way level, ways way level → inner way level) :
    Carries demands inner before piece after n := by
  induction carried generalizing inner with
  | nil _ level => exact .nil inner level
  | cell plain spare effect => exact .cell plain spare effect
  | stop opcode type stops effect => exact .stop opcode type stops effect
  | leave jumps leads effect => exact .leave jumps (implies _ _ leads) effect
  | hook isSecond leads leadsSecond =>
    exact .hook isSecond (implies _ _ leads) fun same => implies _ _ (leadsSecond same)
  | append _ _ first second => exact .append (first implies) (second implies)
  | join levels counts sizes carried agree others strides _ =>
    exact .join levels counts sizes carried agree
      (fun way level stays taken => implies _ _ (others way level stays taken)) strides
  | redirect rename carried unawaited renames _ =>
    exact .redirect rename carried unawaited
      fun cell member way takes level taken =>
        implies _ _ (renames cell member way takes level taken)
  | function carried _ => exact .function carried
  | handled levels counts sizes carried agree others strides deeper _ =>
    exact .handled levels counts sizes carried agree
      (fun way level stays taken => implies _ _ (others way level stays taken))
      strides deeper

end Carries

namespace CarryAll

variable {demands : Demands} {ways : Ways} {levels : List MarkerStack}
  {segments : List Piece} {counts : List Nat}

theorem lengths (all : CarryAll demands ways levels segments counts) :
    levels.length = segments.length + 1 ∧ counts.length = segments.length := by
  induction segments generalizing levels counts with
  | nil =>
    match levels, counts, all with
    | [_], [], _ => exact ⟨rfl, rfl⟩
  | cons piece rest induction =>
    match levels, counts, all with
    | before :: after :: levels, count :: counts, all =>
      have later := induction all.2
      simp only [List.length_cons] at later ⊢
      omega

theorem carries (all : CarryAll demands ways levels segments counts) {index : Nat}
    {segment : Piece} {count : Nat} (found : segments[index]? = some segment)
    (counted : counts[index]? = some count) :
    Carries demands ways (levels.getD index []) segment
      (levels.getD (index + 1) []) count := by
  induction segments generalizing levels counts index with
  | nil => simp at found
  | cons piece rest induction =>
    match levels, counts, all with
    | before :: after :: levels, first :: counts, all =>
      cases index with
      | zero =>
        simp only [List.getElem?_cons_zero, Option.some.injEq] at found counted
        subst found counted
        exact all.1
      | succ index => exact induction all.2 found counted

theorem append {front : List MarkerStack} {middle : MarkerStack} {back : List MarkerStack}
    {more : List Piece} {moreCounts : List Nat}
    (first : CarryAll demands ways (front ++ [middle]) segments counts)
    (second : CarryAll demands ways (middle :: back) more moreCounts) :
    CarryAll demands ways (front ++ middle :: back) (segments ++ more)
      (counts ++ moreCounts) := by
  induction segments generalizing front counts with
  | nil =>
    match front, counts, first with
    | [], [], _ => exact second
    | [_], [], first => exact False.elim first
  | cons piece rest induction =>
    match front, counts, first with
    | [before], count :: counts, first => exact ⟨first.1, @induction counts [] first.2⟩
    | before :: after :: front, count :: counts, first =>
      exact ⟨first.1, @induction counts (after :: front) first.2⟩

end CarryAll

theorem LabelsAgree.agree {levels : List MarkerStack} {targets : List (Option Nat)}
    {labels : List (Option MarkerStack)}
    (agree : LabelsAgree levels targets labels) {label : Nat} :
    (∀ index, targets.getD label none = some index →
      ∀ level, labels.getD label none = some level → levels[index]? = some level) ∧
    (targets.getD label none = none → labels.getD label none = none) := by
  induction targets generalizing labels label with
  | nil =>
    match labels, agree with
    | [], _ => simp
  | cons target targets induction =>
    match target, labels, agree with
    | none, none :: labels, agree =>
      cases label with
      | zero => simp
      | succ label => exact induction agree
    | some index, some level :: labels, agree =>
      cases label with
      | zero => simpa using agree.1
      | succ label => exact induction agree.2

theorem labelsAgree_replicate {levels : List MarkerStack} {level : MarkerStack}
    {targets : List Nat} (same : ∀ target ∈ targets, levels[target]? = some level) :
    LabelsAgree levels (targets.map some)
      (List.replicate targets.length (some level)) := by
  induction targets with
  | nil => trivial
  | cons target rest induction =>
    exact ⟨same target (List.mem_cons_self),
      induction fun other member => same other (List.mem_cons_of_mem target member)⟩

theorem LabelsAgree.ways {demands : Demands} {ways : Ways} {segments : List Piece}
    {targets : List (Option Nat)} {levels : List MarkerStack}
    {labels : List (Option MarkerStack)}
    {counts : List Nat} (agree : LabelsAgree levels targets labels)
    (all : CarryAll demands (ways.within labels) levels segments counts) :
    (∀ way index level, exitsTo targets way = some index → ways.within labels way level →
      index ≤ segments.length ∧ levels.getD index [] = level) ∧
    ∀ way level, exitsTo targets way = none → ways.within labels way level →
    ways way level := by
  constructor
  · intro way index level exit taken
    cases way with
    | breakLoop => simp [exitsTo] at exit
    | continueLoop => simp [exitsTo] at exit
    | ahead label =>
      have there := agree.agree.1 index exit level taken
      have bound := (List.getElem?_eq_some_iff.mp there).1
      rw [all.lengths.1] at bound
      exact ⟨by omega, by rw [List.getD_eq_getElem?_getD, there]; rfl⟩
  · intro way level stays taken
    cases way with
    | breakLoop => exact taken
    | continueLoop => exact taken
    | ahead label =>
      have absent := agree.agree.2 stays
      have present : labels.getD label none = some level := taken
      rw [absent] at present
      simp at present

/-- A construct whose segments follow each other and whose labels agree with them. -/
theorem Carries.joined {demands : Demands} {ways : Ways} {segments : List Piece}
    {targets : List (Option Nat)} {before after : MarkerStack} (levels : List MarkerStack)
    (labels : List (Option MarkerStack)) (counts : List Nat)
    (all : CarryAll demands (ways.within labels) levels segments counts)
    (agree : LabelsAgree levels targets labels)
    (strides : Piece.StrideFrom (exitsTo targets) segments 0 segments)
    (first : levels[0]? = some before) (last : levels[segments.length]? = some after) :
    Carries demands ways before (Piece.join (exitsTo targets) segments) after
      counts.sum := by
  have joined := Carries.join levels counts all.lengths.2.symm (fun _ _ _ => all.carries)
    (agree.ways all).1 (agree.ways all).2 (Piece.strides strides)
  rw [List.getD_eq_getElem?_getD, List.getD_eq_getElem?_getD, first, last] at joined
  exact joined

/-! What every derivation tells. -/

theorem forall_segments {holds : Piece → Prop} {segments : List Piece} {counts : List Nat}
    (sizes : segments.length = counts.length)
    (each : ∀ (index : Nat) (segment : Piece) (count : Nat),
      segments[index]? = some segment →
      counts[index]? = some count → holds segment) :
        ∀ segment ∈ segments, holds segment := by
  intro segment member
  obtain ⟨index, found⟩ := List.getElem?_of_mem member
  have bound : index < counts.length := sizes ▸ (List.getElem?_eq_some_iff.mp found).1
  exact each index segment counts[index] found (List.getElem?_eq_getElem bound)

/-- Only ways that lead somewhere are taken, and only the addresses of labels are waited
for. -/
def Piece.Obeys (ways : Ways) (piece : Piece) : Prop :=
  ∀ cell ∈ piece, ∀ way, cell.Takes way →
    (∃ level, ways way level) ∧ (cell.link = .await way → way.IsLabel)

theorem Piece.head?_join {exits : Exits} {segments : List Piece}
    (each : ∀ segment ∈ segments, ∀ cell ∈ segment.head?, cell.opensBody = false) :
    ∀ cell ∈ (Piece.join exits segments).head?, cell.opensBody = false := by
  have flat : ∀ cell ∈ segments.flatten.head?, cell.opensBody = false := by
    induction segments with
    | nil => simp
    | cons segment rest induction =>
      cases segment with
      | nil =>
        exact induction fun other member => each other (List.mem_cons_of_mem _ member)
      | cons first others => exact each (first :: others) List.mem_cons_self
  unfold Piece.join Piece.close
  cases isFlat : segments.flatten with
  | nil => simp [Piece.closeFrom]
  | cons first _ => simpa [Piece.closeFrom, isFlat] using flat

namespace Piece.Obeys

variable {ways inner : Ways} {piece left right : Piece}

theorem nil : Piece.Obeys ways [] := List.forall_mem_nil _

theorem append (first : left.Obeys ways) (second : right.Obeys ways) :
    (left ++ right).Obeys ways := by
  intro cell member
  rcases List.mem_append.mp member with member | member
  · exact first cell member
  · exact second cell member

theorem unlinked {cell : Cell} (link : cell.link = .none) : Piece.Obeys ways [cell] := by
  intro other member way taken
  rw [List.mem_singleton.mp member] at taken
  simp [Cell.Takes, link] at taken

theorem leave {opcode : Opcode} {way : Way} {level : MarkerStack}
    (leads : ways way level) : Piece.Obeys ways [Cell.leave opcode way] := by
  intro cell member other taken
  obtain rfl := List.mem_singleton.mp member
  obtain rfl : way = other := by simpa [Cell.Takes, Cell.leave] using taken
  exact ⟨⟨level, leads⟩, by simp [Cell.leave]⟩

theorem await {label : Nat} {level : MarkerStack} (leads : ways (.ahead label) level) :
    Piece.Obeys ways [Cell.pushAwait (.ahead label)] := by
  intro cell member other taken
  obtain rfl := List.mem_singleton.mp member
  obtain rfl : .ahead label = other := by simpa [Cell.Takes, Cell.pushAwait] using taken
  exact ⟨⟨level, leads⟩, fun _ => trivial⟩

theorem hook {base : MarkerStack} {second : Cell} (isSecond : IsSecondAddress second)
    (leads : ways (.ahead 2) base)
    (leadsSecond : second = Cell.pushAwait (.ahead 3) → ways (.ahead 3) (false :: base)) :
    (hookPiece second).Obeys ways := by
  have pushed : Piece.Obeys ways [second] := by
    rcases isSecond with rfl | rfl
    · exact unlinked rfl
    · exact await (leadsSecond rfl)
  exact (((await leads).append (unlinked rfl)).append pushed).append
    ((unlinked rfl).append ((unlinked rfl).append (unlinked rfl)))

theorem join {exits : Exits} {segments : List Piece}
    (each : ∀ segment ∈ segments, segment.Obeys inner)
    (others : ∀ way level, exits way = none → inner way level → ways way level) :
    (Piece.join exits segments).Obeys ways := by
  intro cell member way taken
  obtain ⟨⟨segment, isSegment, inside⟩, stays⟩ := mem_join member taken
  obtain ⟨⟨level, leads⟩, labelled⟩ := each segment isSegment cell inside way taken
  exact ⟨⟨level, others way level stays leads⟩, labelled⟩

theorem redirect {rename : Way → Way} (obeys : piece.Obeys inner)
    (unawaited : ∀ cell ∈ piece, ∀ way, cell.link ≠ .await way)
    (implies : ∀ cell ∈ piece, ∀ way, cell.Takes way → ∀ level, inner way level →
      ways (rename way) level) : (piece.redirect rename).Obeys ways := by
  intro cell member way taken
  obtain ⟨old, oldMember, rfl⟩ := mem_redirect.mp member
  obtain ⟨oldWay, oldTaken, rfl⟩ := Cell.takes_redirect.mp taken
  obtain ⟨⟨level, leads⟩, -⟩ := obeys old oldMember oldWay oldTaken
  refine ⟨⟨level, implies old oldMember oldWay oldTaken level leads⟩, fun link => ?_⟩
  obtain ⟨other, awaits, -⟩ := Cell.redirect_link_await.mp link
  exact absurd awaits (unawaited old oldMember other)

theorem closed (obeys : piece.Obeys ways) (nowhere : ∀ way level, ¬ ways way level) :
    piece.Closed := by
  intro cell member way taken
  obtain ⟨⟨level, leads⟩, -⟩ := obeys cell member way taken
  exact nowhere way level leads

end Piece.Obeys

theorem endOfBody_closed : endOfBody.Closed := by
  intro cell member way taken
  rw [List.mem_singleton.mp member] at taken
  simp [Cell.Takes, Cell.single] at taken

theorem functionPiece_closed {body : Piece} (closed : body.Closed) :
    (functionPiece body).Closed := by
  intro cell member way taken
  obtain ⟨⟨segment, isSegment, inside⟩, stays⟩ := Piece.mem_join member taken
  rcases List.mem_cons.mp isSegment with rfl | isSegment
  · obtain rfl := List.mem_singleton.mp inside
    obtain rfl : .ahead 2 = way := by simpa [Cell.Takes, Cell.leave] using taken
    simp [exitsTo] at stays
  · obtain rfl := List.mem_singleton.mp isSegment
    exact (closed.append endOfBody_closed).opened.not_takes inside taken

namespace Carries

variable {demands : Demands} {ways : Ways} {before after : MarkerStack}
  {piece : Piece} {n : Nat}

theorem obeys (carried : Carries demands ways before piece after n) :
    piece.Obeys ways := by
  induction carried with
  | nil => exact .nil
  | cell plain => exact .unlinked plain.1
  | stop => exact .unlinked rfl
  | leave _ leads => exact .leave leads
  | hook isSecond leads leadsSecond => exact .hook isSecond leads leadsSecond
  | append _ _ first second => exact first.append second
  | join _ _ sizes _ _ others _ each => exact .join (forall_segments sizes each) others
  | redirect _ _ unawaited implies obeys => exact obeys.redirect unawaited implies
  | function _ obeys =>
    have closed := functionPiece_closed (obeys.closed fun _ _ => id)
    exact fun cell member way taken => absurd taken (closed.not_takes member)
  | handled _ _ sizes _ _ others _ _ each =>
    exact .join (forall_segments sizes each) others

theorem closed (carried : Carries demands (fun _ _ => False) before piece after n) :
    piece.Closed :=
  carried.obeys.closed fun _ _ => id

/-- Code does not start with the body of a function, which is jumped over. -/
theorem head_unopened (carried : Carries demands ways before piece after n) :
    ∀ cell ∈ piece.head?, cell.opensBody = false := by
  induction carried with
  | nil => simp
  | cell plain => simpa using plain.2.1
  | stop => simp [Cell.single]
  | leave => simp [Cell.leave]
  | hook => simp [hookPiece, Cell.pushAwait]
  | @append _ _ _ _ left _ _ _ _ _ first second =>
    cases left with
    | nil => exact second
    | cons _ _ => exact first
  | join _ _ sizes _ _ _ _ each => exact Piece.head?_join (forall_segments sizes each)
  | @redirect _ _ _ _ piece _ rename _ _ _ unopened =>
    cases piece with
    | nil => simp [Piece.redirect]
    | cons first _ => simpa [Piece.redirect] using unopened
  | function =>
    simp [functionPiece, functionSegments, Piece.join, Piece.close,
      Piece.closeFrom, Cell.leave]
  | handled _ _ sizes _ _ _ _ _ each => exact Piece.head?_join (forall_segments sizes each)

theorem eq_of_nil (carried : Carries demands ways before piece after n)
    (empty : piece = []) : before = after := by
  induction carried with
  | nil => rfl
  | cell => simp at empty
  | stop => simp at empty
  | leave => simp at empty
  | hook => simp [hookPiece] at empty
  | append _ _ first second =>
    obtain ⟨emptyLeft, emptyRight⟩ := List.append_eq_nil_iff.mp empty
    exact (first emptyLeft).trans (second emptyRight)
  | @join _ _ _ segments levels counts sizes _ _ _ _ each =>
    have flat : segments.flatten = [] := by
      rw [← List.length_eq_zero_iff, ← Piece.length_join, empty]
      rfl
    have same : ∀ index, index ≤ segments.length →
        levels.getD 0 [] = levels.getD index [] := by
      intro index
      induction index with
      | zero => exact fun _ => rfl
      | succ index induction =>
        intro bound
        have found := List.getElem?_eq_getElem (show index < segments.length by omega)
        have counted := List.getElem?_eq_getElem (show index < counts.length by omega)
        exact (induction (by omega)).trans (each index _ _ found counted
          (List.flatten_eq_nil_iff.mp flat _ (List.mem_of_getElem? found)))
    exact same _ (Nat.le_refl _)
  | redirect _ _ _ _ induction => exact induction (List.map_eq_nil_iff.mp empty)
  | function =>
    simp [functionPiece, Piece.join, Piece.close, functionSegments,
      Piece.closeFrom] at empty
  | handled =>
    simp [Piece.join, Piece.close, guardedSegments, hookPiece, Piece.closeFrom] at empty

end Carries

namespace Carries

variable {demands : Demands} {ways : Ways} {x y : Bool} {base : MarkerStack}

theorem convert (type wanted : DataType) :
    Carries demands ways (x :: base) [Cell.op .convert type wanted] (false :: base) 0 :=
  .cell ⟨rfl, rfl, rfl, rfl, rfl⟩ (fun _ => rfl) fun _ _ => rfl

theorem conversion (type wanted : DataType) :
    Carries demands ways (false :: base) (conversion type wanted) (false :: base) 0 := by
  unfold Emission.conversion
  split
  · exact .nil ways _
  · exact convert type wanted

theorem binary (op : BinaryOp) (top second : DataType) :
    Carries demands ways (x :: y :: base) [binaryCell op top second]
      (false :: base) 0 := by
  unfold binaryCell
  cases op <;> exact .cell ⟨rfl, rfl, rfl, rfl, rfl⟩ (fun _ => rfl) fun _ _ => rfl

theorem compare (kind : Comparison) (top second : DataType) :
    Carries demands ways (x :: y :: base) [Cell.compare kind top second]
      (false :: base) 0 :=
  .cell ⟨rfl, rfl, rfl, rfl, rfl⟩ (fun _ => rfl) fun _ _ => rfl

theorem arithmetic (op : BinaryOp) (computes : op.comparison? = none)
    (top second : DataType) :
    Carries demands ways (x :: y :: base)
      [Cell.op (arithmeticOpcode op) top second] (false :: base)
      0 := by
  have isBinary : binaryCell op top second = Cell.op (arithmeticOpcode op) top second := by
    rw [binaryCell, computes]
  exact isBinary ▸ binary op top second

theorem unary (op : UnaryOp) (type : DataType) :
    Carries demands ways (x :: base) [Cell.single (if op == .neg then .neg else .not) type]
      (false :: base) 0 := by
  cases op <;> exact .cell ⟨rfl, rfl, rfl, rfl, rfl⟩ (fun _ => rfl) fun _ _ => rfl

theorem discard (type : DataType) :
    Carries demands ways (x :: base) [Cell.single .discard type] base 0 :=
  .cell ⟨rfl, rfl, rfl, rfl, rfl⟩ (fun _ => rfl) fun _ _ => rfl

theorem duplicate (type : DataType) :
    Carries demands ways (x :: base) [Cell.duplicate type 0] (x :: x :: base) 0 :=
  .cell ⟨rfl, rfl, rfl, rfl, rfl⟩ (fun _ => rfl) fun _ _ => rfl

theorem duplicatePair (type : DataType) :
    Carries demands ways (x :: y :: base) [Cell.duplicate type 1]
      (x :: y :: x :: y :: base) 0 :=
  .cell ⟨rfl, rfl, rfl, rfl, rfl⟩ (fun _ => rfl) fun _ _ => rfl

theorem pushMarker :
    Carries demands ways base [Cell.pushImmediate Instance.stackTop.code]
      (true :: base) 0 :=
  .cell ⟨rfl, rfl, rfl, rfl, rfl⟩ (fun _ => rfl) fun _ _ => rfl

theorem pushImmediate {value : Int16}
    (plain : demands.stack → value ≠ Instance.stackTop.code) :
    Carries demands ways base [Cell.pushImmediate value] (false :: base) 0 := by
  refine .cell ⟨rfl, rfl, rfl, rfl, rfl⟩ (fun _ => rfl) fun holds below => ?_
  have differs : (some (Immediate.int16 value) == some (.int16 Instance.stackTop.code)) =
      false := by
    simpa using plain holds
  simp [MarkerStack.apply, Cell.resolved, Cell.pushImmediate, Instruction.access?,
    Instruction.isStackTopMarker, differs]

theorem pushShort (value : Int16) :
    Carries demands ways base [Cell.pushShort value] (false :: base) 0 :=
  .cell ⟨rfl, rfl, rfl, rfl, rfl⟩ (fun _ => rfl) fun _ _ => rfl

theorem pushInt32 (value : Int32) :
    Carries demands ways base [Cell.pushInt32 value] (false :: base) 0 :=
  .cell ⟨rfl, rfl, rfl, rfl, rfl⟩ (fun _ => rfl) fun _ _ => rfl

theorem pushFunction (name : String) :
    Carries demands ways base [Cell.pushFunction name] (false :: base) 0 :=
  .cell ⟨rfl, rfl, rfl, rfl, rfl⟩ (fun _ => rfl) fun _ _ => rfl

def IsNoMarker : Literal → Prop
  | .number value => integerOf? value ≠ some (-9)
  | _ => True

theorem literal {value : Literal} (plain : demands.stack → IsNoMarker value) :
    Carries demands ways base [literalCell value] (false :: base) 0 := by
  cases value with
  | boolean value =>
    refine pushImmediate fun _ => ?_
    cases value <;> decide
  | number value =>
    cases integral : integerOf? value with
    | none =>
      simp only [literalCell, integral]
      exact .cell ⟨rfl, rfl, rfl, rfl, rfl⟩ (fun _ => rfl) fun _ _ => rfl
    | some n =>
      simp only [literalCell, integral, integerCell]
      split
      · rename_i isShort
        refine pushImmediate fun holds same => ?_
        have notMarker : n ≠ -9 := by
          intro isMarker
          exact plain holds (by rw [integral, isMarker])
        have short : wordCount (16 - 1) = 32768 := by decide
        simp only [isSignedWord, Bool.and_eq_true, decide_eq_true_eq, short] at isShort
        have back : (Int16.ofInt n).toInt = n :=
          Int16.toInt_ofInt_of_le (by omega) (by omega)
        rw [same] at back
        exact notMarker back.symm
      · split <;> exact .cell ⟨rfl, rfl, rfl, rfl, rfl⟩ (fun _ => rfl) fun _ _ => rfl
  | int64 value => exact .cell ⟨rfl, rfl, rfl, rfl, rfl⟩ (fun _ => rfl) fun _ _ => rfl
  | string text => exact .cell ⟨rfl, rfl, rfl, rfl, rfl⟩ (fun _ => rfl) fun _ _ => rfl

theorem call (args : MarkerStack) {name : String} {count : Nat}
    (few : count < wordCount 15) (isCount : args.length = count)
    (spare : demands.hooks → name ≠ Internal.tryHook) :
    Carries demands ways (args ++ base) [Cell.call name count] (false :: base) 0 := by
  have back : (Int16.ofInt count).toInt = count := by
    have most : wordCount 15 = 32768 := by decide
    exact Int16.toInt_ofInt_of_le (by omega) (by omega)
  have isDraft : (Cell.call name count).IsDraft :=
    ⟨by rw [back]; exact Int.natCast_nonneg _, rfl⟩
  refine .cell ⟨rfl, rfl, rfl, rfl, isDraft⟩ (fun holds => beq_false_of_ne (spare holds))
    fun _ below => ?_
  have argumentCount : (Cell.call name count).resolved.argumentCount = count :=
    congrArg Int.toNat back
  have dropped : (args ++ base ++ below).drop count = base ++ below := by
    rw [List.append_assoc, ← isCount, List.drop_left]
  change false :: (args ++ base ++ below).drop
    (Cell.call name count).resolved.argumentCount = _
  rw [argumentCount, dropped]
  rfl

theorem callValue (args : MarkerStack) {count : Nat} (few : count < wordCount 8)
    (isCount : args.length = count) :
    Carries demands ways (x :: y :: args ++ base) [Cell.callValue count]
      (false :: base) 0 := by
  refine .cell ⟨rfl, rfl, rfl, rfl, rfl⟩ (fun _ => rfl) fun _ below => ?_
  have argumentCount : (Cell.callValue count).resolved.argumentCount = count := by
    have most : wordCount 8 = 256 := by decide
    exact UInt8.toNat_ofNat_of_lt' (by rw [UInt8.size]; omega)
  have dropped : (x :: y :: args ++ base ++ below).drop (count + 2) = base ++ below := by
    rw [List.append_assoc, ← isCount, List.cons_append, List.cons_append,
      List.drop_succ_cons, List.drop_succ_cons, List.drop_left]
  change false :: (x :: y :: args ++ base ++ below).drop
    ((Cell.callValue count).resolved.argumentCount + 2) = _
  rw [argumentCount, dropped]
  rfl

theorem callDiscard {name : String} (spare : demands.hooks → name ≠ Internal.tryHook) :
    Carries demands ways base (callDiscard name 0) base 0 :=
  .append (call [] (by decide) rfl spare) (discard .variant)

theorem leaveForGood : Carries demands ways base [Cell.leaveForGood] base 0 :=
  .cell ⟨rfl, rfl, rfl, rfl, rfl⟩ (fun _ => rfl) fun _ _ => rfl

theorem read (v : Variable) (resolved : String × Instance) :
    Carries demands ways base [readCell v resolved] (false :: base) 0 := by
  unfold readCell pushOpcode
  repeat' split
  all_goals exact .cell ⟨rfl, rfl, rfl, rfl, rfl⟩ (fun _ => rfl) fun _ _ => rfl

theorem pushPlain (name : String) (owner : Instance) :
    Carries demands ways base [Cell.pushVariable .push (.plain name owner)]
      (false :: base) 0 :=
  .cell ⟨rfl, rfl, rfl, rfl, rfl⟩ (fun _ => rfl) fun _ _ => rfl

theorem store (type : DataType) (resolved : String × Instance) :
    Carries demands ways (x :: base) [storeCell type resolved] base 0 :=
  .cell ⟨rfl, rfl, rfl, rfl, rfl⟩ (fun _ => rfl) fun _ _ => rfl

theorem popPlain (type : DataType) (name : String) (owner : Instance) :
    Carries demands ways (x :: base) [Cell.popVariable .variant type (.plain name owner)]
      base 0 :=
  .cell ⟨rfl, rfl, rfl, rfl, rfl⟩ (fun _ => rfl) fun _ _ => rfl

end Carries

end GameScript.Emission
