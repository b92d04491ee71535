import GameScript.Proofs.Bytecode.Addresses
import Mathlib.Data.Option.Basic
import Mathlib.Logic.Relation

/-! Depths of the stack of values spread to all code that control can reach, before any are
guessed. -/

namespace GameScript.Bytecode

open Builtin Relation

namespace CodeEntry

/-- Control starts at an index, with the values that are on the stack then. -/
inductive Starts (entry : CodeEntry) (tables : NameTables) : Nat → MarkerStack → Prop
  | code : 0 < entry.instructions.size → Starts entry tables 0 []
  | body {child : ChildFunction} {index : Nat} : child ∈ entry.children →
      entry.indexOf? child.offset = some index → Starts entry tables index []
  | handler {hooked index : Nat} {hook address : Instruction} :
      entry.instructions[hooked + 2]? = some hook →
      hook.calls tables Internal.tryHook = true →
      entry.instructions[hooked]? = some address →
      entry.indexOfInt? (address.immediateInt?.getD (-1)) = some index →
      Starts entry tables index [false]

/-- Control passes to an index along some path, which leaves the given values on the
stack. -/
inductive Arrives (entry : CodeEntry) (tables : NameTables) : Nat → MarkerStack → Prop
  | start {index : Nat} {stack : MarkerStack} : entry.Starts tables index stack →
      Arrives entry tables index stack
  | step {index next : Nat} {stack : MarkerStack} {ins : Instruction} :
      Arrives entry tables index stack → entry.instructions[index]? = some ins →
      next ∈ entry.successors index → Arrives entry tables next (stack.apply ins)

def Reachable (entry : CodeEntry) (tables : NameTables) (index : Nat) : Prop :=
  ∃ start stack, entry.Starts tables start stack ∧
    ReflTransGen (fun place next => next ∈ entry.successors place) start index

variable {index : Nat} {tables : NameTables}

theorem indexOf?_lt {entry : CodeEntry} {address : Nat}
    (found : entry.indexOf? address = some index) : index < entry.instructions.size := by
  obtain ⟨ins, there, -⟩ := of_indexOf? found
  exact (Array.getElem?_eq_some_iff.mp there).1

theorem indexOfInt?_lt {entry : CodeEntry} {address : Int}
    (found : entry.indexOfInt? address = some index) :
    index < entry.instructions.size := by
  unfold indexOfInt? at found
  split at found
  · exact indexOf?_lt found
  · simp at found

theorem successors_lt {entry : CodeEntry} {next : Nat}
    (passes : next ∈ entry.successors index) : next < entry.instructions.size := by
  cases there : entry.instructions[index]? with
  | none => simp [successors, there] at passes
  | some ins =>
    rcases (mem_successors there).mp passes with ⟨-, -, bound⟩ | ⟨-, target⟩
    · exact bound
    · exact indexOfInt?_lt target

theorem mem_catchStarts {entry : CodeEntry} :
    index ∈ entry.catchStarts tables ↔ ∃ hooked hook address,
      entry.instructions[hooked + 2]? = some hook ∧
      hook.calls tables Internal.tryHook = true ∧
      entry.instructions[hooked]? = some address ∧
      entry.indexOfInt? (address.immediateInt?.getD (-1)) = some index := by
  simp only [catchStarts, List.mem_filterMap, List.mem_range, Option.bind_eq_bind,
    Option.bind_eq_some_iff]
  constructor
  · rintro ⟨call, -, hook, there, ⟨⟩, guarded, address, before, found⟩
    obtain ⟨enough, calls⟩ :=
      Bool.and_eq_true_iff.mp ((Option.guard_eq_some' _).mp guarded)
    have shifted : call - 2 + 2 = call := Nat.sub_add_cancel (of_decide_eq_true enough)
    exact ⟨call - 2, hook, address, shifted.symm ▸ there, calls, before, found⟩
  · rintro ⟨hooked, hook, address, there, calls, before, found⟩
    refine ⟨hooked + 2, (Array.getElem?_eq_some_iff.mp there).1, hook, there, (), ?_,
      address, before, found⟩
    rw [Option.guard_eq_some']
    simp [calls]

theorem mem_seeds {entry : CodeEntry} {stack : MarkerStack}
    (some_code : 0 < entry.instructions.size) :
    (index, stack) ∈ entry.seeds tables ↔ entry.Starts tables index stack := by
  simp only [seeds, List.mem_append, List.mem_cons, List.mem_filterMap, List.mem_map,
    mem_catchStarts, Option.map_eq_some_iff, Prod.mk.injEq]
  constructor
  · rintro ((⟨rfl, rfl⟩ | ⟨child, isChild, place, found, rfl, rfl⟩) |
      ⟨place, ⟨hooked, hook, address, there, calls, before, found⟩, rfl, rfl⟩)
    · exact .code some_code
    · exact .body isChild found
    · exact .handler there calls before found
  · intro starts
    cases starts with
    | code => exact Or.inl (Or.inl ⟨rfl, rfl⟩)
    | body isChild found => exact Or.inl (Or.inr ⟨_, isChild, _, found, rfl, rfl⟩)
    | handler there calls before found =>
      exact Or.inr ⟨_, ⟨_, _, _, there, calls, before, found⟩, rfl, rfl⟩

theorem Starts.lt {entry : CodeEntry} {stack : MarkerStack}
    (starts : entry.Starts tables index stack) : index < entry.instructions.size := by
  cases starts with
  | code some_code => exact some_code
  | body _ found => exact indexOf?_lt found
  | handler _ _ _ found => exact indexOfInt?_lt found

end CodeEntry

namespace Flow

def Knows (flow : Flow) (index : Nat) (stack : MarkerStack) : Prop :=
  flow.levels[index]? = some (some stack)

/-- Number of instructions that wait or of which nothing is known. -/
def left (flow : Flow) : Nat := flow.work.length + flow.levels.count none

def seedAll (flow : Flow) (seeds : List (Nat × MarkerStack)) : Flow :=
  seeds.foldl (fun flow seed => flow.seed seed.1 seed.2) flow

/-- What stays and what comes when instructions are told stacks. -/
structure Grows (told : Nat → MarkerStack → Prop) (flow later : Flow) : Prop where
  size : later.levels.size = flow.levels.size
  keeps : ∀ {index stack}, flow.Knows index stack → later.Knows index stack
  adds : ∀ {index stack}, later.Knows index stack →
    flow.Knows index stack ∨ told index stack ∧ index ∈ later.work
  waits : ∀ {index}, index ∈ flow.work → index ∈ later.work
  known : ∀ {index}, index ∈ later.work → index ∈ flow.work ∨
    ∃ stack, later.Knows index stack
  left : later.left = flow.left

variable {told : Nat → MarkerStack → Prop} {flow middle later : Flow}

theorem Grows.refl (flow : Flow) : Grows told flow flow :=
  ⟨rfl, id, Or.inl, id, Or.inl, rfl⟩

theorem Grows.trans (first : Grows told flow middle) (second : Grows told middle later) :
    Grows told flow later where
  size := second.size.trans first.size
  keeps known := second.keeps (first.keeps known)
  adds known := by
    rcases second.adds known with known | added
    · exact (first.adds known).imp_right (And.imp_right second.waits)
    · exact Or.inr added
  waits waiting := second.waits (first.waits waiting)
  known waiting := by
    rcases second.known waiting with waiting | known
    · exact (first.known waiting).imp_right fun ⟨stack, known⟩ =>
        ⟨stack, second.keeps known⟩
    · exact Or.inr known
  left := second.left.trans first.left

variable {index : Nat} {stack : MarkerStack}

theorem seed_grows (isTold : index < flow.levels.size → told index stack) :
    Grows told flow (flow.seed index stack) := by
  unfold seed
  split
  case h_1 unknown =>
    obtain ⟨bound, isNone⟩ := Array.getElem?_eq_some_iff.mp unknown
    have set :
        flow.levels.set! index (some stack) =
          flow.levels.set index (some stack) bound := by
      rw [Array.set!_eq_setIfInBounds, Array.setIfInBounds, dif_pos bound]
    have lookup (place : Nat) : (flow.levels.set! index (some stack))[place]? =
        if index = place then some (some stack) else flow.levels[place]? := by
      rw [set, Array.getElem?_set]
    constructor
    case size => simp
    case keeps =>
      intro place other known
      by_cases same : index = place
      · subst same
        rw [Knows, unknown] at known
        cases known
      · simpa only [Knows, lookup, if_neg same] using known
    case adds =>
      intro place other known
      by_cases same : index = place
      · subst same
        rw [Knows, lookup, if_pos rfl, Option.some.injEq, Option.some.injEq] at known
        exact Or.inr ⟨known ▸ isTold bound, List.mem_cons_self⟩
      · exact Or.inl (by simpa only [Knows, lookup, if_neg same] using known)
    case waits => exact fun waiting => List.mem_cons_of_mem _ waiting
    case known =>
      intro place waiting
      rcases List.mem_cons.mp waiting with rfl | before
      · exact Or.inr ⟨stack, by rw [Knows, lookup, if_pos rfl]⟩
      · exact Or.inl before
    case left =>
      have positive : 0 < flow.levels.count none :=
        Array.count_pos_iff.mpr (isNone ▸ Array.getElem_mem bound)
      have counted : (flow.levels.set index (some stack) bound).count none =
          flow.levels.count none - 1 := by
        rw [Array.count_set, isNone]
        rfl
      rw [Flow.left, Flow.left, set, counted, List.length_cons]
      omega
  case h_2 => exact Grows.refl flow

theorem exists_knows_seed (stack : MarkerStack) (bound : index < flow.levels.size) :
    ∃ other, (flow.seed index stack).Knows index other := by
  unfold seed
  split
  case h_1 => exact ⟨stack, by simp [Knows, bound]⟩
  case h_2 known =>
    rw [Array.getElem?_eq_getElem bound] at known
    cases there : flow.levels[index] with
    | none => exact absurd there (by simpa using known)
    | some other => exact ⟨other, by rw [Knows, Array.getElem?_eq_getElem bound, there]⟩

theorem seedAll_grows (seeds : List (Nat × MarkerStack))
    (areTold : ∀ seed ∈ seeds, seed.1 < flow.levels.size → told seed.1 seed.2) :
    Grows told flow (flow.seedAll seeds) := by
  induction seeds generalizing flow with
  | nil => exact Grows.refl flow
  | cons seed seeds induction =>
    obtain ⟨isTold, areTold⟩ := List.forall_mem_cons.mp areTold
    have grows := seed_grows isTold
    exact grows.trans (induction (grows.size.symm ▸ areTold))

/-- Each told instruction has a stack in the end, its own or an earlier one. -/
theorem exists_knows_seedAll {seeds : List (Nat × MarkerStack)} {seed : Nat × MarkerStack}
    (member : seed ∈ seeds) (bound : seed.1 < flow.levels.size) :
    ∃ stack, (flow.seedAll seeds).Knows seed.1 stack := by
  induction seeds generalizing flow with
  | nil => cases member
  | cons head seeds induction =>
    have grows : Grows (fun _ _ => True) flow (flow.seed head.1 head.2) :=
      seed_grows fun _ => trivial
    rcases List.mem_cons.mp member with rfl | later
    · obtain ⟨stack, known⟩ := exists_knows_seed seed.2 bound
      have later :
          Grows (fun _ _ => True) (flow.seed seed.1 seed.2)
            (flow.seedAll (seed :: seeds)) :=
        seedAll_grows seeds fun _ _ _ => trivial
      exact ⟨stack, later.keeps known⟩
    · exact induction later (by rwa [grows.size])

/-- One round: the instruction that waits first tells its successors. It is in the code,
the stack before it is known, and its successors are in the code. -/
inductive Tells (entry : CodeEntry) : Flow → Flow → Prop
  | mk {levels : Array (Option MarkerStack)} {work : List Nat} {index : Nat}
      {stack : MarkerStack} {ins : Instruction} : levels[index]? = some (some stack) →
      entry.instructions[index]? = some ins →
      (∀ next ∈ entry.successors index, next < levels.size) →
      Tells entry ⟨levels, index :: work⟩
        (seedAll ⟨levels, work⟩ ((entry.successors index).map (·, stack.apply ins)))

inductive Guesses (entry : CodeEntry) : Flow → Flow → Prop
  | mk {flow : Flow} {index : Nat} {stack : MarkerStack} : flow.work = [] → 0 < index →
      index < flow.levels.size → entry.guess flow index = some stack →
      Guesses entry flow (flow.seed index stack)

def Advances (entry : CodeEntry) (flow later : Flow) : Prop :=
  Tells entry flow later ∨ Guesses entry flow later

/-- The stack before waiting instructions is known, and so is the one before the successors
of the others. -/
structure Sound (entry : CodeEntry) (flow : Flow) : Prop where
  size : flow.levels.size = entry.instructions.size
  known : ∀ {index}, index ∈ flow.work → ∃ stack, flow.Knows index stack
  closed : ∀ {index stack next}, flow.Knows index stack → index ∉ flow.work →
    next ∈ entry.successors index → ∃ other, flow.Knows next other

variable {entry : CodeEntry}

theorem Sound.grow (sound : Sound entry flow) (grows : Grows told flow later) :
    Sound entry later where
  size := grows.size.trans sound.size
  known waiting := by
    rcases grows.known waiting with before | known
    · obtain ⟨stack, known⟩ := sound.known before
      exact ⟨stack, grows.keeps known⟩
    · exact known
  closed known settled passes := by
    rcases grows.adds known with known | ⟨-, waiting⟩
    · obtain ⟨other, known⟩ := sound.closed known (mt grows.waits settled) passes
      exact ⟨other, grows.keeps known⟩
    · exact absurd waiting settled

theorem Sound.left_le (sound : Sound entry flow) (ended : flow.work = []) :
    flow.left ≤ entry.instructions.size := by
  have counted : flow.levels.count none ≤ flow.levels.size := Array.count_le_size
  rw [Flow.left, ended, List.length_nil, Nat.zero_add, ← sound.size]
  exact counted

theorem Tells.inv (tells : Tells entry flow later) : ∃ index work stack ins,
    flow.work = index :: work ∧ flow.Knows index stack ∧
    entry.instructions[index]? = some ins ∧
    Grows (fun next other => next ∈ entry.successors index ∧ other = stack.apply ins)
      ⟨flow.levels, work⟩ later ∧
    ∀ next ∈ entry.successors index, ∃ other, later.Knows next other := by
  obtain ⟨known, found, inside⟩ := tells
  refine ⟨_, _, _, _, rfl, known, found, seedAll_grows _ fun seed member _ => ?_, ?_⟩
  · obtain ⟨next, passes, rfl⟩ := List.mem_map.mp member
    exact ⟨passes, rfl⟩
  · intro next passes
    exact exists_knows_seedAll (List.mem_map_of_mem passes) (inside next passes)

theorem Tells.keeps (tells : Tells entry flow later)
    (known : flow.Knows index stack) : later.Knows index stack := by
  obtain ⟨_, _, _, _, _, _, _, grows, _⟩ := tells.inv
  exact grows.keeps known

theorem Tells.left (tells : Tells entry flow later) : later.left < flow.left := by
  obtain ⟨_, _, _, _, work, _, _, grows, _⟩ := tells.inv
  have same := grows.left
  simp only [Flow.left, work, List.length_cons] at same ⊢
  omega

theorem Tells.sound (tells : Tells entry flow later) (sound : Sound entry flow) :
    Sound entry later := by
  obtain ⟨index, work, stack, ins, works, isKnown, found, grows, covers⟩ := tells.inv
  refine ⟨grows.size.trans sound.size, ?_, ?_⟩
  · intro place waiting
    rcases grows.known waiting with before | known
    · obtain ⟨other, known⟩ := sound.known (works ▸ List.mem_cons_of_mem index before)
      exact ⟨other, tells.keeps known⟩
    · exact known
  · intro place other next known settled passes
    rcases grows.adds known with known | ⟨-, waiting⟩
    · by_cases same : place = index
      · exact covers next (same ▸ passes)
      · have before : place ∉ flow.work := by
          rw [works, List.mem_cons]
          exact fun waiting => waiting.elim same (mt grows.waits settled)
        obtain ⟨reached, known⟩ := sound.closed known before passes
        exact ⟨reached, tells.keeps known⟩
    · exact absurd waiting settled

/-- Stacks that are told belong to paths on which the known ones are. -/
theorem Tells.arrives {tables : NameTables} (tells : Tells entry flow later)
    (arrives : ∀ index stack, flow.Knows index stack → entry.Arrives tables index stack)
    (index : Nat) (stack : MarkerStack) (known : later.Knows index stack) :
    entry.Arrives tables index stack := by
  obtain ⟨place, work, before, ins, works, isKnown, found, grows, covers⟩ := tells.inv
  rcases grows.adds known with known | ⟨⟨passes, rfl⟩, -⟩
  · exact arrives index stack known
  · exact .step (arrives place before isKnown) found passes

theorem Guesses.grows (guesses : Guesses entry flow later) :
    Grows (fun _ _ => True) flow later := by
  obtain ⟨-, -, -, -⟩ := guesses
  exact seed_grows fun _ => trivial

theorem Advances.keeps (advances : Advances entry flow later)
    (known : flow.Knows index stack) : later.Knows index stack :=
  advances.elim (·.keeps known) (·.grows.keeps known)

theorem Advances.sound (advances : Advances entry flow later) (sound : Sound entry flow) :
    Sound entry later :=
  advances.elim (·.sound sound) fun guesses => sound.grow guesses.grows

theorem tells_left (run : ReflTransGen (Tells entry) flow later) :
    later = flow ∨ later.left < flow.left := by
  induction run with
  | refl => exact Or.inl rfl
  | tail _ tells induction =>
    have less := tells.left
    rcases induction with rfl | fewer
    · exact Or.inr less
    · exact Or.inr (Nat.lt_trans less fewer)

theorem tells_advances (run : ReflTransGen (Tells entry) flow later) :
    ReflTransGen (Advances entry) flow later :=
  ReflTransGen.mono (fun _ _ => Or.inl) _ _ run

theorem advances_keeps (run : ReflTransGen (Advances entry) flow later)
    (known : flow.Knows index stack) : later.Knows index stack := by
  induction run with
  | refl => exact known
  | tail _ advances induction => exact advances.keeps induction

theorem advances_sound (run : ReflTransGen (Advances entry) flow later)
    (sound : Sound entry flow) : Sound entry later := by
  induction run with
  | refl => exact sound
  | tail _ advances induction => exact advances.sound induction

/-- Each round takes one of what is left, so as many rounds are enough. -/
theorem run_tells (sound : Sound entry flow) {fuel : Nat} (enough : flow.left ≤ fuel) :
    ReflTransGen (Tells entry) flow (run entry fuel flow) ∧
    (run entry fuel flow).work = [] := by
  induction fuel generalizing flow with
  | zero =>
    have none_left : flow.work.length = 0 := by
      rw [Flow.left] at enough
      omega
    exact ⟨.refl, List.length_eq_zero_iff.mp none_left⟩
  | succ fuel induction =>
    obtain ⟨levels, work⟩ := flow
    cases work with
    | nil => exact ⟨.refl, rfl⟩
    | cons index work =>
      obtain ⟨stack, known⟩ := sound.known List.mem_cons_self
      have bound : index < entry.instructions.size :=
        sound.size ▸ (Array.getElem?_eq_some_iff.mp known).1
      have found := Array.getElem?_eq_getElem bound
      have tells : Tells entry ⟨levels, index :: work⟩ _ :=
        .mk known found fun next passes => sound.size.symm ▸ CodeEntry.successors_lt passes
      have less := tells.left
      obtain ⟨rest, ended⟩ := induction (tells.sound sound) (by omega)
      have unfolds : run entry (fuel + 1) ⟨levels, index :: work⟩ = run entry fuel
          (seedAll ⟨levels, work⟩
            ((entry.successors index).map
              (·, stack.apply entry.instructions[index]))) := by
        rw [Knows] at known
        simp only [run, known, found, seedAll, List.foldl_map]
      rw [unfolds]
      exact ⟨.head tells rest, ended⟩

end Flow

namespace CodeEntry

open Bytecode.Flow

variable {entry : CodeEntry} {flow later : Flow}

structure Rests (entry : CodeEntry) (flow : Flow) : Prop where
  work : flow.work = []
  guess : ∀ index, 0 < index → entry.guess flow index = none

variable {index : Nat} {stack : MarkerStack}

theorem guess_unknown
    (guessed : entry.guess flow index = some stack) : flow.levels[index]? = some none := by
  unfold guess at guessed
  obtain ⟨⟨⟩, guarded, -⟩ := Option.bind_eq_some_iff.mp guessed
  exact eq_of_beq ((Option.guard_eq_some' _).mp guarded)

theorem guess_spreads (sound : Sound entry flow) (ended : flow.work = [])
    (positive : 0 < index) (guessed : entry.guess flow index = some stack) :
    ReflTransGen (Advances entry) flow
        (Flow.run entry (entry.instructions.size + 1) (flow.seed index stack)) ∧
      (Flow.run entry (entry.instructions.size + 1) (flow.seed index stack)).work = [] ∧
      (Flow.run entry (entry.instructions.size + 1) (flow.seed index stack)).left <
        flow.left := by
  have unknown := guess_unknown guessed
  have bound := (Array.getElem?_eq_some_iff.mp unknown).1
  have guesses : Guesses entry flow (flow.seed index stack) :=
    .mk ended positive bound guessed
  have few : (flow.seed index stack).left ≤ entry.instructions.size + 1 :=
    guesses.grows.left ▸ Nat.le_succ_of_le (sound.left_le ended)
  obtain ⟨rounds, rests⟩ := run_tells (sound.grow guesses.grows) few
  refine ⟨.head (Or.inr guesses) (tells_advances rounds), rests, ?_⟩
  rcases tells_left rounds with same | less
  · have waits : (flow.seed index stack).work = index :: flow.work := by
      rw [Flow.seed, unknown]
    rw [← same, rests] at waits
    cases waits
  · rwa [guesses.grows.left] at less

def guessAt (entry : CodeEntry) (state : Flow × Bool) (index : Nat) : Flow × Bool :=
  if index = 0 then state
  else
    match entry.guess state.1 index with
    | some stack =>
      (Flow.run entry (entry.instructions.size + 1) (state.1.seed index stack), true)
    | none => state

theorem guessAll_eq (entry : CodeEntry) (flow : Flow) : entry.guessAll flow =
    (List.range entry.instructions.size).foldl entry.guessAt (flow, false) := rfl

theorem guessAt_cases (sound : Sound entry flow) (ended : flow.work = [])
    (progressed : Bool) (index : Nat) :
    entry.guessAt (flow, progressed) index = (flow, progressed) ∧
        (0 < index → entry.guess flow index = none) ∨
      ∃ next, entry.guessAt (flow, progressed) index = (next, true) ∧
        ReflTransGen (Advances entry) flow next ∧ next.work = [] ∧
        next.left < flow.left := by
  unfold guessAt
  split
  case isTrue first =>
    exact Or.inl ⟨rfl, fun positive => absurd first (Nat.ne_of_gt positive)⟩
  case isFalse later =>
    cases guessed : entry.guess flow index with
    | none => exact Or.inl ⟨rfl, fun _ => rfl⟩
    | some stack =>
      exact Or.inr ⟨_, rfl, guess_spreads sound ended (Nat.pos_of_ne_zero later) guessed⟩

/-- A pass in which something was guessed leaves less; one in which nothing was changes
nothing. -/
structure Passes (entry : CodeEntry) (indices : List Nat) (flow : Flow) (progressed : Bool)
    (last : Flow × Bool) : Prop where
  run : ReflTransGen (Advances entry) flow last.1
  work : last.1.work = []
  keeps : progressed = true → last.2 = true
  left : last.1.left ≤ flow.left
  less : last.2 = true → progressed = true ∨ last.1.left < flow.left
  stable : last.2 = false → last.1 = flow ∧
    ∀ index ∈ indices, 0 < index → entry.guess flow index = none

theorem guessAt_passes (indices : List Nat) (sound : Sound entry flow)
    (ended : flow.work = []) (progressed : Bool) :
    Passes entry indices flow progressed
      (indices.foldl entry.guessAt (flow, progressed)) := by
  induction indices generalizing flow progressed with
  | nil => exact ⟨.refl, ended, id, Nat.le_refl _, Or.inl, fun _ => ⟨rfl, by simp⟩⟩
  | cons index indices induction =>
    rw [List.foldl_cons]
    rcases guessAt_cases sound ended progressed index with
      ⟨stays, unguessed⟩ | ⟨next, goes, run, rests, fewer⟩
    · have passes := induction sound ended progressed
      rw [stays]
      refine ⟨passes.run, passes.work, passes.keeps, passes.left, passes.less,
        fun nothing => ?_⟩
      obtain ⟨same, others⟩ := passes.stable nothing
      exact ⟨same, List.forall_mem_cons.mpr ⟨unguessed, others⟩⟩
    · have passes := induction (advances_sound run sound) rests true
      have guessed := passes.keeps rfl
      have less := Nat.lt_of_le_of_lt passes.left fewer
      rw [goes]
      refine ⟨run.trans passes.run, passes.work, fun _ => guessed, Nat.le_of_lt less,
        fun _ => Or.inr less, fun nothing => ?_⟩
      rw [guessed] at nothing
      cases nothing

theorem guessUntilStable_rests (sound : Sound entry flow) (ended : flow.work = [])
    {fuel : Nat} (enough : flow.left < fuel) :
    ReflTransGen (Advances entry) flow (entry.guessUntilStable fuel flow) ∧
      entry.Rests (entry.guessUntilStable fuel flow) := by
  induction fuel generalizing flow with
  | zero => exact absurd enough (Nat.not_lt_zero _)
  | succ fuel induction =>
    have passes := guessAt_passes (List.range entry.instructions.size) sound ended false
    rw [← guessAll_eq] at passes
    unfold guessUntilStable
    split
    case h_1 next pass =>
      rw [pass] at passes
      have less := (passes.less rfl).resolve_left (by simp)
      obtain ⟨run, rests⟩ :=
        induction (advances_sound passes.run sound) passes.work (by omega)
      exact ⟨passes.run.trans run, rests⟩
    case h_2 next pass =>
      rw [pass] at passes
      obtain ⟨same, unguessed⟩ := passes.stable rfl
      obtain rfl : next = flow := same
      refine ⟨.refl, ended, fun index positive => ?_⟩
      by_cases inside : index < entry.instructions.size
      · exact unguessed index (List.mem_range.mpr inside) positive
      · refine Option.eq_none_iff_forall_ne_some.mpr fun stack guessed => inside ?_
        exact sound.size ▸ (Array.getElem?_eq_some_iff.mp (guess_unknown guessed)).1

def blank (entry : CodeEntry) : Flow := ⟨Array.replicate entry.instructions.size none, []⟩

def seeded (entry : CodeEntry) (tables : NameTables) : Flow :=
  entry.blank.seedAll (entry.seeds tables)

theorem size_blank (entry : CodeEntry) :
    entry.blank.levels.size = entry.instructions.size :=
  Array.size_replicate

theorem not_knows_blank : ¬ entry.blank.Knows index stack := by
  intro known
  obtain ⟨bound, known⟩ := Array.getElem?_eq_some_iff.mp known
  simp [blank] at known

theorem depths_eq (entry : CodeEntry) (tables : NameTables) : entry.depths tables =
    (entry.guessUntilStable (entry.instructions.size + 1)
      (Flow.run entry (entry.instructions.size + 1) (entry.seeded tables))).levels.map
        (·.map List.length) := rfl

theorem seeded_grows (entry : CodeEntry) (tables : NameTables) :
    Grows (entry.Starts tables) entry.blank (entry.seeded tables) := by
  refine seedAll_grows _ fun seed member bound => (mem_seeds ?_).mp member
  rw [size_blank] at bound
  exact Nat.lt_of_le_of_lt (Nat.zero_le _) bound

theorem seeded_sound (entry : CodeEntry) (tables : NameTables) :
    Sound entry (entry.seeded tables) := by
  refine Sound.grow ⟨size_blank entry, ?_, ?_⟩ (seeded_grows entry tables)
  · rintro index ⟨⟩
  · intro index stack next known
    exact absurd known not_knows_blank

theorem seeded_left (entry : CodeEntry) (tables : NameTables) :
    (entry.seeded tables).left = entry.instructions.size := by
  rw [(seeded_grows entry tables).left, Flow.left, blank, Array.count_replicate_self]
  exact Nat.zero_add _

theorem tells_arrive {tables : NameTables}
    (run : ReflTransGen (Tells entry) (entry.seeded tables) flow) (index : Nat)
    (stack : MarkerStack) (known : flow.Knows index stack) :
    entry.Arrives tables index stack := by
  induction run generalizing index stack with
  | refl =>
    rcases (seeded_grows entry tables).adds known with known | ⟨starts, -⟩
    · exact absurd known not_knows_blank
    · exact .start starts
  | tail _ tells induction => exact tells.arrives induction index stack known

/-- Where nothing waits, all that control can reach is known. -/
theorem Reachable.knows {tables : NameTables} (reaches : entry.Reachable tables index)
    (run : ReflTransGen (Advances entry) (entry.seeded tables) flow)
    (ended : flow.work = []) :
    ∃ stack, flow.Knows index stack := by
  obtain ⟨start, stack, starts, path⟩ := reaches
  induction path with
  | refl =>
    have bound := starts.lt
    have member := (mem_seeds (Nat.lt_of_le_of_lt (Nat.zero_le _) bound)).mpr starts
    rw [← size_blank] at bound
    obtain ⟨other, known⟩ := exists_knows_seedAll member bound
    exact ⟨other, advances_keeps run known⟩
  | tail _ passes induction =>
    obtain ⟨before, known⟩ := induction
    exact (advances_sound run (seeded_sound entry tables)).closed known
      (by simp [ended]) passes

/-- Each instruction that control can reach gets the depth to which some path to it leads,
before any other depth is guessed, and keeps it. The loops come to their ends, and look up
only what is there. -/
theorem depths_complete_and_grounded (entry : CodeEntry) (tables : NameTables) :
    (∀ index stack, entry.Starts tables index stack → index < entry.instructions.size) ∧
    ∃ first last : Flow,
      ReflTransGen (Tells entry) (entry.seeded tables) first ∧ first.work = [] ∧
      ReflTransGen (Advances entry) first last ∧ entry.Rests last ∧
      entry.depths tables = last.levels.map (·.map List.length) ∧
      ∀ index, entry.Reachable tables index → ∃ stack, entry.Arrives tables index stack ∧
        first.Knows index stack ∧ last.Knows index stack ∧
        (entry.depths tables)[index]? = some (some stack.length) := by
  have enough : (entry.seeded tables).left ≤ entry.instructions.size + 1 := by
    rw [seeded_left]
    exact Nat.le_succ _
  obtain ⟨rounds, ended⟩ := run_tells (seeded_sound entry tables) enough
  have sound := advances_sound (tells_advances rounds) (seeded_sound entry tables)
  obtain ⟨passes, rests⟩ :=
    guessUntilStable_rests sound ended (Nat.lt_succ_of_le (sound.left_le ended))
  refine ⟨fun index stack starts => starts.lt, _, _, rounds, ended, passes, rests,
    depths_eq entry tables, fun index reaches => ?_⟩
  obtain ⟨stack, known⟩ := reaches.knows (tells_advances rounds) ended
  have stays := advances_keeps passes known
  refine ⟨stack, tells_arrive rounds index stack known, known, stays, ?_⟩
  rw [depths_eq, Array.getElem?_map, stays]
  rfl

end CodeEntry

end GameScript.Bytecode
