import GameScript.Bytecode.Depth
import Mathlib.Algebra.Ring.Int.Defs
import Mathlib.Algebra.Ring.Nat

/-! Addresses of instructions, and where control passes to. -/

namespace GameScript.Bytecode

theorem Instruction.four_dvd_length (ins : Instruction) : 4 ∣ ins.length := by
  unfold length
  split
  · split <;> decide
  · split <;> decide
  · decide
  · decide

def Instruction.mayJump (ins : Instruction) : Bool :=
  match ins.opcode with
  | .branch | .branchTrue | .branchFalse | .enterWith => true
  | .leaveWith => !ins.leavesForGood
  | _ => false

namespace CodeEntry

variable {entry : CodeEntry} {index address : Nat}

def Increases (entry : CodeEntry) : Prop :=
  ∀ (first second : Nat) (ins other : Instruction), first < second →
    entry.instructions[first]? = some ins → entry.instructions[second]? = some other →
    ins.address < other.address

theorem of_indexOf? (found : entry.indexOf? address = some index) :
    ∃ ins, entry.instructions[index]? = some ins ∧ ins.address = address := by
  unfold indexOf? at found
  simp only at found
  split at found
  case h_1 ins there =>
    split at found
    case isTrue same =>
      obtain rfl := Option.some.inj found
      exact ⟨ins, there, same⟩
    case isFalse => simp at found
  case h_2 => simp at found

theorem indexOf?_eq_some_iff (increases : entry.Increases) :
    entry.indexOf? address = some index ↔
      ∃ ins, entry.instructions[index]? = some ins ∧ ins.address = address := by
  constructor
  · exact of_indexOf?
  · rintro ⟨ins, there, same⟩
    have bound := (Array.getElem?_eq_some_iff.mp there).1
    have halved :
      bisect (fun place => entry.instructions[place]?.any (·.address ≤ address)) 0
        entry.instructions.size = index := by
      refine bisect_eq 0 _ (Nat.zero_le _) (by omega) (fun place _ upTo => ?_)
        fun place beyond short => ?_
      · have found :=
          Array.getElem?_eq_getElem (by omega : place < entry.instructions.size)
        rcases Nat.lt_or_eq_of_le upTo with less | rfl
        · have earlier := increases place index _ ins less found there
          simp only [found, Option.any_some, decide_eq_true_eq]
          omega
        · simp [there, same]
      · have found :=
          Array.getElem?_eq_getElem (by omega : place < entry.instructions.size)
        have later := increases index place ins _ beyond there found
        simp only [found, Option.any_some, decide_eq_false_iff_not]
        omega
    simp only [indexOf?, halved, there, if_pos same]

theorem indexOfInt?_eq_some_iff (increases : entry.Increases) {target : Int} :
    entry.indexOfInt? target = some index ↔
      ∃ ins, entry.instructions[index]? = some ins ∧ (ins.address : Int) = target := by
  unfold indexOfInt?
  split
  case isTrue positive =>
    rw [indexOf?_eq_some_iff increases]
    constructor
    · rintro ⟨ins, there, same⟩
      exact ⟨ins, there, by omega⟩
    · rintro ⟨ins, there, same⟩
      exact ⟨ins, there, by omega⟩
  case isFalse negative =>
    constructor
    · simp
    · rintro ⟨ins, there, same⟩
      omega

theorem mem_successors {next : Nat} {ins : Instruction}
    (found : entry.instructions[index]? = some ins) :
    next ∈ entry.successors index ↔
      ins.isTerminator = false ∧ next = index + 1 ∧ next < entry.instructions.size ∨
      ins.mayJump = true ∧ entry.indexOfInt? ins.target = some next := by
  simp only [successors, found, Instruction.isTerminator, Instruction.mayJump]
  have isNext : next ∈ (if index + 1 < entry.instructions.size then [index + 1] else []) ↔
      next = index + 1 ∧ next < entry.instructions.size := by
    split
    case isTrue bound =>
      simp only [List.mem_singleton, iff_self_and]
      rintro rfl
      exact bound
    case isFalse bound =>
      simp only [List.not_mem_nil, false_iff, not_and]
      rintro rfl
      exact bound
  cases opcode : ins.opcode
  case leaveWith => cases ins.leavesForGood <;> simp [isNext]
  all_goals simp [isNext]

end CodeEntry

end GameScript.Bytecode
