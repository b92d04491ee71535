import GameScript.Proofs.Bytecode.Addresses

/-! Reading returns what was written, and what was read can be written again. -/

namespace GameScript.Bytecode

theorem Opcode.ofCode?_code (opcode : Opcode) : ofCode? opcode.code = some opcode := by
  cases opcode <;> rfl

theorem DataType.ofCode?_code (type : DataType) : ofCode? type.code = some type := by
  cases type <;> rfl

theorem DataType.code_lt (type : DataType) : type.code < 16 := by
  cases type <;> decide

theorem Comparison.ofCode?_code (comparison : Comparison) :
    ofCode? comparison.code = some comparison := by
  cases comparison <;> rfl

theorem Access.ofCode?_code (access : Access) : ofCode? access.code = some access := by
  cases access <;> rfl

/-! Instructions that the binary form can hold. -/

inductive Operand : DataType → Instance → Option Immediate → Option Reference → Prop where
  | int16 (value : Int16) : Operand .int16 .unspecified (some (.int16 value)) none
  | variant (owner : Instance) (id : Nat) (access : Access) (small : id < 2 ^ 24) :
      Operand .variant owner none (some (.var id access))
  | int32 (value : Int32) : Operand .int32 .unspecified (some (.int32 value)) none
  | function (id : Nat) (small : id < 2 ^ 32) :
      Operand .int32 .unspecified (some (.int32 0)) (some (.function id))
  | int64 (value : Int64) : Operand .int64 .unspecified (some (.int64 value)) none
  | double (value : Number.Double) :
      Operand .double .unspecified (some (.double value)) none
  | float (value : Number.Single) : Operand .float .unspecified (some (.float value)) none
  | boolean (value : Bool) : Operand .boolean .unspecified (some (.boolean value)) none
  | string (id : Nat) (small : id < 2 ^ 32) :
      Operand .string .unspecified (some (.string id)) none

/-- The fields that the class of the operation encodes are in range and all others are as
in a fresh instruction. -/
inductive Instruction.Canonical : Instruction → Prop where
  | types (address : Nat) (opcode : Opcode) (type1 type2 : DataType) (swap extra : UInt8)
      (isTyped : opcode.opcodeClass = .singleType ∨ opcode.opcodeClass = .doubleType) :
      Canonical { address, opcode, type1, type2, swap, extra }
  | comparison (address : Nat) (opcode : Opcode) (type1 type2 : DataType)
      (comparison : Comparison) (extra : UInt8)
      (isComparison : opcode.opcodeClass = .comparison) :
      Canonical { address, opcode, type1, type2, comparison := some comparison, extra }
  | leave (address : Nat) (opcode : Opcode) (isBranch : opcode.opcodeClass = .branch) :
      Canonical { address, opcode, leavesForGood := true }
  | branch (address : Nat) (opcode : Opcode) (jump : Int)
      (isBranch : opcode.opcodeClass = .branch)
      (low : -2 ^ 22 ≤ jump) (high : jump < 2 ^ 22) : Canonical { address, opcode, jump }
  | exchange (address : Nat) (opcode : Opcode) (type2 : DataType) (owner : Instance)
      (isPop : opcode.opcodeClass = .pop) :
      Canonical { address, opcode, type1 := .int16, type2, owner }
  | pop (address : Nat) (opcode : Opcode) (type1 type2 : DataType)
      (owner : Instance) (id : Nat)
      (access : Access) (isPop : opcode.opcodeClass = .pop) (stores : type1 ≠ .int16)
      (small : id < 2 ^ 24) :
      Canonical { address, opcode, type1, type2, owner,
                  reference := some (.var id access) }
  | push (address : Nat) (opcode : Opcode) (type1 : DataType) (owner : Instance)
      (immediate : Option Immediate) (reference : Option Reference)
      (isPush : opcode.opcodeClass = .push)
      (operand : Operand type1 owner immediate reference) :
      Canonical { address, opcode, type1, owner, immediate, reference }
  | call (address : Nat) (opcode : Opcode) (type1 type2 : DataType) (count : Int16)
      (id : Nat) (isCall : opcode.opcodeClass = .call) (small : id < 2 ^ 32) :
      Canonical { address, opcode, type1, type2, immediate := some (.int16 count)
                  reference := some (.function id) }
  | extended (address : Nat) (opcode : Opcode) (type1 type2 : DataType) (number : Int16)
      (isExtended : opcode.opcodeClass = .extended) :
      Canonical { address, opcode, type1, type2, immediate := some (.int16 number) }

/-- The second type of a call is written and never read. -/
def Instruction.CallsWithOneType (ins : Instruction) : Prop :=
  ins.opcode.opcodeClass = .call → ins.type2 = .int32

namespace Codec

@[simp]
theorem length_bytesOf (count n : Nat) : (bytesOf count n).length = count := by
  induction count generalizing n with
  | zero => rfl
  | succ count induction => simp [bytesOf, induction]

theorem valueOf_bytesOf (count n : Nat) : valueOf (bytesOf count n) = n % 256 ^ count := by
  induction count generalizing n with
  | zero => simp [bytesOf, valueOf, Nat.mod_one]
  | succ count induction =>
    rw [bytesOf, valueOf, induction, UInt8.toNat_ofNat',
      Nat.pow_succ' (n := count), Nat.mod_mul]

theorem valueOf_lt (bytes : List UInt8) : valueOf bytes < 256 ^ bytes.length := by
  induction bytes with
  | nil => simp [valueOf]
  | cons byte rest induction =>
    have small := byte.toNat_lt
    simp only [valueOf, List.length_cons, Nat.pow_succ']
    omega

theorem take_bytesOf {count n : Nat} (fits : n < 256 ^ count) (address : Nat)
    (rest : List UInt8) : take count address (bytesOf count n ++ rest) = .ok n := by
  simp [take, valueOf_bytesOf, Nat.mod_eq_of_lt fits]

theorem take_word {n : Nat} (fits : n < 2 ^ 32) (address : Nat) (rest : List UInt8) :
    take 4 address (word n ++ rest) = .ok n :=
  take_bytesOf fits address rest

theorem take_longWord {n : Nat} (fits : n < 2 ^ 64) (address : Nat) (rest : List UInt8) :
    take 8 address (longWord n ++ rest) = .ok n :=
  take_bytesOf fits address rest

theorem take_eq_ok {count address n : Nat} {bytes : List UInt8}
    (taken : take count address bytes = .ok n) :
    count ≤ bytes.length ∧ n < 256 ^ count := by
  unfold take at taken
  split at taken
  case isTrue enough =>
    cases taken
    have bound := valueOf_lt (bytes.take count)
    rw [List.length_take, Nat.min_eq_left enough] at bound
    exact ⟨enough, bound⟩
  case isFalse => cases taken

@[simp]
theorem dataType_code (address : Nat) (type : DataType) :
    dataType address type.code = .ok type := by
  simp [dataType, DataType.ofCode?_code]

/-! Fields of a header, read from any word that holds them. -/

variable {address number : Nat} {opcode : Opcode} {type1 type2 : DataType}
  {rest : List UInt8}

theorem varReference_eq {id : Nat} {access : Access}
    (high : number / 0x1000000 % 256 = access.code.toNat) (low : number % 0x1000000 = id) :
    varReference address number = .ok (.var id access) := by
  simp only [varReference, high, low, UInt8.ofNat_toNat, Access.ofCode?_code]

theorem varReference_word {id : Nat} (access : Access) (small : id < 2 ^ 24) :
    varReference address (referenceWord (some (.var id access))) =
      .ok (.var id access) := by
  have bound := access.code.toNat_lt
  simp only [referenceWord]
  apply varReference_eq
  · omega
  · omega

theorem referenceWord_lt (id : Nat) (access : Access) :
    referenceWord (some (.var id access)) < 2 ^ 32 := by
  have bound := access.code.toNat_lt
  simp only [referenceWord]
  omega

theorem lowHalf_lt (half : Int16) : lowHalf half < 0x10000 :=
  half.toUInt16.toNat_lt

theorem halfOf_eq {half : Int16} (low : number % 0x10000 = lowHalf half) :
    halfOf number = half := by
  rw [halfOf, low]
  apply Int16.toBitVec_inj.mp
  simp [lowHalf, BitVec.ofInt_natCast]

theorem byte_eq {byte : UInt8} (low : number % 0x100 = byte.toNat) :
    UInt8.ofNat number = byte := by
  apply UInt8.toNat_inj.mp
  rw [UInt8.toNat_ofNat']
  exact low

theorem dataType_eq {nibble : Nat} {type : DataType} (same : nibble = type.code) :
    dataType address nibble = .ok type := by
  simp only [dataType, same, DataType.ofCode?_code]

theorem signedJump_eq {jump : Int} (low : -2 ^ 22 ≤ jump) (high : jump < 2 ^ 22) :
    signedJump (jump % 0x800000).toNat = jump := by
  unfold signedJump
  split <;> omega

theorem decodeFields_types {swap extra : UInt8}
    (isTyped : opcode.opcodeClass = .singleType ∨ opcode.opcodeClass = .doubleType)
    (first : number / 0x10000 % 16 = type1.code)
    (second : number / 0x100000 % 16 = type2.code)
    (swaps : number / 0x100 % 0x100 = swap.toNat) (extras : number % 0x100 = extra.toNat) :
    decodeFields opcode address number rest =
      .ok { address, opcode, type1, type2, swap, extra } := by
  cases isTyped with
  | inl isSingle =>
    simp only [decodeFields, isSingle, dataType_eq first, dataType_eq second,
      byte_eq swaps, byte_eq extras]
    rfl
  | inr isDouble =>
    simp only [decodeFields, isDouble, dataType_eq first, dataType_eq second,
      byte_eq swaps, byte_eq extras]
    rfl

theorem decodeFields_comparison {comparison : Comparison} {extra : UInt8}
    (isComparison : opcode.opcodeClass = .comparison)
    (first : number / 0x10000 % 16 = type1.code)
    (second : number / 0x100000 % 16 = type2.code)
    (kind : number / 0x100 % 0x100 = comparison.code.toNat)
    (extras : number % 0x100 = extra.toNat) :
    decodeFields opcode address number rest =
      .ok { address, opcode, type1, type2, comparison := some comparison, extra } := by
  simp only [decodeFields, isComparison, dataType_eq first, dataType_eq second, kind,
    UInt8.ofNat_toNat, Comparison.ofCode?_code, byte_eq extras]
  rfl

theorem decodeFields_leave (isBranch : opcode.opcodeClass = .branch)
    (marked : 0x800000 ≤ number % 0x1000000) :
    decodeFields opcode address number rest =
      .ok { address, opcode, leavesForGood := true } := by
  simp only [decodeFields, isBranch, if_pos marked]
  rfl

theorem decodeFields_branch {jump : Int} (isBranch : opcode.opcodeClass = .branch)
    (unmarked : number % 0x1000000 < 0x800000)
    (field : number % 0x800000 = (jump % 0x800000).toNat)
    (low : -2 ^ 22 ≤ jump) (high : jump < 2 ^ 22) :
    decodeFields opcode address number rest = .ok { address, opcode, jump } := by
  simp only [decodeFields, isBranch, if_neg (Nat.not_le.mpr unmarked), field,
    signedJump_eq low high]
  rfl

theorem decodeFields_exchange {owner : Instance} (isPop : opcode.opcodeClass = .pop)
    (first : number / 0x10000 % 16 = DataType.int16.code)
    (second : number / 0x100000 % 16 = type2.code)
    (half : number % 0x10000 = lowHalf owner.code) :
    decodeFields opcode address number rest =
      .ok { address, opcode, type1 := .int16, type2, owner } := by
  simp only [decodeFields, isPop, dataType_eq first, dataType_eq second, halfOf_eq half]
  rfl

theorem decodeFields_pop {owner : Instance} {payload : Nat} {reference : Reference}
    (isPop : opcode.opcodeClass = .pop) (stores : type1 ≠ .int16)
    (first : number / 0x10000 % 16 = type1.code)
    (second : number / 0x100000 % 16 = type2.code)
    (half : number % 0x10000 = lowHalf owner.code) (fits : payload < 2 ^ 32)
    (named : varReference address payload = .ok reference) :
    decodeFields opcode address number (word payload ++ rest) =
      .ok { address, opcode, type1, type2, owner, reference := some reference } := by
  simp only [decodeFields, isPop, dataType_eq first, dataType_eq second, halfOf_eq half,
    take_word fits, bind, Except.bind, if_neg stores, named]
  rfl

theorem decodeFields_call {count : Int16} {id : Nat} (isCall : opcode.opcodeClass = .call)
    (small : id < 2 ^ 32) (first : number / 0x10000 % 16 = type1.code)
    (half : number % 0x10000 = lowHalf count) :
    decodeFields opcode address number (word id ++ rest) =
      .ok { address, opcode, type1, immediate := some (.int16 count)
            reference := some (.function id) } := by
  simp only [decodeFields, isCall, dataType_eq first, take_word small, halfOf_eq half]
  rfl

theorem decodeFields_extended {code : Int16} (isExtended : opcode.opcodeClass = .extended)
    (first : number / 0x10000 % 16 = type1.code)
    (second : number / 0x100000 % 16 = type2.code)
    (half : number % 0x10000 = lowHalf code) :
    decodeFields opcode address number rest =
      .ok { address, opcode, type1, type2, immediate := some (.int16 code) } := by
  simp only [decodeFields, isExtended, dataType_eq first,
    dataType_eq second, halfOf_eq half]
  rfl

theorem int32_word (value : Int32) : Int32.ofInt value.toUInt32.toNat = value := by
  apply Int32.toBitVec_inj.mp
  simp [BitVec.ofInt_natCast]

theorem int64_longWord (value : Int64) : Int64.ofInt value.toUInt64.toNat = value := by
  apply Int64.toBitVec_inj.mp
  simp [BitVec.ofInt_natCast]

theorem decodePush_variant {owner : Instance} {payload : Nat} {reference : Reference}
    (first : number / 0x10000 % 16 = DataType.variant.code)
    (half : number % 0x10000 = lowHalf owner.code) (fits : payload < 2 ^ 32)
    (named : varReference address payload = .ok reference) :
    decodePush opcode address number (word payload ++ rest) =
      .ok { address, opcode, type1 := .variant, owner, reference := some reference } := by
  simp only [decodePush, dataType_eq first, bind, Except.bind, take_word fits, named,
    halfOf_eq half]
  rfl

theorem decodePush_eq {owner : Instance} {immediate : Option Immediate}
    {reference : Option Reference} {ins : Instruction}
    (operand : Operand type1 owner immediate reference)
    (same : ins = { address, opcode, type1, owner, immediate, reference })
    (first : number / 0x10000 % 16 = type1.code) (low : number % 0x10000 = pushLow ins) :
    decodePush opcode address number (pushPayload ins ++ rest) = .ok ins := by
  subst same
  cases operand with
  | int16 value =>
    have half : number % 0x10000 = lowHalf value := low
    simp only [decodePush, dataType_eq first, halfOf_eq half]
    rfl
  | variant owner id access small =>
    have half : number % 0x10000 = lowHalf owner.code := low
    exact decodePush_variant first half (referenceWord_lt id access)
      (varReference_word access small)
  | int32 value =>
    have unmarked : number % 0x10000 ≠ functionMark := by
      rw [low]
      exact Nat.zero_ne_one
    simp only [decodePush, dataType_eq first, bind, Except.bind, pushPayload, fallbackInt,
      Instruction.immediateInt?, Option.bind_some, Immediate.toInt?, Option.getD_some,
      Int32.ofInt_toInt, take_word value.toUInt32.toNat_lt, if_neg unmarked, int32_word]
    rfl
  | function id small =>
    have marked : number % 0x10000 = functionMark := low
    simp only [decodePush, dataType_eq first, bind, Except.bind, pushPayload,
      take_word small, if_pos marked]
    rfl
  | int64 value =>
    simp only [decodePush, dataType_eq first, bind, Except.bind, pushPayload, fallbackInt,
      Instruction.immediateInt?, Option.bind_some, Immediate.toInt?, Option.getD_some,
      Int64.ofInt_toInt, take_longWord value.toUInt64.toNat_lt, int64_longWord]
    rfl
  | double value =>
    simp only [decodePush, dataType_eq first, bind, Except.bind, pushPayload,
      take_longWord value.bits.toNat_lt, UInt64.ofNat_toNat]
    rfl
  | float value =>
    simp only [decodePush, dataType_eq first, bind, Except.bind, pushPayload,
      take_word value.bits.toNat_lt, UInt32.ofNat_toNat]
    rfl
  | boolean value =>
    simp only [decodePush, dataType_eq first, bind, Except.bind, pushPayload]
    cases value with
    | false =>
      simp only [Option.some.injEq, Immediate.boolean.injEq, Bool.false_eq_true, if_false,
        take_word (show 0 < 2 ^ 32 by decide)]
      rfl
    | true =>
      simp only [if_true, take_word (show 1 < 2 ^ 32 by decide)]
      rfl
  | string id small =>
    simp only [decodePush, dataType_eq first, bind, Except.bind, pushPayload,
      take_word small]
    rfl

theorem pushLow_lt (ins : Instruction) : pushLow ins < 0x10000 := by
  unfold pushLow
  split
  · exact lowHalf_lt _
  · exact lowHalf_lt _
  · decide
  · decide

theorem shortLow_lt (ins : Instruction) : shortLow ins < 0x10000 := by
  unfold shortLow
  split
  · exact lowHalf_lt _
  · decide

theorem headerFields_lt (ins : Instruction) : headerFields ins < 0x1000000 := by
  have first := ins.type1.code_lt
  have second := ins.type2.code_lt
  have types : typesByte ins = ins.type1.code + 16 * ins.type2.code := rfl
  have middle := (secondByte ins).toNat_lt
  have extra := ins.extra.toNat_lt
  have owner := lowHalf_lt ins.owner.code
  have pushed := pushLow_lt ins
  have short := shortLow_lt ins
  cases kind : ins.opcode.opcodeClass with
  | branch =>
    simp only [headerFields, kind, leaveMark]
    split <;> omega
  | _ =>
    simp only [headerFields, kind]
    omega

theorem header_high (ins : Instruction) :
    header ins / 0x1000000 % 256 = ins.opcode.code.toNat := by
  have code := ins.opcode.code.toNat_lt
  have fields := headerFields_lt ins
  unfold header
  omega

theorem header_lt (ins : Instruction) : header ins < 2 ^ 32 := by
  have code := ins.opcode.code.toNat_lt
  have fields := headerFields_lt ins
  unfold header
  omega

theorem decodeInstruction_word (fits : number < 2 ^ 32)
    (high : number / 0x1000000 % 256 = opcode.code.toNat) :
    decodeInstruction address (word number ++ rest) =
      decodeFields opcode address number rest := by
  have behind : (word number ++ rest).drop 4 = rest :=
    List.drop_left' (length_bytesOf 4 number)
  simp only [decodeInstruction, take_word fits, bind, Except.bind, high, UInt8.ofNat_toNat,
    Opcode.ofCode?_code, behind]

theorem decodeInstruction_encode {ins : Instruction} (canonical : ins.Canonical)
    (oneType : ins.CallsWithOneType) :
    decodeInstruction ins.address (encodeInstruction ins ++ rest) = .ok ins := by
  have first := ins.type1.code_lt
  have second := ins.type2.code_lt
  have fields := headerFields_lt ins
  have whole : header ins = ins.opcode.code.toNat * 0x1000000 + headerFields ins := rfl
  rw [encodeInstruction, List.append_assoc, decodeInstruction_word (header_lt ins)
    (header_high ins)]
  generalize header ins = number at whole ⊢
  cases canonical with
  | types address opcode type1 type2 swap extra isTyped =>
    have swaps := swap.toNat_lt
    have extras := extra.toNat_lt
    have shape : headerFields { address, opcode, type1, type2, swap, extra } =
        (type1.code + 16 * type2.code) * 0x10000 + swap.toNat * 0x100 + extra.toNat := by
      cases isTyped with
      | inl isSingle => simp only [headerFields, isSingle, typesByte, secondByte]
      | inr isDouble => simp only [headerFields, isDouble, typesByte, secondByte]
    simp only [shape] at first second whole
    apply decodeFields_types isTyped
    · omega
    · omega
    · omega
    · omega
  | comparison address opcode type1 type2 comparison extra isComparison =>
    have kinds := comparison.code.toNat_lt
    have extras := extra.toNat_lt
    simp only [headerFields, isComparison, typesByte, secondByte] at first second whole
    apply decodeFields_comparison isComparison
    · omega
    · omega
    · omega
    · omega
  | leave address opcode isBranch =>
    simp only [headerFields, isBranch, if_true, leaveMark] at whole
    apply decodeFields_leave isBranch
    omega
  | branch address opcode jump isBranch low high =>
    simp only [headerFields, isBranch, Bool.false_eq_true, if_false] at whole fields
    refine decodeFields_branch isBranch ?_ ?_ low high
    · omega
    · omega
  | exchange address opcode type2 owner isPop =>
    have half := lowHalf_lt owner.code
    simp only [headerFields, isPop, typesByte] at first second whole
    apply decodeFields_exchange isPop
    · omega
    · omega
    · omega
  | pop address opcode type1 type2 owner id access isPop stores small =>
    have half := lowHalf_lt owner.code
    simp only [headerFields, isPop, typesByte] at first second whole
    simp only [payload, isPop, if_neg stores]
    refine decodeFields_pop isPop stores ?_ ?_ ?_ (referenceWord_lt id access)
      (varReference_word access small)
    · omega
    · omega
    · omega
  | push address opcode type1 owner immediate reference isPush operand =>
    have low := pushLow_lt { address, opcode, type1, owner, immediate, reference }
    simp only [headerFields, isPush] at first whole
    simp only [payload, isPush, decodeFields]
    apply decodePush_eq operand rfl
    · omega
    · omega
  | call address opcode type1 type2 count id isCall small =>
    have half := lowHalf_lt count
    obtain rfl : type2 = .int32 := oneType isCall
    simp only [headerFields, isCall, typesByte, shortLow] at first second whole
    simp only [payload, isCall, referenceWord]
    apply decodeFields_call isCall small
    · omega
    · omega
  | extended address opcode type1 type2 code isExtended =>
    have half := lowHalf_lt code
    simp only [headerFields, isExtended, typesByte, shortLow] at first second whole
    apply decodeFields_extended isExtended
    · omega
    · omega
    · omega

private theorem bind_eq_ok {α β : Type} {action : Except CodecError α}
    {next : α → Except CodecError β} {result : β} :
    action.bind next = .ok result ↔ ∃ value, action = .ok value ∧
    next value = .ok result := by
  cases action with
  | error cause => simp [Except.bind]
  | ok value => simp [Except.bind]

/-- An instruction read at the address from a header and the bytes behind it. -/
structure Read (address : Nat) (rest : List UInt8) (ins : Instruction) : Prop where
  canonical : ins.Canonical
  oneType : ins.CallsWithOneType
  isThere : ins.address = address
  enough : ins.length ≤ 4 + rest.length

theorem varReference_eq_ok {reference : Reference}
    (named : varReference address number = .ok reference) :
    ∃ id access, id < 2 ^ 24 ∧ reference = .var id access := by
  simp only [varReference] at named
  split at named
  case h_1 access known =>
    cases named
    exact ⟨_, access, Nat.mod_lt _ (by decide), rfl⟩
  case h_2 => cases named

theorem signedJump_bounds {field : Nat} (small : field < 0x800000) :
    -2 ^ 22 ≤ signedJump field ∧ signedJump field < 2 ^ 22 := by
  unfold signedJump
  split <;> omega

theorem Read.push {owner : Instance} {immediate : Option Immediate}
    {reference : Option Reference} (isPush : opcode.opcodeClass = .push)
    (operand : Operand type1 owner immediate reference)
    (enough : Instruction.length { opcode := .push, type1 } ≤ 4 + rest.length) :
    Read address rest { address, opcode, type1, owner, immediate, reference } where
  canonical := .push _ _ _ _ _ _ isPush operand
  oneType := fun _ => rfl
  isThere := rfl
  enough := by
    simp only [Instruction.length, isPush]
    exact enough

theorem decodePush_read {ins : Instruction} (isPush : opcode.opcodeClass = .push)
    (decoded : decodePush opcode address number rest = .ok ins) :
    Read address rest ins := by
  obtain ⟨type1, -, decoded⟩ := bind_eq_ok.mp decoded
  cases type1 with
  | int16 =>
    cases decoded
    exact .push isPush (.int16 _) (Nat.le_add_right 4 _)
  | variant =>
    obtain ⟨payload, taken, decoded⟩ := bind_eq_ok.mp decoded
    obtain ⟨reference, named, decoded⟩ := bind_eq_ok.mp decoded
    obtain ⟨id, access, small, rfl⟩ := varReference_eq_ok named
    cases decoded
    exact .push isPush (.variant _ id access small)
      (Nat.add_le_add_left (take_eq_ok taken).1 4)
  | int32 =>
    obtain ⟨payload, taken, decoded⟩ := bind_eq_ok.mp decoded
    have enough := Nat.add_le_add_left (take_eq_ok taken).1 4
    split at decoded
    case isTrue marked =>
      cases decoded
      exact .push isPush (.function payload (take_eq_ok taken).2) enough
    case isFalse =>
      cases decoded
      exact .push isPush (.int32 _) enough
  | string =>
    obtain ⟨payload, taken, decoded⟩ := bind_eq_ok.mp decoded
    cases decoded
    exact .push isPush (.string payload (take_eq_ok taken).2)
      (Nat.add_le_add_left (take_eq_ok taken).1 4)
  | int64 =>
    obtain ⟨payload, taken, decoded⟩ := bind_eq_ok.mp decoded
    cases decoded
    exact .push isPush (.int64 _) (Nat.add_le_add_left (take_eq_ok taken).1 4)
  | double =>
    obtain ⟨payload, taken, decoded⟩ := bind_eq_ok.mp decoded
    cases decoded
    exact .push isPush (.double _) (Nat.add_le_add_left (take_eq_ok taken).1 4)
  | float =>
    obtain ⟨payload, taken, decoded⟩ := bind_eq_ok.mp decoded
    cases decoded
    exact .push isPush (.float _) (Nat.add_le_add_left (take_eq_ok taken).1 4)
  | boolean =>
    obtain ⟨payload, taken, decoded⟩ := bind_eq_ok.mp decoded
    cases decoded
    exact .push isPush (.boolean _) (Nat.add_le_add_left (take_eq_ok taken).1 4)

theorem decodeFields_read {ins : Instruction}
    (decoded : decodeFields opcode address number rest = .ok ins) :
    Read address rest ins := by
  unfold decodeFields at decoded
  cases kind : opcode.opcodeClass with
  | singleType =>
    simp only [kind] at decoded
    obtain ⟨type1, -, decoded⟩ := bind_eq_ok.mp decoded
    obtain ⟨type2, -, decoded⟩ := bind_eq_ok.mp decoded
    cases decoded
    refine ⟨.types _ _ _ _ _ _ (.inl kind), ?_, rfl, ?_⟩
    · simp [Instruction.CallsWithOneType, kind]
    · simp [Instruction.length, kind]
  | doubleType =>
    simp only [kind] at decoded
    obtain ⟨type1, -, decoded⟩ := bind_eq_ok.mp decoded
    obtain ⟨type2, -, decoded⟩ := bind_eq_ok.mp decoded
    cases decoded
    refine ⟨.types _ _ _ _ _ _ (.inr kind), ?_, rfl, ?_⟩
    · simp [Instruction.CallsWithOneType, kind]
    · simp [Instruction.length, kind]
  | comparison =>
    simp only [kind] at decoded
    obtain ⟨type1, -, decoded⟩ := bind_eq_ok.mp decoded
    obtain ⟨type2, -, decoded⟩ := bind_eq_ok.mp decoded
    split at decoded
    case h_1 comparison known =>
      cases decoded
      refine ⟨.comparison _ _ _ _ comparison _ kind, ?_, rfl, ?_⟩
      · simp [Instruction.CallsWithOneType, kind]
      · simp [Instruction.length, kind]
    case h_2 => cases decoded
  | branch =>
    simp only [kind] at decoded
    split at decoded
    case isTrue =>
      cases decoded
      exact ⟨.leave _ _ kind, fun _ => rfl, rfl, by simp [Instruction.length, kind]⟩
    case isFalse =>
      obtain ⟨low, high⟩ :=
        @signedJump_bounds (number % 0x800000) (Nat.mod_lt _ (by decide))
      cases decoded
      exact ⟨.branch _ _ _ kind low high, fun _ =>
        rfl, rfl, by simp [Instruction.length, kind]⟩
  | pop =>
    simp only [kind] at decoded
    obtain ⟨type1, -, decoded⟩ := bind_eq_ok.mp decoded
    obtain ⟨type2, -, decoded⟩ := bind_eq_ok.mp decoded
    split at decoded
    case isTrue isExchange =>
      cases decoded
      subst isExchange
      refine ⟨.exchange _ _ _ _ kind, ?_, rfl, ?_⟩
      · simp [Instruction.CallsWithOneType, kind]
      · simp [Instruction.length, kind]
    case isFalse stores =>
      obtain ⟨payload, taken, decoded⟩ := bind_eq_ok.mp decoded
      obtain ⟨reference, named, decoded⟩ := bind_eq_ok.mp decoded
      obtain ⟨id, access, small, rfl⟩ := varReference_eq_ok named
      have enough := (take_eq_ok taken).1
      cases decoded
      refine ⟨.pop _ _ _ _ _ id access kind stores small, ?_, rfl, ?_⟩
      · simp [Instruction.CallsWithOneType, kind]
      · simp only [Instruction.length, kind, if_neg stores]
        omega
  | push =>
    simp only [kind] at decoded
    exact decodePush_read kind decoded
  | call =>
    simp only [kind] at decoded
    obtain ⟨type1, -, decoded⟩ := bind_eq_ok.mp decoded
    obtain ⟨payload, taken, decoded⟩ := bind_eq_ok.mp decoded
    obtain ⟨enough, fits⟩ := take_eq_ok taken
    cases decoded
    refine ⟨.call _ _ _ _ _ payload kind fits, fun _ => rfl, rfl, ?_⟩
    simp only [Instruction.length, kind]
    omega
  | extended =>
    simp only [kind] at decoded
    obtain ⟨type1, -, decoded⟩ := bind_eq_ok.mp decoded
    obtain ⟨type2, -, decoded⟩ := bind_eq_ok.mp decoded
    cases decoded
    refine ⟨.extended _ _ _ _ _ kind, ?_, rfl, ?_⟩
    · simp [Instruction.CallsWithOneType, kind]
    · simp [Instruction.length, kind]

/-- An instruction that is read fits in the bytes it is read from. -/
theorem decodeInstruction_read {ins : Instruction} {bytes : List UInt8}
    (decoded : decodeInstruction address bytes = .ok ins) :
    Read address (bytes.drop 4) ins ∧ ins.length ≤ bytes.length := by
  obtain ⟨number, taken, decoded⟩ := bind_eq_ok.mp decoded
  have enough := (take_eq_ok taken).1
  simp only at decoded
  split at decoded
  case h_1 opcode known =>
    have read := decodeFields_read decoded
    have short := read.enough
    rw [List.length_drop] at short
    exact ⟨read, by omega⟩
  case h_2 => cases decoded

@[simp]
theorem length_word (n : Nat) : (word n).length = 4 := length_bytesOf 4 n

@[simp]
theorem length_longWord (n : Nat) : (longWord n).length = 8 := length_bytesOf 8 n

theorem length_encodeInstruction (ins : Instruction) :
    (encodeInstruction ins).length = ins.length := by
  rw [encodeInstruction, List.length_append, length_word]
  cases kind : ins.opcode.opcodeClass with
  | pop =>
    simp only [payload, Instruction.length, kind]
    split
    · rfl
    · rw [length_word]
  | push =>
    simp only [payload, pushPayload, Instruction.length, kind]
    cases type : ins.type1 with
    | int32 | double | float | string =>
      simp only
      split <;> simp
    | _ => simp
  | _ => simp [payload, Instruction.length, kind]

theorem length_encode (code : List Instruction) :
    (encode code).length = codeLength code := by
  induction code with
  | nil => rfl
  | cons ins rest induction =>
    rw [encode, List.flatMap_cons, List.length_append, length_encodeInstruction]
    exact congrArg (ins.length + ·) induction

theorem four_dvd_codeLength (code : List Instruction) : 4 ∣ codeLength code := by
  induction code with
  | nil => exact Nat.dvd_zero 4
  | cons ins rest induction => exact Nat.dvd_add ins.four_dvd_length induction

theorem decodeFrom_encode {code : List Instruction} (address : Nat)
    (canonical : ∀ ins ∈ code, ins.Canonical)
    (oneType : ∀ ins ∈ code, ins.CallsWithOneType)
    (addressed : assignAddressesFrom address code = code) :
    decodeFrom address (encode code) = .ok code := by
  induction code generalizing address with
  | nil => simp [encode, decodeFrom]
  | cons ins rest induction =>
    rw [assignAddressesFrom, List.cons.injEq] at addressed
    obtain ⟨there, behind⟩ := addressed
    have isThere : ins.address = address := by rw [← there]
    have read :=
      @decodeInstruction_encode (encode rest) ins (canonical ins List.mem_cons_self)
      (oneType ins List.mem_cons_self)
    have follow := induction (address + ins.length)
      (fun other member => canonical other (List.mem_cons_of_mem _ member))
      (fun other member => oneType other (List.mem_cons_of_mem _ member)) behind
    have split : encode (ins :: rest) = encodeInstruction ins ++ encode rest := rfl
    have nonempty : encodeInstruction ins ++ encode rest ≠ [] := by
      simp [encodeInstruction, word, bytesOf]
    have remains : (encodeInstruction ins ++ encode rest).drop ins.length = encode rest :=
      List.drop_left' (length_encodeInstruction ins)
    rw [split, decodeFrom, if_neg nonempty]
    rw [isThere] at read
    simp only [read, remains, follow]

theorem decodeFrom_read {code : List Instruction} (address : Nat) (bytes : List UInt8)
    (decoded : decodeFrom address bytes = .ok code) :
    (∀ ins ∈ code, ins.Canonical ∧ ins.CallsWithOneType) ∧
      assignAddressesFrom address code = code ∧ codeLength code = bytes.length := by
  fun_induction decodeFrom address bytes generalizing code with
  | case1 address =>
    cases decoded
    exact ⟨by simp, rfl, rfl⟩
  | case2 => cases decoded
  | case3 => cases decoded
  | case4 address bytes some ins isFirst rest isRest induction =>
    cases decoded
    obtain ⟨read, enough⟩ := decodeInstruction_read isFirst
    obtain ⟨canonical, addressed, length⟩ := induction isRest
    refine ⟨?_, ?_, ?_⟩
    · rw [List.forall_mem_cons]
      exact ⟨⟨read.canonical, read.oneType⟩, canonical⟩
    · rw [assignAddressesFrom, addressed, ← read.isThere]
    · change ins.length + codeLength rest = _
      rw [length, List.length_drop]
      omega

theorem decode_encode {code : List Instruction}
    (canonical : ∀ ins ∈ code, ins.Canonical ∧ ins.CallsWithOneType)
    (addressed : assignAddresses code = code) : decode (encode code) = .ok code := by
  have aligned : (encode code).length % 4 = 0 := by
    rw [length_encode]
    exact Nat.mod_eq_zero_of_dvd (four_dvd_codeLength code)
  rw [decode, if_pos aligned]
  exact decodeFrom_encode 0 (fun ins member => (canonical ins member).1)
    (fun ins member => (canonical ins member).2) addressed

theorem decode_read {bytes : List UInt8} {code : List Instruction}
    (decoded : decode bytes = .ok code) :
    (∀ ins ∈ code, ins.Canonical ∧ ins.CallsWithOneType) ∧ assignAddresses code = code ∧
      codeLength code = bytes.length := by
  unfold decode at decoded
  split at decoded
  case isTrue => exact decodeFrom_read 0 bytes decoded
  case isFalse => cases decoded

/-- Canonical code is read back as it was written, and whatever can be read is canonical
code. -/
theorem codec_round_trip :
    (∀ code : List Instruction,
      (∀ ins ∈ code, ins.Canonical ∧ ins.CallsWithOneType) → assignAddresses code = code →
        decode (encode code) = .ok code ∧ (encode code).length = codeLength code) ∧
    ∀ (bytes : List UInt8) (code : List Instruction), decode bytes = .ok code →
      (∀ ins ∈ code, ins.Canonical ∧ ins.CallsWithOneType) ∧ assignAddresses code = code ∧
        codeLength code = bytes.length ∧ decode (encode code) = .ok code := by
  constructor
  · intro code canonical addressed
    exact ⟨decode_encode canonical addressed, length_encode code⟩
  · intro bytes code decoded
    obtain ⟨canonical, addressed, length⟩ := decode_read decoded
    exact ⟨canonical, addressed, length, decode_encode canonical addressed⟩

/-- `x.y >= 1` as a test, then a call: one instruction of each way to be encoded. -/
def guardedCall : List Instruction :=
  [{ opcode := .push, type1 := .variant, owner := .self,
     reference := some (.var 7 .stackTop) },
    { address := 8, opcode := .pushImmediate, type1 := .int16,
      immediate := some (.int16 1) },
    { address := 12, opcode := .compare, type1 := .int16, type2 := .variant
      comparison := some .greaterEqual },
    { address := 16, opcode := .branchFalse, jump := 4 },
    { address := 20, opcode := .call, immediate := some (.int16 0),
      reference := some (.function 3) },
    { address := 28, opcode := .discard, type1 := .variant }]

theorem guardedCall_canonical : ∀ ins ∈ guardedCall, ins.Canonical ∧
      ins.CallsWithOneType := by
  simp only [guardedCall, List.forall_mem_cons]
  exact ⟨⟨.push _ _ _ _ _ _ rfl (.variant _ 7 .stackTop (by decide)), fun _ => rfl⟩,
    ⟨.push _ _ _ _ _ _ rfl (.int16 1), fun _ => rfl⟩,
    ⟨.comparison _ _ _ _ _ _ rfl, nofun⟩,
    ⟨.branch _ _ 4 rfl (by decide) (by decide), fun _ => rfl⟩,
    ⟨.call _ _ _ _ 0 3 rfl (by decide), fun _ => rfl⟩,
    ⟨.types _ _ _ _ _ _ (.inl rfl), fun _ => rfl⟩, List.forall_mem_nil _⟩

theorem guardedCall_round_trip :
    decode (encode guardedCall) = .ok guardedCall ∧ (encode guardedCall).length = 32 ∧
      assignAddresses guardedCall = guardedCall := by
  obtain ⟨back, length⟩ := codec_round_trip.1 guardedCall guardedCall_canonical rfl
  obtain ⟨-, addressed, -⟩ := codec_round_trip.2 _ _ back
  exact ⟨back, length, addressed⟩

def variantCall : Instruction :=
  { opcode := .call, type2 := .variant, immediate := some (.int16 1)
    reference := some (.function 3) }

theorem variantCall_not_restored :
    variantCall.Canonical ∧ assignAddresses [variantCall] = [variantCall] ∧
      encode [variantCall] ≠ encode [{ variantCall with type2 := .int32 }] ∧
      decode (encode [variantCall]) = .ok [{ variantCall with type2 := .int32 }] ∧
      decode (encode [variantCall]) ≠ .ok [variantCall] := by
  have first : decodeInstruction 0 (encode [variantCall]) =
      .ok { variantCall with type2 := .int32 } := rfl
  have read :
      decode (encode [variantCall]) = .ok [{ variantCall with type2 := .int32 }] := by
    rw [decode, if_pos (by decide), decodeFrom, if_neg (by decide)]
    simp only [first]
    rw [decodeFrom, if_pos (by decide)]
  refine ⟨.call _ _ _ _ 1 3 rfl (by decide), rfl, by decide, read, ?_⟩
  rw [read]
  simp [variantCall]

end Codec

end GameScript.Bytecode
