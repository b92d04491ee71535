import GameScript.Bytecode.Instruction

/-! Binary form of instructions: little-endian words, a header word first. -/

namespace GameScript.Bytecode

open Number

inductive CodecError where
  | misaligned (length : Nat)
  | truncated (address : Nat)
  | unknownOpcode (address : Nat) (byte : Nat)
  | unknownDataType (address : Nat) (nibble : Nat)
  | unknownAccess (address : Nat) (byte : Nat)
  | unknownComparison (address : Nat) (byte : Nat)
deriving DecidableEq, Repr

namespace CodecError

private def hexDigit (n : Nat) : Char := "0123456789ABCDEF".toList.getD n '?'

def hexByte (byte : Nat) : String :=
  String.ofList [hexDigit (byte / 16), hexDigit (byte % 16)]

def message : CodecError → String
  | .misaligned length => s!"code length {length} is not a multiple of 4"
  | .truncated address => s!"truncated instruction at address {address}"
  | .unknownOpcode address byte => s!"unknown opcode 0x{hexByte byte} at address {address}"
  | .unknownDataType address nibble =>
    s!"unknown data type nibble {nibble} at address {address}"
  | .unknownAccess address byte =>
    s!"unknown variable type 0x{hexByte byte} at address {address}"
  | .unknownComparison address byte =>
    s!"unknown comparison kind {byte} at address {address}"

end CodecError

namespace Codec

/-- The `count` low bytes of a number, least significant first. -/
def bytesOf : Nat → Nat → List UInt8
  | 0, _ => []
  | count + 1, n => UInt8.ofNat n :: bytesOf count (n / 256)

def valueOf : List UInt8 → Nat
  | [] => 0
  | byte :: rest => byte.toNat + 256 * valueOf rest

def word (n : Nat) : List UInt8 := bytesOf 4 n

def longWord (n : Nat) : List UInt8 := bytesOf 8 n

/-- Low half of a `popenv` that leaves its loop for good. -/
def leaveMark : Nat := 0xF00000

/-- Low half of a header whose payload is a function. -/
def functionMark : Nat := 1

def lowHalf (number : Int16) : Nat := number.toUInt16.toNat

def typesByte (ins : Instruction) : Nat := ins.type1.code + 16 * ins.type2.code

def pushLow (ins : Instruction) : Nat :=
  match ins.type1, ins.immediate, ins.reference with
  | .int16, some (.int16 value), _ => lowHalf value
  | .variant, _, _ => lowHalf ins.owner.code
  | .int32, _, some (.function _) => functionMark
  | _, _, _ => 0

/-- Low half of the header of an operation that holds a short number. -/
def shortLow (ins : Instruction) : Nat :=
  match ins.immediate with
  | some (.int16 value) => lowHalf value
  | _ => 0

/-- The kind of a comparison, or how a duplication exchanges. -/
def secondByte (ins : Instruction) : UInt8 :=
  match ins.comparison with
  | some comparison => comparison.code
  | none => ins.swap

/-- Header without the operation's own byte. -/
def headerFields (ins : Instruction) : Nat :=
  match ins.opcode.opcodeClass with
  | .singleType | .doubleType | .comparison =>
    typesByte ins * 0x10000 + (secondByte ins).toNat * 0x100 + ins.extra.toNat
  | .branch =>
    if ins.leavesForGood then leaveMark else (ins.jump % 0x800000).toNat
  | .pop => typesByte ins * 0x10000 + lowHalf ins.owner.code
  | .push => ins.type1.code * 0x10000 + pushLow ins
  | .call | .extended => typesByte ins * 0x10000 + shortLow ins

def header (ins : Instruction) : Nat :=
  ins.opcode.code.toNat * 0x1000000 + headerFields ins

def referenceWord : Option Reference → Nat
  | some (.var id access) => access.code.toNat * 0x1000000 + id % 0x1000000
  | some (.function id) => id
  | none => 0

/-- The integer of an immediate of another type, zero if it has none. -/
def fallbackInt (ins : Instruction) : Int := ins.immediateInt?.getD 0

def pushPayload (ins : Instruction) : List UInt8 :=
  match ins.type1 with
  | .int16 => []
  | .variant => word (referenceWord ins.reference)
  | .int32 =>
    match ins.reference with
    | some (.function id) => word id
    | _ => word (Int32.ofInt (fallbackInt ins)).toUInt32.toNat
  | .int64 => longWord (Int64.ofInt (fallbackInt ins)).toUInt64.toNat
  | .double =>
    match ins.immediate with
    | some (.double value) => longWord value.bits.toNat
    | _ => longWord (Double.ofInt (fallbackInt ins)).bits.toNat
  | .float =>
    match ins.immediate with
    | some (.float value) => word value.bits.toNat
    | _ => word (Single.ofInt (fallbackInt ins)).bits.toNat
  | .boolean => word (if ins.immediate = some (.boolean true) then 1 else 0)
  | .string =>
    match ins.immediate with
    | some (.string id) => word id
    | _ => word 0

def payload (ins : Instruction) : List UInt8 :=
  match ins.opcode.opcodeClass with
  | .pop => if ins.type1 = .int16 then [] else word (referenceWord ins.reference)
  | .call => word (referenceWord ins.reference)
  | .push => pushPayload ins
  | _ => []

def encodeInstruction (ins : Instruction) : List UInt8 := word (header ins) ++ payload ins

def encode (code : List Instruction) : List UInt8 := code.flatMap encodeInstruction

def take (count address : Nat) (bytes : List UInt8) : Except CodecError Nat :=
  if count ≤ bytes.length then .ok (valueOf (bytes.take count))
  else .error (.truncated address)

def dataType (address nibble : Nat) : Except CodecError DataType :=
  match DataType.ofCode? nibble with
  | some type => .ok type
  | none => .error (.unknownDataType address nibble)

def varReference (address number : Nat) : Except CodecError Reference :=
  let byte := number / 0x1000000 % 256
  match Access.ofCode? (UInt8.ofNat byte) with
  | some access => .ok (.var (number % 0x1000000) access)
  | none => .error (.unknownAccess address byte)

/-- The number whose low 23 bits these are, in two's complement. -/
def signedJump (field : Nat) : Int :=
  if field < 0x400000 then field else (field : Int) - 0x800000

def halfOf (number : Nat) : Int16 := Int16.ofInt (number % 0x10000 : Nat)

def decodePush (opcode : Opcode) (address number : Nat) (rest : List UInt8) :
    Except CodecError Instruction := do
  let type1 ← dataType address (number / 0x10000 % 16)
  let base : Instruction := { address, opcode, type1 }
  match type1 with
  | .int16 => return { base with immediate := some (.int16 (halfOf number)) }
  | .variant =>
    let payload ← take 4 address rest
    let reference ← varReference address payload
    return { base with owner := ⟨halfOf number⟩, reference := some reference }
  | .int32 =>
    let payload ← take 4 address rest
    if number % 0x10000 = functionMark then
      return { base with
        reference := some (.function payload), immediate := some (.int32 0) }
    else return { base with immediate := some (.int32 (Int32.ofInt payload)) }
  | .int64 =>
    let payload ← take 8 address rest
    return { base with immediate := some (.int64 (Int64.ofInt payload)) }
  | .double =>
    let payload ← take 8 address rest
    return { base with immediate := some (.double ⟨UInt64.ofNat payload⟩) }
  | .float =>
    let payload ← take 4 address rest
    return { base with immediate := some (.float ⟨UInt32.ofNat payload⟩) }
  | .boolean =>
    let payload ← take 4 address rest
    return { base with immediate := some (.boolean (payload != 0)) }
  | .string =>
    let payload ← take 4 address rest
    return { base with immediate := some (.string payload) }

def decodeFields (opcode : Opcode) (address number : Nat) (rest : List UInt8) :
    Except CodecError Instruction := do
  let nibble1 := number / 0x10000 % 16
  let nibble2 := number / 0x100000 % 16
  match opcode.opcodeClass with
  | .singleType | .doubleType =>
    let type1 ← dataType address nibble1
    let type2 ← dataType address nibble2
    return {
      address, opcode, type1, type2
      swap := UInt8.ofNat (number / 0x100)
      extra := UInt8.ofNat number }
  | .comparison =>
    let type1 ← dataType address nibble1
    let type2 ← dataType address nibble2
    let kind := number / 0x100 % 256
    match Comparison.ofCode? (UInt8.ofNat kind) with
    | some comparison =>
      return {
        address, opcode, type1, type2
        comparison := some comparison
        extra := UInt8.ofNat number }
    | none => .error (.unknownComparison address kind)
  | .branch =>
    if 0x800000 ≤ number % 0x1000000 then return { address, opcode, leavesForGood := true }
    else return { address, opcode, jump := signedJump (number % 0x800000) }
  | .pop =>
    let type1 ← dataType address nibble1
    let type2 ← dataType address nibble2
    let base : Instruction := { address, opcode, type1, type2, owner := ⟨halfOf number⟩ }
    if type1 = .int16 then return base
    else
      let payload ← take 4 address rest
      let reference ← varReference address payload
      return { base with reference := some reference }
  | .push => decodePush opcode address number rest
  | .call =>
    let type1 ← dataType address nibble1
    let payload ← take 4 address rest
    return {
      address, opcode, type1
      immediate := some (.int16 (halfOf number))
      reference := some (.function payload) }
  | .extended =>
    let type1 ← dataType address nibble1
    let type2 ← dataType address nibble2
    return { address, opcode, type1, type2, immediate := some (.int16 (halfOf number)) }

def decodeInstruction (address : Nat) (bytes : List UInt8) :
    Except CodecError Instruction := do
  let number ← take 4 address bytes
  let byte := number / 0x1000000 % 256
  match Opcode.ofCode? (UInt8.ofNat byte) with
  | some opcode => decodeFields opcode address number (bytes.drop 4)
  | none => .error (.unknownOpcode address byte)

def decodeFrom (address : Nat) (bytes : List UInt8) :
    Except CodecError (List Instruction) :=
  if bytes = [] then .ok []
  else
    match decodeInstruction address bytes with
    | .error cause => .error cause
    | .ok ins =>
      match decodeFrom (address + ins.length) (bytes.drop ins.length) with
      | .error cause => .error cause
      | .ok rest => .ok (ins :: rest)
termination_by bytes.length
decreasing_by
  have hpositive := ins.four_le_length
  have hnonempty : 0 < bytes.length := List.length_pos_iff.mpr (by assumption)
  simp only [List.length_drop]
  omega

def decode (bytes : List UInt8) : Except CodecError (List Instruction) :=
  if bytes.length % 4 = 0 then decodeFrom 0 bytes else .error (.misaligned bytes.length)

end Codec

end GameScript.Bytecode
