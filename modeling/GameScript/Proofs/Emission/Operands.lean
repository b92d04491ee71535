import GameScript.Proofs.Emission.Cells

/-! Types, conversions, operators, literals and variables: what each action adds
to the code and does to the stack of types. -/

namespace GameScript.Emission

open Builtin Bytecode Number Syntax

variable {env : Environment} {s : Emitter} {type second : DataType} {rest : List DataType}

theorem Adds.retyped {s t : Emitter} {piece : Piece} {types : List DataType}
    (adds : Adds s t piece types) (others : List DataType) :
    Adds s { t with types := others } piece others :=
  { growth := fun aims => (adds.growth aims).of_same rfl rfl rfl rfl rfl rfl rfl rfl
    closed := adds.closed
    types := rfl
    loops := adds.loops
    frames := adds.frames }

theorem adds_retyped (s : Emitter) (types : List DataType) :
    Adds s { s with types } [] types :=
  (Adds.refl s).retyped types

theorem Adds.of_same {s t t' : Emitter} {piece : Piece} {types : List DataType}
    (adds : Adds s t piece types) (code : t'.code = t.code) (length : t'.length = t.length)
    (symbols : t'.symbols = t.symbols) (children : t'.children = t.children)
    (sameTypes : t'.types = t.types) (loops : t'.loops = t.loops)
    (frames : t'.frames = t.frames) :
    Adds s t' piece types :=
  { growth := fun aims =>
      (adds.growth aims).of_same rfl rfl rfl rfl code length symbols children
    closed := adds.closed
    types := sameTypes.trans adds.types
    loops := loops.trans adds.loops
    frames := frames.trans adds.frames }

theorem goTo_adds (pos : Position) :
    Ensures env s (goTo pos) fun _ t => Adds s t [] s.types :=
  (Adds.refl s).of_same rfl rfl rfl rfl rfl rfl rfl

theorem pushType_adds (type : DataType) :
    Ensures env s (pushType type) fun _ t => Adds s t [] (type :: s.types) :=
  adds_retyped s (type :: s.types)

theorem ensures_popType {post : DataType → Emitter → Prop} (top : s.types = type :: rest) :
    Ensures env s popType post ↔ post type { s with types := rest } := by
  unfold popType
  rw [ensures_bind, ensures_get]
  simp only [top]
  exact Iff.rfl

theorem ensures_peekType {post : DataType → Emitter → Prop}
    (top : s.types = type :: rest) : Ensures env s peekType post ↔ post type s := by
  unfold peekType
  rw [ensures_bind, ensures_get]
  simp only [top]
  exact Iff.rfl

theorem popType_adds (top : s.types = type :: rest) :
    Ensures env s popType fun popped t => popped = type ∧ Adds s t [] rest :=
  (ensures_popType top).mpr ⟨rfl, adds_retyped s rest⟩

def conversion (type wanted : DataType) : Piece :=
  if type = wanted then [] else [Cell.op .convert type wanted]

theorem convertTo_adds (wanted : DataType) (top : s.types = type :: rest) :
    Ensures env s (convertTo wanted) fun converted t =>
      converted = decide (type ≠ wanted) ∧ Adds s t (conversion type wanted) rest := by
  unfold convertTo
  refine (popType_adds top).bind fun popped t ⟨isType, popping⟩ => ?_
  subst isType
  refine ensures_ite (fun same => ?_) (fun differs => ?_)
  · refine ensures_pure.mpr ⟨by simp [same], ?_⟩
    simpa [conversion, same] using popping
  · refine (emitOp_adds .convert popped wanted).bind fun _ u converting => ?_
    rw [popping.types] at converting
    refine ensures_pure.mpr ⟨by simp [differs], ?_⟩
    simpa [conversion, differs] using popping.append converting

theorem convert_adds (wanted : DataType) (top : s.types = type :: rest) :
    Ensures env s (discard (convertTo wanted)) fun _ t =>
      Adds s t (conversion type wanted) rest :=
  ensures_discard.mpr ((convertTo_adds wanted top).mono fun _ _ converted => converted.2)

def instanceConversion (target : Target) (type : DataType) : Piece :=
  if target.hasFunctions && type == .variant then
    [Cell.pushImmediate Instance.stackTop.code]
  else conversion type .int32

theorem convertToInstance_adds (top : s.types = type :: rest) :
    Ensures env s convertToInstance fun _ t =>
      Adds s t (instanceConversion env.target type) rest := by
  unfold convertToInstance
  refine ensures_bind.mpr (ensures_read.mpr ?_)
  refine ensures_bind.mpr ((ensures_peekType top).mpr ?_)
  refine ensures_ite (fun isVariant => ?_) (fun isOther => ?_)
  · rw [ensures_bind, ensures_discard]
    refine (popType_adds top).mono fun _ t ⟨_, popping⟩ => ?_
    refine (emitPushImmediate_adds _).mono fun _ u pushing => ?_
    rw [popping.types] at pushing
    rw [instanceConversion, if_pos isVariant]
    exact popping.append pushing
  · rw [instanceConversion, if_neg isOther]
    exact convert_adds .int32 top

theorem emitDiscard_adds (top : s.types = type :: rest) :
    Ensures env s emitDiscard fun _ t => Adds s t [Cell.single .discard type] rest := by
  unfold emitDiscard
  refine (popType_adds top).bind fun popped t ⟨isType, popping⟩ => ?_
  subst isType
  refine (emitSingle_adds .discard popped).mono fun _ u dropping => ?_
  rw [popping.types] at dropping
  exact popping.append dropping

theorem coerceTop_adds (wanted : DataType) (top : s.types = type :: rest) :
    Ensures env s (coerceTop wanted) fun _ t =>
      Adds s t (conversion type wanted) (wanted :: rest) := by
  unfold coerceTop
  refine ensures_bind.mpr ((ensures_peekType top).mpr ?_)
  refine ensures_ite (fun differs => ?_) (fun same => ?_)
  · refine (convert_adds wanted top).bind fun _ t converting => ?_
    refine (pushType_adds wanted).mono fun _ u pushing => ?_
    rw [converting.types] at pushing
    simpa using converting.append pushing
  · have same : type = wanted := Decidable.not_not.mp same
    subst same
    refine ensures_pure.mpr ?_
    rw [conversion, if_pos rfl, ← top]
    exact Adds.refl s

theorem convertOperand_adds (op : BinaryOp) (top : s.types = type :: rest) :
    Ensures env s (convertOperand op) fun _ t =>
      Adds s t (conversion type (operandType op type)) (operandType op type :: rest) := by
  unfold convertOperand
  refine ensures_bind.mpr ((ensures_peekType top).mpr ?_)
  exact coerceTop_adds (operandType op type) top

def binaryCell (op : BinaryOp) (top second : DataType) : Cell :=
  match op.comparison? with
  | some kind => Cell.compare kind top second
  | none => Cell.op (arithmeticOpcode op) top second

def binaryType (op : BinaryOp) (top second : DataType) : DataType :=
  match op.comparison? with
  | some _ => .boolean
  | none => resultType top second

theorem applyBinary_adds (op : BinaryOp) (top : s.types = type :: second :: rest) :
    Ensures env s (applyBinary op) fun _ t =>
      Adds s t [binaryCell op type second] (binaryType op type second :: rest) := by
  unfold applyBinary binaryCell binaryType
  refine (popType_adds top).bind fun popped t ⟨isType, popping⟩ => ?_
  refine (popType_adds popping.types).bind fun below u ⟨isSecond, poppingAgain⟩ => ?_
  subst isType isSecond
  have popped := popping.append poppingAgain
  cases op.comparison? with
  | some kind =>
    refine (emitCompare_adds kind _ _).bind fun _ v comparing => ?_
    refine (pushType_adds .boolean).mono fun _ w pushing => ?_
    rw [comparing.types, poppingAgain.types] at pushing
    simpa using (popped.append comparing).append pushing
  | none =>
    refine (emitOp_adds _ _ _).bind fun _ v applying => ?_
    refine (pushType_adds _).mono fun _ w pushing => ?_
    rw [applying.types, poppingAgain.types] at pushing
    simpa using (popped.append applying).append pushing

def integerCell (value : Int) : Cell :=
  if isSignedWord 16 value then Cell.pushImmediate (Int16.ofInt value)
  else if isSignedWord 32 value then Cell.pushInt32 (Int32.ofInt value)
  else Cell.pushInt64 (Int64.ofInt value)

def integerType (value : Int) : DataType :=
  if isSignedWord 32 value then .int32 else .int64

def literalCell : Literal → Cell
  | .boolean value => Cell.pushImmediate (if value then 1 else 0)
  | .number value =>
    match integerOf? value with
    | some n => integerCell n
    | none => Cell.pushDouble value
  | .int64 value => Cell.pushInt64 value
  | .string text => Cell.pushString text

def literalType : Literal → DataType
  | .boolean _ => .boolean
  | .number value =>
    match integerOf? value with
    | some n => integerType n
    | none => .double
  | .int64 _ => .int64
  | .string _ => .string

theorem pushed_adds {action : EmitM α} {cell : Cell} (pushedType : DataType)
    (pushing : Ensures env s action fun _ t => Adds s t [cell] s.types) :
    Ensures env s (action >>= fun _ => pushType pushedType) fun _ t =>
      Adds s t [cell] (pushedType :: s.types) := by
  refine pushing.bind fun _ t pushed => ?_
  refine (pushType_adds pushedType).mono fun _ u typed => ?_
  rw [pushed.types] at typed
  simpa using pushed.append typed

theorem emitInteger_adds (value : Int) :
    Ensures env s (emitInteger value) fun _ t =>
      Adds s t [integerCell value] (integerType value :: s.types) := by
  unfold emitInteger integerCell integerType
  refine ensures_ite (fun isShort => ?_) (fun notShort => ?_)
  · have isWord : isSignedWord 32 value = true := by
      have short : wordCount (16 - 1) = 32768 := by decide
      have word : wordCount (32 - 1) = 2147483648 := by decide
      simp only [isSignedWord, Bool.and_eq_true, decide_eq_true_eq, short,
        word] at isShort ⊢
      omega
    rw [if_pos isShort, if_pos isWord]
    exact pushed_adds .int32 (emitPushImmediate_adds _)
  · rw [if_neg notShort]
    refine ensures_ite (fun isWord => ?_) (fun notWord => ?_)
    · rw [if_pos isWord, if_pos isWord]
      exact pushed_adds .int32 (ensures_discard.mpr (emitPushInt32_adds _))
    · rw [if_neg notWord, if_neg notWord]
      exact pushed_adds .int64 (emitPushInt64_adds _)

theorem emitLiteral_adds (value : Literal) :
    Ensures env s (emitLiteral value) fun _ t =>
      Adds s t [literalCell value] (literalType value :: s.types) := by
  cases value with
  | boolean value => exact pushed_adds .boolean (emitPushImmediate_adds _)
  | number value =>
    cases found : integerOf? value with
    | some n =>
      simp only [emitLiteral, literalCell, literalType, found]
      exact emitInteger_adds n
    | none =>
      simp only [emitLiteral, literalCell, literalType, found]
      exact pushed_adds .double (emitPushDouble_adds value)
  | int64 value => exact pushed_adds .int64 (emitPushInt64_adds value)
  | string text => exact pushed_adds .string (emitPushString_adds text)

theorem ensures_resolveVariable {v : Variable}
    {post : String × Instance → Emitter → Prop} :
    Ensures env s (resolveVariable v) post ↔ post (s.resolve env v) s := Iff.rfl

theorem ensures_knowsFunction {name : String} {post : Bool → Emitter → Prop} :
    Ensures env s (knowsFunction name) post ↔ post (s.knowsFunction env name) s := Iff.rfl

theorem ensures_ownsName {name : String} {post : Bool → Emitter → Prop} :
    Ensures env s (ownsName name) post ↔ post ((s.scopes.headD {}).owns name) s := Iff.rfl

def readCell (v : Variable) (resolved : String × Instance) : Cell :=
  Cell.pushVariable (pushOpcode v resolved.2) (.plain resolved.1 resolved.2)

def storeCell (type : DataType) (resolved : String × Instance) : Cell :=
  Cell.popVariable .variant type (.plain resolved.1 resolved.2)

theorem emitRead_adds (v : Variable) :
    Ensures env s (emitRead v) fun _ t =>
      Adds s t [readCell v (s.resolve env v)] s.types := by
  unfold emitRead
  refine ensures_bind.mpr (ensures_resolveVariable.mpr ?_)
  exact emitPushVariable_adds _ _

theorem emitStore_adds (v : Variable) (top : s.types = type :: rest) :
    Ensures env s (emitStore v) fun _ t =>
      Adds s t [storeCell type (s.resolve env v)] rest := by
  unfold emitStore
  refine ensures_bind.mpr ((ensures_popType top).mpr ?_)
  refine ensures_bind.mpr (ensures_resolveVariable.mpr ?_)
  refine (emitPopVariable_adds _ _ _).mono fun _ t storing => ?_
  exact (adds_retyped s rest).append storing

/-- An explicit instance stays; no other one is the marker of the stack. -/
theorem Emitter.resolve_ne_stackTop (s : Emitter) (env : Environment) {v : Variable}
    (plain : v.owner ≠ some .stackTop) : (s.resolve env v).2 ≠ .stackTop := by
  unfold Emitter.resolve
  cases owner : v.owner with
  | some other =>
    rintro rfl
    exact plain owner
  | none =>
    simp only
    repeat' split
    all_goals exact of_decide_eq_true rfl

theorem Emitter.resolve_name (s : Emitter) (env : Environment) (v : Variable)
    (top : s.params = []) : (s.resolve env v).1 = v.name := by
  unfold Emitter.params at top
  unfold Emitter.resolve
  cases v.owner with
  | some _ => rfl
  | none =>
    simp only [top, List.idxOf?_nil]
    repeat' split
    all_goals rfl

end GameScript.Emission
