import GameScript.Emission.Code

/-! Runs of emitting actions.

`Ensures env s action post` says what an action started in `s` ends with; if it
fails, the fault is one that a program can be blamed for and not the emitter. -/

namespace GameScript.Emission

open Bytecode Syntax

/-- A fault of the program, not of the bookkeeping of types. -/
def EmitFault.IsOfProgram : EmitFault → Prop
  | .typeUnderflow | .typeImbalance _ => False
  | _ => True

/-- An action ends with a value and a state as told, or fails because of the program. -/
def Ensures (env : Environment) (s : Emitter) (action : EmitM α)
    (post : α → Emitter → Prop) :
    Prop :=
  match (action.run env).run s with
  | .ok (value, s') => post value s'
  | .error error => error.fault.IsOfProgram

def endsWith {ε α : Type} (test : α → Bool) : Except ε α → Bool
  | .ok value => test value
  | .error _ => false

theorem exists_of_endsWith {ε α : Type} {test : α → Bool} {result : Except ε α}
    (ends : endsWith test result = true) :
    ∃ value, result = .ok value ∧ test value = true := by
  cases result with
  | error _ => cases ends
  | ok value => exact ⟨value, rfl, ends⟩

section Rules

variable {env : Environment} {s : Emitter} {α β : Type}

theorem ensures_pure {value : α} {post : α → Emitter → Prop} :
    Ensures env s (pure value) post ↔ post value s := Iff.rfl

theorem ensures_bind {action : EmitM α} {next : α → EmitM β} {post : β → Emitter → Prop} :
    Ensures env s (action >>= next) post ↔
      Ensures env s action fun value s' => Ensures env s' (next value) post := by
  unfold Ensures
  have unfolded : ((action >>= next).run env).run s =
      ((action.run env).run s).bind fun result => ((next result.1).run env).run result.2 :=
    rfl
  rw [unfolded]
  cases (action.run env).run s with
  | ok result => rfl
  | error _ => rfl

theorem Ensures.mono {action : EmitM α} {post weaker : α → Emitter → Prop}
    (ensured : Ensures env s action post)
    (implies : ∀ value s', post value s' → weaker value s') :
    Ensures env s action weaker := by
  unfold Ensures at ensured ⊢
  split at ensured
  case h_1 value s' ran => simpa only [ran] using implies value s' ensured
  case h_2 error ran => simpa only [ran] using ensured

theorem Ensures.bind {action : EmitM α} {next : α → EmitM β} {middle : α → Emitter → Prop}
    {post : β → Emitter → Prop} (first : Ensures env s action middle)
    (second : ∀ value s', middle value s' → Ensures env s' (next value) post) :
    Ensures env s (action >>= next) post :=
  ensures_bind.mpr (first.mono second)

theorem ensures_get {post : Emitter → Emitter → Prop} :
    Ensures env s (get : EmitM Emitter) post ↔ post s s := Iff.rfl

theorem ensures_read {post : Environment → Emitter → Prop} :
    Ensures env s (read : EmitM Environment) post ↔ post env s := Iff.rfl

theorem ensures_modify {change : Emitter → Emitter} {post : PUnit → Emitter → Prop} :
    Ensures env s (modify change : EmitM PUnit) post ↔ post ⟨⟩ (change s) := Iff.rfl

theorem ensures_discard {action : EmitM α} {post : PUnit → Emitter → Prop} :
    Ensures env s (discard action : EmitM PUnit) post ↔
      Ensures env s action fun _ s' => post ⟨⟩ s' := by
  unfold Ensures
  have unfolded : ((discard action : EmitM PUnit).run env).run s =
      ((action.run env).run s).map fun result => (⟨⟩, result.2) := rfl
  rw [unfolded]
  cases (action.run env).run s with
  | ok result => rfl
  | error _ => rfl

theorem ensures_ite {condition : Prop} [Decidable condition] {yes no : EmitM α}
    {post : α → Emitter → Prop} (whenTrue : condition → Ensures env s yes post)
    (whenFalse : ¬ condition → Ensures env s no post) :
    Ensures env s (if condition then yes else no) post := by
  split
  case isTrue holds => exact whenTrue holds
  case isFalse fails => exact whenFalse fails

theorem ensures_unless {condition : Prop} [Decidable condition] {fault : EmitFault}
    {next : Unit → EmitM β} {post : β → Emitter → Prop} (ofProgram : fault.IsOfProgram)
    (passes : ¬ condition → Ensures env s (next ()) post) :
    Ensures env s (if condition then fail fault >>= next else next ()) post :=
  ensures_ite (fun _ => ensures_bind.mpr ofProgram) passes

theorem Ensures.of_run {action : EmitM α} {post : α → Emitter → Prop} {value : α}
    {s' : Emitter} (ensured : Ensures env s action post)
    (ran : (action.run env).run s = .ok (value, s')) :
    post value s' := by
  simpa only [Ensures, ran] using ensured

theorem Ensures.ran {action : EmitM α} {post : α → Emitter → Prop}
    (ensured : Ensures env s action post) : Ensures env s action fun value s' =>
      post value s' ∧ (action.run env).run s = .ok (value, s') := by
  unfold Ensures at ensured ⊢
  split at ensured
  case h_1 value s' ran => simpa only [ran, and_true] using ensured
  case h_2 error ran => simpa only [ran] using ensured

theorem Ensures.fault_of_run {action : EmitM α} {post : α → Emitter → Prop}
    {error : EmitError} (ensured : Ensures env s action post)
    (ran : (action.run env).run s = .error error) :
    error.fault.IsOfProgram := by
  simpa only [Ensures, ran] using ensured

end Rules

end GameScript.Emission
