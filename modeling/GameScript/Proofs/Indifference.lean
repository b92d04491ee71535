import GameScript.Names

/-! Actions that do not tell two contexts apart. -/

namespace GameScript

def Indifferent {ρ σ ε α : Type} (context other : ρ)
    (action : ReaderT ρ (StateT σ (Except ε)) α) : Prop :=
  action.run context = action.run other

namespace Indifferent

variable {ρ σ ε α β : Type} {context other : ρ}

theorem bind {action : ReaderT ρ (StateT σ (Except ε)) α}
    {next : α → ReaderT ρ (StateT σ (Except ε)) β}
    (first : Indifferent context other action)
    (second : ∀ value, Indifferent context other (next value)) :
    Indifferent context other (action >>= next) := by
  unfold Indifferent at *
  rw [ReaderT.run_bind, ReaderT.run_bind, first]
  exact bind_congr second

theorem read {next : ρ → ReaderT ρ (StateT σ (Except ε)) β}
    (same : next other = next context)
    (second : Indifferent context other (next context)) :
    Indifferent context other (MonadReader.read >>= next) := by
  unfold Indifferent at *
  rw [ReaderT.run_bind, ReaderT.run_bind]
  change (next context).run context = (next other).run other
  rw [same, second]

theorem discard {action : ReaderT ρ (StateT σ (Except ε)) α}
    (indifferent : Indifferent context other action) :
    Indifferent context other (Functor.discard action) := by
  unfold Indifferent at *
  exact congrArg (fun run => (fun _ => ()) <$> run) indifferent

theorem ite {condition : Prop} {_ : Decidable condition}
    {yes no : ReaderT ρ (StateT σ (Except ε)) α} (whenTrue : Indifferent context other yes)
    (whenFalse : Indifferent context other no) :
    Indifferent context other (if condition then yes else no) := by
  split
  · exact whenTrue
  · exact whenFalse

theorem guarded {condition : Prop} {_ : Decidable condition}
    {check : ReaderT ρ (StateT σ (Except ε)) α} {next : ReaderT ρ (StateT σ (Except ε)) β}
    (stops : Indifferent context other check) (passes : Indifferent context other next) :
    Indifferent context other (if condition then check >>= fun _ => next else next) :=
  ite (stops.bind fun _ => passes) passes

end Indifferent

end GameScript
