/-! Search by halving. -/

namespace GameScript

/-- Among the `size` places from `base` on, of which those that pass come before
the others, the last one that passes. -/
def bisect (passes : Nat → Bool) (base size : Nat) : Nat :=
  if size ≤ 1 then base
  else
    let half := size / 2
    let middle := base + half
    bisect passes (if passes middle then middle else base) (size - half)
termination_by size

/-- Halving keeps the last place that passes in the range. -/
theorem bisect_eq {passes : Nat → Bool} {index : Nat} (base size : Nat)
    (low : base ≤ index) (high : index < base + size)
    (before : ∀ place, base < place → place ≤ index → passes place = true)
    (after : ∀ place, index < place → place < base + size → passes place = false) :
    bisect passes base size = index := by
  induction base, size using bisect.induct passes with
  | case1 base size small =>
    rw [bisect, if_pos small]
    omega
  | case2 base size large half middle induction =>
    rw [bisect, if_neg large]
    change bisect passes (if passes middle then middle else base) (size - half) = index
    cases passed : passes middle with
    | true =>
      have reached : middle ≤ index := Nat.le_of_not_lt fun beyond => by
        rw [after middle beyond (by omega)] at passed
        cases passed
      simp only [passed, ↓reduceIte, ↓reduceDIte] at induction ⊢
      exact induction reached (by omega) (fun place _ => before place (by omega))
        (fun place beyond _ => after place beyond (by omega))
    | false =>
      have missed : index < middle := Nat.lt_of_not_le fun reached => by
        rw [before middle (by omega) reached] at passed
        cases passed
      simp only [passed, Bool.false_eq_true, ↓reduceIte, ↓reduceDIte] at induction ⊢
      exact induction low (by omega) before
        (fun place beyond _ => after place beyond (by omega))

end GameScript
