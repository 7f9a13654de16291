import Mathlib.Tactic.Common

/-! While loops over a state. A loop ends with its guard false and every invariant kept; a
measure that each round lowers makes it end, after a bounded number of rounds. -/
namespace AfroPay.Loops

variable {S : Type*} {guard : S → Prop} {body : S → S} {s t : S}

/-- The loop goes round while its guard holds, and ends. -/
inductive Ends (guard : S → Prop) (body : S → S) : S → S → Prop where
  | stop (s : S) (done : ¬ guard s) : Ends guard body s s
  | round (s t : S) (goes : guard s) (rest : Ends guard body (body s) t) : Ends guard body s t

/-- What every round keeps holds at the end. -/
theorem Ends.invariant (keeps : S → Prop) (ends : Ends guard body s t)
    (kept : ∀ s, keeps s → guard s → keeps (body s)) (initial : keeps s) : keeps t ∧ ¬ guard t := by
  induction ends with
  | stop s done => exact ⟨initial, done⟩
  | round s t goes _ ih => exact ih (kept s initial goes)

section Bounded
variable [DecidablePred guard]

/-- At most so many rounds. -/
def runFor (guard : S → Prop) [DecidablePred guard] (body : S → S) : Nat → S → S
  | 0, s => s
  | rounds + 1, s => if guard s then runFor guard body rounds (body s) else s

/-- Enough rounds are as good as the loop. -/
theorem runFor_ends (keeps : S → Prop) (measure : S → Nat) (kept : ∀ s, keeps s → guard s → keeps (body s))
    (lowers : ∀ s, keeps s → guard s → measure (body s) < measure s) {rounds : Nat} {s : S} (initial : keeps s)
    (enough : measure s ≤ rounds) : Ends guard body s (runFor guard body rounds s) := by
  induction rounds generalizing s with
  | zero =>
    refine .stop s fun goes => ?_
    have lower := lowers s initial goes
    omega
  | succ rounds ih =>
    rw [runFor]
    split
    · rename_i goes
      have lower := lowers s initial goes
      exact .round s _ goes (ih (kept s initial goes) (by omega))
    · rename_i done
      exact .stop s done

end Bounded

end AfroPay.Loops
