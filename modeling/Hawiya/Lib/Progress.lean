import Hawiya.Lib.Pool
import Mathlib.Data.DFinsupp.WellFounded

/-!
# Pools that come to an end

Every step of a pool descends into one of its programs, so finitely many programs take finitely many
steps. If no state is reached in which all who are left wait, then a run that goes on as long as it
can ends with all programs ended.

That somebody can go on is shown with levels: if whoever waits does so for somebody of a higher
level, and there is a bound on the level of those who wait, then somebody does not wait.
-/

namespace Interaction
variable {ι χ σ Op ε α : Type} {Reply : Op → Type}

theorem exists_not_waiting {Left Waits : ι → Prop} {level : ι → ℕ} {bound : ℕ}
    (hbound : ∀ i, Left i → Waits i → level i ≤ bound)
    (hnext : ∀ i, Left i → Waits i → ∃ j, Left j ∧ level i < level j) {i : ι} (hi : Left i) :
    ∃ j, Left j ∧ ¬ Waits j := by
  -- Each holder on the way is nearer to the bound.
  induction hn : bound + 1 - level i using Nat.strong_induction_on generalizing i with
  | _ n ih =>
    by_cases hwaits : Waits i
    · obtain ⟨j, hj, hlt⟩ := hnext i hi hwaits
      have hle := hbound i hi hwaits
      exact ih (bound + 1 - level j) (by omega) hj rfl
    · exact ⟨i, hi, hwaits⟩

namespace Program

/-- What is left of a program after its next call. -/
def Next (q p : Program Op Reply ε α) : Prop := ∃ op next r, p = .call op next ∧ q = next r

theorem next_wellFounded : WellFounded (Next : Program Op Reply ε α → _ → Prop) := by
  constructor
  intro p
  induction p with
  | pure a => exact ⟨_, fun q ⟨op, next, r, hp, _⟩ => by cases hp⟩
  | throw e => exact ⟨_, fun q ⟨op, next, r, hp, _⟩ => by cases hp⟩
  | call op next ih =>
    constructor
    rintro q ⟨op', next', r, hp, rfl⟩
    cases hp
    exact ih r

theorem exists_call_of_not_ended {p : Program Op Reply ε α} (h : p.ended ≠ true) :
    ∃ op next, p = .call op next := by
  cases p with
  | pure a => exact absurd rfl h
  | throw e => exact absurd rfl h
  | call op next => exact ⟨op, next, rfl⟩

end Program

namespace Pool

def Ended (p : Pool ι σ Op Reply ε α) : Prop := ∀ i, (p.program i).ended = true

variable [DecidableEq ι] (env : Environment ι χ Op Reply ε σ)

def Steps (q p : Pool ι σ Op Reply ε α) : Prop := ∃ i choice, p.step env i choice = some q

/-- The process can take its next step, whatever the environment decides. -/
def CanStep (p : Pool ι σ Op Reply ε α) (i : ι) : Prop :=
  ∀ choice, ∃ q, p.step env i choice = some q

variable {env} {p q : Pool ι σ Op Reply ε α} {i : ι}

theorem canStep_of_call {op : Op} {next : Except ε (Reply op) → Program Op Reply ε α}
    (hp : p.program i = .call op next) (hw : env.waits i op p.shared ≠ true) :
    p.CanStep env i := by
  intro choice
  unfold step
  rw [hp]
  simp only [if_neg hw]
  exact ⟨_, rfl⟩

theorem steps_wellFounded [Finite ι] :
    WellFounded (Steps env : Pool ι σ Op Reply ε α → _ → Prop) := by
  -- One program descends and the others stay, whichever order the processes are looked at in.
  have hlex : WellFounded (InvImage
      (Pi.Lex (WellOrderingRel : ι → ι → Prop)
        (fun {_} => (Program.Next : Program Op Reply ε α → _ → Prop)))
      (Pool.program : Pool ι σ Op Reply ε α → _)) :=
    InvImage.wf _ (Pi.Lex.wellFounded _ (fun _ => Program.next_wellFounded))
  refine Subrelation.wf (fun {q p} hstep => ?_) hlex
  obtain ⟨i, choice, hstep⟩ := hstep
  obtain ⟨op, next, hp, -, rfl⟩ := step_cases hstep
  refine ⟨i, fun j hji => ?_, ?_⟩
  · have hne : j ≠ i := by
      rintro rfl
      exact irrefl_of WellOrderingRel j hji
    exact Function.update_of_ne hne _ _
  · exact ⟨op, next, _, hp, Function.update_self _ _ _⟩

/-- No run goes on forever. -/
theorem run_stops [Finite ι] (f : ℕ → Pool ι σ Op Reply ε α) :
    ∃ n, ¬ (f (n + 1)).Steps env (f n) := by
  have : IsWellFounded (Pool ι σ Op Reply ε α) (Steps env) := ⟨steps_wellFounded⟩
  exact WellFounded.not_rel_apply_succ f

/-- A run that is never stuck can be continued until everyone has ended. -/
theorem Run.completes [Finite ι] [Inhabited χ]
    (hgo : ∀ q, Run env Unrestricted p q → q.Ended ∨ ∃ i, q.CanStep env i)
    (hrun : Run env Unrestricted p q) : ∃ r, Run env Unrestricted q r ∧ r.Ended := by
  have hwf : WellFounded (Steps env : Pool ι σ Op Reply ε α → _ → Prop) := steps_wellFounded
  induction q using hwf.induction with
  | _ q ih =>
    rcases hgo q hrun with hended | ⟨i, hstep⟩
    · exact ⟨q, .start, hended⟩
    · obtain ⟨q', hq'⟩ := hstep default
      have hnext : Run env Unrestricted q q' := .next .start hq' (allows_unrestricted q i _)
      obtain ⟨r, hr, hended⟩ := ih q' ⟨i, default, hq'⟩ (hrun.trans hnext)
      exact ⟨r, hnext.trans hr, hended⟩

end Pool
end Interaction
