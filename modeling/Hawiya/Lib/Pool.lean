import Hawiya.Lib.Interaction

/-!
# Programs interleaved over a shared state

A `Pool` holds one program for each process and the state their operations share. A step runs one
operation of one process, unless the environment makes it wait; `choice` is what the environment
decides for that operation. `Run allowed` are the runs whose steps all satisfy `allowed`.
-/

namespace Interaction

structure Environment (ι χ : Type) (Op : Type) (Reply : Op → Type) (ε σ : Type) where
  waits : ι → Op → σ → Bool
  exec : ι → χ → (op : Op) → σ → Except ε (Reply op) × σ

structure Pool (ι σ : Type) (Op : Type) (Reply : Op → Type) (ε α : Type) where
  shared : σ
  program : ι → Program Op Reply ε α

variable {ι χ σ Op ε α β : Type} {Reply : Op → Type}

namespace Pool

/-- The next operation of process `i` may run with this choice. -/
def Allows (allowed : ι → χ → Op → σ → Prop) (p : Pool ι σ Op Reply ε α) (i : ι) (choice : χ) :
    Prop :=
  match p.program i with
  | .call op _ => allowed i choice op p.shared
  | _ => True

def Unrestricted : ι → χ → Op → σ → Prop := fun _ _ _ _ => True

theorem allows_unrestricted (p : Pool ι σ Op Reply ε α) (i : ι) (choice : χ) :
    p.Allows Unrestricted i choice := by
  unfold Allows
  cases p.program i with
  | pure a => trivial
  | throw e => trivial
  | call op next => trivial

variable [DecidableEq ι] (env : Environment ι χ Op Reply ε σ)

def step (p : Pool ι σ Op Reply ε α) (i : ι) (choice : χ) : Option (Pool ι σ Op Reply ε α) :=
  match p.program i with
  | .call op next =>
      if env.waits i op p.shared then none
      else some {
        shared := (env.exec i choice op p.shared).2
        program := Function.update p.program i (next (env.exec i choice op p.shared).1) }
  | _ => none

def runSchedule : List (ι × χ) → Pool ι σ Op Reply ε α → Option (Pool ι σ Op Reply ε α)
  | [], p => some p
  | (i, choice) :: rest, p => (step env p i choice).bind (runSchedule rest)

/-- A schedule that stops at an operation that is not `ok`. -/
def runChecked (ok : ι → χ → Op → σ → Bool) :
    List (ι × χ) → Pool ι σ Op Reply ε α → Option (Pool ι σ Op Reply ε α)
  | [], p => some p
  | (i, choice) :: rest, p =>
      match p.program i with
      | .call op _ =>
          if ok i choice op p.shared then (step env p i choice).bind (runChecked ok rest) else none
      | _ => none

inductive Run (allowed : ι → χ → Op → σ → Prop) (p : Pool ι σ Op Reply ε α) :
    Pool ι σ Op Reply ε α → Prop
  | start : Run allowed p p
  | next {q r : Pool ι σ Op Reply ε α} {i : ι} {choice : χ} (run : Run allowed p q)
      (step : q.step env i choice = some r) (ok : q.Allows allowed i choice) : Run allowed p r

variable {env}

theorem step_cases {p q : Pool ι σ Op Reply ε α} {i : ι} {choice : χ}
    (h : p.step env i choice = some q) :
    ∃ op next, p.program i = .call op next ∧ env.waits i op p.shared = false ∧
      q = { shared := (env.exec i choice op p.shared).2
            program := Function.update p.program i (next (env.exec i choice op p.shared).1) } := by
  unfold step at h
  cases hp : p.program i with
  | pure a => simp [hp] at h
  | throw e => simp [hp] at h
  | call op next =>
    rw [hp] at h
    by_cases hw : env.waits i op p.shared = true
    · simp [hw] at h
    · refine ⟨op, next, rfl, by simpa using hw, ?_⟩
      simpa [hw] using h.symm

theorem Run.trans {allowed : ι → χ → Op → σ → Prop} {p q r : Pool ι σ Op Reply ε α}
    (hpq : Run env allowed p q) (hqr : Run env allowed q r) : Run env allowed p r := by
  induction hqr with
  | start => exact hpq
  | next _ hstep hok ih => exact .next ih hstep hok

theorem run_of_runSchedule {schedule : List (ι × χ)} {p q : Pool ι σ Op Reply ε α}
    (h : runSchedule env schedule p = some q) : Run env Unrestricted p q := by
  induction schedule generalizing p with
  | nil =>
    cases h
    exact .start
  | cons head rest ih =>
    obtain ⟨r, hstep, hrest⟩ := Option.bind_eq_some_iff.mp h
    exact Run.trans (.next .start hstep (allows_unrestricted p _ _)) (ih hrest)

theorem run_of_runChecked {ok : ι → χ → Op → σ → Bool} {allowed : ι → χ → Op → σ → Prop}
    (hok : ∀ i choice op s, ok i choice op s = true → allowed i choice op s)
    {schedule : List (ι × χ)} {p q : Pool ι σ Op Reply ε α}
    (h : runChecked env ok schedule p = some q) : Run env allowed p q := by
  induction schedule generalizing p with
  | nil =>
    cases h
    exact .start
  | cons head rest ih =>
    obtain ⟨i, choice⟩ := head
    unfold runChecked at h
    cases hp : p.program i with
    | pure a => simp [hp] at h
    | throw e => simp [hp] at h
    | call op next =>
      simp only [hp] at h
      split_ifs at h with hop
      obtain ⟨r, hstep, hrest⟩ := Option.bind_eq_some_iff.mp h
      have hallows : p.Allows allowed i choice := by
        simpa only [Allows, hp] using hok i choice op p.shared hop
      exact Run.trans (.next .start hstep hallows) (ih hrest)

/-- What every operation preserves holds in every state reached. -/
theorem Run.invariant {allowed : ι → χ → Op → σ → Prop} {I : σ → Prop}
    (hI : ∀ i choice op s, env.waits i op s = false → I s → I (env.exec i choice op s).2)
    {p q : Pool ι σ Op Reply ε α} (h : Run env allowed p q) (hp : I p.shared) : I q.shared := by
  induction h with
  | start => exact hp
  | next _ hstep _ ih =>
    obtain ⟨op, next, -, hw, rfl⟩ := step_cases hstep
    exact hI _ _ _ _ hw ih

end Pool

end Interaction
