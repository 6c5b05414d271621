import Mathlib.Logic.Function.Basic
import Mathlib.Tactic.Common

/-!
# Programs that call an environment

A `Program` is a computation that calls the operations of an environment and can fail. It is
syntax: `run` gives it a meaning once the operations have one, and the same program can be run
alone or next to others, one operation at a time.

`handle` continues with the outcome of a program, value or exception; sequencing and exception
handling are both instances of it, so one equation about `run` serves both.
-/

namespace Interaction

inductive Program (Op : Type) (Reply : Op → Type) (ε α : Type) where
  | pure (a : α)
  | throw (e : ε)
  | call (op : Op) (next : Except ε (Reply op) → Program Op Reply ε α)

namespace Program
variable {Op : Type} {Reply : Op → Type} {ε α β γ σ : Type}

def ofExcept : Except ε α → Program Op Reply ε α
  | .ok a => .pure a
  | .error e => .throw e

def handle (p : Program Op Reply ε α) (k : Except ε α → Program Op Reply ε β) :
    Program Op Reply ε β :=
  match p with
  | .pure a => k (.ok a)
  | .throw e => k (.error e)
  | .call op next => .call op (fun r => handle (next r) k)

def bind (p : Program Op Reply ε α) (f : α → Program Op Reply ε β) : Program Op Reply ε β :=
  p.handle (fun r => match r with
    | .ok a => f a
    | .error e => .throw e)

def perform (op : Op) : Program Op Reply ε (Reply op) := .call op ofExcept

instance : Monad (Program Op Reply ε) where
  pure := .pure
  bind := bind

instance : MonadExceptOf ε (Program Op Reply ε) where
  throw := .throw
  tryCatch p h := p.handle (fun r => match r with
    | .ok a => .pure a
    | .error e => h e)

instance : MonadLift (Except ε) (Program Op Reply ε) where
  monadLift := ofExcept

def returned : Program Op Reply ε α → Bool
  | .pure _ => true
  | _ => false

/-- The program has returned or failed. -/
def ended : Program Op Reply ε α → Bool
  | .call .. => false
  | _ => true

theorem returned_iff {p : Program Op Reply ε α} : p.returned = true ↔ ∃ a, p = .pure a := by
  cases p with
  | pure a => simp [returned]
  | throw e => simp [returned]
  | call op next => simp [returned]

theorem bind_def (p : Program Op Reply ε α) (f : α → Program Op Reply ε β) :
    (p >>= f) = p.bind f := rfl

theorem tryCatch_def (p : Program Op Reply ε α) (h : ε → Program Op Reply ε α) :
    tryCatch p h = p.handle (fun r => match r with
      | .ok a => .pure a
      | .error e => h e) := rfl

/-- The program calls only operations that are `ok`, whatever they reply. -/
def Only (ok : Op → Prop) : Program Op Reply ε α → Prop
  | .pure _ => True
  | .throw _ => True
  | .call op next => ok op ∧ ∀ r, Only ok (next r)

section Only
variable {ok : Op → Prop}

theorem only_handle {p : Program Op Reply ε α} {k : Except ε α → Program Op Reply ε β}
    (hp : p.Only ok) (hk : ∀ r, (k r).Only ok) : (p.handle k).Only ok := by
  induction p with
  | pure a => exact hk _
  | throw e => exact hk _
  | call op next ih => exact ⟨hp.1, fun r => ih r (hp.2 r)⟩

theorem only_bind {p : Program Op Reply ε α} {f : α → Program Op Reply ε β}
    (hp : p.Only ok) (hf : ∀ a, (f a).Only ok) : (p >>= f).Only ok := by
  refine only_handle hp (fun r => ?_)
  cases r with
  | ok a => exact hf a
  | error e => trivial

/-- What a program calls first, it calls. -/
theorem only_of_handle {p : Program Op Reply ε α} {k : Except ε α → Program Op Reply ε β}
    (h : (p.handle k).Only ok) : p.Only ok := by
  induction p with
  | pure a => trivial
  | throw e => trivial
  | call op next ih => exact ⟨h.1, fun r => ih r (h.2 r)⟩

theorem only_ofExcept {r : Except ε α} : (ofExcept r : Program Op Reply ε α).Only ok := by
  cases r with
  | ok a => trivial
  | error e => trivial

theorem only_perform {op : Op} (h : ok op) : (perform op : Program Op Reply ε _).Only ok := by
  refine ⟨h, fun r => ?_⟩
  cases r with
  | ok a => trivial
  | error e => trivial

theorem only_forM {f : β → Program Op Reply ε PUnit} {l : List β}
    (hf : ∀ b ∈ l, (f b).Only ok) : (forM l f : Program Op Reply ε PUnit).Only ok := by
  induction l with
  | nil => trivial
  | cons b l ih =>
    rw [List.forM_cons]
    exact only_bind (hf b List.mem_cons_self)
      (fun _ => ih (fun c hc => hf c (List.mem_cons_of_mem b hc)))

end Only

/-- Run a program alone, given what each operation replies and does to the state. -/
def run (exec : (op : Op) → σ → Except ε (Reply op) × σ) :
    Program Op Reply ε α → σ → Except ε α × σ
  | .pure a, s => (.ok a, s)
  | .throw e, s => (.error e, s)
  | .call op next, s => run exec (next (exec op s).1) (exec op s).2

variable (exec : (op : Op) → σ → Except ε (Reply op) × σ)

@[simp] theorem run_ofExcept (r : Except ε α) (s : σ) :
    run exec (ofExcept r : Program Op Reply ε α) s = (r, s) := by
  cases r with
  | ok a => rfl
  | error e => rfl

@[simp] theorem run_perform (op : Op) (s : σ) : run exec (perform op) s = exec op s := by
  simp only [perform, run, run_ofExcept]

theorem run_handle (p : Program Op Reply ε α) (k : Except ε α → Program Op Reply ε β) (s : σ) :
    run exec (p.handle k) s = run exec (k (run exec p s).1) (run exec p s).2 := by
  induction p generalizing s with
  | pure a => rfl
  | throw e => rfl
  | call op next ih => simp only [handle, run, ih]

theorem run_bind (p : Program Op Reply ε α) (f : α → Program Op Reply ε β) (s : σ) :
    run exec (p >>= f) s = match run exec p s with
      | (.ok a, s') => run exec (f a) s'
      | (.error e, s') => (.error e, s') := by
  rw [bind_def, bind, run_handle]
  rcases run exec p s with ⟨r, s'⟩
  cases r with
  | ok a => rfl
  | error e => rfl

/-- What a program goes on with in some run. -/
theorem only_of_bind {ok : Op → Prop} {p : Program Op Reply ε α} {f : α → Program Op Reply ε β}
    (h : (p >>= f).Only ok) {s s' : σ} {a : α} (hrun : run exec p s = (.ok a, s')) :
    (f a).Only ok := by
  have hrest : ∀ {k : Except ε α → Program Op Reply ε β} (p : Program Op Reply ε α) (s : σ),
      (p.handle k).Only ok → (k (run exec p s).1).Only ok := by
    intro k p
    induction p with
    | pure a => exact fun s h => h
    | throw e => exact fun s h => h
    | call op next ih => exact fun s h => ih _ _ (h.2 _)
  have hcont := hrest p s h
  rwa [hrun] at hcont

/-- What every operation preserves, a run preserves. -/
theorem run_invariant {I : σ → Prop} (hI : ∀ op s, I s → I (exec op s).2)
    (p : Program Op Reply ε α) {s : σ} (hs : I s) : I (run exec p s).2 := by
  induction p generalizing s with
  | pure a => exact hs
  | throw e => exact hs
  | call op next ih => exact ih _ (hI op s hs)

end Program
end Interaction
