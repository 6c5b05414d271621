import Hawiya.Lib.Interaction

/-!
# Two programs run side by side

A `Coupling` relates the states of two runs, and their exceptions. Two programs are `Alike` when
from related states they end in the same way, with related results, in related states. The rules
follow the constructors and the combinators of programs, so that two instances of one program text
are compared piece by piece.
-/

namespace Interaction
variable {σ Op ε α β γ δ : Type} {Reply : Op → Type}

/-- Both return, or both raise. -/
inductive EndsAlike (Q : α → β → Prop) (E : ε → ε → Prop) : Except ε α → Except ε β → Prop
  | ok {a : α} {b : β} (h : Q a b) : EndsAlike Q E (.ok a) (.ok b)
  | error {e e' : ε} (h : E e e') : EndsAlike Q E (.error e) (.error e')

theorem EndsAlike.mono {Q Q' : α → β → Prop} {E : ε → ε → Prop} {r : Except ε α} {r' : Except ε β}
    (h : EndsAlike Q E r r') (hQ : ∀ a b, Q a b → Q' a b) : EndsAlike Q' E r r' := by
  cases h with
  | ok h => exact .ok (hQ _ _ h)
  | error h => exact .error h

/-- What the two runs share: the operations, and what related states and exceptions are. -/
structure Coupling (Op : Type) (Reply : Op → Type) (ε σ : Type) where
  exec : (op : Op) → σ → Except ε (Reply op) × σ
  states : σ → σ → Prop
  errors : ε → ε → Prop

namespace Coupling
variable (C : Coupling Op Reply ε σ)

def Alike (Q : α → β → Prop) (p : Program Op Reply ε α) (q : Program Op Reply ε β) : Prop :=
  ∀ s s', C.states s s' →
    EndsAlike Q C.errors (p.run C.exec s).1 (q.run C.exec s').1 ∧
      C.states (p.run C.exec s).2 (q.run C.exec s').2

variable {C} {Q : α → β → Prop} {Q' : γ → δ → Prop}

theorem Alike.mono {Q₂ : α → β → Prop} {p : Program Op Reply ε α} {q : Program Op Reply ε β}
    (h : C.Alike Q p q) (hQ : ∀ a b, Q a b → Q₂ a b) : C.Alike Q₂ p q :=
  fun s s' hs => ⟨(h s s' hs).1.mono hQ, (h s s' hs).2⟩

theorem Alike.pure {a : α} {b : β} (h : Q a b) :
    C.Alike Q (pure a : Program Op Reply ε α) (pure b) :=
  fun _ _ hs => ⟨.ok h, hs⟩

theorem Alike.throw {e e' : ε} (h : C.errors e e') :
    C.Alike Q (throw e : Program Op Reply ε α) (throw e') :=
  fun _ _ hs => ⟨.error h, hs⟩

theorem Alike.liftM {r : Except ε α} {r' : Except ε β} (h : EndsAlike Q C.errors r r') :
    C.Alike Q (liftM r : Program Op Reply ε α) (liftM r') := by
  cases h with
  | ok h => exact Alike.pure h
  | error h => exact Alike.throw h

/-- What follows both outcomes of two programs that are alike. -/
theorem Alike.handle {p : Program Op Reply ε α} {q : Program Op Reply ε β}
    {k : Except ε α → Program Op Reply ε γ} {l : Except ε β → Program Op Reply ε δ}
    (h : C.Alike Q p q) (hk : ∀ r r', EndsAlike Q C.errors r r' → C.Alike Q' (k r) (l r')) :
    C.Alike Q' (p.handle k) (q.handle l) := by
  intro s s' hs
  obtain ⟨hends, hstates⟩ := h s s' hs
  rw [Program.run_handle, Program.run_handle]
  exact hk _ _ hends _ _ hstates

theorem Alike.bind {p : Program Op Reply ε α} {q : Program Op Reply ε β}
    {f : α → Program Op Reply ε γ} {g : β → Program Op Reply ε δ}
    (h : C.Alike Q p q) (hf : ∀ a b, Q a b → C.Alike Q' (f a) (g b)) :
    C.Alike Q' (p >>= f) (q >>= g) := by
  refine h.handle (fun r r' hends => ?_)
  cases hends with
  | ok hQ => exact hf _ _ hQ
  | error hE => exact Alike.throw hE

/-- One operation on each side. -/
theorem Alike.perform {op op' : Op} {Q : Reply op → Reply op' → Prop}
    (h : ∀ s s', C.states s s' →
      EndsAlike Q C.errors (C.exec op s).1 (C.exec op' s').1 ∧
        C.states (C.exec op s).2 (C.exec op' s').2) :
    C.Alike Q (Program.perform op) (Program.perform op') := by
  intro s s' hs
  rw [Program.run_perform, Program.run_perform]
  exact h s s' hs

/-- A loop over lists whose elements are related one by one. -/
theorem Alike.forM {P : α → β → Prop} {f : α → Program Op Reply ε PUnit}
    {g : β → Program Op Reply ε PUnit} {l : List α} {l' : List β} (hl : List.Forall₂ P l l')
    (hf : ∀ a b, P a b → C.Alike (fun _ _ => True) (f a) (g b)) :
    C.Alike (fun _ _ => True) (forM l f) (forM l' g) := by
  induction hl with
  | nil => exact Alike.pure trivial
  | cons hab _ ih =>
    rw [List.forM_cons, List.forM_cons]
    exact (hf _ _ hab).bind (fun _ _ _ => ih)

end Coupling
end Interaction
