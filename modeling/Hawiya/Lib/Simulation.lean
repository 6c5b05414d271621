import Hawiya.Lib.Knowledge

/-!
# Runs that match runs

A relation between two pools is a simulation when every step of the first is matched by a run of the
second, of any length. Then every run is matched.

Erasure is an instance: the second pool runs only the processes one keeps, over a state of its own
that answers them as the first does. What the others do to the first state does not show in it.
-/

namespace Interaction
variable {ι ι' χ χ' σ σ' κ Op Op' ε ε' α β : Type} {Reply : Op → Type} {Reply' : Op' → Type}
variable [DecidableEq ι] [DecidableEq ι']

def Simulates (env : Environment ι χ Op Reply ε σ) (env' : Environment ι' χ' Op' Reply' ε' σ')
    (allowed' : ι' → χ' → Op' → σ' → Prop)
    (Sim : Pool ι σ Op Reply ε α → Pool ι' σ' Op' Reply' ε' β → Prop) : Prop :=
  ∀ p p' i choice q, Sim p p' → p.step env i choice = some q →
    ∃ q', Pool.Run env' allowed' p' q' ∧ Sim q q'

theorem Simulates.run {env : Environment ι χ Op Reply ε σ}
    {env' : Environment ι' χ' Op' Reply' ε' σ'} {allowed : ι → χ → Op → σ → Prop}
    {allowed' : ι' → χ' → Op' → σ' → Prop}
    {Sim : Pool ι σ Op Reply ε α → Pool ι' σ' Op' Reply' ε' β → Prop}
    (h : Simulates env env' allowed' Sim) {p q : Pool ι σ Op Reply ε α}
    {p' : Pool ι' σ' Op' Reply' ε' β} (hsim : Sim p p') (hrun : Pool.Run env allowed p q) :
    ∃ q', Pool.Run env' allowed' p' q' ∧ Sim q q' := by
  induction hrun with
  | start => exact ⟨p', .start, hsim⟩
  | next _ hstep _ ih =>
    obtain ⟨r', hrun', hsim'⟩ := ih
    obtain ⟨q', hmatched, hsim''⟩ := h _ _ _ _ _ hsim' hstep
    exact ⟨q', hrun'.trans hmatched, hsim''⟩

/-- `R` relates a state to one that only the processes of `keep` have worked on. -/
structure Erases (env : Environment ι χ Op Reply ε σ) (env' : Environment ι χ Op Reply ε σ')
    (P : ι → Protocol Op Reply ε κ) (I : (ι → κ) → σ → Prop) (keep : ι → Prop)
    (R : σ → σ' → Prop) : Prop where
  kept : ∀ ks s s' i choice op, I ks s → R s s' → keep i → (P i).may (ks i) op →
    env.waits i op s = false → env'.waits i op s' = false ∧
      (env'.exec i choice op s').1 = (env.exec i choice op s).1 ∧
      R (env.exec i choice op s).2 (env'.exec i choice op s').2
  erased : ∀ ks s s' i choice op, I ks s → R s s' → ¬ keep i → (P i).may (ks i) op →
    R (env.exec i choice op s).2 s'

section Erasure
variable {env : Environment ι χ Op Reply ε σ} {env' : Environment ι χ Op Reply ε σ'}
variable {P : ι → Protocol Op Reply ε κ} {I : (ι → κ) → σ → Prop} {keep : ι → Prop}
variable {R : σ → σ' → Prop} {post : ι → Except ε α → κ → Prop}

/-- The kept processes stand where they stand in the pool. -/
structure Erased (P : ι → Protocol Op Reply ε κ) (I : (ι → κ) → σ → Prop) (keep : ι → Prop)
    (R : σ → σ' → Prop) (post : ι → Except ε α → κ → Prop) (p : Pool ι σ Op Reply ε α)
    (p' : Pool ι σ' Op Reply ε α) : Prop where
  conforms : Protocol.Conforms P I post p
  shared : R p.shared p'.shared
  programs : ∀ i, keep i → p'.program i = p.program i

theorem Erases.simulates (h : Erases env env' P I keep R) (hkept : Protocol.Kept env P I) :
    Simulates env env' (fun i _ _ _ => keep i) (Erased P I keep R post) := by
  intro p p' i choice q hsim hstep
  have hconforms := hsim.conforms.step hkept hstep
  obtain ⟨ks, hI, hfollows⟩ := hsim.conforms
  obtain ⟨op, next, hp, hw, rfl⟩ := Pool.step_cases hstep
  have hmay : (P i).may (ks i) op := by
    have hi := hfollows i
    rw [hp] at hi
    exact hi.1
  by_cases hi : keep i
  · obtain ⟨hw', hreply, hR⟩ := h.kept ks p.shared p'.shared i choice op hI hsim.shared hi hmay hw
    have hp' := (hsim.programs i hi).trans hp
    have hstep' : p'.step env' i choice = some {
        shared := (env'.exec i choice op p'.shared).2
        program := Function.update p'.program i (next (env'.exec i choice op p'.shared).1) } := by
      unfold Pool.step
      simp only [hp', hw', Bool.false_eq_true, if_false]
    have hallows : p'.Allows (fun i _ _ _ => keep i) i choice := by
      unfold Pool.Allows
      rw [hp']
      exact hi
    refine ⟨_, .next .start hstep' hallows, hconforms, hR, fun j hj => ?_⟩
    change Function.update p'.program i _ j = Function.update p.program i _ j
    rw [hreply]
    by_cases hji : j = i
    · subst hji
      rw [Function.update_self, Function.update_self]
    · rw [Function.update_of_ne hji, Function.update_of_ne hji]
      exact hsim.programs j hj
  · refine ⟨p', .start, hconforms, ?_, fun j hj => ?_⟩
    · exact h.erased ks p.shared p'.shared i choice op hI hsim.shared hi hmay
    · have hji : j ≠ i := fun hji => hi (hji ▸ hj)
      exact (hsim.programs j hj).trans (Function.update_of_ne hji _ _).symm

/-- Every run goes on in the same way for the kept processes when the others are erased from it. -/
theorem Erases.run {allowed : ι → χ → Op → σ → Prop} (h : Erases env env' P I keep R)
    (hkept : Protocol.Kept env P I) {p q : Pool ι σ Op Reply ε α} {p' : Pool ι σ' Op Reply ε α}
    (herased : Erased P I keep R post p p') (hrun : Pool.Run env allowed p q) :
    ∃ q', Pool.Run env' (fun i _ _ _ => keep i) p' q' ∧ R q.shared q'.shared ∧
      ∀ i, keep i → q'.program i = q.program i := by
  obtain ⟨q', hrun', hsim⟩ := (h.simulates hkept).run herased hrun
  exact ⟨q', hrun', hsim.shared, hsim.programs⟩

end Erasure
end Interaction
