import Hawiya.Lib.Handlers

/-!
# What a program has learnt

A `Protocol` keeps account of one program of a pool: `may k op` says that a program which knows `k`
may call `op`, and `learns k op r` what it knows after the reply `r`. `Follows` is the proof,
without mention of the shared state, that a program keeps to the protocol and ends in a
postcondition.

`Kept` connects the accounts to the shared state: an invariant over everyone's knowledge and the
state that each permitted operation keeps. If every program of a pool follows its protocol then the
invariant holds in every state a run reaches, whatever the interleaving.
-/

namespace Interaction
variable {ι χ σ κ Op ε α β : Type} {Reply : Op → Type}

structure Protocol (Op : Type) (Reply : Op → Type) (ε κ : Type) where
  may : κ → Op → Prop
  learns : κ → (op : Op) → Except ε (Reply op) → κ → Prop

namespace Protocol
variable (P : Protocol Op Reply ε κ)

def Follows : Program Op Reply ε α → κ → (Except ε α → κ → Prop) → Prop
  | .pure a, k, post => post (.ok a) k
  | .throw e, k, post => post (.error e) k
  | .call op next, k, post =>
      P.may k op ∧ ∀ r k', P.learns k op r k' → Follows (next r) k' post

/-- Values go on with `Q`, exceptions to `post`. -/
def Onward (Q : α → κ → Prop) (post : Except ε β → κ → Prop) : Except ε α → κ → Prop
  | .ok a, k => Q a k
  | .error e, k => post (.error e) k

namespace Follows
variable {P} {p : Program Op Reply ε α} {k : κ} {post post' : Except ε α → κ → Prop}

theorem mono (h : P.Follows p k post) (hpost : ∀ r k, post r k → post' r k) :
    P.Follows p k post' := by
  induction p generalizing k with
  | pure a => exact hpost _ _ h
  | throw e => exact hpost _ _ h
  | call op next ih => exact ⟨h.1, fun r k' hk' => ih r (h.2 r k' hk')⟩

theorem handle {f : Except ε α → Program Op Reply ε β} {post : Except ε β → κ → Prop}
    (h : P.Follows p k (fun r k' => P.Follows (f r) k' post)) : P.Follows (p.handle f) k post := by
  induction p generalizing k with
  | pure a => exact h
  | throw e => exact h
  | call op next ih => exact ⟨h.1, fun r k' hk' => ih r (h.2 r k' hk')⟩

theorem bind {f : α → Program Op Reply ε β} {post : Except ε β → κ → Prop}
    (h : P.Follows p k (Onward (fun a k' => P.Follows (f a) k' post) post)) :
    P.Follows (p >>= f) k post := by
  refine handle (h.mono (fun r k' hr => ?_))
  cases r with
  | ok a => exact hr
  | error e => exact hr

theorem perform {op : Op} {post : Except ε (Reply op) → κ → Prop} (hmay : P.may k op)
    (h : ∀ r k', P.learns k op r k' → post r k') : P.Follows (Program.perform op) k post := by
  refine ⟨hmay, fun r k' hk' => ?_⟩
  cases r with
  | ok a => exact h _ k' hk'
  | error e => exact h _ k' hk'

/-- What a program calls in any case, it may call. -/
theorem of_only {ok : Op → Prop} (h : p.Only ok) (hmay : ∀ k op, ok op → P.may k op) :
    P.Follows p k (fun _ _ => True) := by
  induction p generalizing k with
  | pure a => trivial
  | throw e => trivial
  | call op next ih => exact ⟨hmay k op h.1, fun r k' _ => ih r (h.2 r)⟩

/-- A program that learns nothing from what it calls. -/
theorem of_still {ok : Op → Prop} (h : p.Only ok)
    (hok : ∀ op, ok op → P.may k op ∧ ∀ r k', P.learns k op r k' → k' = k) :
    P.Follows p k (fun _ k' => k' = k) := by
  induction p with
  | pure a => rfl
  | throw e => rfl
  | call op next ih =>
    obtain ⟨hmay, hstill⟩ := hok op h.1
    refine ⟨hmay, fun r k' hk' => ?_⟩
    cases hstill r k' hk'
    exact ih r (h.2 r)

/-- Behind a handler that keeps the account for each operation, a program keeps it too. -/
theorem interpret {Op' S : Type} {Reply' : Op' → Type} {P' : Protocol Op' Reply' ε κ}
    {handler : (op : Op) → S → Program Op' Reply' ε (Reply op × S)}
    (hhandler : ∀ op st k, P.may k op → P'.Follows (handler op st) k
      (fun r k' => P.learns k op (r.map Prod.fst) k'))
    (h : P.Follows p k post) (st : S) : P'.Follows (p.interpret handler st) k post := by
  induction p generalizing k st with
  | pure a => exact h
  | throw e => exact h
  | call op next ih =>
    rw [Program.interpret]
    refine handle ((hhandler op st k h.1).mono (fun r k' hr => ?_))
    cases r with
    | ok reply => exact ih _ (h.2 _ k' hr) reply.2
    | error e => exact ih _ (h.2 _ k' hr) st

/-- A handler that hands an operation on. -/
theorem handOn {S : Type} {op : Op} (hmay : P.may k op) (st : S) :
    P.Follows (do let a ← Program.perform op; return (a, st)) k
      (fun r k' => P.learns k op (r.map Prod.fst) k') := by
  refine bind (perform hmay (fun r k' hk' => ?_))
  cases r with
  | ok a => exact hk'
  | error e => exact hk'

/-- A loop whose assertion speaks of the elements still to come. -/
theorem forM {f : β → Program Op Reply ε PUnit} {I : List β → κ → Prop}
    {post : Except ε PUnit → κ → Prop}
    (hf : ∀ b rest k, I (b :: rest) k → P.Follows (f b) k (Onward (fun _ => I rest) post))
    (hend : ∀ k, I [] k → post (.ok ⟨⟩) k) (l : List β) (hk : I l k) :
    P.Follows (forM l f) k post := by
  induction l generalizing k with
  | nil => exact hend k hk
  | cons b l ih =>
    rw [List.forM_cons]
    refine bind ((hf b l k hk).mono (fun r k' hr => ?_))
    cases r with
    | ok a => exact ih hr
    | error e => exact hr

end Follows

/-- The invariant survives every operation that a program may call, and the reply teaches the
program something under which it does. -/
def Kept (env : Environment ι χ Op Reply ε σ) [DecidableEq ι] (P : ι → Protocol Op Reply ε κ)
    (I : (ι → κ) → σ → Prop) : Prop :=
  ∀ ks s i choice op, I ks s → (P i).may (ks i) op → env.waits i op s = false →
    ∃ k', (P i).learns (ks i) op (env.exec i choice op s).1 k' ∧
      I (Function.update ks i k') (env.exec i choice op s).2

section Pools
variable {env env' : Environment ι χ Op Reply ε σ} {P : ι → Protocol Op Reply ε κ}
variable {I : (ι → κ) → σ → Prop} {post : ι → Except ε α → κ → Prop}
variable {allowed : ι → χ → Op → σ → Prop} {p q : Pool ι σ Op Reply ε α}

/-- What everyone knows fits the shared state, and everyone keeps to the protocol from there on. -/
def Conforms (P : ι → Protocol Op Reply ε κ) (I : (ι → κ) → σ → Prop)
    (post : ι → Except ε α → κ → Prop) (p : Pool ι σ Op Reply ε α) : Prop :=
  ∃ ks, I ks p.shared ∧ ∀ i, (P i).Follows (p.program i) (ks i) (post i)

theorem Conforms.returned (h : Conforms P I post q) {i : ι} {a : α} (ha : q.program i = .pure a) :
    ∃ ks, I ks q.shared ∧ post i (.ok a) (ks i) := by
  obtain ⟨ks, hI, hfollows⟩ := h
  have hi := hfollows i
  rw [ha] at hi
  exact ⟨ks, hI, hi⟩

/-- The environments treat every operation that a program may call alike. -/
def Agree (env env' : Environment ι χ Op Reply ε σ) (P : ι → Protocol Op Reply ε κ)
    (I : (ι → κ) → σ → Prop) : Prop :=
  ∀ ks s i op, I ks s → (P i).may (ks i) op →
    env'.waits i op s = env.waits i op s ∧
      ∀ choice, env'.exec i choice op s = env.exec i choice op s

theorem Agree.symm (hagree : Agree env env' P I) : Agree env' env P I :=
  fun ks s i op hI hmay => ⟨(hagree ks s i op hI hmay).1.symm,
    fun choice => ((hagree ks s i op hI hmay).2 choice).symm⟩

variable [DecidableEq ι]

/-- What a program has returned, it has returned for good. -/
theorem returned_stays (hrun : Pool.Run env allowed p q) {i : ι} {a : α}
    (ha : p.program i = .pure a) : q.program i = .pure a := by
  induction hrun with
  | start => exact ha
  | @next q r j choice _ hstep _ ih =>
    obtain ⟨op, next, hq, -, rfl⟩ := Pool.step_cases hstep
    have hij : i ≠ j := by
      rintro rfl
      rw [hq] at ih
      cases ih
    exact (Function.update_of_ne hij _ _).trans ih

theorem Conforms.step (hkept : Kept env P I) (h : Conforms P I post p) {i : ι} {choice : χ}
    (hstep : p.step env i choice = some q) : Conforms P I post q := by
  obtain ⟨ks, hI, hfollows⟩ := h
  obtain ⟨op, next, hp, hw, rfl⟩ := Pool.step_cases hstep
  have hi := hfollows i
  rw [hp] at hi
  obtain ⟨k', hlearns, hI'⟩ := hkept ks p.shared i choice op hI hi.1 hw
  refine ⟨Function.update ks i k', hI', fun j => ?_⟩
  by_cases hji : j = i
  · subst hji
    simpa only [Function.update_self] using hi.2 _ k' hlearns
  · simpa only [Function.update_of_ne hji] using hfollows j

theorem Conforms.run (hkept : Kept env P I) (h : Conforms P I post p)
    (hrun : Pool.Run env allowed p q) : Conforms P I post q := by
  induction hrun with
  | start => exact h
  | next _ hstep _ ih => exact ih.step hkept hstep

theorem Kept.of_agree (hkept : Kept env P I) (hagree : Agree env env' P I) : Kept env' P I := by
  intro ks s i choice op hI hmay hw
  obtain ⟨hwaits, hexec⟩ := hagree ks s i op hI hmay
  rw [hexec choice]
  exact hkept ks s i choice op hI hmay (hwaits ▸ hw)

theorem Conforms.step_eq (hagree : Agree env env' P I) (h : Conforms P I post p) (i : ι)
    (choice : χ) : p.step env' i choice = p.step env i choice := by
  obtain ⟨ks, hI, hfollows⟩ := h
  have hi := hfollows i
  unfold Pool.step
  cases hp : p.program i with
  | pure a => rfl
  | throw e => rfl
  | call op next =>
    rw [hp] at hi
    obtain ⟨hwaits, hexec⟩ := hagree ks p.shared i op hI hi.1
    simp only [hwaits, hexec choice]

theorem Conforms.transfer (hkept : Kept env P I) (hagree : Agree env env' P I)
    (h : Conforms P I post p) (hrun : Pool.Run env allowed p q) : Pool.Run env' allowed p q := by
  induction hrun with
  | start => exact .start
  | next hrun hstep hok ih =>
    have hreached := h.run hkept hrun
    exact .next ih ((hreached.step_eq hagree _ _).trans hstep) hok

/-- Programs that keep to the protocol cannot tell the environments apart. -/
theorem Conforms.run_iff (hkept : Kept env P I) (hagree : Agree env env' P I)
    (h : Conforms P I post p) : Pool.Run env' allowed p q ↔ Pool.Run env allowed p q :=
  ⟨h.transfer (hkept.of_agree hagree) hagree.symm, h.transfer hkept hagree⟩

end Pools
end Protocol
end Interaction
