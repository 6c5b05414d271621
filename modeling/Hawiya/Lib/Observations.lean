import Hawiya.Lib.Interaction

/-!
# What is observed of a program

An observer sees something of each operation a program calls. `trace` is what is seen of a run. A
program `Yields` a relation between its value and its trace if it returns nothing else, whatever its
operations reply. The rules follow the constructs of a program, and `Yields.run` makes of them a
statement about every run.
-/

namespace Interaction.Program
variable {Op : Type} {Reply : Op → Type} {ε α β γ δ σ : Type}

/-- What is observed of the operations of a run, in order. -/
def trace (exec : (op : Op) → σ → Except ε (Reply op) × σ) (obs : Op → List γ) :
    Program Op Reply ε α → σ → List γ
  | .pure _, _ => []
  | .throw _, _ => []
  | .call op next, s => obs op ++ trace exec obs (next (exec op s).1) (exec op s).2

/-- Whatever is replied, a value that is returned and what was observed are related. -/
def Yields (obs : Op → List γ) : Program Op Reply ε α → (α → List γ → Prop) → Prop
  | .pure a, P => P a []
  | .throw _, _ => True
  | .call op next, P => ∀ r, Yields obs (next r) (fun a l => P a (obs op ++ l))

namespace Yields
variable {obs : Op → List γ} {p : Program Op Reply ε α} {P P' : α → List γ → Prop}

theorem mono (h : p.Yields obs P) (hP : ∀ a l, P a l → P' a l) : p.Yields obs P' := by
  induction p generalizing P P' with
  | pure a => exact hP a [] h
  | throw e => trivial
  | call op next ih => exact fun r => ih r (h r) (fun a l => hP a _)

theorem bind {f : α → Program Op Reply ε β} {Q : β → List γ → Prop} (hp : p.Yields obs P)
    (hf : ∀ a l, P a l → (f a).Yields obs (fun b l' => Q b (l ++ l'))) : (p >>= f).Yields obs Q := by
  induction p generalizing P Q with
  | pure a => exact hf a [] hp
  | throw e => trivial
  | call op next ih =>
    intro r
    refine ih r (hp r) (fun a l h => ?_)
    have hrest := hf a (obs op ++ l) h
    simpa only [List.append_assoc] using hrest

theorem perform {op : Op} :
    (perform op : Program Op Reply ε _).Yields obs (fun _ l => l = obs op) := by
  intro r
  cases r with
  | ok a => exact List.append_nil _
  | error e => trivial

theorem ofExcept {r : Except ε α} (h : ∀ a, r = .ok a → P a []) :
    (ofExcept r : Program Op Reply ε α).Yields obs P := by
  cases r with
  | ok a => exact h a rfl
  | error e => trivial

theorem only_bind {ok : Op → Prop} {f : α → Program Op Reply ε β} (hp : p.Yields obs P)
    (h : p.Only ok) (hf : ∀ a l, P a l → (f a).Only ok) : (p >>= f).Only ok := by
  induction p generalizing P with
  | pure a => exact hf a [] hp
  | throw e => trivial
  | call op next ih => exact ⟨h.1, fun r => ih r (hp r) (h.2 r) (fun a l => hf a _)⟩

theorem forM {f : δ → Program Op Reply ε PUnit} {g : δ → List γ}
    (hf : ∀ d, (f d).Yields obs (fun _ l => l = g d)) (ds : List δ) :
    (forM ds f : Program Op Reply ε PUnit).Yields obs (fun _ l => l = ds.flatMap g) := by
  induction ds with
  | nil => rfl
  | cons d ds ih =>
    rw [List.forM_cons]
    refine bind (hf d) (fun _ l hl => ih.mono (fun _ l' hl' => ?_))
    rw [hl, hl', List.flatMap_cons]

theorem run (h : p.Yields obs P) (exec : (op : Op) → σ → Except ε (Reply op) × σ) {s : σ} {a : α}
    (hrun : (p.run exec s).1 = .ok a) : P a (p.trace exec obs s) := by
  induction p generalizing P s with
  | pure b =>
    cases hrun
    exact h
  | throw e => cases hrun
  | call op next ih => exact ih _ (h _) hrun

end Yields
end Interaction.Program
