import Hawiya.Lib.Pool

/-!
# Rely-guarantee triples

`Meets i p post s`: from state `s`, whatever the others do within `rely i`, each operation of the
program stays within every other process's rely, `running i` holds as long as the program is not
at its end, and its outcome satisfies `post`. If every program of a pool meets its postcondition
then it does so in every state a run reaches.

A `Triple` is such an assertion from every state of its precondition, with separate
postconditions for values and exceptions; its rules follow the program.
-/

namespace Interaction
variable {ι χ σ Op ε α β : Type} {Reply : Op → Type}

structure Discipline (ι χ : Type) (Op : Type) (Reply : Op → Type) (ε σ : Type) where
  env : Environment ι χ Op Reply ε σ
  allowed : ι → χ → Op → σ → Prop
  rely : ι → σ → σ → Prop
  running : ι → σ → Prop

namespace Discipline

/-- The relies are closed under doing nothing and under composition. -/
structure Closed (D : Discipline ι χ Op Reply ε σ) : Prop where
  refl : ∀ i s, D.rely i s s
  trans : ∀ i s s' s'', D.rely i s s' → D.rely i s' s'' → D.rely i s s''

/-- Every allowed operation stays within the rely of the others. -/
def Guarantees (D : Discipline ι χ Op Reply ε σ) : Prop :=
  ∀ i j choice op s, j ≠ i → D.env.waits i op s = false → D.allowed i choice op s →
    D.rely j s (D.env.exec i choice op s).2

def Stable (D : Discipline ι χ Op Reply ε σ) (i : ι) (P : σ → Prop) : Prop :=
  ∀ s s', D.rely i s s' → P s → P s'

end Discipline

variable (D : Discipline ι χ Op Reply ε σ)

def Meets (i : ι) : Program Op Reply ε α → (Except ε α → σ → Prop) → σ → Prop
  | .pure a, post, s => ∀ s', D.rely i s s' → post (.ok a) s'
  | .throw e, post, s => ∀ s', D.rely i s s' → post (.error e) s'
  | .call op next, post, s => ∀ s', D.rely i s s' → D.running i s' ∧
      (D.env.waits i op s' = false → ∀ choice, D.allowed i choice op s' →
        (∀ j, j ≠ i → D.rely j s' (D.env.exec i choice op s').2) ∧
        Meets i (next (D.env.exec i choice op s').1) post (D.env.exec i choice op s').2)

/-- Values end in `Q`, exceptions in `E`. -/
def Ends (Q : α → σ → Prop) (E : σ → Prop) : Except ε α → σ → Prop
  | .ok a, s => Q a s
  | .error _, s => E s

def Triple (i : ι) (P : σ → Prop) (p : Program Op Reply ε α) (Q : α → σ → Prop) (E : σ → Prop) :
    Prop :=
  ∀ s, P s → Meets D i p (Ends Q E) s

variable {D} {i : ι}

section Meets

theorem Meets.mono {p : Program Op Reply ε α} {post post' : Except ε α → σ → Prop} {s : σ}
    (h : Meets D i p post s) (hpost : ∀ r s, post r s → post' r s) : Meets D i p post' s := by
  induction p generalizing s with
  | pure a => exact fun s' hs => hpost _ _ (h s' hs)
  | throw e => exact fun s' hs => hpost _ _ (h s' hs)
  | call op next ih =>
    intro s' hs
    obtain ⟨hrunning, hstep⟩ := h s' hs
    refine ⟨hrunning, fun hw choice hok => ?_⟩
    obtain ⟨hguar, hnext⟩ := hstep hw choice hok
    exact ⟨hguar, ih _ hnext⟩

theorem Meets.of_rely (hD : D.Closed) {p : Program Op Reply ε α} {post : Except ε α → σ → Prop}
    {s s' : σ} (h : Meets D i p post s) (hs : D.rely i s s') : Meets D i p post s' := by
  cases p with
  | pure a => exact fun s'' hs' => h s'' (hD.trans _ _ _ _ hs hs')
  | throw e => exact fun s'' hs' => h s'' (hD.trans _ _ _ _ hs hs')
  | call op next => exact fun s'' hs' => h s'' (hD.trans _ _ _ _ hs hs')

theorem Meets.handle (hD : D.Closed) {p : Program Op Reply ε α}
    {k : Except ε α → Program Op Reply ε β} {post : Except ε β → σ → Prop} {s : σ}
    (h : Meets D i p (fun r => Meets D i (k r) post) s) : Meets D i (p.handle k) post s := by
  induction p generalizing s with
  | pure a => exact h s (hD.refl i s)
  | throw e => exact h s (hD.refl i s)
  | call op next ih =>
    intro s' hs
    obtain ⟨hrunning, hstep⟩ := h s' hs
    refine ⟨hrunning, fun hw choice hok => ?_⟩
    obtain ⟨hguar, hnext⟩ := hstep hw choice hok
    exact ⟨hguar, ih _ hnext⟩

/-- One operation, with what must hold of its reply once the others have gone on. -/
theorem Meets.perform {op : Op} {post : Except ε (Reply op) → σ → Prop} {s : σ}
    (h : ∀ s', D.rely i s s' → D.running i s' ∧
      (D.env.waits i op s' = false → ∀ choice, D.allowed i choice op s' →
        (∀ j, j ≠ i → D.rely j s' (D.env.exec i choice op s').2) ∧
        ∀ s'', D.rely i (D.env.exec i choice op s').2 s'' →
          post (D.env.exec i choice op s').1 s'')) :
    Meets D i (Program.perform op) post s := by
  intro s' hs
  obtain ⟨hrunning, hstep⟩ := h s' hs
  refine ⟨hrunning, fun hw choice hok => ?_⟩
  obtain ⟨hguar, hpost⟩ := hstep hw choice hok
  refine ⟨hguar, ?_⟩
  cases hreply : (D.env.exec i choice op s').1 with
  | ok a => exact fun s'' hs' => hreply ▸ hpost s'' hs'
  | error e => exact fun s'' hs' => hreply ▸ hpost s'' hs'

variable [DecidableEq ι]

/-- One step keeps every assertion: the stepping program by its own, the others by their relies. -/
theorem Meets.step (hD : D.Closed) {post : ι → Except ε α → σ → Prop}
    {p q : Pool ι σ Op Reply ε α} {choice : χ} (hstep : p.step D.env i choice = some q)
    (hok : p.Allows D.allowed i choice)
    (h : ∀ j, Meets D j (p.program j) (post j) p.shared) (j : ι) :
    Meets D j (q.program j) (post j) q.shared := by
  obtain ⟨op, next, hp, hw, rfl⟩ := Pool.step_cases hstep
  have hi := h i
  simp only [Pool.Allows, hp] at hok
  rw [hp] at hi
  obtain ⟨hguar, hnext⟩ := (hi _ (hD.refl i _)).2 hw choice hok
  by_cases hji : j = i
  · subst hji
    simpa only [Function.update_self] using hnext
  · simpa only [Function.update_of_ne hji] using (h j).of_rely hD (hguar j hji)

theorem Meets.run (hD : D.Closed) {post : ι → Except ε α → σ → Prop}
    {p q : Pool ι σ Op Reply ε α} (hrun : Pool.Run D.env D.allowed p q)
    (h : ∀ j, Meets D j (p.program j) (post j) p.shared) (j : ι) :
    Meets D j (q.program j) (post j) q.shared := by
  induction hrun generalizing j with
  | start => exact h j
  | next _ hstep hok ih => exact Meets.step hD hstep hok ih j

end Meets

namespace Discipline
variable {P P' : σ → Prop}

theorem Stable.and (h : D.Stable i P) (h' : D.Stable i P') : D.Stable i (fun s => P s ∧ P' s) :=
  fun s s' hs hp => ⟨h s s' hs hp.1, h' s s' hs hp.2⟩

theorem Stable.or (h : D.Stable i P) (h' : D.Stable i P') : D.Stable i (fun s => P s ∨ P' s) :=
  fun s s' hs hp => hp.imp (h s s' hs) (h' s s' hs)

theorem Stable.exists {Q : β → σ → Prop} (h : ∀ b, D.Stable i (Q b)) :
    D.Stable i (fun s => ∃ b, Q b s) :=
  fun s s' hs ⟨b, hb⟩ => ⟨b, h b s s' hs hb⟩

theorem stable_const (p : Prop) : D.Stable i (fun _ => p) := fun _ _ _ hp => hp

theorem stable_false : D.Stable i (fun _ => False) := stable_const False

end Discipline

namespace Triple
variable {P P' : σ → Prop} {Q Q' : α → σ → Prop} {E : σ → Prop}

theorem conseq {p : Program Op Reply ε α} (h : Triple D i P p Q E) (hP : ∀ s, P' s → P s)
    (hQ : ∀ a s, Q a s → Q' a s) : Triple D i P' p Q' E := by
  intro s hs
  refine (h s (hP s hs)).mono (fun r s' => ?_)
  cases r with
  | ok a => exact hQ a s'
  | error e => exact id

theorem weaken_raise {p : Program Op Reply ε α} {E' : σ → Prop} (h : Triple D i P p Q E)
    (hE : ∀ s, E s → E' s) : Triple D i P p Q E' := by
  intro s hs
  refine (h s hs).mono (fun r s' => ?_)
  cases r with
  | ok a => exact id
  | error e => exact hE s'

theorem pure {a : α} (hQ : D.Stable i (Q a)) (h : ∀ s, P s → Q a s) :
    Triple D i P (pure a : Program Op Reply ε α) Q E :=
  fun s hs s' hrely => hQ s s' hrely (h s hs)

theorem throw {e : ε} (hE : D.Stable i E) (h : ∀ s, P s → E s) :
    Triple D i P (throw e : Program Op Reply ε α) Q E :=
  fun s hs s' hrely => hE s s' hrely (h s hs)

theorem handle (hD : D.Closed) {p : Program Op Reply ε α} {k : Except ε α → Program Op Reply ε β}
    {R : β → σ → Prop} {E' : σ → Prop} (h : Triple D i P p Q E)
    (hok : ∀ a, Triple D i (Q a) (k (.ok a)) R E')
    (herr : ∀ e, Triple D i E (k (.error e)) R E') : Triple D i P (p.handle k) R E' := by
  intro s hs
  refine Meets.handle hD ((h s hs).mono (fun r s' hr => ?_))
  cases r with
  | ok a => exact hok a s' hr
  | error e => exact herr e s' hr

theorem bind (hD : D.Closed) {p : Program Op Reply ε α} {f : α → Program Op Reply ε β}
    {R : β → σ → Prop} (hE : D.Stable i E) (h : Triple D i P p Q E)
    (hf : ∀ a, Triple D i (Q a) (f a) R E) : Triple D i P (p >>= f) R E :=
  handle hD h hf (fun _ => throw hE (fun _ => id))

/-- An operation, from a stable precondition under which the process is running and which accounts
for what the operation does to the others, and what follows on its reply. -/
theorem call {op : Op} {next : Except ε (Reply op) → Program Op Reply ε α}
    {R : Except ε (Reply op) → σ → Prop} (hP : D.Stable i P) (hrunning : ∀ s, P s → D.running i s)
    (h : ∀ s choice, P s → D.env.waits i op s = false → D.allowed i choice op s →
      (∀ j, j ≠ i → D.rely j s (D.env.exec i choice op s).2) ∧
        R (D.env.exec i choice op s).1 (D.env.exec i choice op s).2)
    (hnext : ∀ r, Triple D i (R r) (next r) Q E) : Triple D i P (.call op next) Q E := by
  intro s hs s' hrely
  have hs' := hP s s' hrely hs
  refine ⟨hrunning s' hs', fun hw choice hok => ?_⟩
  obtain ⟨hguar, hreply⟩ := h s' choice hs' hw hok
  exact ⟨hguar, hnext _ _ hreply⟩

theorem perform_guaranteed {op : Op} {Q : Reply op → σ → Prop}
    (hP : D.Stable i P) (hQ : ∀ a, D.Stable i (Q a)) (hE : D.Stable i E)
    (hrunning : ∀ s, P s → D.running i s)
    (h : ∀ s choice, P s → D.env.waits i op s = false → D.allowed i choice op s →
      (∀ j, j ≠ i → D.rely j s (D.env.exec i choice op s).2) ∧
        Ends Q E (D.env.exec i choice op s).1 (D.env.exec i choice op s).2) :
    Triple D i P (Program.perform op) Q E := by
  refine call hP hrunning h (fun r => ?_)
  cases r with
  | ok a => exact pure (hQ a) (fun _ => id)
  | error e => exact throw hE (fun _ => id)

/-- One operation that always stays within the rely of the others. -/
theorem perform (hguar : D.Guarantees) {op : Op} {Q : Reply op → σ → Prop}
    (hP : D.Stable i P) (hQ : ∀ a, D.Stable i (Q a)) (hE : D.Stable i E)
    (hrunning : ∀ s, P s → D.running i s)
    (h : ∀ s choice, P s → D.env.waits i op s = false → D.allowed i choice op s →
      Ends Q E (D.env.exec i choice op s).1 (D.env.exec i choice op s).2) :
    Triple D i P (Program.perform op) Q E :=
  perform_guaranteed hP hQ hE hrunning (fun s choice hs hw hok =>
    ⟨fun j hj => hguar i j choice op s hj hw hok, h s choice hs hw hok⟩)

/-- A loop whose assertion speaks of the elements it has gone through. -/
theorem forM (hD : D.Closed) (hE : D.Stable i E) {f : β → Program Op Reply ε PUnit}
    {I : List β → σ → Prop} (hI : ∀ l, D.Stable i (I l))
    (hf : ∀ before b, Triple D i (I before) (f b) (fun _ => I (before ++ [b])) E)
    (before l : List β) :
    Triple D i (I before) (forM l f) (fun _ => I (before ++ l)) E := by
  induction l generalizing before with
  | nil =>
    rw [List.append_nil, List.forM_nil]
    exact pure (hI before) (fun _ => id)
  | cons b l ih =>
    rw [List.forM_cons]
    refine bind hD hE (hf before b) (fun _ => ?_)
    have hrest := ih (before ++ [b])
    rwa [List.append_assoc] at hrest

/-- A program of which nothing is asked. -/
theorem anything (hguar : D.Guarantees) (hrunning : ∀ s, D.running i s)
    (hQ : ∀ a s, Q a s) (hE : ∀ s, E s) (p : Program Op Reply ε α) : Triple D i P p Q E := by
  have h : ∀ s, Meets D i p (Ends Q E) s := by
    induction p with
    | pure a => exact fun _ s' _ => hQ a s'
    | throw e => exact fun _ s' _ => hE s'
    | call op next ih =>
      exact fun _ s' _ => ⟨hrunning s', fun hw choice hok =>
        ⟨fun j hj => hguar i j choice op s' hj hw hok, ih _ _⟩⟩
  exact fun s _ => h s

end Triple

variable [DecidableEq ι]

/-- In every state a run reaches, a program at its end satisfies its postcondition, and one that is
not is running. -/
theorem Triple.run (hD : D.Closed) {P : ι → σ → Prop} {Q : ι → α → σ → Prop} {E : ι → σ → Prop}
    {p q : Pool ι σ Op Reply ε α} (h : ∀ i, Triple D i (P i) (p.program i) (Q i) (E i))
    (hP : ∀ i, P i p.shared) (hrun : Pool.Run D.env D.allowed p q) (i : ι) :
    (∃ a, q.program i = .pure a ∧ Q i a q.shared) ∨ (∃ e, q.program i = .throw e ∧ E i q.shared) ∨
      D.running i q.shared ∧ ∃ op next, q.program i = .call op next := by
  have hmeets : Meets D i (q.program i) (Ends (Q i) (E i)) q.shared :=
    Meets.run hD hrun (fun j => h j _ (hP j)) i
  cases hq : q.program i with
  | pure a =>
    rw [hq] at hmeets
    exact .inl ⟨a, rfl, hmeets _ (hD.refl i _)⟩
  | throw e =>
    rw [hq] at hmeets
    exact .inr (.inl ⟨e, rfl, hmeets _ (hD.refl i _)⟩)
  | call op next =>
    rw [hq] at hmeets
    exact .inr (.inr ⟨(hmeets _ (hD.refl i _)).1, op, next, rfl⟩)

theorem Triple.run_pure (hD : D.Closed) {P : ι → σ → Prop} {Q : ι → α → σ → Prop}
    {E : ι → σ → Prop} {p q : Pool ι σ Op Reply ε α}
    (h : ∀ i, Triple D i (P i) (p.program i) (Q i) (E i)) (hP : ∀ i, P i p.shared)
    (hrun : Pool.Run D.env D.allowed p q) {i : ι} {a : α} (ha : q.program i = .pure a) :
    Q i a q.shared := by
  rcases Triple.run hD h hP hrun i with ⟨a', ha', hends⟩ | ⟨e, he, -⟩ | ⟨-, op, next, hcall⟩
  · rw [ha] at ha'
    cases ha'
    exact hends
  · rw [ha] at he
    cases he
  · rw [ha] at hcall
    cases hcall

theorem Triple.run_throw (hD : D.Closed) {P : ι → σ → Prop} {Q : ι → α → σ → Prop}
    {E : ι → σ → Prop} {p q : Pool ι σ Op Reply ε α}
    (h : ∀ i, Triple D i (P i) (p.program i) (Q i) (E i)) (hP : ∀ i, P i p.shared)
    (hrun : Pool.Run D.env D.allowed p q) {i : ι} {e : ε} (he : q.program i = .throw e) :
    E i q.shared := by
  rcases Triple.run hD h hP hrun i with ⟨a, ha, -⟩ | ⟨e', -, hends⟩ | ⟨-, op, next, hcall⟩
  · rw [he] at ha
    cases ha
  · exact hends
  · rw [he] at hcall
    cases hcall

/-- What running programs and ended ones have in common holds in every state that a run reaches. -/
theorem Triple.run_always (hD : D.Closed) {P E : ι → σ → Prop} {K : σ → Prop}
    {p q : Pool ι σ Op Reply ε α} (h : ∀ i, Triple D i (P i) (p.program i) (fun _ => E i) (E i))
    (hP : ∀ i, P i p.shared) (hE : ∀ i s, E i s → K s) (hK : ∀ i s, D.running i s → K s)
    (hstart : K p.shared) (hrun : Pool.Run D.env D.allowed p q) : K q.shared := by
  cases hrun with
  | start => exact hstart
  | @next _ _ i _ hrun hstep hok =>
    rcases Triple.run hD h hP (.next hrun hstep hok) i with ⟨-, -, hends⟩ | ⟨-, -, hends⟩ |
      ⟨hrunning, -⟩
    · exact hE i _ hends
    · exact hE i _ hends
    · exact hK i _ hrunning

/-- A program that has ended satisfies a postcondition that its values and exceptions share. -/
theorem Triple.run_ended (hD : D.Closed) {P E : ι → σ → Prop} {p q : Pool ι σ Op Reply ε α}
    (h : ∀ i, Triple D i (P i) (p.program i) (fun _ => E i) (E i)) (hP : ∀ i, P i p.shared)
    (hrun : Pool.Run D.env D.allowed p q) (i : ι) (hended : (q.program i).ended = true) :
    E i q.shared := by
  rcases Triple.run hD h hP hrun i with ⟨a, -, hends⟩ | ⟨e, -, hends⟩ | ⟨-, op, next, hcall⟩
  · exact hends
  · exact hends
  · rw [hcall] at hended
    cases hended

end Interaction
