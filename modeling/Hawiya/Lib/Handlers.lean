import Hawiya.Lib.RelyGuarantee

/-!
# Operations carried out by other programs

`interpret h p` runs `p` with each of its operations carried out by a program `h` over other
operations. The handler keeps a state of its own from one operation to the next; an exception it
raises is raised in `p`, with that state as it was.
-/

namespace Interaction
variable {ι χ σ S ε α β : Type} {Op Op' : Type} {Reply : Op → Type} {Reply' : Op' → Type}

namespace Program

@[grind =] def interpret (h : (op : Op) → S → Program Op' Reply' ε (Reply op × S)) :
    Program Op Reply ε α → S → Program Op' Reply' ε α
  | .pure a, _ => .pure a
  | .throw e, _ => .throw e
  | .call op next, st => (h op st).handle (fun r => match r with
      | .ok (reply, st') => interpret h (next (.ok reply)) st'
      | .error e => interpret h (next (.error e)) st)

theorem only_interpret {ok : Op → Prop} {ok' : Op' → Prop}
    {h : (op : Op) → S → Program Op' Reply' ε (Reply op × S)}
    (hop : ∀ op st, ok op → (h op st).Only ok') {p : Program Op Reply ε α} (hp : p.Only ok)
    (st : S) : (p.interpret h st).Only ok' := by
  induction p generalizing st with
  | pure a => trivial
  | throw e => trivial
  | call op next ih =>
    rw [interpret]
    refine only_handle (hop op st hp.1) (fun r => ?_)
    cases r with
    | ok a => exact ih _ (hp.2 _) a.2
    | error e => exact ih _ (hp.2 _) st

/-- One operation of the interpreted program, on the handler's state and the environment's. -/
def execThrough (exec : (op : Op') → σ → Except ε (Reply' op) × σ)
    (h : (op : Op) → S → Program Op' Reply' ε (Reply op × S)) (op : Op) (s : S × σ) :
    Except ε (Reply op) × (S × σ) :=
  match run exec (h op s.1) s.2 with
  | (.ok (reply, st), s') => (.ok reply, (st, s'))
  | (.error e, s') => (.error e, (s.1, s'))

theorem run_interpret (exec : (op : Op') → σ → Except ε (Reply' op) × σ)
    (h : (op : Op) → S → Program Op' Reply' ε (Reply op × S)) (p : Program Op Reply ε α) (st : S)
    (s : σ) :
    run exec (interpret h p st) s =
      ((run (execThrough exec h) p (st, s)).1, (run (execThrough exec h) p (st, s)).2.2) := by
  induction p generalizing st s with
  | pure a => rfl
  | throw e => rfl
  | call op next ih =>
    simp only [interpret, run_handle, run, execThrough]
    rcases run exec (h op st) s with ⟨r, s'⟩
    cases r with
    | ok a => exact ih _ _ _
    | error e => exact ih _ _ _

end Program

/-- An assertion that the handler keeps at each operation, the interpreted program keeps. -/
theorem Triple.interpret {D : Discipline ι χ Op' Reply' ε σ} {i : ι} (hD : D.Closed)
    {h : (op : Op) → S → Program Op' Reply' ε (Reply op × S)} {I : S → σ → Prop}
    {Q : α → σ → Prop} {E : σ → Prop} (hQ : ∀ a, D.Stable i (Q a)) (hE : D.Stable i E)
    (hop : ∀ op st, Triple D i (I st) (h op st) (fun r => I r.2) (I st))
    (hpure : ∀ a st s, I st s → Q a s) (hthrow : ∀ st s, I st s → E s)
    (p : Program Op Reply ε α) (st : S) : Triple D i (I st) (p.interpret h st) Q E := by
  induction p generalizing st with
  | pure a => exact Triple.pure (hQ a) (fun s hs => hpure a st s hs)
  | throw e => exact Triple.throw hE (fun s hs => hthrow st s hs)
  | call op next ih =>
    rw [Program.interpret]
    refine Triple.handle hD (hop op st) ?_ ?_
    · exact fun r => ih (.ok r.1) r.2
    · exact fun e => ih (.error e) st

/-! `Triple.interpret` asks the same of every program. `MeetsThrough` follows one program, as `Meets`
does, and keeps `I` between its operations, of the handler's state and the environment's. -/

section Through
variable (D : Discipline ι χ Op' Reply' ε σ)
variable (h : (op : Op) → S → Program Op' Reply' ε (Reply op × S)) (I : S → σ → Prop)

def MeetsThrough (i : ι) : Program Op Reply ε α → (Except ε α → σ → Prop) → σ → Prop
  | .pure a, post, s => ∀ s', D.rely i s s' → post (.ok a) s'
  | .throw e, post, s => ∀ s', D.rely i s s' → post (.error e) s'
  | .call op next, post, s => ∀ s', D.rely i s s' → ∀ st, I st s' →
      Meets D i (h op st) (fun r s'' => match r with
        | .ok (reply, st') => I st' s'' ∧ MeetsThrough i (next (.ok reply)) post s''
        | .error e => I st s'' ∧ MeetsThrough i (next (.error e)) post s'') s'

def TripleThrough (i : ι) (P : σ → Prop) (p : Program Op Reply ε α) (Q : α → σ → Prop)
    (E : σ → Prop) : Prop :=
  ∀ s, P s → MeetsThrough D h I i p (Ends Q E) s

variable {D h I} {i : ι}

theorem MeetsThrough.interpret (hD : D.Closed) {p : Program Op Reply ε α}
    {post : Except ε α → σ → Prop} {s : σ} (hp : MeetsThrough D h I i p post s) {st : S}
    (hst : I st s) : Meets D i (p.interpret h st) post s := by
  induction p generalizing s st with
  | pure a => exact hp
  | throw e => exact hp
  | call op next ih =>
    rw [Program.interpret]
    refine Meets.handle hD ((hp s (hD.refl i s) st hst).mono (fun r s' hr => ?_))
    cases r with
    | ok a => exact ih _ hr.2 hr.1
    | error e => exact ih _ hr.2 hr.1

theorem MeetsThrough.mono {p : Program Op Reply ε α} {post post' : Except ε α → σ → Prop} {s : σ}
    (hp : MeetsThrough D h I i p post s) (hpost : ∀ r s, post r s → post' r s) :
    MeetsThrough D h I i p post' s := by
  induction p generalizing s with
  | pure a => exact fun s' hs => hpost _ _ (hp s' hs)
  | throw e => exact fun s' hs => hpost _ _ (hp s' hs)
  | call op next ih =>
    intro s' hs st hst
    refine (hp s' hs st hst).mono (fun r s'' hr => ?_)
    cases r with
    | ok a => exact ⟨hr.1, ih _ hr.2⟩
    | error e => exact ⟨hr.1, ih _ hr.2⟩

theorem MeetsThrough.handle (hD : D.Closed) {p : Program Op Reply ε α}
    {k : Except ε α → Program Op Reply ε β} {post : Except ε β → σ → Prop} {s : σ}
    (hp : MeetsThrough D h I i p (fun r => MeetsThrough D h I i (k r) post) s) :
    MeetsThrough D h I i (p.handle k) post s := by
  induction p generalizing s with
  | pure a => exact hp s (hD.refl i s)
  | throw e => exact hp s (hD.refl i s)
  | call op next ih =>
    intro s' hs st hst
    refine (hp s' hs st hst).mono (fun r s'' hr => ?_)
    cases r with
    | ok a => exact ⟨hr.1, ih _ hr.2⟩
    | error e => exact ⟨hr.1, ih _ hr.2⟩

namespace TripleThrough
variable {P P' : σ → Prop} {Q Q' : α → σ → Prop} {E E' : σ → Prop}

theorem conseq {p : Program Op Reply ε α} (hp : TripleThrough D h I i P p Q E)
    (hP : ∀ s, P' s → P s) (hQ : ∀ a s, Q a s → Q' a s) (hE : ∀ s, E s → E' s) :
    TripleThrough D h I i P' p Q' E' := by
  intro s hs
  refine (hp s (hP s hs)).mono (fun r s' => ?_)
  cases r with
  | ok a => exact hQ a s'
  | error e => exact hE s'

theorem throw {e : ε} (hE : D.Stable i E) (hP : ∀ s, P s → E s) :
    TripleThrough D h I i P (throw e : Program Op Reply ε α) Q E :=
  fun s hs s' hrely => hE s s' hrely (hP s hs)

theorem handle (hD : D.Closed) {p : Program Op Reply ε α} {k : Except ε α → Program Op Reply ε β}
    {R : β → σ → Prop} (hp : TripleThrough D h I i P p Q E)
    (hok : ∀ a, TripleThrough D h I i (Q a) (k (.ok a)) R E')
    (herr : ∀ e, TripleThrough D h I i E (k (.error e)) R E') :
    TripleThrough D h I i P (p.handle k) R E' := by
  intro s hs
  refine MeetsThrough.handle hD ((hp s hs).mono (fun r s' hr => ?_))
  cases r with
  | ok a => exact hok a s' hr
  | error e => exact herr e s' hr

theorem bind (hD : D.Closed) {p : Program Op Reply ε α} {f : α → Program Op Reply ε β}
    {R : β → σ → Prop} (hE : D.Stable i E) (hp : TripleThrough D h I i P p Q E)
    (hf : ∀ a, TripleThrough D h I i (Q a) (f a) R E) :
    TripleThrough D h I i P (p >>= f) R E :=
  handle hD hp hf (fun _ => throw hE (fun _ => id))

/-- One operation, by what the handler does for it. -/
theorem perform (hP : D.Stable i P) {op : Op} {Q : Reply op → σ → Prop}
    (hQ : ∀ a, D.Stable i (Q a)) (hE : D.Stable i E)
    (hop : ∀ st, Triple D i (fun s => P s ∧ I st s) (h op st) (fun r s => Q r.1 s ∧ I r.2 s)
      (fun s => E s ∧ I st s)) :
    TripleThrough D h I i P (Program.perform op) Q E := by
  intro s hs s' hrely st hst
  refine (hop st s' ⟨hP s s' hrely hs, hst⟩).mono (fun r s'' hr => ?_)
  cases r with
  | ok a => exact ⟨hr.2, fun s₂ hrely' => hQ _ _ _ hrely' hr.1⟩
  | error e => exact ⟨hr.2, fun s₂ hrely' => hE _ _ hrely' hr.1⟩

/-- A program all of whose operations keep the assertion. -/
theorem only {ok : Op → Prop} (hP : D.Stable i P)
    (hop : ∀ op st, ok op → Triple D i (fun s => P s ∧ I st s) (h op st)
      (fun r s => P s ∧ I r.2 s) (fun s => P s ∧ I st s))
    {p : Program Op Reply ε α} (hp : p.Only ok) : TripleThrough D h I i P p (fun _ => P) P := by
  intro s hs
  induction p generalizing s with
  | pure a => exact fun s' hrely => hP s s' hrely hs
  | throw e => exact fun s' hrely => hP s s' hrely hs
  | call op next ih =>
    intro s' hrely st hst
    refine (hop op st hp.1 s' ⟨hP s s' hrely hs, hst⟩).mono (fun r s'' hr => ?_)
    cases r with
    | ok a => exact ⟨hr.2, ih _ (hp.2 _) s'' hr.1⟩
    | error e => exact ⟨hr.2, ih _ (hp.2 _) s'' hr.1⟩

end TripleThrough
end Through

end Interaction
