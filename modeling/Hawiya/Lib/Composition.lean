import Mathlib.Tactic

/-!
# Canonical composition

Normalization Form C over any alphabet, from a character database. Text is decomposed in full, each
run of marks is put in the order of their classes, and then each character is composed with the last
starter before it unless something between the two blocks it.

The form is local: what stands on the two sides of a starter that composes with neither can be
composed apart. `Anchored` collects such characters, and what may stand between them.
-/

/-- What a character database says of each character. Starters have class zero. -/
structure CharacterData (α : Type*) where
  combiningClass : α → ℕ
  decomposition : α → List α
  primaryComposite : α → α → Option α

namespace CharacterData
variable {α : Type*} (d : CharacterData α)

def decompose (s : List α) : List α := s.flatMap d.decomposition

@[grind =] def insertMark (c : α) : List α → List α
  | [] => [c]
  | b :: s =>
    if 0 < d.combiningClass b ∧ d.combiningClass b < d.combiningClass c then b :: insertMark c s
    else c :: b :: s

/-- The canonical order. Marks of one class keep theirs. -/
def order : List α → List α
  | [] => []
  | c :: s => d.insertMark c (order s)

/-- What stands between the last starter and `c` keeps them apart. -/
def Blocked (between : List α) (c : α) : Prop :=
  ∃ b ∈ between, d.combiningClass b = 0 ∨ d.combiningClass c ≤ d.combiningClass b

instance (between : List α) (c : α) : Decidable (d.Blocked between c) :=
  inferInstanceAs (Decidable (∃ b ∈ between, _ ∨ _))

def composite (starter : α) (between : List α) (c : α) : Option α :=
  if d.Blocked between c then none else d.primaryComposite starter c

/-- Composition behind a starter and the marks that did not compose with it. -/
@[grind =] def composeFrom (starter : α) (between : List α) : List α → List α
  | [] => starter :: between
  | c :: s =>
    match d.composite starter between c with
    | some p => composeFrom p between s
    | none =>
      if d.combiningClass c = 0 then starter :: (between ++ composeFrom c [] s)
      else composeFrom starter (between ++ [c]) s

@[grind =] def compose : List α → List α
  | [] => []
  | c :: s => if d.combiningClass c = 0 then d.composeFrom c [] s else c :: compose s

def nfc (s : List α) : List α := d.compose (d.order (d.decompose s))

def IsNFC (s : List α) : Prop := d.nfc s = s

instance [DecidableEq α] (s : List α) : Decidable (d.IsNFC s) :=
  inferInstanceAs (Decidable (d.nfc s = s))

variable {d}

theorem insertMark_starter {c : α} (hc : d.combiningClass c = 0) (a : α) (s : List α) :
    d.insertMark a (c :: s) = a :: c :: s := by
  rw [insertMark, if_neg (by omega)]

theorem insertMark_append {c : α} (hc : d.combiningClass c = 0) (a : α) (x y : List α) :
    d.insertMark a (x ++ c :: y) = d.insertMark a x ++ c :: y := by
  induction x with
  | nil => exact insertMark_starter hc a y
  | cons b x ih =>
    rw [List.cons_append, insertMark, insertMark]
    by_cases h : 0 < d.combiningClass b ∧ d.combiningClass b < d.combiningClass a
    · rw [if_pos h, if_pos h, ih, List.cons_append]
    · rw [if_neg h, if_neg h, List.cons_append, List.cons_append]

theorem order_append {c : α} (hc : d.combiningClass c = 0) (x y : List α) :
    d.order (x ++ c :: y) = d.order x ++ c :: d.order y := by
  induction x with
  | nil =>
    change d.insertMark c (d.order y) = c :: d.order y
    cases d.order y with
    | nil => rfl
    | cons b s => rw [insertMark, if_neg (by omega)]
  | cons a x ih =>
    change d.insertMark a (d.order (x ++ c :: y)) = d.insertMark a (d.order x) ++ c :: d.order y
    rw [ih, insertMark_append hc]

theorem insertMark_perm (c : α) (s : List α) : (d.insertMark c s).Perm (c :: s) := by
  induction s with
  | nil => exact List.Perm.refl _
  | cons b s ih =>
    rw [insertMark]
    by_cases h : 0 < d.combiningClass b ∧ d.combiningClass b < d.combiningClass c
    · rw [if_pos h]
      exact (ih.cons b).trans (List.Perm.swap c b s)
    · rw [if_neg h]

theorem order_perm (s : List α) : (d.order s).Perm s := by
  induction s with
  | nil => exact List.Perm.refl _
  | cons c s ih => exact (insertMark_perm c _).trans (ih.cons c)

theorem composite_of_none {b c : α} (h : d.primaryComposite b c = none) (between : List α) :
    d.composite b between c = none := by
  unfold composite
  rw [h, ite_self]

/-- Marks of smaller class do not block. -/
theorem composite_of_lt {between : List α} {m : α} (h : ∀ a ∈ between,
    0 < d.combiningClass a ∧ d.combiningClass a < d.combiningClass m) (b : α) :
    d.composite b between m = d.primaryComposite b m := by
  have hnot : ¬ d.Blocked between m := by
    rintro ⟨a, ha, hblock⟩
    have hclass := h a ha
    omega
  unfold composite
  rw [if_neg hnot]

theorem composeFrom_append {c : α} (hc : d.combiningClass c = 0)
    (hbefore : ∀ p, d.primaryComposite p c = none) (starter : α) (between x y : List α) :
    d.composeFrom starter between (x ++ c :: y) =
      d.composeFrom starter between x ++ d.composeFrom c [] y := by
  induction x generalizing starter between with
  | nil =>
    rw [composeFrom, List.nil_append, composeFrom, composite_of_none (hbefore starter)]
    simp only [if_pos hc, List.cons_append]
  | cons a x ih =>
    rw [List.cons_append, composeFrom, composeFrom]
    cases hcomposite : d.composite starter between a with
    | some p => exact ih p between
    | none =>
      by_cases ha : d.combiningClass a = 0
      · simp only [if_pos ha, ih, List.cons_append, List.append_assoc]
      · simp only [if_neg ha, ih]

theorem compose_append {c : α} (hc : d.combiningClass c = 0)
    (hbefore : ∀ p, d.primaryComposite p c = none) (x y : List α) :
    d.compose (x ++ c :: y) = d.compose x ++ d.composeFrom c [] y := by
  induction x with
  | nil => rw [compose, List.nil_append, List.nil_append, compose, if_pos hc]
  | cons a x ih =>
    rw [List.cons_append, compose, compose]
    by_cases ha : d.combiningClass a = 0
    · rw [if_pos ha, if_pos ha, composeFrom_append hc hbefore]
    · rw [if_neg ha, if_neg ha, ih, List.cons_append]

theorem composeFrom_of_none {c : α} {s : List α} (h : ∀ q ∈ s, d.primaryComposite c q = none)
    (between : List α) : d.composeFrom c between s = c :: (between ++ d.compose s) := by
  induction s generalizing between with
  | nil => rw [composeFrom, compose, List.append_nil]
  | cons q s ih =>
    have hrest := fun r hr => h r (List.mem_cons_of_mem q hr)
    rw [composeFrom, composite_of_none (h q List.mem_cons_self), compose]
    by_cases hq : d.combiningClass q = 0
    · simp only [if_pos hq]
    · simp only [if_neg hq, ih hrest, List.append_assoc, List.singleton_append]

/-- A mark that was put in its place still reaches the starter it composes with. -/
theorem composeFrom_insertMark {b m c : α} {s between : List α}
    (hcomposite : d.primaryComposite b m = some c)
    (hb : ∀ q ∈ s, d.primaryComposite b q = none) (hc : ∀ q ∈ s, d.primaryComposite c q = none)
    (hbetween : ∀ a ∈ between, 0 < d.combiningClass a ∧ d.combiningClass a < d.combiningClass m) :
    d.composeFrom b between (d.insertMark m s) = c :: (between ++ d.compose s) := by
  induction s generalizing between with
  | nil =>
    rw [insertMark, composeFrom, composite_of_lt hbetween, hcomposite]
    simp only [composeFrom, compose, List.append_nil]
  | cons q s ih =>
    rw [insertMark]
    by_cases h : 0 < d.combiningClass q ∧ d.combiningClass q < d.combiningClass m
    · have hmark : d.combiningClass q ≠ 0 := by omega
      have hlater : ∀ a ∈ between ++ [q],
          0 < d.combiningClass a ∧ d.combiningClass a < d.combiningClass m := by
        intro a ha
        rcases List.mem_append.mp ha with ha | ha
        · exact hbetween a ha
        · rw [List.mem_singleton.mp ha]
          exact h
      have hrest := ih (fun r hr => hb r (List.mem_cons_of_mem q hr))
        (fun r hr => hc r (List.mem_cons_of_mem q hr)) hlater
      rw [if_pos h, composeFrom, composite_of_none (hb q List.mem_cons_self), compose, if_neg hmark]
      simp only [if_neg hmark]
      rw [hrest, List.append_assoc, List.singleton_append]
    · rw [if_neg h, composeFrom, composite_of_lt hbetween, hcomposite]
      exact composeFrom_of_none hc between

/-- What holds of the characters and is passed on to composites holds of the composition. -/
theorem forall_composeFrom {P : α → Prop}
    (hP : ∀ b c p, P b → P c → d.primaryComposite b c = some p → P p) {starter : α}
    {between s : List α} (hstarter : P starter) (hbetween : ∀ c ∈ between, P c)
    (hs : ∀ c ∈ s, P c) : ∀ c ∈ d.composeFrom starter between s, P c := by
  induction s generalizing starter between with
  | nil =>
    rw [composeFrom]
    exact List.forall_mem_cons.mpr ⟨hstarter, hbetween⟩
  | cons a s ih =>
    obtain ⟨ha, hrest⟩ := List.forall_mem_cons.mp hs
    rw [composeFrom]
    cases hcomposite : d.composite starter between a with
    | some p =>
      have hp : d.primaryComposite starter a = some p := by
        unfold composite at hcomposite
        split_ifs at hcomposite
        exact hcomposite
      exact ih (hP starter a p hstarter ha hp) hbetween hrest
    | none =>
      by_cases hclass : d.combiningClass a = 0
      · simp only [if_pos hclass]
        refine List.forall_mem_cons.mpr ⟨hstarter, List.forall_mem_append.mpr ⟨hbetween, ?_⟩⟩
        exact ih ha (List.forall_mem_nil _) hrest
      · simp only [if_neg hclass]
        have hlater := List.forall_mem_append.mpr ⟨hbetween, List.forall_mem_singleton.mpr ha⟩
        exact ih hstarter hlater hrest

theorem forall_compose {P : α → Prop}
    (hP : ∀ b c p, P b → P c → d.primaryComposite b c = some p → P p) {s : List α}
    (hs : ∀ c ∈ s, P c) : ∀ c ∈ d.compose s, P c := by
  induction s with
  | nil => exact List.forall_mem_nil _
  | cons a s ih =>
    obtain ⟨ha, hrest⟩ := List.forall_mem_cons.mp hs
    rw [compose]
    by_cases hclass : d.combiningClass a = 0
    · rw [if_pos hclass]
      exact forall_composeFrom hP ha (List.forall_mem_nil _) hrest
    · rw [if_neg hclass]
      exact List.forall_mem_cons.mpr ⟨ha, ih hrest⟩

theorem composeFrom_ne_nil (starter : α) (between s : List α) :
    d.composeFrom starter between s ≠ [] := by
  induction s generalizing starter between with
  | nil => exact List.cons_ne_nil _ _
  | cons a s ih =>
    rw [composeFrom]
    cases d.composite starter between a with
    | some p => exact ih p between
    | none =>
      by_cases hclass : d.combiningClass a = 0
      · simp only [if_pos hclass]
        exact List.cons_ne_nil _ _
      · simp only [if_neg hclass]
        exact ih starter _

theorem decompose_append (x y : List α) : d.decompose (x ++ y) = d.decompose x ++ d.decompose y :=
  List.flatMap_append

theorem forall_nfc {P : α → Prop} (hP : ∀ b c p, P b → P c → d.primaryComposite b c = some p → P p)
    {s : List α} (hs : ∀ c ∈ s, ∀ b ∈ d.decomposition c, P b) : ∀ c ∈ d.nfc s, P c := by
  refine forall_compose hP (fun b hb => ?_)
  obtain ⟨c, hc, hbc⟩ := List.mem_flatMap.mp ((order_perm _).mem_iff.mp hb)
  exact hs c hc b hbc

theorem nfc_ne_nil (hne : ∀ c, d.decomposition c ≠ []) {s : List α} (hs : s ≠ []) :
    d.nfc s ≠ [] := by
  have hdecompose : d.decompose s ≠ [] := by
    obtain ⟨c, s, rfl⟩ := List.exists_cons_of_ne_nil hs
    exact List.append_ne_nil_of_left_ne_nil (hne c) _
  have horder : d.order (d.decompose s) ≠ [] := by
    intro hnil
    have hperm := order_perm (d := d) (d.decompose s)
    rw [hnil] at hperm
    exact hdecompose hperm.nil_eq.symm
  obtain ⟨c, t, ht⟩ := List.exists_cons_of_ne_nil horder
  unfold nfc
  rw [ht, compose]
  split_ifs
  · exact composeFrom_ne_nil c [] t
  · exact List.cons_ne_nil _ _

/-- Text on the two sides of a starter that composes with neither is normalized apart. -/
theorem nfc_append {c : α} (hc : d.combiningClass c = 0)
    (hbefore : ∀ p, d.primaryComposite p c = none) (hself : d.decomposition c = [c]) {y : List α}
    (hafter : ∀ q ∈ d.decompose y, d.primaryComposite c q = none) (x : List α) :
    d.nfc (x ++ c :: y) = d.nfc x ++ c :: d.nfc y := by
  have hordered : ∀ q ∈ d.order (d.decompose y), d.primaryComposite c q = none :=
    fun q hq => hafter q ((order_perm _).mem_iff.mp hq)
  have hdecompose : d.decompose (c :: y) = c :: d.decompose y := by
    change d.decomposition c ++ d.decompose y = c :: d.decompose y
    rw [hself, List.singleton_append]
  unfold nfc
  rw [decompose_append, hdecompose, order_append hc, compose_append hc hbefore,
    composeFrom_of_none hordered, List.nil_append]

/-- The same of a composite of such a starter and a mark. -/
theorem nfc_append_composite {b m c : α} (hb : d.combiningClass b = 0)
    (hbefore : ∀ p, d.primaryComposite p b = none) (hparts : d.decomposition c = [b, m])
    (hcomposite : d.primaryComposite b m = some c) {y : List α}
    (hafter : ∀ q ∈ d.decompose y, d.primaryComposite b q = none)
    (hafter' : ∀ q ∈ d.decompose y, d.primaryComposite c q = none) (x : List α) :
    d.nfc (x ++ c :: y) = d.nfc x ++ c :: d.nfc y := by
  have hordered : ∀ {e}, (∀ q ∈ d.decompose y, d.primaryComposite e q = none) →
      ∀ q ∈ d.order (d.decompose y), d.primaryComposite e q = none :=
    fun h q hq => h q ((order_perm _).mem_iff.mp hq)
  have hdecompose : d.decompose (c :: y) = b :: m :: d.decompose y := by
    change d.decomposition c ++ d.decompose y = b :: m :: d.decompose y
    rw [hparts]
    rfl
  unfold nfc
  rw [decompose_append, hdecompose, order_append hb, compose_append hb hbefore, order,
    composeFrom_insertMark hcomposite (hordered hafter) (hordered hafter') (List.forall_mem_nil _),
    List.nil_append]

/-- Characters at which text can be cut, among plain ones that composition leaves plain. -/
structure Anchored (d : CharacterData α) (Plain Anchor : α → Prop) : Prop where
  disjoint : ∀ c, Plain c → ¬ Anchor c
  plain : ∀ y, (∀ c ∈ y, Plain c) → ∀ c ∈ d.nfc y, Plain c
  cut : ∀ x c y, Anchor c → (∀ q ∈ y, Plain q) → d.nfc (x ++ c :: y) = d.nfc x ++ c :: d.nfc y

/-- What is true of plain text, and of text up to its last anchor when it is of what stands before
it, is true of text that is plain between its anchors. -/
theorem anchored_induction {Plain Anchor : α → Prop} {P : List α → Prop}
    (plain : ∀ y, (∀ c ∈ y, Plain c) → P y)
    (anchor : ∀ x c y, (∀ a ∈ x, Plain a ∨ Anchor a) → Anchor c → (∀ q ∈ y, Plain q) → P x →
      P (x ++ c :: y))
    {s : List α} (hs : ∀ c ∈ s, Plain c ∨ Anchor c) : P s := by
  have hall : ∀ y, (∀ q ∈ y, Plain q) → P (s ++ y) := by
    induction s using List.reverseRecOn with
    | nil => exact plain
    | append_singleton x c ih =>
      intro y hy
      have hx := fun a ha => hs a (List.mem_append_left [c] ha)
      have hc : Plain c ∨ Anchor c := hs c (List.mem_append_right x List.mem_cons_self)
      rw [List.append_assoc, List.singleton_append]
      rcases hc with hc | hc
      · exact ih hx (c :: y) (List.forall_mem_cons.mpr ⟨hc, hy⟩)
      · have hbefore := ih hx [] (List.forall_mem_nil _)
        rw [List.append_nil] at hbefore
        exact anchor x c y hx hc hy hbefore
  rw [← List.append_nil s]
  exact hall [] (List.forall_mem_nil _)

theorem eq_of_last_eq {c : α} {x y x' y' : List α} (hy : c ∉ y) (hy' : c ∉ y')
    (h : x ++ c :: y = x' ++ c :: y') : x = x' ∧ y = y' := by
  have hnil : ∀ {a z z' : List α}, c ∉ z → c :: z = a ++ c :: z' → a = [] := by
    intro a z z' hz hsame
    cases a with
    | nil => rfl
    | cons b a =>
      rw [(List.cons.inj hsame).2] at hz
      exact absurd (List.mem_append_right a List.mem_cons_self) hz
  rcases List.append_eq_append_iff.mp h with ⟨a, hx, hrest⟩ | ⟨a, hx, hrest⟩
  · obtain rfl := hnil hy hrest
    rw [List.append_nil] at hx
    exact ⟨hx.symm, (List.cons.inj hrest).2⟩
  · obtain rfl := hnil hy' hrest
    rw [List.append_nil] at hx
    exact ⟨hx, (List.cons.inj hrest).2.symm⟩

namespace Anchored
variable {Plain Anchor : α → Prop} (h : d.Anchored Plain Anchor)
include h

theorem nfc_anchor {c : α} (hc : Anchor c) {y : List α} (hy : ∀ q ∈ y, Plain q ∨ Anchor q)
    (x : List α) : d.nfc (x ++ c :: y) = d.nfc x ++ c :: d.nfc y := by
  refine anchored_induction (P := fun y => d.nfc (x ++ c :: y) = d.nfc x ++ c :: d.nfc y)
    (fun y hy => h.cut x c y hc hy) (fun y e z _ he hz ih => ?_) hy
  calc d.nfc (x ++ c :: (y ++ e :: z))
      = d.nfc ((x ++ c :: y) ++ e :: z) := by rw [List.append_assoc, List.cons_append]
    _ = d.nfc x ++ c :: (d.nfc y ++ e :: d.nfc z) := by
        rw [h.cut (x ++ c :: y) e z he hz, ih, List.append_assoc, List.cons_append]
    _ = d.nfc x ++ c :: d.nfc (y ++ e :: z) := by rw [h.cut y e z he hz]

/-- Nothing but plain characters is new. -/
theorem mem_nfc {s : List α} (hs : ∀ c ∈ s, Plain c ∨ Anchor c) :
    ∀ c ∈ d.nfc s, Plain c ∨ c ∈ s := by
  refine anchored_induction (P := fun s => ∀ c ∈ d.nfc s, Plain c ∨ c ∈ s)
    (fun y hy c hc => .inl (h.plain y hy c hc)) (fun x a y _ ha hy ih c hc => ?_) hs
  rw [h.cut x a y ha hy] at hc
  rcases List.mem_append.mp hc with hc | hc
  · exact (ih c hc).imp_right (List.mem_append_left _)
  · rcases List.mem_cons.mp hc with rfl | hc
    · exact .inr (List.mem_append_right x List.mem_cons_self)
    · exact .inl (h.plain y hy c hc)

theorem isNFC_anchor {c : α} (hc : Anchor c) {y : List α} (hy : ∀ q ∈ y, Plain q ∨ Anchor q)
    (x : List α) : d.IsNFC (x ++ c :: y) ↔ d.IsNFC x ∧ d.IsNFC y := by
  have hlast : ∀ x c y, Anchor c → (∀ q ∈ y, Plain q) →
      (d.IsNFC (x ++ c :: y) ↔ d.IsNFC x ∧ d.IsNFC y) := by
    intro x c y hc hy
    have hnot : c ∉ y := fun hmem => h.disjoint c (hy c hmem) hc
    have hnot' : c ∉ d.nfc y := fun hmem => h.disjoint c (h.plain y hy c hmem) hc
    unfold IsNFC
    rw [h.cut x c y hc hy]
    constructor
    · exact eq_of_last_eq hnot' hnot
    · rintro ⟨hx, hy'⟩
      rw [hx, hy']
  refine anchored_induction (P := fun y => d.IsNFC (x ++ c :: y) ↔ d.IsNFC x ∧ d.IsNFC y)
    (fun y hy => hlast x c y hc hy) (fun y e z _ he hz ih => ?_) hy
  have hassoc : x ++ c :: (y ++ e :: z) = (x ++ c :: y) ++ e :: z := by
    rw [List.append_assoc, List.cons_append]
  rw [hassoc, hlast _ e z he hz, hlast y e z he hz, ih, and_assoc]

end Anchored
end CharacterData
