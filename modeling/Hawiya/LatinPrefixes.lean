import Hawiya.ArabicNames

/-!
# The prefix pattern of Latin names

What the pattern matches: one of the recognised prefixes, up to case, and a run of separators to its
end. A name has at most one such beginning, so the alternatives and their order do not matter.
-/

namespace Hawiya.ArabicNames
open PyString

/-- The letter of the pattern that `c` stands for, if there is one. -/
def fold (c : Char) : Char := if c = '\u0130' ∨ c = '\u0131' then 'i' else c.toLower

/-- A hyphen or whitespace. -/
def isSeparator (c : Char) : Bool := c == '-' || isspace c

/-- The recognised prefixes of one word. -/
def prefixWords : List Str := [['a', 'l'], ['e', 'l'], ['b', 'i', 'n'], ['b', 'i', 'n', 't'],
  ['i', 'b', 'n'], ['a', 'b', 'd', 'u', 'l']]

/-- A recognised prefix in the letters of the pattern. -/
inductive Recognised : Str → Prop
  | word {w : Str} (h : w ∈ prefixWords) : Recognised w
  | abd {w : Str} (hne : w ≠ []) (hw : ∀ c ∈ w, isspace c = true) {v : Str}
      (hv : v = ['a', 'l'] ∨ v = ['e', 'l']) : Recognised (['a', 'b', 'd'] ++ w ++ v)

/-- `al`, `el`, `bin`, `bint`, `ibn`, `abdul`, `abd al` or `abd el`, in whatever case. -/
def IsPrefix (p : Str) : Prop := Recognised (p.map fold)

/-- One or more separators. -/
def Separators (w : Str) : Prop := w ≠ [] ∧ ∀ c ∈ w, isSeparator c = true

def IsLower (c : Char) : Prop := 97 ≤ c.toNat ∧ c.toNat ≤ 122

instance (c : Char) : Decidable (IsLower c) := inferInstanceAs (Decidable (_ ∧ _))

theorem toLower_of_not_upper {c : Char} (h : ¬ (65 ≤ c.toNat ∧ c.toNat ≤ 90)) : c.toLower = c := by
  unfold Char.toLower
  rw [dif_neg]
  exact h

theorem toNat_toLower {c : Char} (hlo : 65 ≤ c.toNat) (hhi : c.toNat ≤ 90) :
    c.toLower.toNat = c.toNat + 32 := by
  have h : ∀ n, 65 ≤ n → n ≤ 90 →
      (Char.ofNat n).toLower.toNat = (Char.ofNat n).toNat + 32 :=
    fun n h₁ h₂ => by interval_cases n <;> rfl
  exact of_between (P := fun c => c.toLower.toNat = c.toNat + 32) h hlo hhi

theorem toNat_toUpper {c : Char} (h : IsLower c) : c.toUpper.toNat = c.toNat - 32 := by
  have hall : ∀ n, 97 ≤ n → n ≤ 122 →
      (Char.ofNat n).toUpper.toNat = (Char.ofNat n).toNat - 32 :=
    fun n h₁ h₂ => by interval_cases n <;> rfl
  exact of_between (P := fun c => c.toUpper.toNat = c.toNat - 32) hall h.1 h.2

/-- What folds to a lower-case letter is that letter or its capital. -/
theorem toLower_eq_iff {p c : Char} (hp : IsLower p) : c.toLower = p ↔ c = p ∨ c = p.toUpper := by
  have hupper := toNat_toUpper hp
  unfold IsLower at hp
  by_cases h : 65 ≤ c.toNat ∧ c.toNat ≤ 90
  · have hlower := toNat_toLower h.1 h.2
    constructor
    · rintro rfl
      right
      apply Char.toNat_inj.mp
      omega
    · rintro (rfl | rfl)
      · omega
      · apply Char.toNat_inj.mp
        omega
  · rw [toLower_of_not_upper h]
    constructor
    · exact .inl
    · rintro (rfl | rfl)
      · rfl
      · omega

theorem matchesLetter_iff {p c : Char} (hp : IsLower p) : matchesLetter p c = true ↔ fold c = p := by
  unfold matchesLetter fold
  by_cases hdotted : c = '\u0130' ∨ c = '\u0131'
  · rw [if_pos hdotted]
    have hne : c ≠ p ∧ c ≠ p.toUpper := by
      have hupper := toNat_toUpper hp
      unfold IsLower at hp
      have hc : 304 ≤ c.toNat := by
        rcases hdotted with rfl | rfl
        · decide
        · decide
      constructor
      · rintro rfl
        omega
      · rintro rfl
        omega
    simp only [Bool.or_eq_true, Bool.and_eq_true, beq_iff_eq, hne.1, hne.2, hdotted, false_or,
      and_true]
    exact eq_comm
  · rw [if_neg hdotted, toLower_eq_iff hp]
    rw [not_or] at hdotted
    simp [hdotted.1, hdotted.2]

theorem not_isspace_of_isLower {c : Char} (h : IsLower c) : isspace c = false := by
  have hall : ∀ n, 97 ≤ n → n ≤ 122 → isspace (Char.ofNat n) = false :=
    fun n h₁ h₂ => by interval_cases n <;> decide
  exact of_between (P := fun c => isspace c = false) hall h.1 h.2

/-- Characters that are not letters of the pattern stay as they are. -/
theorem fold_cases (c : Char) :
    fold c = c ∨ IsLower (fold c) ∧ isSeparator c = false ∧ c.toNat < 0x600 := by
  unfold fold
  by_cases hdotted : c = '\u0130' ∨ c = '\u0131'
  · rw [if_pos hdotted]
    refine .inr ⟨by decide, ?_⟩
    rcases hdotted with rfl | rfl
    · exact ⟨by decide, by decide⟩
    · exact ⟨by decide, by decide⟩
  · rw [if_neg hdotted]
    by_cases h : 65 ≤ c.toNat ∧ c.toNat ≤ 90
    · have hlower := toNat_toLower h.1 h.2
      have hsep : ∀ n, 65 ≤ n → n ≤ 90 → isSeparator (Char.ofNat n) = false :=
        fun n h₁ h₂ => by interval_cases n <;> decide
      exact .inr ⟨⟨by omega, by omega⟩,
        of_between (P := fun c => isSeparator c = false) hsep h.1 h.2, by omega⟩
    · exact .inl (toLower_of_not_upper h)

theorem not_isSeparator_of_isLower {c : Char} (h : IsLower c) : isSeparator c = false := by
  have hall : ∀ n, 97 ≤ n → n ≤ 122 → isSeparator (Char.ofNat n) = false :=
    fun n h₁ h₂ => by interval_cases n <;> decide
  exact of_between (P := fun c => isSeparator c = false) hall h.1 h.2

@[simp] theorem isSeparator_fold (c : Char) : isSeparator (fold c) = isSeparator c := by
  rcases fold_cases c with h | ⟨hlower, hsep, -⟩
  · rw [h]
  · rw [not_isSeparator_of_isLower hlower, hsep]

@[simp] theorem isspace_fold (c : Char) : isspace (fold c) = isspace c := by
  rcases fold_cases c with h | ⟨hlower, hsep, -⟩
  · rw [h]
  · rw [not_isspace_of_isLower hlower]
    unfold isSeparator at hsep
    exact (Bool.or_eq_false_iff.mp hsep).2.symm

theorem fold_eq_self_of_isspace {c : Char} (h : isspace c = true) : fold c = c := by
  rcases fold_cases c with h' | ⟨hlower, hsep, -⟩
  · exact h'
  · unfold isSeparator at hsep
    rw [h] at hsep
    simp at hsep

theorem afterWord_eq_some_iff {w : Str} (hw : ∀ c ∈ w, IsLower c) {s t : Str} :
    afterWord w s = some t ↔ ∃ p, s = p ++ t ∧ p.map fold = w := by
  induction w generalizing s with
  | nil =>
    constructor
    · rintro ⟨⟩
      exact ⟨[], rfl, rfl⟩
    · rintro ⟨p, rfl, hp⟩
      rw [List.map_eq_nil_iff.mp hp]
      rfl
  | cons q w ih =>
    have hq := hw q List.mem_cons_self
    have hrest := fun s => ih (fun c hc => hw c (List.mem_cons_of_mem q hc)) (s := s)
    cases s with
    | nil =>
      constructor
      · exact nofun
      · rintro ⟨p, hp, hfold⟩
        obtain ⟨rfl, -⟩ := List.append_eq_nil_iff.mp hp.symm
        cases hfold
    | cons c s =>
      unfold afterWord
      by_cases hc : matchesLetter q c = true
      · rw [if_pos hc, hrest]
        rw [matchesLetter_iff hq] at hc
        constructor
        · rintro ⟨p, rfl, hp⟩
          exact ⟨c :: p, rfl, by rw [List.map_cons, hc, hp]⟩
        · rintro ⟨p, hp, hfold⟩
          cases p with
          | nil => cases hfold
          | cons d p =>
            obtain ⟨rfl, rfl⟩ := List.cons.inj hp
            exact ⟨p, rfl, (List.cons.inj hfold).2⟩
      · rw [if_neg hc]
        rw [matchesLetter_iff hq] at hc
        constructor
        · exact nofun
        · rintro ⟨p, hp, hfold⟩
          cases p with
          | nil => cases hfold
          | cons d p =>
            obtain ⟨rfl, -⟩ := List.cons.inj hp
            exact absurd (List.cons.inj hfold).1 hc

theorem dropWhile_shorter_iff {α : Type} {p : α → Bool} {s : List α} :
    (s.dropWhile p).length < s.length ↔ s.takeWhile p ≠ [] := by
  have hlength := congrArg List.length (List.takeWhile_append_dropWhile (p := p) (l := s))
  rw [List.length_append] at hlength
  rw [← List.length_pos_iff]
  omega

theorem afterSeparators_eq_some {s r : Str} (h : afterSeparators s = some r) :
    ∃ w, Separators w ∧ s = w ++ r ∧ r.dropWhile isSeparator = r := by
  unfold afterSeparators at h
  change (if (s.dropWhile isSeparator).length < s.length then some (s.dropWhile isSeparator)
    else none) = some r at h
  split_ifs at h with hshorter
  cases h
  refine ⟨s.takeWhile isSeparator, ⟨dropWhile_shorter_iff.mp hshorter, fun c hc => ?_⟩,
    List.takeWhile_append_dropWhile.symm, List.dropWhile_idempotent ..⟩
  exact List.mem_takeWhile_imp hc

theorem afterSeparators_append {w : Str} (hw : Separators w) (x : Str) :
    afterSeparators (w ++ x) = some (x.dropWhile isSeparator) := by
  obtain ⟨hne, hall⟩ := hw
  unfold afterSeparators
  change (if ((w ++ x).dropWhile isSeparator).length < (w ++ x).length then
    some ((w ++ x).dropWhile isSeparator) else none) = _
  have hdrop : (w ++ x).dropWhile isSeparator = x.dropWhile isSeparator :=
    List.dropWhile_append_of_pos hall
  have hle := (List.dropWhile_suffix isSeparator (l := x)).length_le
  have hpos := List.length_pos_iff.mpr hne
  rw [hdrop, if_pos (by rw [List.length_append]; omega)]

/-- Whitespace and then a word. -/
theorem afterSpacedWord_eq_some_iff {v : Str} (hv : ∀ c ∈ v, IsLower c) (hne : v ≠ []) {s t : Str} :
    afterSpacedWord v s = some t ↔
      ∃ w p, s = w ++ p ++ t ∧ w ≠ [] ∧ (∀ c ∈ w, isspace c = true) ∧ p.map fold = v := by
  unfold afterSpacedWord
  constructor
  · intro h
    dsimp only at h
    split_ifs at h with hshorter
    obtain ⟨p, hp, hfold⟩ := (afterWord_eq_some_iff hv).mp h
    refine ⟨s.takeWhile isspace, p, ?_, dropWhile_shorter_iff.mp hshorter,
      fun c hc => List.mem_takeWhile_imp hc, hfold⟩
    rw [List.append_assoc, ← hp, List.takeWhile_append_dropWhile]
  · rintro ⟨w, p, rfl, hw, hspaces, hfold⟩
    have hstop : (p ++ t).dropWhile isspace = p ++ t := by
      cases p with
      | nil => exact absurd hfold.symm hne
      | cons c p =>
        have hc : isspace c = false := by
          rw [← isspace_fold]
          exact not_isspace_of_isLower (hv _ (hfold ▸ List.mem_cons_self))
        rw [List.cons_append, List.dropWhile_cons_of_neg (by simp [hc])]
    have hdrop : (w ++ p ++ t).dropWhile isspace = p ++ t := by
      rw [List.append_assoc, List.dropWhile_append_of_pos hspaces, hstop]
    have hpos := List.length_pos_iff.mpr hw
    rw [hdrop, if_pos (by simp only [List.length_append]; omega), afterWord_eq_some_iff hv]
    exact ⟨p, rfl, hfold⟩

theorem isLower_of_mem_prefixWords : ∀ w ∈ prefixWords, ∀ c ∈ w, IsLower c := by
  have hall : prefixWords.all (fun w => w.all (fun c => IsLower c)) = true := rfl
  intro w hw
  exact forall_of_all (List.all_eq_true.mp hall w hw)

theorem isLower_abd : ∀ c ∈ ['a', 'b', 'd'], IsLower c := forall_of_all rfl

theorem isLower_article {v : Str} (h : v = ['a', 'l'] ∨ v = ['e', 'l']) :
    (∀ c ∈ v, IsLower c) ∧ v ≠ [] := by
  rcases h with rfl | rfl
  · exact ⟨forall_of_all rfl, List.cons_ne_nil _ _⟩
  · exact ⟨forall_of_all rfl, List.cons_ne_nil _ _⟩

/-- What an alternative of the pattern consumes is a recognised prefix. -/
theorem isPrefix_of_alternative {alternative : Str → Option Str}
    (halt : alternative ∈ latinPrefixes) {s t : Str} (h : alternative s = some t) :
    ∃ p, s = p ++ t ∧ IsPrefix p := by
  have hword : ∀ w ∈ prefixWords, afterWord w s = some t → ∃ p, s = p ++ t ∧ IsPrefix p := by
    intro w hw hafter
    obtain ⟨p, hp, hfold⟩ := (afterWord_eq_some_iff (isLower_of_mem_prefixWords w hw)).mp hafter
    exact ⟨p, hp, by unfold IsPrefix; rw [hfold]; exact .word hw⟩
  have habd : ∀ v, v = ['a', 'l'] ∨ v = ['e', 'l'] →
      (afterWord ['a', 'b', 'd'] s).bind (afterSpacedWord v) = some t →
      ∃ p, s = p ++ t ∧ IsPrefix p := by
    intro v hv hafter
    obtain ⟨s', hs', hspaced⟩ := Option.bind_eq_some_iff.mp hafter
    obtain ⟨a, rfl, ha⟩ := (afterWord_eq_some_iff isLower_abd).mp hs'
    have hlower := isLower_article hv
    obtain ⟨w, p, rfl, hne, hspaces, hp⟩ :=
      (afterSpacedWord_eq_some_iff hlower.1 hlower.2).mp hspaced
    refine ⟨a ++ w ++ p, by simp only [List.append_assoc], ?_⟩
    have hw : w.map fold = w :=
      (List.map_congr_left (fun c hc => fold_eq_self_of_isspace (hspaces c hc))).trans w.map_id'
    unfold IsPrefix
    rw [List.map_append, List.map_append, ha, hw, hp]
    exact .abd hne hspaces hv
  simp only [latinPrefixes, List.mem_cons, List.not_mem_nil, or_false] at halt
  rcases halt with rfl | rfl | rfl | rfl | rfl | rfl | rfl | rfl
  · exact hword _ (by simp [prefixWords]) h
  · exact hword _ (by simp [prefixWords]) h
  · exact hword _ (by simp [prefixWords]) h
  · exact hword _ (by simp [prefixWords]) h
  · exact hword _ (by simp [prefixWords]) h
  · exact hword _ (by simp [prefixWords]) h
  · exact habd _ (.inl rfl) h
  · exact habd _ (.inr rfl) h

/-- Each recognised prefix is consumed by an alternative, whatever follows it. -/
theorem exists_alternative {p : Str} (h : IsPrefix p) :
    ∃ alternative ∈ latinPrefixes, ∀ t, alternative (p ++ t) = some t := by
  unfold IsPrefix at h
  generalize hf : p.map fold = f at h
  cases h with
  | word hw =>
    refine ⟨afterWord f, ?_, fun t =>
      (afterWord_eq_some_iff (isLower_of_mem_prefixWords f hw)).mpr ⟨p, rfl, hf⟩⟩
    simp only [prefixWords, List.mem_cons, List.not_mem_nil, or_false] at hw
    rcases hw with rfl | rfl | rfl | rfl | rfl | rfl
    all_goals simp [latinPrefixes]
  | @abd w hne hspaces v hv =>
    obtain ⟨q, b, rfl, hq, hb⟩ := List.map_eq_append_iff.mp hf
    obtain ⟨a, w', rfl, ha, hw'⟩ := List.map_eq_append_iff.mp hq
    have hspaces' : ∀ c ∈ w', isspace c = true := by
      intro c hc
      rw [← isspace_fold]
      exact hspaces _ (hw' ▸ List.mem_map_of_mem hc)
    have hne' : w' ≠ [] := by
      rintro rfl
      exact hne hw'.symm
    have hlower := isLower_article hv
    refine ⟨fun s => (afterWord ['a', 'b', 'd'] s).bind (afterSpacedWord v), ?_, fun t => ?_⟩
    · rcases hv with rfl | rfl
      all_goals simp [latinPrefixes]
    · have hfirst : afterWord ['a', 'b', 'd'] (a ++ w' ++ b ++ t) = some (w' ++ b ++ t) :=
        (afterWord_eq_some_iff isLower_abd).mpr ⟨a, by simp only [List.append_assoc], ha⟩
      dsimp only
      rw [hfirst, Option.bind_some, afterSpacedWord_eq_some_iff hlower.1 hlower.2]
      exact ⟨w', b, rfl, hne', hspaces', hb⟩

/-- A recognised prefix ends before the first separator after it. -/
theorem not_recognised_append {f g : Str} {c : Char} (hf : Recognised f) (hc : isSeparator c = true) :
    ¬ Recognised (f ++ c :: g) := by
  intro hlonger
  generalize hl : f ++ c :: g = l at hlonger
  cases hlonger with
  | word hw =>
    have hmem : c ∈ l := hl ▸ by simp
    rw [not_isSeparator_of_isLower (isLower_of_mem_prefixWords l hw c hmem)] at hc
    cases hc
  | @abd w hne hspaces v hv =>
    have hstop : ∀ t, (v ++ t).dropWhile isspace = v ++ t := by
      intro t
      rcases hv with rfl | rfl
      · rfl
      · rfl
    cases hf with
    | word hw =>
      obtain ⟨d, w, rfl⟩ := List.exists_cons_of_ne_nil hne
      have hd := hspaces d List.mem_cons_self
      simp only [prefixWords, List.mem_cons, List.not_mem_nil, or_false] at hw
      rcases hw with rfl | rfl | rfl | rfl | rfl | rfl
      · simp at hl
      · simp at hl
      · simp at hl
      · simp at hl
      · simp at hl
      · simp only [List.cons_append, List.nil_append, List.cons.injEq, true_and] at hl
        rw [← hl.1] at hd
        exact absurd hd (by decide)
    | @abd w₁ hne₁ hspaces₁ v₁ hv₁ =>
      have hrest : w₁ ++ (v₁ ++ c :: g) = w ++ (v ++ []) := by
        simpa only [List.append_assoc, List.cons_append, List.nil_append, List.cons.injEq, true_and,
          List.append_nil] using hl
      have hstop₁ : (v₁ ++ c :: g).dropWhile isspace = v₁ ++ c :: g := by
        rcases hv₁ with rfl | rfl
        · rfl
        · rfl
      have hsame := congrArg (List.dropWhile isspace) hrest
      rw [List.dropWhile_append_of_pos hspaces₁, List.dropWhile_append_of_pos hspaces, hstop,
        hstop₁] at hsame
      have hlength := congrArg List.length hsame
      have hv₂ : v.length = 2 ∧ v₁.length = 2 := by
        rcases hv with rfl | rfl <;> rcases hv₁ with rfl | rfl <;> exact ⟨rfl, rfl⟩
      simp only [List.length_append, List.length_cons, List.length_nil] at hlength
      omega

theorem prefix_unique {p p' w w' x x' : Str} (hp : IsPrefix p) (hp' : IsPrefix p')
    (hw : Separators w) (hw' : Separators w') (h : p ++ (w ++ x) = p' ++ (w' ++ x')) : p = p' := by
  have hlonger : ∀ {p a w x t : Str}, IsPrefix p → IsPrefix (p ++ a) → Separators w →
      w ++ x = a ++ t → a = [] := by
    intro p a w x t hp hpa hw heq
    cases a with
    | nil => rfl
    | cons c a =>
      obtain ⟨d, w, rfl⟩ := List.exists_cons_of_ne_nil hw.1
      obtain ⟨rfl, -⟩ := List.cons.inj heq
      unfold IsPrefix at hpa
      rw [List.map_append, List.map_cons] at hpa
      have hsep := hw.2 d List.mem_cons_self
      exact absurd hpa (not_recognised_append hp (by rwa [isSeparator_fold]))
  rcases List.append_eq_append_iff.mp h with ⟨a, rfl, ha⟩ | ⟨a, rfl, ha⟩
  · rw [hlonger hp hp' hw ha, List.append_nil]
  · rw [hlonger hp' hp hw' ha, List.append_nil]

/-- A name that begins with a recognised prefix and separators, and what is left of it. -/
theorem afterLatinPrefix_append {p w : Str} (hp : IsPrefix p) (hw : Separators w) (x : Str) :
    afterLatinPrefix (p ++ (w ++ x)) = some (x.dropWhile isSeparator) := by
  obtain ⟨alternative, halt, hconsumes⟩ := exists_alternative hp
  have hfinds : (alternative (p ++ (w ++ x))).bind afterSeparators =
      some (x.dropWhile isSeparator) := by
    rw [hconsumes, Option.bind_some, afterSeparators_append hw]
  cases hfound : afterLatinPrefix (p ++ (w ++ x)) with
  | none =>
    have hnone := List.findSome?_eq_none_iff.mp hfound alternative halt
    rw [hnone] at hfinds
    cases hfinds
  | some r =>
    -- the alternative that comes first consumes the same prefix
    obtain ⟨first, hfirst, hbind⟩ := List.exists_of_findSome?_eq_some hfound
    obtain ⟨t, ht, hseps⟩ := Option.bind_eq_some_iff.mp hbind
    obtain ⟨p', hsplit, hp'⟩ := isPrefix_of_alternative hfirst ht
    obtain ⟨w', hw', rfl, hstop⟩ := afterSeparators_eq_some hseps
    have hsame := prefix_unique hp hp' hw hw' hsplit
    subst hsame
    have hrest := List.append_cancel_left hsplit
    have hdrop := congrArg (List.dropWhile isSeparator) hrest
    rw [List.dropWhile_append_of_pos hw.2, List.dropWhile_append_of_pos hw'.2, hstop] at hdrop
    rw [hdrop]

theorem afterLatinPrefix_eq_some {n r : Str} (h : afterLatinPrefix n = some r) :
    ∃ p w, IsPrefix p ∧ Separators w ∧ n = p ++ (w ++ r) := by
  obtain ⟨alternative, halt, hbind⟩ := List.exists_of_findSome?_eq_some h
  obtain ⟨t, ht, hseps⟩ := Option.bind_eq_some_iff.mp hbind
  obtain ⟨p, rfl, hp⟩ := isPrefix_of_alternative halt ht
  obtain ⟨w, hw, rfl, -⟩ := afterSeparators_eq_some hseps
  exact ⟨p, w, hp, hw, rfl⟩

theorem afterLatinPrefix_eq_none_iff {n : Str} :
    afterLatinPrefix n = none ↔
      ∀ p w x, IsPrefix p → Separators w → n ≠ p ++ (w ++ x) := by
  constructor
  · rintro h p w x hp hw rfl
    rw [afterLatinPrefix_append hp hw] at h
    cases h
  · intro h
    cases hfound : afterLatinPrefix n with
    | none => rfl
    | some r =>
      obtain ⟨p, w, hp, hw, hn⟩ := afterLatinPrefix_eq_some hfound
      exact absurd hn (h p w r hp hw)

end Hawiya.ArabicNames
