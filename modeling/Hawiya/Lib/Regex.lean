import Mathlib.Data.List.TakeWhile
import Mathlib.Tactic

/-!
# Regular expressions of a backtracking matcher

Patterns of character classes, greedy repetitions and word boundaries, matched at a position of a
text the way `re` of the Python standard library does: `lengths` lists the matches at a position in
the order in which the matcher tries them, `matchAt` takes the first, and `pending` is the state of
the scan from left to right that `sub` and `finditer` make.

A match at a position depends only on the character before it and on the text up to the first
character that no class of the pattern contains (`Alike.lengths_eq`).
-/

namespace Regex

/-- `\b`, a character of a class, between `lo` and `hi` characters of a class (as many as
possible), a sequence and a choice. -/
inductive Pattern where
  | boundary
  | one (cls : Char → Bool)
  | many (lo : ℕ) (hi : Option ℕ) (cls : Char → Bool)
  | seq (p q : Pattern)
  | alt (p q : Pattern)

def Pattern.lit (c : Char) : Pattern := .one (· == c)

def has (cls : Char → Bool) (s : List Char) (i : ℕ) : Bool := s[i]?.any cls

def hasBefore (cls : Char → Bool) (s : List Char) : ℕ → Bool
  | 0 => false
  | i + 1 => has cls s i

def run (cls : Char → Bool) (s : List Char) (i : ℕ) : ℕ := ((s.drop i).takeWhile cls).length

def atMost (hi : Option ℕ) (n : ℕ) : ℕ := hi.elim n (min n)

/-- The lengths of the matches at position `i`, in the order in which they are tried. -/
@[grind =] def lengths (word : Char → Bool) : Pattern → List Char → ℕ → List ℕ
  | .boundary, s, i => if hasBefore word s i = has word s i then [] else [0]
  | .one cls, s, i => if has cls s i then [1] else []
  | .many lo hi cls, s, i => (List.range' lo (atMost hi (run cls s i) + 1 - lo)).reverse
  | .seq p q, s, i =>
      (lengths word p s i).flatMap fun n => (lengths word q s (i + n)).map (n + ·)
  | .alt p q, s, i => lengths word p s i ++ lengths word q s i

/-- The length of the match that `pattern.match(s, i)` finds. -/
def matchAt (word : Char → Bool) (p : Pattern) (s : List Char) (i : ℕ) : Option ℕ :=
  (lengths word p s i).head?

/-- How many characters from position `i` on belong to a match that begins before `i`, when the
text is searched from left to right for matches that do not overlap. The pattern is one that
matches no empty string. -/
@[grind =] def pending (word : Char → Bool) (p : Pattern) (s : List Char) : ℕ → ℕ
  | 0 => 0
  | i + 1 =>
    match pending word p s i with
    | k + 1 => k
    | 0 => (matchAt word p s i).getD 0 - 1

/-- `(a, a + n)` is the span of a match of `pattern.finditer(s)`. -/
def Hit (word : Char → Bool) (p : Pattern) (s : List Char) (a n : ℕ) : Prop :=
  pending word p s a = 0 ∧ matchAt word p s a = some n

/-- Position `i` belongs to a match of `pattern.finditer(s)`. -/
def covered (word : Char → Bool) (p : Pattern) (s : List Char) (i : ℕ) : Bool :=
  pending word p s i != 0 || (matchAt word p s i).isSome

variable {α : Type}

/-- The rest of `sub` from position `i` of the text `s` on. -/
def subFrom (word : Char → Bool) (p : Pattern) (marker : List α) (s : List Char) :
    ℕ → List α → List α
  | _, [] => []
  | i, c :: rest =>
    (if pending word p s i ≠ 0 then []
      else if (matchAt word p s i).isSome then marker
      else [c]) ++ subFrom word p marker s (i + 1) rest

/-- `pattern.sub(marker, text)`, on a text whose characters may carry further data. -/
def sub (word : Char → Bool) (p : Pattern) (char : α → Char) (marker text : List α) : List α :=
  subFrom word p marker (text.map char) 0 text

def Filled (cls : Char → Bool) (s : List Char) (a b : ℕ) : Prop :=
  ∀ j, a ≤ j → j < b → has cls s j = true

/-- No class of the pattern contains the character. -/
def Pattern.avoids (c : Char) : Pattern → Bool
  | .boundary => true
  | .one cls => !cls c
  | .many _ _ cls => !cls c
  | .seq p q => p.avoids c && q.avoids c
  | .alt p q => p.avoids c && q.avoids c

/-- The pattern has no word boundary. -/
def Pattern.plain : Pattern → Bool
  | .boundary => false
  | .one _ => true
  | .many _ _ _ => true
  | .seq p q => p.plain && q.plain
  | .alt p q => p.plain && q.plain

def Pattern.between (body : Pattern) : Pattern := .seq .boundary (.seq body .boundary)

/-- The least length of a match. -/
def Pattern.least : Pattern → ℕ
  | .boundary => 0
  | .one _ => 1
  | .many lo _ _ => lo
  | .seq p q => p.least + q.least
  | .alt p q => min p.least q.least

section Classes
variable {cls cls' : Char → Bool} {s : List Char}

theorem has_eq_true {i : ℕ} : has cls s i = true ↔ ∃ c, s[i]? = some c ∧ cls c = true := by
  cases hi : s[i]? with
  | none => simp [has, hi]
  | some c => simp [has, hi]

theorem has_mono (h : ∀ c, cls c = true → cls' c = true) {i : ℕ} (hi : has cls s i = true) :
    has cls' s i = true := by
  obtain ⟨c, hc, hcls⟩ := has_eq_true.mp hi
  exact has_eq_true.mpr ⟨c, hc, h c hcls⟩

theorem has_disjoint (h : ∀ c, cls c = true → cls' c = false) {i : ℕ} (hi : has cls s i = true) :
    has cls' s i = false := by
  obtain ⟨c, hc, hcls⟩ := has_eq_true.mp hi
  simp [has, hc, h c hcls]

theorem has_of_lit {c : Char} (hc : cls c = true) {i : ℕ} (hi : has (· == c) s i = true) :
    has cls s i = true :=
  has_mono (fun d hd => by rwa [beq_iff_eq.mp hd]) hi

theorem lt_length_of_has {i : ℕ} (hi : has cls s i = true) : i < s.length := by
  obtain ⟨c, hc, -⟩ := has_eq_true.mp hi
  exact (List.getElem?_eq_some_iff.mp hc).1

theorem Filled.mono {a b a' b' : ℕ} (h : Filled cls s a b) (ha : a ≤ a') (hb : b' ≤ b) :
    Filled cls s a' b' :=
  fun j hj hj' => h j (ha.trans hj) (hj'.trans_le hb)

theorem Filled.imp {a b : ℕ} (h : Filled cls s a b) (hc : ∀ c, cls c = true → cls' c = true) :
    Filled cls' s a b :=
  fun j hj hj' => has_mono hc (h j hj hj')

theorem filled_self (a : ℕ) : Filled cls s a a := fun j hj hj' => by omega

theorem Filled.append {a b c : ℕ} (h : Filled cls s a b) (h' : Filled cls s b c) :
    Filled cls s a c := fun j hj hj' => by
  by_cases hjb : j < b
  · exact h j hj hjb
  · exact h' j (by omega) hj'

theorem filled_one {a : ℕ} : Filled cls s a (a + 1) ↔ has cls s a = true := by
  constructor
  · intro h
    exact h a le_rfl (by omega)
  · intro h j hj hj'
    obtain rfl : j = a := by omega
    exact h

theorem filled_succ {a n : ℕ} :
    Filled cls s a (a + (n + 1)) ↔ has cls s a = true ∧ Filled cls s (a + 1) (a + 1 + n) := by
  constructor
  · intro h
    exact ⟨h a le_rfl (by omega), h.mono (by omega) (by omega)⟩
  · rintro ⟨h₀, h⟩
    exact ((filled_one.mpr h₀).append h).mono le_rfl (by omega)

theorem le_run_iff {i n : ℕ} : n ≤ run cls s i ↔ Filled cls s i (i + n) := by
  induction n generalizing i with
  | zero => simpa using filled_self i
  | succ n ih =>
    rw [filled_succ, ← ih]
    rcases hd : s.drop i with - | ⟨c, rest⟩
    · have hlen := List.drop_eq_nil_iff.mp hd
      have hnone : s[i]? = none := List.getElem?_eq_none hlen
      simp [run, has, hd, hnone]
    · have hc : s[i]? = some c := by
        rw [← List.head?_drop, hd, List.head?_cons]
      have hrest : s.drop (i + 1) = rest := by
        rw [← List.tail_drop, hd, List.tail_cons]
      cases hcls : cls c with
      | false => simp [run, has, hd, hc, hcls]
      | true => simp [run, has, hd, hc, hrest, hcls]

theorem has_run (i : ℕ) : has cls s (i + run cls s i) = false := by
  by_contra h
  have hlast : has cls s (i + run cls s i) = true := by simpa using h
  have hfilled := (le_run_iff.mp (le_refl (run cls s i))).append (filled_one.mpr hlast)
  have hlong : run cls s i + 1 ≤ run cls s i := le_run_iff.mpr (by rwa [Nat.add_assoc] at hfilled)
  omega

/-- Two runs of a class, neither of which goes on to the left or to the right: where the second
meets the first, it lies inside. -/
theorem Filled.inside {a b c d : ℕ} (h : Filled cls s c d) (hbefore : hasBefore cls s a = false)
    (hafter : has cls s b = false) {i : ℕ} (hi : a ≤ i ∧ i < b) (hi' : c ≤ i ∧ i < d) :
    a ≤ c ∧ d ≤ b := by
  constructor
  · by_contra hlt
    obtain ⟨k, rfl⟩ : ∃ k, a = k + 1 := ⟨a - 1, by omega⟩
    have hk := h k (by omega) (by omega)
    rw [hasBefore, hk] at hbefore
    cases hbefore
  · by_contra hlt
    rw [h b (by omega) (by omega)] at hafter
    cases hafter

end Classes

section Lengths
variable {word cls : Char → Bool} {s : List Char} {p q : Pattern} {i n : ℕ}

@[simp] theorem mem_lengths_boundary :
    n ∈ lengths word .boundary s i ↔ n = 0 ∧ hasBefore word s i ≠ has word s i := by
  by_cases h : hasBefore word s i = has word s i <;> simp [lengths, h]

@[simp] theorem mem_lengths_one :
    n ∈ lengths word (.one cls) s i ↔ n = 1 ∧ has cls s i = true := by
  by_cases h : has cls s i = true <;> simp [lengths, h]

@[simp] theorem mem_lengths_many {lo : ℕ} {hi : Option ℕ} :
    n ∈ lengths word (.many lo hi cls) s i ↔
      lo ≤ n ∧ (∀ k ∈ hi, n ≤ k) ∧ Filled cls s i (i + n) := by
  simp only [lengths, List.mem_reverse, List.mem_range', ← le_run_iff]
  cases hi with
  | none =>
    simp only [atMost, Option.elim_none, Option.mem_def, reduceCtorEq, false_implies, implies_true,
      true_and]
    constructor
    · rintro ⟨k, hk, rfl⟩
      omega
    · rintro ⟨hlo, hn⟩
      exact ⟨n - lo, by omega, by omega⟩
  | some h =>
    simp only [atMost, Option.elim_some, Option.mem_def, Option.some.injEq, forall_eq']
    constructor
    · rintro ⟨k, hk, rfl⟩
      omega
    · rintro ⟨hlo, hle, hn⟩
      exact ⟨n - lo, by omega, by omega⟩

@[simp] theorem mem_lengths_seq :
    n ∈ lengths word (.seq p q) s i ↔
      ∃ a ∈ lengths word p s i, ∃ b ∈ lengths word q s (i + a), n = a + b := by
  simp [lengths, eq_comm]

@[simp] theorem mem_lengths_alt :
    n ∈ lengths word (.alt p q) s i ↔ n ∈ lengths word p s i ∨ n ∈ lengths word q s i := by
  simp [lengths]

theorem least_le (h : n ∈ lengths word p s i) : p.least ≤ n := by
  induction p generalizing i n with
  | boundary => exact Nat.zero_le n
  | one cls =>
    obtain ⟨rfl, -⟩ := mem_lengths_one.mp h
    exact le_rfl
  | many lo hi cls => exact (mem_lengths_many.mp h).1
  | seq p q ihp ihq =>
    obtain ⟨a, ha, b, hb, rfl⟩ := mem_lengths_seq.mp h
    exact Nat.add_le_add (ihp ha) (ihq hb)
  | alt p q ihp ihq =>
    rcases mem_lengths_alt.mp h with h | h
    · exact (min_le_left _ _).trans (ihp h)
    · exact (min_le_right _ _).trans (ihq h)

theorem filled_of_avoids {c : Char} (hp : p.avoids c = true) (h : n ∈ lengths word p s i) :
    Filled (· != c) s i (i + n) := by
  have hne : ∀ {cls : Char → Bool}, (!cls c) = true → ∀ d, cls d = true → (d != c) = true := by
    intro cls hcls d hd
    simp only [bne_iff_ne, ne_eq]
    rintro rfl
    simp [hd] at hcls
  induction p generalizing i n with
  | boundary =>
    obtain ⟨rfl, -⟩ := mem_lengths_boundary.mp h
    exact filled_self i
  | one cls =>
    obtain ⟨rfl, hcls⟩ := mem_lengths_one.mp h
    exact (filled_one.mpr hcls).imp (hne hp)
  | many lo hi cls => exact (mem_lengths_many.mp h).2.2.imp (hne hp)
  | seq p q ihp ihq =>
    obtain ⟨a, ha, b, hb, rfl⟩ := mem_lengths_seq.mp h
    simp only [Pattern.avoids, Bool.and_eq_true] at hp
    rw [← Nat.add_assoc]
    exact (ihp hp.1 ha).append (ihq hp.2 hb)
  | alt p q ihp ihq =>
    simp only [Pattern.avoids, Bool.and_eq_true] at hp
    rcases mem_lengths_alt.mp h with h | h
    · exact ihp hp.1 h
    · exact ihq hp.2 h

theorem mem_of_matchAt (h : matchAt word p s i = some n) : n ∈ lengths word p s i :=
  List.mem_of_head? h

theorem matchAt_eq_none : matchAt word p s i = none ↔ lengths word p s i = [] :=
  List.head?_eq_none_iff

theorem exists_matchAt (h : n ∈ lengths word p s i) : ∃ m, matchAt word p s i = some m :=
  Option.ne_none_iff_exists'.mp fun hnone => by
    rw [matchAt_eq_none.mp hnone] at h
    cases h

/-- The first match of a sequence ends with a first match of its second part. -/
theorem exists_of_matchAt_seq (h : matchAt word (.seq p q) s i = some n) :
    ∃ a ∈ lengths word p s i, ∃ b, matchAt word q s (i + a) = some b ∧ n = a + b := by
  rw [matchAt, lengths, List.head?_flatMap] at h
  obtain ⟨a, ha, hfirst⟩ := List.exists_of_findSome?_eq_some h
  rw [List.head?_map, Option.map_eq_some_iff] at hfirst
  obtain ⟨b, hb, rfl⟩ := hfirst
  exact ⟨a, ha, b, hb, rfl⟩

theorem matchAt_many {lo : ℕ} :
    matchAt word (.many lo none cls) s i = some n ↔ n = run cls s i ∧ lo ≤ n := by
  simp only [matchAt, lengths, atMost, Option.elim_none, List.head?_reverse,
    List.getLast?_range']
  split_ifs with h
  · constructor
    · intro hnone
      cases hnone
    · omega
  · rw [Option.some.injEq]
    omega

end Lengths

section Scan
variable {word : Char → Bool} {p : Pattern} {s : List Char} {a b m n i : ℕ}

/-- What the scan still has to pass shrinks by one with each character of a match. -/
theorem Hit.pending (h : Hit word p s a n) : ∀ {k : ℕ}, 0 < k → k ≤ n →
    pending word p s (a + k) = n - k
  | 1, _, _ => by
    simp [Regex.pending, h.1, h.2]
  | k + 2, _, hkn => by
    have ih := Hit.pending h (k := k + 1) (by omega) (by omega)
    have hsplit : n - (k + 1) = (n - (k + 2)) + 1 := by omega
    rw [← Nat.add_assoc, Regex.pending, Nat.add_assoc, ih, hsplit]

theorem exists_hit_of_pending (h : 0 < pending word p s i) :
    ∃ a n, Hit word p s a n ∧ a < i ∧ i + pending word p s i = a + n := by
  induction i with
  | zero => cases h
  | succ i ih =>
    rw [pending] at h ⊢
    rcases hi : pending word p s i with - | k
    · rw [hi] at h
      rcases hm : matchAt word p s i with - | n
      · simp [hm] at h
      · simp only [hm, Option.getD_some] at h ⊢
        exact ⟨i, n, ⟨hi, hm⟩, by omega, by omega⟩
    · simp only [hi] at h ⊢
      obtain ⟨a, n, hit, ha, hn⟩ := ih (by omega)
      exact ⟨a, n, hit, by omega, by omega⟩

theorem Hit.not_inside (h : Hit word p s a n) (hb : Hit word p s b m) (hab : a < b) :
    a + n ≤ b := by
  by_contra hlt
  have hpending := h.pending (k := b - a) (by omega) (by omega)
  rw [Nat.add_sub_cancel' hab.le, hb.1] at hpending
  omega

theorem Hit.mem (h : Hit word p s a n) : n ∈ lengths word p s a := mem_of_matchAt h.2

/-- The covered positions are those of the matches. -/
theorem covered_iff (hp : 0 < p.least) :
    covered word p s i = true ↔ ∃ a n, Hit word p s a n ∧ a ≤ i ∧ i < a + n := by
  simp only [covered, Bool.or_eq_true, bne_iff_ne, ne_eq]
  constructor
  · intro h
    by_cases hpending : pending word p s i = 0
    · obtain ⟨n, hn⟩ := Option.isSome_iff_exists.mp (h.resolve_left (not_not_intro hpending))
      have hpos := hp.trans_le (least_le (mem_of_matchAt hn))
      exact ⟨i, n, ⟨hpending, hn⟩, le_rfl, by omega⟩
    · obtain ⟨a, n, hit, ha, hn⟩ := exists_hit_of_pending (Nat.pos_of_ne_zero hpending)
      exact ⟨a, n, hit, ha.le, by omega⟩
  · rintro ⟨a, n, hit, ha, hn⟩
    rcases eq_or_lt_of_le ha with rfl | hlt
    · exact Or.inr (by rw [hit.2, Option.isSome_some])
    · have hpending := hit.pending (k := i - a) (by omega) (by omega)
      rw [Nat.add_sub_cancel' ha] at hpending
      exact Or.inl (by omega)

theorem Hit.covers (h : Hit word p s a n) (hi : a ≤ i ∧ i < a + n) :
    covered word p s i = true := by
  simp only [covered, Bool.or_eq_true, bne_iff_ne, ne_eq]
  rcases eq_or_lt_of_le hi.1 with rfl | hlt
  · exact Or.inr (by rw [h.2, Option.isSome_some])
  · have hpending := h.pending (k := i - a) (by omega) (by omega)
    rw [Nat.add_sub_cancel' hi.1] at hpending
    exact Or.inl (by omega)

theorem lengths_eq_nil_of_not_covered (h : covered word p s i = false) :
    lengths word p s i = [] := by
  simp only [covered, Bool.or_eq_false_iff, Option.isSome_eq_false_iff,
    Option.isNone_iff_eq_none] at h
  exact matchAt_eq_none.mp h.2

theorem not_mem_of_not_covered (h : covered word p s i = false) : n ∉ lengths word p s i := by
  rw [lengths_eq_nil_of_not_covered h]
  exact List.not_mem_nil

theorem exists_hit_of_covered_succ (hp : 0 < p.least) (h : covered word p s (i + 1) = true)
    (hi : covered word p s i = false) : ∃ n, Hit word p s (i + 1) n := by
  obtain ⟨a, n, hit, ha, hn⟩ := (covered_iff hp).mp h
  rcases eq_or_lt_of_le ha with rfl | hlt
  · exact ⟨n, hit⟩
  · have hcov := hit.covers (i := i) (by omega)
    rw [hcov] at hi
    cases hi

theorem exists_hit_of_not_covered_succ (hp : 0 < p.least) (h : covered word p s i = true)
    (hi : covered word p s (i + 1) = false) : ∃ a n, Hit word p s a n ∧ a + n = i + 1 := by
  obtain ⟨a, n, hit, ha, hn⟩ := (covered_iff hp).mp h
  rcases eq_or_lt_of_le (Nat.succ_le_of_lt hn) with heq | hlt
  · exact ⟨a, n, hit, heq.symm⟩
  · have hcov := hit.covers (i := i + 1) (by omega)
    rw [hcov] at hi
    cases hi

/-- Matches that never overlap are all found. -/
theorem hit_of_isolated
    (hsolo : ∀ {i j m n}, m ∈ lengths word p s i → n ∈ lengths word p s j → i < j → i + m ≤ j)
    (hone : ∀ {i m n}, m ∈ lengths word p s i → n ∈ lengths word p s i → m = n)
    (h : n ∈ lengths word p s a) : Hit word p s a n := by
  constructor
  · by_contra hpending
    obtain ⟨b, m, hit, hb, hm⟩ := exists_hit_of_pending (Nat.pos_of_ne_zero hpending)
    have := hsolo hit.mem h hb
    omega
  · obtain ⟨m, hm⟩ := exists_matchAt h
    rw [hm, hone (mem_of_matchAt hm) h]

end Scan

section Between
variable {word : Char → Bool} {stop : Char} {body : Pattern} {s : List Char} {a i n : ℕ}

/-- A pattern without a word boundary whose matches begin and end with a word character and do not
contain the stop character, which is none. -/
structure Solid (word : Char → Bool) (stop : Char) (body : Pattern) : Prop where
  nonword : word stop = false
  plain : body.plain = true
  avoids : body.avoids stop = true
  least_pos : 0 < body.between.least
  first : ∀ {s i n}, n ∈ lengths word body s i → has word s i = true
  last : ∀ {s i n}, n ∈ lengths word body s i → hasBefore word s (i + n) = true

theorem least_between : body.between.least = body.least := by simp [Pattern.between, Pattern.least]

theorem Solid.pos (h : Solid word stop body) (hn : n ∈ lengths word body s i) : 0 < n :=
  (least_between ▸ h.least_pos).trans_le (least_le hn)

theorem Solid.mem_between (h : Solid word stop body) :
    n ∈ lengths word (.between body) s i ↔
      n ∈ lengths word body s i ∧ hasBefore word s i = false ∧ has word s (i + n) = false := by
  simp only [Pattern.between, mem_lengths_seq, mem_lengths_boundary]
  constructor
  · rintro ⟨a, ⟨rfl, hbefore⟩, b, ⟨c, hc, d, ⟨rfl, hafter⟩, rfl⟩, rfl⟩
    simp only [Nat.add_zero, Nat.zero_add] at hc hafter ⊢
    rw [h.first hc] at hbefore
    rw [h.last hc] at hafter
    exact ⟨hc, by simpa using hbefore, by simpa using hafter⟩
  · rintro ⟨hn, hbefore, hafter⟩
    refine ⟨0, ⟨rfl, ?_⟩, n, ⟨n, by simpa using hn, 0, ⟨rfl, ?_⟩, rfl⟩, by omega⟩
    · rw [hbefore, h.first hn]
      decide
    · rw [Nat.add_zero, hafter, h.last hn]
      decide

/-- What is covered of the matches of `\b body \b` does not adjoin a match of the body on the left. -/
theorem Solid.not_covered_left (h : Solid word stop body) (hn : n ∈ lengths word body s (i + 1))
    (hi : covered word (.between body) s (i + 1) = false) :
    covered word (.between body) s i = false := by
  by_contra hleft
  obtain ⟨a, m, hit, hend⟩ :=
    exists_hit_of_not_covered_succ h.least_pos (by simpa using hleft) hi
  have hafter := (h.mem_between.mp hit.mem).2.2
  rw [hend, h.first hn] at hafter
  cases hafter

/-- Nor on the right. -/
theorem Solid.not_covered_right (h : Solid word stop body) (hn : n ∈ lengths word body s a)
    (hi : covered word (.between body) s i = false) (hend : a + n = i + 1) :
    covered word (.between body) s (i + 1) = false := by
  by_contra hright
  obtain ⟨m, hit⟩ := exists_hit_of_covered_succ h.least_pos (by simpa using hright) hi
  have hbefore := (h.mem_between.mp hit.mem).2.1
  have hlast := h.last hn
  rw [hend, hbefore] at hlast
  cases hlast

end Between

section Repetition
variable {word cls : Char → Bool} {q : Pattern} {s : List Char} {lo a i n : ℕ}

/-- A match that begins with an unbounded repetition also begins one character earlier, where the
class holds there. -/
theorem mem_lengths_extend (h : n ∈ lengths word (.seq (.many lo none cls) q) s (i + 1))
    (hi : has cls s i = true) : n + 1 ∈ lengths word (.seq (.many lo none cls) q) s i := by
  obtain ⟨k, hk, b, hb, rfl⟩ := mem_lengths_seq.mp h
  obtain ⟨hlo, -, hfilled⟩ := mem_lengths_many.mp hk
  refine mem_lengths_seq.mpr ⟨k + 1, mem_lengths_many.mpr ⟨by omega, by simp, ?_⟩, b, ?_, by omega⟩
  · exact filled_succ.mpr ⟨hi, hfilled⟩
  · rwa [Nat.add_comm k 1, ← Nat.add_assoc]

theorem Hit.before_of_seq (h : Hit word (.seq (.many lo none cls) q) s (i + 1) n)
    (hi : covered word (.seq (.many lo none cls) q) s i = false) : has cls s i = false := by
  by_contra hcls
  exact not_mem_of_not_covered hi (mem_lengths_extend h.mem (by simpa using hcls))

theorem Hit.after_of_many (h : Hit word (.many lo none cls) s a n) : has cls s (a + n) = false := by
  obtain ⟨rfl, -⟩ := matchAt_many.mp h.2
  exact has_run a

theorem Hit.before_of_many (hlo : 0 < lo) (h : Hit word (.many lo none cls) s a n) :
    hasBefore cls s a = false := by
  cases a with
  | zero => rfl
  | succ i =>
    by_contra hcls
    obtain ⟨-, -, hfilled⟩ := mem_lengths_many.mp h.mem
    have hpos : lo ≤ n := (matchAt_many.mp h.2).2
    cases hcov : covered word (.many lo none cls) s i with
    | true =>
      obtain ⟨b, m, hit, hb, hm⟩ := (covered_iff (p := .many lo none cls) hlo).mp hcov
      have hend := hit.not_inside h (by omega)
      have hafter := hit.after_of_many
      rw [show b + m = i + 1 by omega, hfilled (i + 1) le_rfl (by omega)] at hafter
      cases hafter
    | false =>
      have hall : Filled cls s i (i + (n + 1)) :=
        filled_succ.mpr ⟨by simpa [hasBefore] using hcls, hfilled⟩
      have hmem : n + 1 ∈ lengths word (.many lo none cls) s i :=
        mem_lengths_many.mpr ⟨by omega, by simp, hall⟩
      exact not_mem_of_not_covered hcov hmem

end Repetition

section Alike
variable {word : Char → Bool} {stop : Char} {x y : List Char} {i j : ℕ}

/-- Nothing but the stop character stands at position `i`. -/
def Stopped (stop : Char) (x : List Char) (i : ℕ) : Prop := ∀ c, x[i]? = some c → c = stop

/-- From position `i` on, `x` reads up to the next stop character as `y` does from `j` on, and a
word character stands before the one position if it does before the other. -/
structure Alike (word : Char → Bool) (stop : Char) (x : List Char) (i : ℕ) (y : List Char) (j : ℕ) :
    Prop where
  before : hasBefore word x i = hasBefore word y j
  ahead : ∃ m, (∀ k < m, x[i + k]? = y[j + k]?) ∧ Stopped stop x (i + m) ∧ Stopped stop y (j + m)

theorem Stopped.has {cls : Char → Bool} (h : Stopped stop x i) (hcls : cls stop = false) :
    Regex.has cls x i = false := by
  by_contra hhas
  obtain ⟨c, hc, hclsc⟩ := has_eq_true.mp (by simpa using hhas)
  rw [h c hc, hcls] at hclsc
  cases hclsc

theorem Alike.has_eq {cls : Char → Bool} (h : Alike word stop x i y j) (hcls : cls stop = false) :
    has cls x i = has cls y j := by
  obtain ⟨m, hsame, hx, hy⟩ := h.ahead
  rcases Nat.eq_zero_or_pos m with rfl | hm
  · simp only [Nat.add_zero] at hx hy
    rw [hx.has hcls, hy.has hcls]
  · have h₀ := hsame 0 hm
    simp only [Nat.add_zero] at h₀
    simp only [Regex.has, h₀]

theorem Alike.step {cls : Char → Bool} (h : Alike word stop x i y j) (hword : word stop = false)
    (hcls : cls stop = false) (hi : has cls x i = true) : Alike word stop x (i + 1) y (j + 1) where
  before := h.has_eq hword
  ahead := by
    obtain ⟨m, hsame, hx, hy⟩ := h.ahead
    rcases Nat.eq_zero_or_pos m with rfl | hm
    · simp only [Nat.add_zero] at hx
      rw [hx.has hcls] at hi
      cases hi
    · obtain ⟨m, rfl⟩ : ∃ m', m = m' + 1 := ⟨m - 1, by omega⟩
      refine ⟨m, fun k hk => ?_, ?_, ?_⟩
      · have hk := hsame (k + 1) (by omega)
        simpa only [Nat.add_assoc, Nat.add_comm 1] using hk
      · simpa only [Nat.add_assoc, Nat.add_comm 1] using hx
      · simpa only [Nat.add_assoc, Nat.add_comm 1] using hy

theorem Alike.filled {cls : Char → Bool} (h : Alike word stop x i y j) (hword : word stop = false)
    (hcls : cls stop = false) {n : ℕ} (hn : Filled cls x i (i + n)) :
    Filled cls y j (j + n) ∧ Alike word stop x (i + n) y (j + n) := by
  induction n generalizing i j with
  | zero => exact ⟨filled_self j, h⟩
  | succ n ih =>
    obtain ⟨h₀, hrest⟩ := filled_succ.mp hn
    obtain ⟨hfilled, halike⟩ := ih (h.step hword hcls h₀) hrest
    refine ⟨filled_succ.mpr ⟨by rw [← h.has_eq hcls, h₀], hfilled⟩, ?_⟩
    simpa only [Nat.add_assoc, Nat.add_comm 1] using halike

theorem Alike.symm (h : Alike word stop x i y j) : Alike word stop y j x i where
  before := h.before.symm
  ahead := by
    obtain ⟨m, hsame, hx, hy⟩ := h.ahead
    exact ⟨m, fun k hk => (hsame k hk).symm, hy, hx⟩

theorem Alike.run_eq {cls : Char → Bool} (h : Alike word stop x i y j) (hword : word stop = false)
    (hcls : cls stop = false) : run cls x i = run cls y j := by
  apply le_antisymm
  · exact le_run_iff.mpr (h.filled hword hcls (le_run_iff.mp le_rfl)).1
  · exact le_run_iff.mpr (h.symm.filled hword hcls (le_run_iff.mp le_rfl)).1

theorem Alike.advance {p : Pattern} (h : Alike word stop x i y j) (hword : word stop = false)
    (hp : p.avoids stop = true) {n : ℕ} (hn : n ∈ lengths word p x i) :
    Alike word stop x (i + n) y (j + n) := by
  have hfilled : Filled (· != stop) x i (i + n) := filled_of_avoids hp hn
  exact (h.filled hword (by simp) hfilled).2

/-- The matches at two positions that are alike are the same. -/
theorem Alike.lengths_eq {p : Pattern} (h : Alike word stop x i y j) (hword : word stop = false)
    (hp : p.avoids stop = true) : lengths word p x i = lengths word p y j := by
  induction p generalizing i j with
  | boundary => simp only [lengths, h.before, h.has_eq hword]
  | one cls => simp only [lengths, h.has_eq (by simpa [Pattern.avoids] using hp)]
  | many lo hi cls =>
    simp only [lengths, h.run_eq hword (by simpa [Pattern.avoids] using hp)]
  | seq p q ihp ihq =>
    simp only [Pattern.avoids, Bool.and_eq_true] at hp
    rw [lengths, lengths, ← ihp h hp.1]
    apply List.flatMap_congr
    intro n hn
    rw [ihq (h.advance hword hp.1 hn) hp.2]
  | alt p q ihp ihq =>
    simp only [Pattern.avoids, Bool.and_eq_true] at hp
    rw [lengths, lengths, ihp h hp.1, ihq h hp.2]

end Alike

end Regex
