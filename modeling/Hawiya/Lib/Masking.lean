import Hawiya.Lib.Regex

/-!
# Substituting a marker for the matches of a pattern

`sub` shortens or lengthens the text it works on, so that positions move. `strike` overwrites the
same positions in place. `Renders` relates the two: the one text has a marker for each stretch that
is struck out of the other. A substitution keeps the relation (`Renders.sub`), so that several
substitutions in a row can be followed by position in the text they began with, and a pattern that
matches nowhere in the struck text matches nowhere in the rendered one (`Renders.clear`).
-/

namespace Regex

variable {stop : Char} {C D : ℕ → Bool} {s : List Char} {word cls : Char → Bool} {p : Pattern}

/-- The text with the stop character in place of what stands at the positions of `C`. -/
def strike (stop : Char) (C : ℕ → Bool) (s : List Char) : List Char :=
  s.mapIdx fun i c => if C i then stop else c

def Clear (word : Char → Bool) (p : Pattern) (s : List Char) : Prop :=
  ∀ i, lengths word p s i = []

theorem clear_iff : Clear word p s ↔ ∀ i n, n ∉ lengths word p s i := by
  simp only [Clear, List.eq_nil_iff_forall_not_mem]

theorem getElem?_strike (i : ℕ) :
    (strike stop C s)[i]? = s[i]?.map (fun c => if C i then stop else c) := by
  simp [strike]

@[simp] theorem length_strike : (strike stop C s).length = s.length := by simp [strike]

theorem strike_none : strike stop (fun _ => false) s = s := by
  apply List.ext_getElem?
  intro i
  simp [getElem?_strike]

theorem strike_strike :
    strike stop D (strike stop C s) = strike stop (fun i => C i || D i) s := by
  apply List.ext_getElem?
  intro i
  cases hs : s[i]? with
  | none => simp [getElem?_strike, hs]
  | some c => cases hC : C i <;> cases hD : D i <;> simp [getElem?_strike, hs, hC, hD]

theorem has_strike (hcls : cls stop = false) (i : ℕ) :
    has cls (strike stop C s) i = (!C i && has cls s i) := by
  cases hC : C i <;> cases hs : s[i]? <;> simp [has, getElem?_strike, hC, hs, hcls]

theorem has_of_strike {i : ℕ} (h : has cls (strike stop C s) i = true) (hcls : cls stop = false) :
    C i = false ∧ has cls s i = true := by
  rwa [has_strike hcls, Bool.and_eq_true, Bool.not_eq_true'] at h

theorem hasBefore_strike (hcls : cls stop = false) (i : ℕ) :
    hasBefore cls (strike stop C s) (i + 1) = (!C i && has cls s i) :=
  has_strike hcls i

theorem filled_strike (hcls : cls stop = false) {a b : ℕ} :
    Filled cls (strike stop C s) a b ↔
      Filled cls s a b ∧ ∀ j, a ≤ j → j < b → C j = false := by
  simp only [Filled, has_strike hcls, Bool.and_eq_true, Bool.not_eq_true']
  constructor
  · intro h
    exact ⟨fun j hj hj' => (h j hj hj').2, fun j hj hj' => (h j hj hj').1⟩
  · rintro ⟨hs, hC⟩ j hj hj'
    exact ⟨hC j hj hj', hs j hj hj'⟩

theorem avoids_seq {q : Pattern} {c : Char} :
    (Pattern.seq p q).avoids c = true ↔ p.avoids c = true ∧ q.avoids c = true := by
  simp [Pattern.avoids]

theorem avoids_alt {q : Pattern} {c : Char} :
    (Pattern.alt p q).avoids c = true ↔ p.avoids c = true ∧ q.avoids c = true := by
  simp [Pattern.avoids]

/-- Without a word boundary, the matches in the struck text are those of the text that no struck
position touches. -/
theorem mem_lengths_strike (hplain : p.plain = true) (hp : p.avoids stop = true) {i n : ℕ} :
    n ∈ lengths word p (strike stop C s) i ↔
      n ∈ lengths word p s i ∧ ∀ j, i ≤ j → j < i + n → C j = false := by
  induction p generalizing i n with
  | boundary => cases hplain
  | one cls =>
    have hfree : (∀ j, i ≤ j → j < i + 1 → C j = false) ↔ C i = false := by
      constructor
      · intro h
        exact h i le_rfl (by omega)
      · intro h j hj hj'
        obtain rfl : j = i := by omega
        exact h
    have hstop : cls stop = false := by simpa [Pattern.avoids] using hp
    simp only [mem_lengths_one, has_strike hstop, Bool.and_eq_true, Bool.not_eq_true']
    constructor
    · rintro ⟨rfl, hC, hs⟩
      exact ⟨⟨rfl, hs⟩, hfree.mpr hC⟩
    · rintro ⟨⟨rfl, hs⟩, hC⟩
      exact ⟨rfl, hfree.mp hC, hs⟩
  | many lo hi cls =>
    have hstop : cls stop = false := by simpa [Pattern.avoids] using hp
    simp only [mem_lengths_many, filled_strike hstop, and_assoc]
  | seq p q ihp ihq =>
    simp only [Pattern.plain, Bool.and_eq_true] at hplain
    have havoids := avoids_seq.mp hp
    simp only [mem_lengths_seq, ihp hplain.1 havoids.1, ihq hplain.2 havoids.2]
    constructor
    · rintro ⟨a, ⟨ha, hCa⟩, b, ⟨hb, hCb⟩, rfl⟩
      refine ⟨⟨a, ha, b, hb, rfl⟩, fun j hj hj' => ?_⟩
      by_cases hja : j < i + a
      · exact hCa j hj hja
      · exact hCb j (by omega) (by omega)
    · rintro ⟨⟨a, ha, b, hb, rfl⟩, hC⟩
      exact ⟨a, ⟨ha, fun j hj hj' => hC j hj (by omega)⟩, b,
        ⟨hb, fun j hj hj' => hC j (by omega) (by omega)⟩, rfl⟩
  | alt p q ihp ihq =>
    simp only [Pattern.plain, Bool.and_eq_true] at hplain
    have havoids := avoids_alt.mp hp
    simp only [mem_lengths_alt, ihp hplain.1 havoids.1, ihq hplain.2 havoids.2, or_and_right]

theorem Clear.strike (h : Clear word p s) (hplain : p.plain = true) (hp : p.avoids stop = true) :
    Clear word p (strike stop C s) := by
  exact clear_iff.mpr fun i n hn => clear_iff.mp h i n ((mem_lengths_strike hplain hp).mp hn).1

theorem lengths_eq_nil_of_stopped (hp : p.avoids stop = true) (hpos : 0 < p.least) {i : ℕ}
    (h : Stopped stop s i) : lengths word p s i = [] := by
  rw [List.eq_nil_iff_forall_not_mem]
  intro n hn
  have hfilled := filled_of_avoids hp hn
  have hhas := hfilled i le_rfl (by have := least_le hn; omega)
  rw [h.has (by simp)] at hhas
  cases hhas

theorem stopped_strike {i : ℕ} (h : C i = true) : Stopped stop (Regex.strike stop C s) i := by
  intro c hc
  rw [getElem?_strike, h] at hc
  simp only [if_true, Option.map_eq_some_iff] at hc
  obtain ⟨-, -, rfl⟩ := hc
  rfl

/-- Once its matches are struck out, a pattern without a word boundary matches nowhere. -/
theorem clear_strike (hplain : p.plain = true) (hp : p.avoids stop = true) (hpos : 0 < p.least) :
    Clear word p (strike stop (covered word p s) s) := by
  refine clear_iff.mpr fun i n hn => ?_
  obtain ⟨hmem, hfree⟩ := (mem_lengths_strike hplain hp).mp hn
  have hlong := least_le hn
  exact not_mem_of_not_covered (hfree i le_rfl (by omega)) hmem

theorem Solid.mem_strike {body : Pattern} (hsolid : Solid word stop body) {i n : ℕ}
    (h : n ∈ lengths word (.between body) s i) (hC : ∀ j, i ≤ j → j < i + n → C j = false) :
    n ∈ lengths word (.between body) (strike stop C s) i := by
  rw [hsolid.mem_between] at h ⊢
  obtain ⟨hbody, hbefore, hafter⟩ := h
  refine ⟨(mem_lengths_strike hsolid.plain hsolid.avoids).mpr ⟨hbody, hC⟩, ?_, ?_⟩
  · cases i with
    | zero => rfl
    | succ i =>
      change has word s i = false at hbefore
      rw [hasBefore_strike hsolid.nonword, hbefore, Bool.and_false]
  · rw [has_strike hsolid.nonword, hafter, Bool.and_false]

/-- A match of `\b body \b` in the struck text is one of the text where no struck stretch adjoins
it. -/
theorem Solid.mem_of_strike {body : Pattern} (hsolid : Solid word stop body) {i n : ℕ}
    (h : n ∈ lengths word (.between body) (strike stop C s) i)
    (hleft : ∀ j, i = j + 1 → C j = false) (hright : C (i + n) = false) :
    n ∈ lengths word (.between body) s i := by
  rw [hsolid.mem_between] at h ⊢
  obtain ⟨hbody, hbefore, hafter⟩ := h
  refine ⟨((mem_lengths_strike hsolid.plain hsolid.avoids).mp hbody).1, ?_, ?_⟩
  · cases i with
    | zero => rfl
    | succ i =>
      rw [hasBefore_strike hsolid.nonword, hleft i rfl] at hbefore
      simpa [hasBefore] using hbefore
  · rw [has_strike hsolid.nonword, hright] at hafter
    simpa using hafter

/-- Once its matches are struck out, `\b body \b` matches nowhere, since no match of it adjoins
another. -/
theorem Solid.clear_strike {body : Pattern} (hsolid : Solid word stop body) :
    Clear word (.between body) (Regex.strike stop (covered word (.between body) s) s) := by
  refine clear_iff.mpr fun i n hn => ?_
  obtain ⟨hmem, hfree⟩ :=
    (mem_lengths_strike hsolid.plain hsolid.avoids).mp (hsolid.mem_between.mp hn).1
  have hpos := hsolid.pos hmem
  have hi := hfree i le_rfl (by omega)
  apply not_mem_of_not_covered hi
  apply hsolid.mem_of_strike hn
  · rintro j rfl
    exact hsolid.not_covered_left hmem hi
  · obtain ⟨k, hk⟩ : ∃ k, i + n = k + 1 := ⟨i + n - 1, by omega⟩
    rw [hk]
    exact hsolid.not_covered_right hmem (hfree k (by omega) (by omega)) hk

theorem filled_pending (hp : p.avoids stop = true) (i : ℕ) :
    Filled (· != stop) s i (i + pending word p s i) := by
  rcases Nat.eq_zero_or_pos (pending word p s i) with hzero | hpos
  · rw [hzero]
    exact filled_self i
  · obtain ⟨a, n, hit, ha, hn⟩ := exists_hit_of_pending hpos
    exact (filled_of_avoids hp hit.mem).mono ha.le (by omega)

theorem pending_eq_zero (hp : p.avoids stop = true) {i : ℕ} (h : Stopped stop s i) :
    pending word p s i = 0 := by
  by_contra hne
  have hfilled : Filled (· != stop) s i (i + pending word p s i) := filled_pending hp i
  have hhas := hfilled i le_rfl (Nat.lt_add_of_pos_right (Nat.pos_of_ne_zero hne))
  rw [h.has (by simp)] at hhas
  cases hhas

theorem pending_succ_eq_zero (hp : p.avoids stop = true) (hpos : 0 < p.least) {i : ℕ}
    (h : Stopped stop s i) : pending word p s (i + 1) = 0 := by
  rw [pending, pending_eq_zero hp h, matchAt_eq_none.mpr (lengths_eq_nil_of_stopped hp hpos h),
    Option.getD_none]

section Substitution
variable {α β : Type}

theorem map_subFrom (f : α → β) (marker : List α) (y : List Char) (i : ℕ) (t : List α) :
    (subFrom word p marker y i t).map f = subFrom word p (marker.map f) y i (t.map f) := by
  induction t generalizing i with
  | nil => rfl
  | cons c rest ih =>
    simp only [subFrom, List.map_append, List.map_cons, ih]
    split_ifs <;> rfl

theorem map_sub (f : α → β) (char : α → Char) (char' : β → Char) (hchar : ∀ c, char' (f c) = char c)
    (marker t : List α) :
    (sub word p char marker t).map f = sub word p char' (marker.map f) (t.map f) := by
  have hmap : char' ∘ f = char := funext hchar
  rw [sub, sub, map_subFrom, List.map_map, hmap]

theorem subFrom_append {marker t rest : List α} {y : List Char} {i : ℕ}
    (h : ∀ k < t.length, pending word p y (i + k) = 0 ∧ matchAt word p y (i + k) = none) :
    subFrom word p marker y i (t ++ rest) = t ++ subFrom word p marker y (i + t.length) rest := by
  induction t generalizing i with
  | nil => rfl
  | cons c t ih =>
    have h₀ := h 0 (by simp)
    rw [Nat.add_zero] at h₀
    have hrest := ih (i := i + 1) fun k hk => by
      have hk := h (k + 1) (by simpa using hk)
      rwa [Nat.add_comm k 1, ← Nat.add_assoc] at hk
    simp only [List.cons_append, subFrom, h₀.1, h₀.2, ne_eq, not_true_eq_false, if_false,
      Option.isSome_none, Bool.false_eq_true, List.nil_append, hrest, List.length_cons]
    rw [Nat.add_assoc, Nat.add_comm 1]

theorem sub_of_clear {char : α → Char} {marker t : List α} (h : Clear word p (t.map char)) :
    sub word p char marker t = t := by
  have hpending : ∀ i, pending word p (t.map char) i = 0 := by
    intro i
    induction i with
    | zero => rfl
    | succ i ih => rw [pending, ih, matchAt_eq_none.mpr (h i), Option.getD_none]
  have happend : subFrom word p marker (t.map char) 0 (t ++ []) = t ++ [] :=
    subFrom_append fun k _ => ⟨hpending _, matchAt_eq_none.mpr (h _)⟩
  simpa [sub] using happend

end Substitution

/-- A text whose characters carry the position they come from, if any. -/
abbrev Tagged := List (Char × Option ℕ)

def Tagged.chars (x : Tagged) : List Char := x.map Prod.fst

def tagged (s : List Char) : Tagged := s.mapIdx fun i c => (c, some i)

def foreign (marker : List Char) : Tagged := marker.map fun c => (c, none)

/-- `x` is the text `s` from position `i` on with a marker for each stretch that is struck out:
together the stretches hold the positions of `C`. -/
inductive Renders (marker : List Char) (C : ℕ → Bool) (s : List Char) : ℕ → Tagged → Prop
  | nil : Renders marker C s s.length []
  | kept {i : ℕ} {c : Char} {x : Tagged} (hc : s[i]? = some c) (hi : C i = false)
      (rest : Renders marker C s (i + 1) x) : Renders marker C s i ((c, some i) :: x)
  | struck {i n : ℕ} {x : Tagged} (hpos : 0 < n) (hlen : i + n ≤ s.length)
      (hC : ∀ j, i ≤ j → j < i + n → C j = true) (rest : Renders marker C s (i + n) x) :
      Renders marker C s i (foreign marker ++ x)

/-- The stop character is on the outside of the marker, and the pattern matches nowhere in it. -/
structure Inert (word : Char → Bool) (stop : Char) (marker : List Char) (p : Pattern) : Prop where
  nonword : word stop = false
  avoids : p.avoids stop = true
  pos : 0 < p.least
  first : marker.head? = some stop
  last : marker.getLast? = some stop
  clear : Clear word p marker

section Markers
variable {marker X : List Char} {pos i : ℕ} {x : Tagged}

theorem Inert.lengths_in_marker (h : Inert word stop marker p)
    (hX : ∀ k < marker.length, X[pos + k]? = marker[k]?) {k : ℕ} (hk : k < marker.length) :
    lengths word p X (pos + k) = [] := by
  cases k with
  | zero =>
    apply lengths_eq_nil_of_stopped h.avoids h.pos
    intro c hc
    have hfirst := h.first
    rw [hX 0 hk, ← List.head?_eq_getElem?, hfirst, Option.some.injEq] at hc
    exact hc.symm
  | succ k =>
    have hlast : marker[marker.length - 1]? = some stop := by
      rw [← List.getLast?_eq_getElem?, h.last]
    have hend : k + 1 + (marker.length - 1 - (k + 1)) = marker.length - 1 := by omega
    have halike : Alike word stop X (pos + (k + 1)) marker (k + 1) := by
      refine ⟨?_, marker.length - 1 - (k + 1), fun r hr => ?_, fun c hc => ?_, fun c hc => ?_⟩
      · change has word X (pos + k) = has word marker k
        simp only [has, hX k (by omega)]
      · rw [Nat.add_assoc]
        exact hX _ (by omega)
      · rw [Nat.add_assoc, hend, hX _ (by omega), hlast, Option.some.injEq] at hc
        exact hc.symm
      · rw [hend, hlast, Option.some.injEq] at hc
        exact hc.symm
    rw [halike.lengths_eq h.nonword h.avoids]
    exact h.clear _

theorem Inert.pending_in_marker (h : Inert word stop marker p)
    (hX : ∀ k < marker.length, X[pos + k]? = marker[k]?) (h₀ : pending word p X pos = 0) :
    ∀ k ≤ marker.length, pending word p X (pos + k) = 0 := by
  intro k hk
  induction k with
  | zero => exact h₀
  | succ k ih =>
    rw [← Nat.add_assoc, pending, ih (by omega),
      matchAt_eq_none.mpr (h.lengths_in_marker hX (by omega)), Option.getD_none]

theorem chars_foreign_append (x : Tagged) :
    Tagged.chars (foreign marker ++ x) = marker ++ x.chars := by
  simp [Tagged.chars, foreign, Function.comp_def]

theorem getElem?_of_drop {t : List Char} (hX : X.drop pos = t) (k : ℕ) :
    X[pos + k]? = t[k]? := by
  rw [← hX, List.getElem?_drop]

theorem getElem?_marker {t : List Char} (hX : X.drop pos = marker ++ t) :
    ∀ k < marker.length, X[pos + k]? = marker[k]? := by
  intro k hk
  rw [getElem?_of_drop hX, List.getElem?_append_left hk]

/-- A rendered text reads like the struck one up to the next marker. -/
theorem Renders.ahead (h : Renders marker C s i x) (hfirst : marker.head? = some stop) :
    ∃ m, (∀ k < m, x.chars[k]? = (strike stop C s)[i + k]?) ∧ Stopped stop x.chars m ∧
      Stopped stop (strike stop C s) (i + m) := by
  induction h with
  | nil =>
    refine ⟨0, fun k hk => by omega, fun c hc => ?_, fun c hc => ?_⟩
    · cases hc
    · simp at hc
  | @kept i c x hc hi rest ih =>
    obtain ⟨m, hsame, hx, hs⟩ := ih
    refine ⟨m + 1, fun k hk => ?_, hx, ?_⟩
    · cases k with
      | zero => simp [Tagged.chars, getElem?_strike, hc, hi]
      | succ k =>
        have hk := hsame k (by omega)
        rw [Nat.add_assoc, Nat.add_comm 1] at hk
        simpa [Tagged.chars] using hk
    · rwa [Nat.add_comm m 1, ← Nat.add_assoc]
  | @struck i n x hpos hlen hC rest ih =>
    refine ⟨0, fun k hk => by omega, fun c hc => ?_, stopped_strike (hC i le_rfl (by omega))⟩
    have hne : marker ≠ [] := by
      rintro rfl
      cases hfirst
    rw [chars_foreign_append, ← List.head?_eq_getElem?, List.head?_append_of_ne_nil _ hne, hfirst,
      Option.some.injEq] at hc
    exact hc.symm

theorem Renders.alike (h : Renders marker C s i x) (hfirst : marker.head? = some stop)
    (hX : X.drop pos = x.chars)
    (hbefore : hasBefore word X pos = hasBefore word (strike stop C s) i) :
    Alike word stop X pos (strike stop C s) i where
  before := hbefore
  ahead := by
    obtain ⟨m, hsame, hx, hs⟩ := h.ahead hfirst
    refine ⟨m, fun k hk => ?_, ?_, hs⟩
    · rw [getElem?_of_drop hX, hsame k hk]
    · intro c hc
      rw [getElem?_of_drop hX] at hc
      exact hx c hc

theorem drop_succ_of_cons {c : Char} {t : List Char} (hX : X.drop pos = c :: t) :
    X.drop (pos + 1) = t := by
  rw [← List.tail_drop, hX, List.tail_cons]

theorem drop_of_append {t u : List Char} (hX : X.drop pos = t ++ u) :
    X.drop (pos + t.length) = u := by
  rw [← List.drop_drop, hX, List.drop_left]

/-- Behind a marker stands its last character, behind a struck stretch the stop character. -/
theorem Inert.before_after_marker (h : Inert word stop marker p)
    (hX : ∀ k < marker.length, X[pos + k]? = marker[k]?) {n : ℕ} (hn : 0 < n)
    (hC : ∀ j, i ≤ j → j < i + n → C j = true) :
    hasBefore word X (pos + marker.length) = hasBefore word (strike stop C s) (i + n) := by
  have hlen : 0 < marker.length := List.length_pos_of_mem (List.mem_of_getLast? h.last)
  obtain ⟨l, hl⟩ : ∃ l, marker.length = l + 1 := ⟨marker.length - 1, by omega⟩
  obtain ⟨n, rfl⟩ : ∃ n', n = n' + 1 := ⟨n - 1, by omega⟩
  have hlast : marker[l]? = some stop := by
    rw [← h.last, List.getLast?_eq_getElem?, hl, Nat.add_sub_cancel]
  rw [← Nat.add_assoc, hasBefore_strike h.nonword, hC _ (by omega) (by omega), hl, ← Nat.add_assoc]
  simp [hasBefore, has, hX l (by omega), hlast, h.nonword]

variable {y : List Char}

/-- The substitution leaves a marker of an earlier one as it is. -/
theorem Inert.subFrom_foreign (h : Inert word stop marker p) {x rest : Tagged}
    (hX : ∀ k < marker.length, X[pos + k]? = marker[k]?) (h₀ : pending word p X pos = 0) :
    subFrom word p x X pos (foreign marker ++ rest) =
      foreign marker ++ subFrom word p x X (pos + marker.length) rest := by
  have hlen : (foreign marker).length = marker.length := List.length_map _
  rw [subFrom_append, hlen]
  intro k hk
  rw [hlen] at hk
  exact ⟨h.pending_in_marker hX h₀ k hk.le, matchAt_eq_none.mpr (h.lengths_in_marker hX hk)⟩

theorem pending_succ_congr (hpend : pending word p X pos = pending word p y i)
    (hmatch : matchAt word p X pos = matchAt word p y i) :
    pending word p X (pos + 1) = pending word p y (i + 1) := by
  rw [pending, pending, hpend, hmatch]

theorem add_le_length (hp : p.avoids stop = true) {n : ℕ} (hn : n ∈ lengths word p y i)
    (hpos : 0 < n) : i + n ≤ y.length := by
  obtain ⟨m, rfl⟩ : ∃ m, n = m + 1 := ⟨n - 1, by omega⟩
  exact lt_length_of_has (filled_of_avoids hp hn (i + m) (by omega) (by omega))

theorem pending_length (hp : p.avoids stop = true) : pending word p y y.length = 0 :=
  pending_eq_zero hp fun c hc => by simp at hc

/-- The scan at a character that is kept so far: it is part of a match that goes on, it begins one,
or it is kept. -/
theorem Inert.renders_kept (h : Inert word stop marker p) {c : Char} (hc : s[i]? = some c)
    (hi : C i = false)
    (hrest : Renders marker (fun j => C j || covered word p (strike stop C s) j) s
      (i + 1 + pending word p (strike stop C s) (i + 1)) x) :
    Renders marker (fun j => C j || covered word p (strike stop C s) j) s
      (i + pending word p (strike stop C s) i)
      ((if pending word p (strike stop C s) i ≠ 0 then []
        else if (matchAt word p (strike stop C s) i).isSome then foreign marker
        else [(c, some i)]) ++ x) := by
  rcases hk : pending word p (strike stop C s) i with - | k
  · rcases hm : matchAt word p (strike stop C s) i with - | n
    · have hnext : pending word p (strike stop C s) (i + 1) = 0 := by
        rw [pending, hk, hm, Option.getD_none]
      rw [hnext] at hrest
      have hfree : (C i || covered word p (strike stop C s) i) = false := by
        simp [hi, covered, hk, hm]
      simpa using Renders.kept hc hfree hrest
    · have hmem := mem_of_matchAt hm
      have hn : 0 < n := h.pos.trans_le (least_le hmem)
      have hit : Hit word p (strike stop C s) i n := ⟨hk, hm⟩
      have hnext : pending word p (strike stop C s) (i + 1) = n - 1 := hit.pending (by omega) hn
      have hend : i + 1 + (n - 1) = i + n := by omega
      rw [hnext, hend] at hrest
      have hlen := add_le_length h.avoids hmem hn
      rw [length_strike] at hlen
      simpa using Renders.struck hn hlen
        (fun j hj hj' => by rw [hit.covers ⟨hj, hj'⟩, Bool.or_true]) hrest
  · have hnext : pending word p (strike stop C s) (i + 1) = k := by rw [pending, hk]
    have hend : i + 1 + k = i + (k + 1) := by omega
    rw [hnext, hend] at hrest
    simpa using hrest

/-- A substitution marks in the rendered text what it strikes out of the struck one. -/
theorem Renders.subFrom (h : Inert word stop marker p) (hx : Renders marker C s i x)
    (hX : X.drop pos = x.chars)
    (hbefore : hasBefore word X pos = hasBefore word (strike stop C s) i)
    (hpend : pending word p X pos = pending word p (strike stop C s) i) :
    Renders marker (fun j => C j || covered word p (strike stop C s) j) s
      (i + pending word p (strike stop C s) i)
      (Regex.subFrom word p (foreign marker) X pos x) := by
  induction hx generalizing pos with
  | nil =>
    have hzero : pending word p (strike stop C s) (strike stop C s).length = 0 :=
      pending_length h.avoids
    rw [length_strike] at hzero
    rw [hzero]
    exact Renders.nil
  | @kept i c x hc hi rest ih =>
    have halike := (Renders.kept hc hi rest).alike h.first hX hbefore
    have hmatch : matchAt word p X pos = matchAt word p (strike stop C s) i := by
      rw [matchAt, matchAt, halike.lengths_eq h.nonword h.avoids]
    have hrest := ih (drop_succ_of_cons hX) (halike.has_eq h.nonword)
      (pending_succ_congr hpend hmatch)
    rw [Regex.subFrom, hpend, hmatch]
    exact h.renders_kept hc hi hrest
  | @struck i n x hpos hlen hC rest ih =>
    have hstop : Stopped stop (strike stop C s) i := stopped_strike (hC i le_rfl (by omega))
    have hzero : pending word p (strike stop C s) i = 0 := pending_eq_zero h.avoids hstop
    have hnext : pending word p (strike stop C s) (i + n) = 0 := by
      obtain ⟨n, rfl⟩ : ∃ n', n = n' + 1 := ⟨n - 1, by omega⟩
      exact pending_succ_eq_zero h.avoids h.pos (stopped_strike (hC (i + n) (by omega) (by omega)))
    rw [chars_foreign_append] at hX
    have hmarker := getElem?_marker hX
    have hX₀ : pending word p X pos = 0 := by rw [hpend, hzero]
    have hrest := ih (drop_of_append hX) (h.before_after_marker hmarker hpos hC)
      (by rw [h.pending_in_marker hmarker hX₀ _ le_rfl, hnext])
    rw [hzero, h.subFrom_foreign hmarker hX₀]
    rw [hnext] at hrest
    exact Renders.struck hpos hlen (fun j hj hj' => by rw [hC j hj hj', Bool.true_or]) hrest

theorem Renders.sub (h : Inert word stop marker p) (hx : Renders marker C s 0 x) :
    Renders marker (fun j => C j || covered word p (strike stop C s) j) s 0
      (Regex.sub word p Prod.fst (foreign marker) x) :=
  hx.subFrom h (show x.chars.drop 0 = x.chars from rfl) rfl rfl

/-- Where a pattern matches nowhere in the struck text, it matches nowhere in the rendered one. -/
theorem Renders.clear_from (h : Inert word stop marker p) (hclear : Clear word p (strike stop C s))
    (hx : Renders marker C s i x) (hX : X.drop pos = x.chars)
    (hbefore : hasBefore word X pos = hasBefore word (strike stop C s) i) :
    ∀ k, lengths word p X (pos + k) = [] := by
  induction hx generalizing pos with
  | nil =>
    intro k
    apply lengths_eq_nil_of_stopped h.avoids h.pos
    intro c hc
    rw [getElem?_of_drop hX] at hc
    cases hc
  | @kept i c x hc hi rest ih =>
    have halike := (Renders.kept hc hi rest).alike h.first hX hbefore
    intro k
    cases k with
    | zero => exact (halike.lengths_eq h.nonword h.avoids).trans (hclear i)
    | succ k =>
      rw [Nat.add_comm k, ← Nat.add_assoc]
      exact ih (drop_succ_of_cons hX) (halike.has_eq h.nonword) k
  | @struck i n x hpos hlen hC rest ih =>
    rw [chars_foreign_append] at hX
    have hmarker := getElem?_marker hX
    intro k
    by_cases hk : k < marker.length
    · exact h.lengths_in_marker hmarker hk
    · have hrest := ih (drop_of_append hX) (h.before_after_marker hmarker hpos hC)
        (k - marker.length)
      rwa [Nat.add_assoc, Nat.add_sub_cancel' (not_lt.mp hk)] at hrest

theorem Renders.clear (h : Inert word stop marker p) (hclear : Clear word p (strike stop C s))
    (hx : Renders marker C s 0 x) : Clear word p x.chars := by
  intro k
  have hfrom := hx.clear_from h hclear (show x.chars.drop 0 = x.chars from rfl) rfl k
  rwa [Nat.zero_add] at hfrom

/-- A position has survived if and only if it is not among those struck out. -/
theorem Renders.mem_origins (hx : Renders marker C s i x) (j : ℕ) :
    some j ∈ x.map Prod.snd ↔ i ≤ j ∧ j < s.length ∧ C j = false := by
  induction hx with
  | nil =>
    simp only [List.map_nil, List.not_mem_nil, false_iff]
    omega
  | @kept i c x hc hi rest ih =>
    have hlt : i < s.length := (List.getElem?_eq_some_iff.mp hc).1
    rw [List.map_cons, List.mem_cons, ih, Option.some.injEq]
    constructor
    · rintro (rfl | ⟨hij, hj⟩)
      · exact ⟨le_rfl, hlt, hi⟩
      · exact ⟨by omega, hj⟩
    · rintro ⟨hij, hj⟩
      rcases eq_or_lt_of_le hij with rfl | hij
      · exact Or.inl rfl
      · exact Or.inr ⟨hij, hj⟩
  | @struck i n x hpos hlen hC rest ih =>
    have hforeign : some j ∉ (foreign marker).map Prod.snd := by simp [foreign]
    rw [List.map_append, List.mem_append, ih]
    constructor
    · rintro (hmem | ⟨hij, hj⟩)
      · exact absurd hmem hforeign
      · exact ⟨by omega, hj⟩
    · rintro ⟨hij, hlt, hj⟩
      by_cases hjn : j < i + n
      · rw [hC j hij hjn] at hj
        cases hj
      · exact Or.inr ⟨by omega, hlt, hj⟩

end Markers

theorem renders_tagged_from (marker s : List Char) (i : ℕ) (hi : i ≤ s.length) :
    Renders marker (fun _ => false) s i ((s.drop i).mapIdx fun k c => (c, some (i + k))) := by
  induction hn : s.length - i generalizing i with
  | zero =>
    obtain rfl : i = s.length := by omega
    simpa using Renders.nil
  | succ n ih =>
    have hlt : i < s.length := by omega
    rw [List.drop_eq_getElem_cons hlt, List.mapIdx_cons]
    refine Renders.kept (List.getElem?_eq_getElem hlt) rfl ?_
    have hrest := ih (i + 1) hlt (by omega)
    simpa only [Nat.add_assoc, Nat.add_comm 1] using hrest

theorem renders_tagged {marker : List Char} (s : List Char) :
    Renders marker (fun _ => false) s 0 (tagged s) := by
  have hfrom := renders_tagged_from marker s 0 (Nat.zero_le _)
  simpa [tagged] using hfrom

theorem chars_tagged (s : List Char) : (tagged s).chars = s := by
  apply List.ext_getElem?
  intro i
  simp [tagged, Tagged.chars, Function.comp_def]

end Regex
