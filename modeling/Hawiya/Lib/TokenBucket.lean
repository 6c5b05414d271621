import Mathlib.Algebra.Order.Field.Basic
import Mathlib.Tactic

/-!
# Token buckets

A bucket holds at most `capacity` tokens and regains `rate` of them per unit of time. A call at
time `now` finds what was left, refilled since the last call; if it is admitted it takes one token.
Over any window of time the calls admitted are at most the capacity and what the window regains.
Calls that are denied take nothing: what a later call finds is what it would have found without
them.
-/

namespace TokenBucket
variable {K : Type} [Field K] [LinearOrder K]

/-- What is left, and when it was last counted. -/
structure Level (K : Type) where
  tokens : K
  last : K

def available (capacity rate : K) (s : Level K) (now : K) : K :=
  min capacity (s.tokens + max 0 (now - s.last) * rate)

/-- One call, admitted or not. -/
structure Step (capacity rate : K) (s : Level K) (call : K × Bool) (s' : Level K) : Prop where
  last : s'.last = call.1
  admitted : call.2 = true →
    1 ≤ available capacity rate s call.1 ∧ s'.tokens = available capacity rate s call.1 - 1
  denied : call.2 = false → s'.tokens = available capacity rate s call.1

inductive Run (capacity rate : K) : Level K → List (K × Bool) → Level K → Prop
  | nil {s : Level K} : Run capacity rate s [] s
  | cons {s s' s'' : Level K} {call : K × Bool} {calls : List (K × Bool)}
      (step : Step capacity rate s call s') (rest : Run capacity rate s' calls s'') :
      Run capacity rate s (call :: calls) s''

def admitted (start stop : K) (calls : List (K × Bool)) : ℕ :=
  calls.countP (fun c => c.2 && decide (start ≤ c.1) && decide (c.1 ≤ stop))

def Ordered (s : Level K) (calls : List (K × Bool)) : Prop :=
  (∀ c ∈ calls, s.last ≤ c.1) ∧ calls.Pairwise (fun c d => c.1 ≤ d.1)

def Within (capacity : K) (s : Level K) : Prop := 0 ≤ s.tokens ∧ s.tokens ≤ capacity

variable {capacity rate start stop : K} {s s' : Level K} {call : K × Bool} {calls : List (K × Bool)}

theorem Ordered.step (h : Ordered s (call :: calls)) (hstep : Step capacity rate s call s') :
    Ordered s' calls := by
  obtain ⟨hhead, htail⟩ := List.pairwise_cons.mp h.2
  refine ⟨fun c hc => ?_, htail⟩
  rw [hstep.last]
  exact hhead c hc

omit [Field K] in
theorem admitted_cons (call : K × Bool) (calls : List (K × Bool)) :
    admitted start stop (call :: calls) = admitted start stop calls +
      if call.2 = true ∧ start ≤ call.1 ∧ call.1 ≤ stop then 1 else 0 := by
  unfold admitted
  rw [List.countP_cons]
  simp only [Bool.and_eq_true, decide_eq_true_eq, and_assoc]

omit [Field K] in
theorem admitted_of_after (h : ∀ c ∈ calls, stop < c.1) : admitted start stop calls = 0 := by
  refine List.countP_eq_zero.mpr (fun c hc => ?_)
  have hstop : ¬ c.1 ≤ stop := not_le.mpr (h c hc)
  simp [hstop]

omit [Field K] in
theorem Ordered.after (h : Ordered s (call :: calls)) (hstop : stop < call.1) :
    ∀ c ∈ call :: calls, stop < c.1 := by
  intro c hc
  rcases List.mem_cons.mp hc with rfl | hc
  · exact hstop
  · exact lt_of_lt_of_le hstop ((List.pairwise_cons.mp h.2).1 c hc)

variable [IsStrictOrderedRing K]

theorem available_nonneg (hcapacity : 0 ≤ capacity) (hrate : 0 ≤ rate) (hs : 0 ≤ s.tokens)
    (now : K) : 0 ≤ available capacity rate s now :=
  le_min hcapacity (add_nonneg hs (mul_nonneg (le_max_left _ _) hrate))

omit [IsStrictOrderedRing K] in
theorem available_le (capacity rate : K) (s : Level K) (now : K) :
    available capacity rate s now ≤ capacity :=
  min_le_left _ _

theorem available_le_refilled (capacity rate : K) {now : K} (h : s.last ≤ now) :
    available capacity rate s now ≤ s.tokens + (now - s.last) * rate := by
  have helapsed : max 0 (now - s.last) = now - s.last := max_eq_right (sub_nonneg.mpr h)
  exact (min_le_right _ _).trans_eq (by rw [helapsed])

theorem Step.within (hstep : Step capacity rate s call s') (hcapacity : 0 ≤ capacity)
    (hrate : 0 ≤ rate) (hs : Within capacity s) : Within capacity s' := by
  have hle := available_le capacity rate s call.1
  cases hadmitted : call.2 with
  | true =>
    obtain ⟨hone, htokens⟩ := hstep.admitted hadmitted
    rw [Within, htokens]
    exact ⟨by linarith, by linarith⟩
  | false =>
    rw [Within, hstep.denied hadmitted]
    exact ⟨available_nonneg hcapacity hrate hs.1 _, hle⟩

omit [IsStrictOrderedRing K] in
/-- What a call is counted as and what it leaves make up what it found. -/
theorem Step.accounts (hstep : Step capacity rate s call s') :
    s'.tokens + (if call.2 = true then 1 else 0) = available capacity rate s call.1 := by
  cases hadmitted : call.2 with
  | true => simp [(hstep.admitted hadmitted).2]
  | false => simp [hstep.denied hadmitted]

theorem Run.within (hrun : Run capacity rate s calls s') (hcapacity : 0 ≤ capacity)
    (hrate : 0 ≤ rate) (hs : Within capacity s) : Within capacity s' := by
  induction hrun with
  | nil => exact hs
  | cons hstep _ ih => exact ih (hstep.within hcapacity hrate hs)

/-- From a level on: what is left and what is regained until the end pays for the calls. -/
theorem Run.admitted_le (hrun : Run capacity rate s calls s') (hcapacity : 0 ≤ capacity)
    (hrate : 0 ≤ rate) (hs : Within capacity s) (hordered : Ordered s calls)
    (hstop : s.last ≤ stop) :
    (admitted start stop calls : K) ≤ s.tokens + (stop - s.last) * rate := by
  induction hrun with
  | nil =>
    have hregained := mul_nonneg (sub_nonneg.mpr hstop) hrate
    simpa [admitted] using add_nonneg hs.1 hregained
  | @cons s s₁ s₂ call calls hstep hrest ih =>
    by_cases hafter : stop < call.1
    · rw [admitted_of_after (hordered.after hafter)]
      have hregained := mul_nonneg (sub_nonneg.mpr hstop) hrate
      simpa using add_nonneg hs.1 hregained
    · have hcall : call.1 ≤ stop := not_lt.mp hafter
      have hlast : s.last ≤ call.1 := hordered.1 call (List.mem_cons_self ..)
      have hrec := ih (hstep.within hcapacity hrate hs) (hordered.step hstep)
        (hstep.last.trans_le hcall)
      have hfound := available_le_refilled capacity rate hlast
      have haccounts := hstep.accounts
      have hone : ((if call.2 = true ∧ start ≤ call.1 ∧ call.1 ≤ stop then 1 else 0 : ℕ) : K) ≤
          if call.2 = true then 1 else 0 := by
        split_ifs with h₁ h₂
        · simp
        · exact absurd h₁.1 h₂
        · simp
        · simp
      rw [admitted_cons, Nat.cast_add]
      rw [hstep.last] at hrec
      calc (admitted start stop calls : K) + _
          ≤ s₁.tokens + (stop - call.1) * rate + (if call.2 = true then 1 else 0) :=
            add_le_add hrec hone
        _ = available capacity rate s call.1 + (stop - call.1) * rate := by rw [← haccounts]; ring
        _ ≤ s.tokens + (call.1 - s.last) * rate + (stop - call.1) * rate := by linarith
        _ = s.tokens + (stop - s.last) * rate := by ring

/-- Over a window: the capacity and what the window regains pay for the calls. -/
theorem Run.admitted_window_le (hrun : Run capacity rate s calls s') (hcapacity : 0 ≤ capacity)
    (hrate : 0 ≤ rate) (hs : Within capacity s) (hordered : Ordered s calls)
    (hwindow : start ≤ stop) :
    (admitted start stop calls : K) ≤ capacity + (stop - start) * rate := by
  have hregained := mul_nonneg (sub_nonneg.mpr hwindow) hrate
  induction hrun with
  | nil => simpa [admitted] using add_nonneg hcapacity hregained
  | @cons s s₁ s₂ call calls hstep hrest ih =>
    by_cases hstart : call.1 < start
    · have hnot : ¬ (call.2 = true ∧ start ≤ call.1 ∧ call.1 ≤ stop) :=
        fun h => absurd h.2.1 (not_le.mpr hstart)
      rw [admitted_cons, if_neg hnot, Nat.add_zero]
      exact ih (hstep.within hcapacity hrate hs) (hordered.step hstep)
    · by_cases hafter : stop < call.1
      · rw [admitted_of_after (hordered.after hafter)]
        simpa using add_nonneg hcapacity hregained
      · -- the first call of the window: the rest is paid from what it leaves
        have hcall : start ≤ call.1 := not_lt.mp hstart
        have hrec : (admitted start stop calls : K) ≤ s₁.tokens + (stop - s₁.last) * rate :=
          hrest.admitted_le hcapacity hrate (hstep.within hcapacity hrate hs) (hordered.step hstep)
            (hstep.last.trans_le (not_lt.mp hafter))
        have haccounts := hstep.accounts
        have hle := available_le capacity rate s call.1
        have hone : ((if call.2 = true ∧ start ≤ call.1 ∧ call.1 ≤ stop then 1 else 0 : ℕ) : K) =
            if call.2 = true then 1 else 0 := by
          simp [hcall, not_lt.mp hafter]
        have hearlier : (stop - call.1) * rate ≤ (stop - start) * rate :=
          mul_le_mul_of_nonneg_right (by linarith) hrate
        rw [admitted_cons, Nat.cast_add, hone]
        rw [hstep.last] at hrec
        linarith

/-- Refilling twice is refilling once, when what is regained later cannot bring the level down. -/
theorem min_add_min {x y : K} (hy : 0 ≤ y) :
    min capacity (min capacity x + y) = min capacity (x + y) := by
  rcases le_total capacity x with h | h
  · rw [min_eq_left h, min_eq_left (by linarith), min_eq_left (by linarith)]
  · rw [min_eq_right h]

theorem available_of_le (capacity rate : K) {now : K} (h : s.last ≤ now) :
    available capacity rate s now = min capacity (s.tokens + (now - s.last) * rate) := by
  have helapsed : max 0 (now - s.last) = now - s.last := max_eq_right (sub_nonneg.mpr h)
  rw [available, helapsed]

theorem Step.available_of_denied (hstep : Step capacity rate s call s') (hrate : 0 ≤ rate)
    (hdenied : call.2 = false) (hlast : s.last ≤ call.1) {now : K} (hnow : call.1 ≤ now) :
    available capacity rate s' now = available capacity rate s now := by
  have hregained : 0 ≤ (now - call.1) * rate := mul_nonneg (sub_nonneg.mpr hnow) hrate
  have hlast' : s'.last ≤ now := hstep.last.trans_le hnow
  rw [available_of_le capacity rate hlast', hstep.denied hdenied, hstep.last,
    available_of_le capacity rate hlast, available_of_le capacity rate (hlast.trans hnow),
    min_add_min hregained]
  congr 1
  ring

theorem Run.available_of_denied (hrun : Run capacity rate s calls s') (hrate : 0 ≤ rate)
    (hordered : Ordered s calls) (hdenied : ∀ c ∈ calls, c.2 = false) {now : K}
    (hnow : ∀ c ∈ calls, c.1 ≤ now) :
    available capacity rate s' now = available capacity rate s now := by
  induction hrun with
  | nil => rfl
  | cons hstep _ ih =>
    have hhead := hstep.available_of_denied hrate (hdenied _ List.mem_cons_self)
      (hordered.1 _ List.mem_cons_self) (hnow _ List.mem_cons_self)
    rw [← hhead]
    exact ih (hordered.step hstep) (fun c hc => hdenied c (List.mem_cons_of_mem _ hc))
      (fun c hc => hnow c (List.mem_cons_of_mem _ hc))

/-- As long as no whole token has been regained every call is denied. -/
theorem Run.denied_of_less (hrun : Run capacity rate s calls s') (hrate : 0 ≤ rate)
    (hordered : Ordered s calls) (hless : ∀ c ∈ calls, available capacity rate s c.1 < 1) :
    ∀ c ∈ calls, c.2 = false := by
  induction hrun with
  | nil => exact fun c hc => absurd hc List.not_mem_nil
  | @cons s s₁ s₂ call calls hstep _ ih =>
    have hhead : call.2 = false := by
      by_contra hadmitted
      have hone := (hstep.admitted (by simpa using hadmitted)).1
      exact absurd (hless call List.mem_cons_self) (not_lt.mpr hone)
    have hless' : ∀ c ∈ calls, available capacity rate s₁ c.1 < 1 := by
      intro c hc
      rw [hstep.available_of_denied hrate hhead (hordered.1 _ List.mem_cons_self)
        ((List.pairwise_cons.mp hordered.2).1 c hc)]
      exact hless c (List.mem_cons_of_mem _ hc)
    intro c hc
    rcases List.mem_cons.mp hc with rfl | hc
    · exact hhead
    · exact ih (hordered.step hstep) hless' c hc

/-- Whoever waits until the missing part of a token is regained finds a token. -/
theorem one_le_available (hcapacity : 1 ≤ capacity) (hrate : 0 < rate) {now : K}
    (hlast : s.last ≤ now) (hwait : (1 - s.tokens) / rate ≤ now - s.last) :
    1 ≤ available capacity rate s now := by
  have hmissing : 1 - s.tokens ≤ (now - s.last) * rate := (div_le_iff₀ hrate).mp hwait
  rw [available_of_le capacity rate hlast]
  exact le_min hcapacity (by linarith)

theorem available_lt_one (hrate : 0 < rate) {now : K} (hlast : s.last ≤ now)
    (hearly : now - s.last < (1 - s.tokens) / rate) : available capacity rate s now < 1 := by
  have hmissing : (now - s.last) * rate < 1 - s.tokens := (lt_div_iff₀ hrate).mp hearly
  have hle := available_le_refilled capacity rate hlast
  linarith

end TokenBucket
