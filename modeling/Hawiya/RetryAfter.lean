import Hawiya.RateWindow

/-!
# What a denied call is told

The number of seconds in a denial, against the calls that come after it. Calls that are denied leave
the bucket as it would be without them, so polling early postpones nothing.
-/

namespace Hawiya
namespace RateLimiter
open TokenBucket

variable {n : ℤ} {k : UUID × EndpointClass} {buckets : Buckets} {s : Level ℚ} {c : Call}

theorem isSome_checkCall (c : Call) (h : (buckets k).isSome) :
    ((checkCall n buckets c).2 k).isSome := by
  by_cases hk : c.key = k
  · subst hk
    cases hb : bucketFor n buckets c.tenant_id c.endpoint_class c.now with
    | error e => rwa [checkCall_of_error hb]
    | ok b =>
      rw [checkCall_of_ok hb]
      simp [Function.update_self]
  · rwa [checkCall_other hk]

theorem isSome_checkAll (calls : List Call) (h : (buckets k).isSome) :
    ((checkAll n buckets calls).2 k).isSome := by
  induction calls generalizing buckets with
  | nil => exact h
  | cons c calls ih => exact ih (isSome_checkCall c h)

theorem checkAll_split {calls : List Call} {pre post : List (Call × Except PyError (Option ℕ))}
    {a : Call × Except PyError (Option ℕ)}
    (h : (checkAll n buckets calls).1 = pre ++ a :: post) :
    ∃ before after, calls = before ++ a.1 :: after ∧ (checkAll n buckets before).1 = pre ∧
      a.2 = (checkCall n (checkAll n buckets before).2 a.1).1 := by
  induction calls generalizing buckets pre with
  | nil => simp [checkAll] at h
  | cons c calls ih =>
    cases pre with
    | nil =>
      obtain ⟨rfl, -⟩ := List.cons.inj h
      exact ⟨[], calls, rfl, rfl, rfl⟩
    | cons p pre =>
      obtain ⟨rfl, hrest⟩ := List.cons.inj h
      obtain ⟨before, after, hcalls, hpre, ha⟩ := ih hrest
      refine ⟨c :: before, after, by rw [hcalls, List.cons_append], ?_, ha⟩
      rw [checkAll, hpre]

theorem rate_pos (hn : 1 ≤ n) : (0 : ℚ) < n / 60 := by
  have hpos : (0 : ℚ) < n := by exact_mod_cast (by omega : 0 < n)
  linarith

/-- A call whose bucket exists or can be made is let through exactly when a token is there, and else
it is told to wait. -/
theorem At.checkCall_made (hn : 1 ≤ n) (hs : At n c.key buckets s)
    (hmade : buckets c.key = none → float n = .ok n) :
    (RateLimiter.checkCall n buckets c).1 = (if 1 ≤ available (n : ℚ) (n / 60) s c.now then .ok none
      else .ok (some (max 1 ⌈(1 - available (n : ℚ) (n / 60) s c.now) / (n / 60)⌉.toNat))) := by
  have hrate := rate_pos hn
  have hchecked := hs.checked (by omega)
  generalize available (n : ℚ) (n / 60) s c.now = found at hchecked ⊢
  generalize RateLimiter.checkCall n buckets c = checked at hchecked ⊢
  cases hchecked with
  | failed e missing overflow =>
    rw [hmade missing] at overflow
    cases overflow
  | allowed one => rw [if_pos one]
  | denied less =>
    rw [if_neg (not_le.mpr less), if_pos hrate]
    rfl

/-- What is known after a denial that says `k`: the level, and that `k` is the time rounded up that
it takes until a token is there. -/
theorem At.denied (hn : 1 ≤ n) (hs : At n c.key buckets s) {k : ℕ}
    (hdenied : (RateLimiter.checkCall n buckets c).1 = .ok (some k)) :
    ∃ found : ℚ, found < 1 ∧ k = max 1 ⌈(1 - found) / (n / 60)⌉.toNat ∧
      At n c.key (RateLimiter.checkCall n buckets c).2 ⟨found, c.now⟩ ∧
      ((RateLimiter.checkCall n buckets c).2 c.key).isSome := by
  have hrate := rate_pos hn
  have hchecked := hs.checked (by omega)
  generalize available (n : ℚ) (n / 60) s c.now = found at hchecked
  generalize RateLimiter.checkCall n buckets c = checked at hchecked hdenied ⊢
  cases hchecked with
  | failed e missing overflow => cases hdenied
  | allowed one => cases hdenied
  | denied less =>
    rw [if_pos hrate] at hdenied
    refine ⟨found, less, ?_, .made ⟨found, c.now⟩, by simp [Function.update_self]⟩
    exact (Option.some.inj (Except.ok.inj hdenied)).symm

theorem at_start (n : ℤ) (k : UUID × EndpointClass) : At n k (fun _ => none) ⟨n, 0⟩ := rfl

theorem At.before {later before after : List Call} {d : Call} (hn : 1 ≤ n)
    (hs : At n k buckets s) (hlater : later = before ++ d :: after)
    (hsorted : (later.map Call.now).Pairwise (· ≤ ·)) (hafter : ∀ e ∈ later, s.last ≤ e.now) :
    ∃ s', Run (n : ℚ) (n / 60) s (callsOf k (RateLimiter.checkAll n buckets before).1) s' ∧
      At n k (RateLimiter.checkAll n buckets before).2 s' ∧
      Ordered s (callsOf k (RateLimiter.checkAll n buckets before).1) ∧
      ∀ a ∈ callsOf k (RateLimiter.checkAll n buckets before).1, a.1 ≤ d.now := by
  subst hlater
  obtain ⟨s', hrun, hs'⟩ := hs.checkAll (by omega) before
  have htimes := callsOf_times k n buckets before
  rw [List.map_append, List.map_cons, List.pairwise_append] at hsorted
  obtain ⟨hbefore, -, hcross⟩ := hsorted
  refine ⟨s', hrun, hs', ⟨fun a ha => ?_, List.pairwise_map.mp (hbefore.sublist htimes)⟩,
    fun a ha => ?_⟩
  · obtain ⟨e, he, hnow⟩ := List.mem_map.mp (htimes.subset (List.mem_map_of_mem ha))
    exact (hafter e (List.mem_append_left _ he)).trans_eq hnow
  · exact hcross _ (htimes.subset (List.mem_map_of_mem ha)) _ List.mem_cons_self

theorem mem_callsOf {answers : List (Call × Except PyError (Option ℕ))} {a : ℚ × Bool}
    (h : a ∈ callsOf k answers) :
    ∃ b ∈ answers, b.1.key = k ∧ a = (b.1.now, decide (b.2 = .ok none)) := by
  obtain ⟨b, hb, rfl⟩ := List.mem_map.mp h
  obtain ⟨hmem, hkey⟩ := List.mem_filter.mp hb
  exact ⟨b, hmem, of_decide_eq_true hkey, rfl⟩

structure Denied (n : ℤ) (buckets : Buckets) (c : Call) (k : ℕ) (later : List Call) : Prop where
  positive : 1 ≤ n
  denied : (checkCall n buckets c).1 = .ok (some k)
  sorted : ((c :: later).map Call.now).Pairwise (· ≤ ·)

def answersAfter (n : ℤ) (buckets : Buckets) (c : Call) (later : List Call) :
    List (Call × Except PyError (Option ℕ)) :=
  (checkAll n (checkCall n buckets c).2 later).1

namespace Denied
variable {later : List Call} {retry : ℕ}

theorem after (h : Denied n buckets c retry later) : ∀ d ∈ later, c.now ≤ d.now :=
  fun d hd => (List.pairwise_cons.mp h.sorted).1 d.now (List.mem_map_of_mem hd)

/-- Each call of the bucket finds what it would have found if no call had been made since the denial,
unless one has been let through. -/
theorem found (h : Denied n buckets c retry later) {found : ℚ}
    (hs : At n c.key (checkCall n buckets c).2 ⟨found, c.now⟩)
    (hmade : ((checkCall n buckets c).2 c.key).isSome)
    {pre post : List (Call × Except PyError (Option ℕ))} {a : Call × Except PyError (Option ℕ)}
    (hsplit : answersAfter n buckets c later = pre ++ a :: post) (hkey : a.1.key = c.key)
    (hpre : ∀ b ∈ callsOf c.key pre, b.2 = false) :
    a.2 = (if 1 ≤ available (n : ℚ) (n / 60) ⟨found, c.now⟩ a.1.now then .ok none
      else .ok (some (max 1 ⌈(1 - available (n : ℚ) (n / 60) ⟨found, c.now⟩ a.1.now) /
        (n / 60)⌉.toNat))) := by
  have hrate := (rate_pos h.positive).le
  obtain ⟨before, rest, hlater, hbefore, ha⟩ := checkAll_split hsplit
  obtain ⟨s', hrun, hs', hordered, hnow⟩ := hs.before h.positive hlater
    (List.pairwise_cons.mp h.sorted).2 h.after
  rw [hbefore] at hrun hordered hnow
  have hsame := hrun.available_of_denied hrate hordered hpre hnow
  have hmade' : ((checkAll n (checkCall n buckets c).2 before).2 a.1.key).isSome := by
    rw [hkey]
    exact isSome_checkAll before hmade
  have hexists : (checkAll n (checkCall n buckets c).2 before).2 a.1.key = none →
      float n = .ok n := by
    intro hnone
    simp [hnone] at hmade'
  rw [← hkey] at hs'
  rw [ha, hs'.checkCall_made h.positive hexists, hsame]

theorem waited (h : Denied n buckets c retry later) {found : ℚ}
    (hs : At n c.key (checkCall n buckets c).2 ⟨found, c.now⟩)
    (hmade : ((checkCall n buckets c).2 c.key).isSome)
    (hretry : (1 - found) / ((n : ℚ) / 60) ≤ retry)
    {pre post : List (Call × Except PyError (Option ℕ))} {a : Call × Except PyError (Option ℕ)}
    (hsplit : answersAfter n buckets c later = pre ++ a :: post) (hkey : a.1.key = c.key)
    (hlong : c.now + retry ≤ a.1.now) (hpre : ¬ ∃ b ∈ pre, b.1.key = c.key ∧ b.2 = .ok none) :
    a.2 = .ok none := by
  have hrate := rate_pos h.positive
  have hcapacity : (1 : ℚ) ≤ n := by exact_mod_cast h.positive
  have hwait : (0 : ℚ) ≤ retry := Nat.cast_nonneg retry
  have hdenied : ∀ b ∈ callsOf c.key pre, b.2 = false := by
    intro b hb
    obtain ⟨b', hb', hkey', rfl⟩ := mem_callsOf hb
    exact decide_eq_false (fun hallowed => hpre ⟨b', hb', hkey', hallowed⟩)
  have hone : 1 ≤ available (n : ℚ) (n / 60) ⟨found, c.now⟩ a.1.now :=
    one_le_available hcapacity hrate (by simp; linarith) (by simp; linarith)
  rw [h.found hs hmade hsplit hkey hdenied, if_pos hone]

theorem early (h : Denied n buckets c retry later) {found : ℚ}
    (hs : At n c.key (checkCall n buckets c).2 ⟨found, c.now⟩)
    (hmade : ((checkCall n buckets c).2 c.key).isSome)
    {a : Call × Except PyError (Option ℕ)} (ha : a ∈ answersAfter n buckets c later)
    (hkey : a.1.key = c.key) (hearly : a.1.now - c.now < (1 - found) / ((n : ℚ) / 60)) :
    ∃ j, a.2 = .ok (some j) := by
  have hrate := rate_pos h.positive
  have hnotyet : ∀ now : ℚ, c.now ≤ now → now ≤ a.1.now →
      available (n : ℚ) (n / 60) ⟨found, c.now⟩ now < 1 := by
    intro now hnow hle
    exact available_lt_one hrate (by simpa using hnow) (by simp; linarith)
  obtain ⟨pre, post, hsplit⟩ := List.append_of_mem ha
  obtain ⟨before, rest, hlater, hbefore, -⟩ := checkAll_split hsplit
  obtain ⟨s', hrun, -, hordered, hnow⟩ := hs.before h.positive hlater
    (List.pairwise_cons.mp h.sorted).2 h.after
  rw [hbefore] at hrun hordered hnow
  have hdenied := hrun.denied_of_less hrate.le hordered
    (fun b hb => hnotyet b.1 (hordered.1 b hb) (hnow b hb))
  have hless := hnotyet a.1.now (h.after a.1 (by rw [hlater]; simp)) le_rfl
  exact ⟨_, (h.found hs hmade hsplit hkey hdenied).trans (if_neg (not_le.mpr hless))⟩

end Denied

/-- The seconds of a denial are honest. Whoever waits that long is let through, unless another call
of the bucket has been let through since; and no call comes through as long as less than a second of
them is left. -/
theorem retry_after_honest (n : ℤ) (hn : 1 ≤ n) (earlier : List Call) (c : Call) (retry : ℕ)
    (hdenied : (checkCall n (checkAll n (fun _ => none) earlier).2 c).1 = .ok (some retry))
    (later : List Call) (hsorted : ((c :: later).map Call.now).Pairwise (· ≤ ·)) :
    1 ≤ retry ∧
    (∀ pre a post, answersAfter n (checkAll n (fun _ => none) earlier).2 c later = pre ++ a :: post →
      a.1.key = c.key → c.now + retry ≤ a.1.now →
        a.2 = .ok none ∨ ∃ b ∈ pre, b.1.key = c.key ∧ b.2 = .ok none) ∧
    (2 ≤ retry → ∀ a ∈ answersAfter n (checkAll n (fun _ => none) earlier).2 c later,
      a.1.key = c.key → a.1.now ≤ c.now + retry - 1 → ∃ j, a.2 = .ok (some j)) := by
  have h : Denied n (checkAll n (fun _ => none) earlier).2 c retry later := ⟨hn, hdenied, hsorted⟩
  obtain ⟨s, -, hs⟩ := (at_start n c.key).checkAll (by omega) earlier
  obtain ⟨found, hless, hretry, hs₁, hmade⟩ := hs.denied hn h.denied
  have hwait : (0 : ℚ) < (1 - found) / (n / 60) := div_pos (by linarith) (rate_pos hn)
  have hceil : (0 : ℤ) < ⌈(1 - found) / ((n : ℚ) / 60)⌉ := Int.ceil_pos.mpr hwait
  have hretry' : (retry : ℤ) = ⌈(1 - found) / ((n : ℚ) / 60)⌉ := by omega
  refine ⟨by omega, ?_, ?_⟩
  · intro pre a post hsplit hkey hlong
    by_cases hpre : ∃ b ∈ pre, b.1.key = c.key ∧ b.2 = .ok none
    · exact .inr hpre
    · have hle : (1 - found) / ((n : ℚ) / 60) ≤ retry := by
        have := Int.le_ceil ((1 - found) / ((n : ℚ) / 60))
        rw [← hretry'] at this
        exact_mod_cast this
      exact .inl (h.waited hs₁ hmade hle hsplit hkey hlong hpre)
  · intro _ a ha hkey hearly
    have hlt : (retry : ℚ) - 1 < (1 - found) / ((n : ℚ) / 60) := by
      have := Int.ceil_lt_add_one ((1 - found) / ((n : ℚ) / 60))
      rw [← hretry'] at this
      push_cast at this
      linarith
    exact h.early hs₁ hmade ha hkey (by linarith)

theorem retry_after_honest_specimen :
    (checkAll 1 (fun _ => none) [⟨1, .read, 0⟩]).1.map Prod.snd = [.ok none] ∧
    1 ≤ 60 ∧
    (∀ pre a post, answersAfter 1 (checkAll 1 (fun _ => none) [⟨1, .read, 0⟩]).2 ⟨1, .read, 0⟩
        [⟨1, .read, 59⟩, ⟨1, .read, 60⟩] = pre ++ a :: post →
      a.1.key = (1, .read) → 0 + ((60 : ℕ) : ℚ) ≤ a.1.now →
        a.2 = .ok none ∨ ∃ b ∈ pre, b.1.key = (1, .read) ∧ b.2 = .ok none) ∧
    (2 ≤ 60 → ∀ a ∈ answersAfter 1 (checkAll 1 (fun _ => none) [⟨1, .read, 0⟩]).2 ⟨1, .read, 0⟩
        [⟨1, .read, 59⟩, ⟨1, .read, 60⟩],
      a.1.key = (1, .read) → a.1.now ≤ 0 + ((60 : ℕ) : ℚ) - 1 → ∃ j, a.2 = .ok (some j)) :=
  ⟨by decide +kernel, retry_after_honest 1 le_rfl [⟨1, .read, 0⟩] ⟨1, .read, 0⟩ 60
    (by decide +kernel) [⟨1, .read, 59⟩, ⟨1, .read, 60⟩] (by decide +kernel)⟩

end RateLimiter
end Hawiya
