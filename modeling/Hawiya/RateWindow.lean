import Hawiya.Lib.TokenBucket
import Hawiya.RateLimit

/-!
# How many calls the rate limiter lets through

Any sequence of `check` calls, for whatever tenants and classes. What the calls of one tenant and
class do to their bucket is a run of a token bucket, which starts full when the first of them comes.
-/

namespace Hawiya
namespace RateLimiter
open TokenBucket

structure Call where
  tenant_id : UUID
  endpoint_class : EndpointClass
  now : ℚ

def Call.key (c : Call) : UUID × EndpointClass := (c.tenant_id, c.endpoint_class)

def checkCall (default_per_minute : ℤ) (buckets : Buckets) (c : Call) :
    Except PyError (Option ℕ) × Buckets :=
  check default_per_minute buckets c.tenant_id c.endpoint_class c.now

def checkAll (default_per_minute : ℤ) :
    Buckets → List Call → List (Call × Except PyError (Option ℕ)) × Buckets
  | buckets, [] => ([], buckets)
  | buckets, c :: calls =>
      let checked := checkCall default_per_minute buckets c
      let rest := checkAll default_per_minute checked.2 calls
      ((c, checked.1) :: rest.1, rest.2)

/-- The calls of a tenant and class that were let through between two times. -/
def allowedBetween (k : UUID × EndpointClass) (start stop : ℚ)
    (answers : List (Call × Except PyError (Option ℕ))) : ℕ :=
  answers.countP (fun a => a.1.key = k ∧ a.2 = .ok none ∧ start ≤ a.1.now ∧ a.1.now ≤ stop)

variable {n : ℤ} {k : UUID × EndpointClass} {buckets : Buckets} {s : Level ℚ} {c : Call}

/-- The bucket of `k` is at this level, or is still to be made and full. -/
def At (n : ℤ) (k : UUID × EndpointClass) (buckets : Buckets) (s : Level ℚ) : Prop :=
  match buckets k with
  | some b => b.capacity = n ∧ b.rate_per_sec = n / 60 ∧ b.tokens = s.tokens ∧
      b.last_refill = s.last
  | none => s.tokens = n

theorem checkCall_of_error {e : PyError}
    (h : bucketFor n buckets c.tenant_id c.endpoint_class c.now = .error e) :
    checkCall n buckets c = (.error e, buckets) := by
  unfold checkCall check
  rw [h]

theorem checkCall_of_ok {b : Bucket}
    (h : bucketFor n buckets c.tenant_id c.endpoint_class c.now = .ok b) :
    checkCall n buckets c =
      (match (b.take c.now).1 with
        | none => .ok none
        | some retry => (retryAfter retry).map some,
      Function.update buckets c.key (some (b.take c.now).2)) := by
  unfold checkCall check
  rw [h]
  rfl

theorem checkCall_other (h : c.key ≠ k) : (checkCall n buckets c).2 k = buckets k := by
  cases hb : bucketFor n buckets c.tenant_id c.endpoint_class c.now with
  | error e => rw [checkCall_of_error hb]
  | ok b =>
    rw [checkCall_of_ok hb]
    exact Function.update_of_ne h.symm _ _

theorem At.other (hs : At n k buckets s) (h : c.key ≠ k) : At n k (checkCall n buckets c).2 s := by
  unfold At
  rw [checkCall_other h]
  exact hs

theorem At.made (s : Level ℚ) :
    At n k (Function.update buckets k (some ⟨n, s.tokens, n / 60, s.last⟩)) s := by
  unfold At
  rw [Function.update_self]
  exact ⟨rfl, rfl, rfl, rfl⟩

/-- A bucket that is still to be made is full, whenever it is. -/
theorem available_of_full (hn : 0 ≤ n) (hs : s.tokens = n) (now : ℚ) :
    available (n : ℚ) (n / 60) s now = n := by
  have hcapacity : (0 : ℚ) ≤ n := by exact_mod_cast hn
  have hregained : 0 ≤ max 0 (now - s.last) * ((n : ℚ) / 60) :=
    mul_nonneg (le_max_left _ _) (by linarith)
  unfold available
  rw [hs]
  exact min_eq_left (by linarith)

theorem At.refilled (hn : 0 ≤ n) (hs : At n c.key buckets s) {b : Bucket}
    (hb : bucketFor n buckets c.tenant_id c.endpoint_class c.now = .ok b) :
    b.refilled c.now = ⟨n, available (n : ℚ) (n / 60) s c.now, n / 60, c.now⟩ := by
  unfold At Call.key at hs
  unfold bucketFor at hb
  cases hfound : buckets (c.tenant_id, c.endpoint_class) with
  | some b' =>
    rw [hfound] at hs hb
    cases hb
    obtain ⟨hcap, hrate, htokens, hlast⟩ := hs
    simp only [Bucket.refilled, available, hcap, hrate, htokens, hlast]
  | none =>
    rw [hfound] at hs hb
    obtain ⟨capacity, hfloat, hmade⟩ := except_bind_eq_ok.mp hb
    have hcapacity : capacity = n := by
      unfold float at hfloat
      split_ifs at hfloat
      exact (Except.ok.inj hfloat).symm
    cases hmade
    rw [available_of_full hn hs, hcapacity]
    simp [Bucket.refilled]

/-- What a call can do: fail to make its bucket, take a token, or say how long to wait. -/
inductive Checked (n : ℤ) (buckets : Buckets) (c : Call) (found : ℚ) :
    Except PyError (Option ℕ) × Buckets → Prop
  | failed (e : PyError) (missing : buckets c.key = none) (overflow : float n = .error e) :
      Checked n buckets c found (.error e, buckets)
  | allowed (one : 1 ≤ found) : Checked n buckets c found
      (.ok none, Function.update buckets c.key (some ⟨n, found - 1, n / 60, c.now⟩))
  | denied (less : found < 1) : Checked n buckets c found
      ((retryAfter
          (if 0 < (n : ℚ) / 60 then (((1 - found) / (n / 60) : ℚ) : WithTop ℚ) else ⊤)).map some,
        Function.update buckets c.key (some ⟨n, found, n / 60, c.now⟩))

theorem At.checked (hn : 0 ≤ n) (hs : At n c.key buckets s) :
    Checked n buckets c (available (n : ℚ) (n / 60) s c.now) (checkCall n buckets c) := by
  cases hb : bucketFor n buckets c.tenant_id c.endpoint_class c.now with
  | error e =>
    rw [checkCall_of_error hb]
    unfold bucketFor at hb
    cases hfound : buckets (c.tenant_id, c.endpoint_class) with
    | some b => simp [hfound] at hb
    | none =>
      rw [hfound] at hb
      cases hfloat : float n with
      | error e' =>
        rw [hfloat] at hb
        cases hb
        exact .failed e hfound hfloat
      | ok capacity =>
        rw [hfloat] at hb
        cases hb
  | ok b =>
    rw [checkCall_of_ok hb]
    have hrefilled := hs.refilled hn hb
    generalize available (n : ℚ) (n / 60) s c.now = found at hrefilled
    simp only [Bucket.take, hrefilled]
    by_cases hone : 1 ≤ found
    · simp only [if_pos hone]
      exact .allowed hone
    · simp only [if_neg hone]
      exact .denied (not_le.mp hone)

theorem retry_ne_allowed (retry : WithTop ℚ) : (retryAfter retry).map some ≠ .ok none := by
  cases retry with
  | top => exact nofun
  | coe r => exact nofun

/-- A call of the key is a step of its token bucket. -/
theorem At.checkCall (hn : 0 ≤ n) (hs : At n c.key buckets s) :
    ∃ s', Step (n : ℚ) (n / 60) s (c.now, decide ((checkCall n buckets c).1 = .ok none)) s' ∧
      At n c.key (checkCall n buckets c).2 s' := by
  have hchecked := hs.checked hn
  generalize hfound : available (n : ℚ) (n / 60) s c.now = found at hchecked
  generalize RateLimiter.checkCall n buckets c = checked at hchecked
  cases hchecked with
  | failed e missing overflow =>
    have hfull : s.tokens = n := by
      unfold At at hs
      rwa [missing] at hs
    have hstill : At n c.key buckets ⟨found, c.now⟩ := by
      unfold At
      rw [missing]
      exact hfound.symm.trans (available_of_full hn hfull c.now)
    have hnot : ¬ ((.error e : Except PyError (Option ℕ)) = .ok none) := nofun
    exact ⟨⟨found, c.now⟩, ⟨rfl, fun h => absurd (of_decide_eq_true h) hnot, fun _ => hfound.symm⟩,
      hstill⟩
  | allowed one =>
    refine ⟨⟨found - 1, c.now⟩, ⟨rfl, fun _ => ?_, fun h => ?_⟩, made ⟨found - 1, c.now⟩⟩
    · exact ⟨one.trans_eq hfound.symm, by rw [hfound]⟩
    · exact absurd h (by simp)
  | denied less =>
    refine ⟨⟨found, c.now⟩, ⟨rfl, fun h => ?_, fun _ => hfound.symm⟩, made ⟨found, c.now⟩⟩
    exact absurd (of_decide_eq_true h) (retry_ne_allowed _)

def callsOf (k : UUID × EndpointClass) (answers : List (Call × Except PyError (Option ℕ))) :
    List (ℚ × Bool) :=
  (answers.filter (fun a => a.1.key = k)).map (fun a => (a.1.now, decide (a.2 = .ok none)))

theorem allowedBetween_eq (start stop : ℚ) (answers : List (Call × Except PyError (Option ℕ))) :
    allowedBetween k start stop answers = admitted start stop (callsOf k answers) := by
  unfold allowedBetween admitted callsOf
  rw [List.countP_map, List.countP_filter]
  refine List.countP_congr (fun a _ => ?_)
  simp only [Function.comp_apply, Bool.and_eq_true, decide_eq_true_eq]
  constructor
  · rintro ⟨h₁, h₂, h₃, h₄⟩
    exact ⟨⟨⟨h₂, h₃⟩, h₄⟩, h₁⟩
  · rintro ⟨⟨⟨h₂, h₃⟩, h₄⟩, h₁⟩
    exact ⟨h₁, h₂, h₃, h₄⟩

theorem At.checkAll (hn : 0 ≤ n) (calls : List Call) (hs : At n k buckets s) :
    ∃ s', Run (n : ℚ) (n / 60) s (callsOf k (checkAll n buckets calls).1) s' ∧
      At n k (checkAll n buckets calls).2 s' := by
  induction calls generalizing buckets s with
  | nil => exact ⟨s, .nil, hs⟩
  | cons c calls ih =>
    by_cases hk : c.key = k
    · subst hk
      obtain ⟨s₁, hstep, hs₁⟩ := hs.checkCall hn
      obtain ⟨s', hrun, hs'⟩ := ih hs₁
      refine ⟨s', ?_, hs'⟩
      have hcalls : callsOf c.key (RateLimiter.checkAll n buckets (c :: calls)).1 =
          (c.now, decide ((RateLimiter.checkCall n buckets c).1 = .ok none)) ::
            callsOf c.key (RateLimiter.checkAll n (RateLimiter.checkCall n buckets c).2 calls).1 := by
        simp [callsOf, RateLimiter.checkAll]
      rw [hcalls]
      exact .cons hstep hrun
    · obtain ⟨s', hrun, hs'⟩ := ih (hs.other hk)
      refine ⟨s', ?_, hs'⟩
      have hcalls : callsOf k (RateLimiter.checkAll n buckets (c :: calls)).1 =
          callsOf k (RateLimiter.checkAll n (RateLimiter.checkCall n buckets c).2 calls).1 := by
        simp [callsOf, RateLimiter.checkAll, hk]
      rw [hcalls]
      exact hrun

theorem checkAll_calls (n : ℤ) (buckets : Buckets) (calls : List Call) :
    (checkAll n buckets calls).1.map Prod.fst = calls := by
  induction calls generalizing buckets with
  | nil => rfl
  | cons c calls ih => exact congrArg (List.cons c) (ih _)

theorem checkAll_snoc (n : ℤ) (buckets : Buckets) (calls : List Call) (c : Call) :
    checkAll n buckets (calls ++ [c]) =
      ((checkAll n buckets calls).1 ++ [(c, (checkCall n (checkAll n buckets calls).2 c).1)],
        (checkCall n (checkAll n buckets calls).2 c).2) := by
  induction calls generalizing buckets with
  | nil => rfl
  | cons c' calls ih =>
    rw [List.cons_append, checkAll, ih]
    rfl

theorem callsOf_times (k : UUID × EndpointClass) (n : ℤ) (buckets : Buckets) (calls : List Call) :
    List.Sublist ((callsOf k (checkAll n buckets calls).1).map Prod.fst) (calls.map Call.now) := by
  have hsub : List.Sublist
      (((checkAll n buckets calls).1.filter (fun a => a.1.key = k)).map (fun a => a.1.now))
      ((checkAll n buckets calls).1.map (fun a => a.1.now)) :=
    List.filter_sublist.map _
  have hall : (checkAll n buckets calls).1.map (fun a => a.1.now) = calls.map Call.now := by
    rw [← congrArg (List.map Call.now) (checkAll_calls n buckets calls), List.map_map]
    rfl
  rw [hall] at hsub
  simpa [callsOf, List.map_map, Function.comp_def] using hsub

/-- In a limiter of `n` calls a minute the tokens stay between none and `n`, and over any window of
time a tenant and class get at most `n` calls and what the window regains. -/
theorem allowed_in_window (n : ℤ) (hn : 1 ≤ n) (calls : List Call)
    (hsorted : (calls.map Call.now).Pairwise (· ≤ ·)) (tenant_id : UUID)
    (endpoint_class : EndpointClass) :
    (∀ b, (checkAll n (fun _ => none) calls).2 (tenant_id, endpoint_class) = some b →
      0 ≤ b.tokens ∧ b.tokens ≤ n) ∧
    ∀ s T : ℚ, 0 ≤ T →
      (allowedBetween (tenant_id, endpoint_class) s (s + T)
        (checkAll n (fun _ => none) calls).1 : ℚ) ≤ n + n * T / 60 := by
  have hcapacity : (0 : ℚ) ≤ n := by exact_mod_cast (by omega : 0 ≤ n)
  have hrate : (0 : ℚ) ≤ n / 60 := by positivity
  obtain ⟨first, hfirst⟩ : ∃ first, ∀ t ∈ calls.map Call.now, first ≤ t := by
    cases calls with
    | nil => exact ⟨0, by simp⟩
    | cons c calls =>
      refine ⟨c.now, fun t ht => ?_⟩
      rcases List.mem_cons.mp ht with rfl | ht
      · exact le_rfl
      · exact (List.pairwise_cons.mp hsorted).1 t ht
  have hfull : At n (tenant_id, endpoint_class) (fun _ => none) ⟨n, first⟩ := rfl
  have hwithin : Within (n : ℚ) ⟨n, first⟩ := ⟨hcapacity, le_rfl⟩
  obtain ⟨s', hrun, hs'⟩ := hfull.checkAll (by omega) calls
  have htimes := callsOf_times (tenant_id, endpoint_class) n (fun _ => none) calls
  have hordered : Ordered (⟨n, first⟩ : Level ℚ)
      (callsOf (tenant_id, endpoint_class) (checkAll n (fun _ => none) calls).1) :=
    ⟨fun c hc => hfirst _ (htimes.subset (List.mem_map_of_mem hc)),
      List.pairwise_map.mp (hsorted.sublist htimes)⟩
  refine ⟨fun b hb => ?_, fun s T hT => ?_⟩
  · unfold At at hs'
    rw [hb] at hs'
    rw [hs'.2.2.1]
    exact hrun.within hcapacity hrate hwithin
  · have hle := hrun.admitted_window_le hcapacity hrate hwithin hordered
      (le_add_of_nonneg_right hT : s ≤ s + T)
    rw [allowedBetween_eq]
    refine hle.trans_eq ?_
    ring

/-- Four calls of one tenant, the last of them half a minute later, and one of another. -/
def specimen : List Call :=
  [⟨1, .read, 0⟩, ⟨1, .read, 0⟩, ⟨2, .read, 0⟩, ⟨1, .read, 0⟩, ⟨1, .read, 30⟩]

theorem allowed_in_window_specimen :
    allowedBetween (1, .read) 0 (0 + 30) (checkAll 2 (fun _ => none) specimen).1 = 3 ∧
      (allowedBetween (1, .read) 0 (0 + 30) (checkAll 2 (fun _ => none) specimen).1 : ℚ) ≤
        (2 : ℤ) + (2 : ℤ) * 30 / 60 :=
  ⟨by decide +kernel, (allowed_in_window 2 (by decide) specimen (by decide +kernel) 1 .read).2 0 30
    (by norm_num)⟩

end RateLimiter
end Hawiya
