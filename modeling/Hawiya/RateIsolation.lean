import Hawiya.RateWindow

/-!
# Tenants and classes do not share a rate limit

The calls of one tenant and class, among any others, are answered as if they were the only ones. A
check reads and writes the bucket of its own key and no other, from the creation of the bucket on.
-/

namespace Hawiya
namespace RateLimiter

variable {n : ℤ} {k : UUID × EndpointClass} {buckets buckets' : Buckets} {c : Call}

theorem bucketFor_congr (h : buckets c.key = buckets' c.key) :
    bucketFor n buckets c.tenant_id c.endpoint_class c.now =
      bucketFor n buckets' c.tenant_id c.endpoint_class c.now := by
  unfold Call.key at h
  unfold bucketFor
  rw [h]

theorem checkCall_congr (h : buckets c.key = buckets' c.key) :
    (checkCall n buckets c).1 = (checkCall n buckets' c).1 ∧
      (checkCall n buckets c).2 c.key = (checkCall n buckets' c).2 c.key := by
  have hsame := bucketFor_congr (n := n) h
  cases hb : bucketFor n buckets c.tenant_id c.endpoint_class c.now with
  | error e =>
    rw [checkCall_of_error hb, checkCall_of_error (hsame.symm.trans hb)]
    exact ⟨rfl, h⟩
  | ok b =>
    rw [checkCall_of_ok hb, checkCall_of_ok (hsame.symm.trans hb)]
    simp only [Function.update_self, and_self]

theorem checkAll_filter (calls : List Call) (h : buckets k = buckets' k) :
    (checkAll n buckets calls).1.filter (fun a => a.1.key = k) =
      (checkAll n buckets' (calls.filter (fun c => c.key = k))).1 := by
  induction calls generalizing buckets buckets' with
  | nil => rfl
  | cons c calls ih =>
    by_cases hk : c.key = k
    · subst hk
      obtain ⟨hanswer, hbucket⟩ := checkCall_congr (n := n) h
      have hown : (c :: calls).filter (fun d => d.key = c.key) =
          c :: calls.filter (fun d => d.key = c.key) := List.filter_cons_of_pos (by simp)
      rw [hown, checkAll, checkAll, List.filter_cons_of_pos (by simp), ih hbucket, hanswer]
    · rw [List.filter_cons_of_neg (by simpa using hk), checkAll,
        List.filter_cons_of_neg (by simpa using hk)]
      exact ih ((checkCall_other hk).trans h)

/-- In any sequence of calls, a tenant and class get the answers they get on a fresh limiter that
only they call, at the same times. -/
theorem answers_isolated (n : ℤ) (calls : List Call) (tenant_id : UUID)
    (endpoint_class : EndpointClass) :
    (checkAll n (fun _ => none) calls).1.filter (fun a => a.1.key = (tenant_id, endpoint_class)) =
      (checkAll n (fun _ => none)
        (calls.filter (fun c => c.key = (tenant_id, endpoint_class)))).1 :=
  checkAll_filter calls rfl

end RateLimiter
end Hawiya
