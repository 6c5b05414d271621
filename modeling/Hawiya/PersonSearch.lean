import Hawiya.Lib.Ranking
import Hawiya.Services

/-!
# Name search in the tables

The statement of `PersonRepository.search_by_name`. `similarity` is the function of that name in the
extension `pg_trgm`. The statement orders by score alone: which of several persons of one score
comes first is left to the server, here to `tie`.
-/

namespace Hawiya
open PyString

namespace PersonRepository

/-- `SIMILARITY_THRESHOLD`. -/
def similarityThreshold : ℚ := 3 / 10

section Statement
variable (similarity : Str → Str → ℚ) (tie : UUID → ℕ) (tenant_id : UUID) (q : Str)

/-- `greatest` over both scripts, a missing name counting as zero. -/
def score (p : Person) : ℚ :=
  max (p.canonical_name_ar.elim 0 (fun n => similarity n q))
    (p.canonical_name_en.elim 0 (fun n => similarity n q))

def isCandidate (p : Person) : Bool :=
  p.tenant_id == tenant_id && p.status == .active &&
    decide (similarityThreshold < score similarity q p)

def rank (p : Person) : ℚ ×ₗ ℕ := toLex (-score similarity q p, tie p.person_uuid)

def selectByName (limit : ℕ) (persons : List Person) : List Person :=
  Ranking.best (rank similarity tie q) limit (persons.filter (isCandidate similarity tenant_id q))

end Statement

variable {similarity : Str → Str → ℚ} {tie : UUID → ℕ} {tenant_id : UUID} {q : Str} {limit : ℕ}
variable {persons : List Person} {p p' : Person}

theorem isCandidate_iff :
    isCandidate similarity tenant_id q p = true ↔ p.tenant_id = tenant_id ∧ p.status = .active ∧
      similarityThreshold < score similarity q p := by
  simp only [isCandidate, Bool.and_eq_true, beq_iff_eq, decide_eq_true_eq, and_assoc]

theorem score_le_of_rank_le (h : rank similarity tie q p ≤ rank similarity tie q p') :
    score similarity q p' ≤ score similarity q p := by
  rw [rank, rank, Prod.Lex.toLex_le_toLex] at h
  rcases h with h | ⟨h, -⟩
  · exact (neg_lt_neg_iff.mp h).le
  · exact (neg_inj.mp h).ge

theorem mem_selectByName (h : p ∈ selectByName similarity tie tenant_id q limit persons) :
    p ∈ persons ∧ isCandidate similarity tenant_id q p = true :=
  List.mem_filter.mp (Ranking.mem_of_mem_best h)

theorem pairwise_selectByName :
    (selectByName similarity tie tenant_id q limit persons).Pairwise
      (fun p p' => score similarity q p' ≤ score similarity q p) := by
  have hranks := Ranking.pairwise_best (rank similarity tie q) limit
    (persons.filter (isCandidate similarity tenant_id q))
  exact hranks.imp (fun h => score_le_of_rank_le h)

theorem length_selectByName_le :
    (selectByName similarity tie tenant_id q limit persons).length ≤ limit := by
  rw [selectByName, Ranking.length_best]
  exact Nat.min_le_left _ _

/-- A candidate that is not listed scores no more than anyone listed, and the list is full. -/
theorem selectByName_of_not_mem (hp : p ∈ persons)
    (hcandidate : isCandidate similarity tenant_id q p = true)
    (hout : p ∉ selectByName similarity tie tenant_id q limit persons) :
    (selectByName similarity tie tenant_id q limit persons).length = limit ∧
      ∀ p' ∈ selectByName similarity tie tenant_id q limit persons,
        score similarity q p ≤ score similarity q p' := by
  obtain ⟨hfull, hafter⟩ := Ranking.best_of_not_mem (List.mem_filter.mpr ⟨hp, hcandidate⟩) hout
  exact ⟨hfull, fun p' hp' => score_le_of_rank_le (hafter p' hp')⟩

end PersonRepository
end Hawiya
