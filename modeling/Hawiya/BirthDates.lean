import Hawiya.MrzRoundTrip

/-!
# The century of a date of birth

The reader chooses the century from the two digits of the year: up to next year's they stand for
this century. So a day of this year or the next that is still to come is read as a date of birth.
Digits that are not ASCII go through `isdigit` as well, and then through `int`, or not.
-/

namespace Hawiya
namespace Mrz
open PyString Calendar MrzRoundTrip

def SixDigits (raw : Str) : Prop := raw.length = 6 ∧ ∀ c ∈ raw, IsAsciiDigit c

def InPastCentury (today e : Date) : Prop :=
  e ≤ today ∧ today.serial ≤ e.serial + 100 * 10000

/-- What a reading of `raw` is to be: the latest day up to today that `raw` spells, and none if it
spells no day of the past hundred years. -/
structure ReadsBirthDate (today : Date) (raw : Str) (r : Except PyError (Option Date)) : Prop where
  some_latest : ∀ d, r = .ok (some d) →
    d ≤ today ∧ Spells raw d ∧ ∀ e, Spells raw e → e ≤ today → e ≤ d
  none_iff : r = .ok none ↔
    ¬ SixDigits raw ∨ ∀ e, InPastCentury today e → ¬ Spells raw e

/-- No day after today that `raw` spells lies in this year or the next, or it lies in the next
century. -/
def NoneAhead (today : Date) (raw : Str) : Prop :=
  ∀ e, Spells raw e → today < e → e.year ≤ today.year + dobFutureSlack → 2099 < e.year

def birthYear (today : Date) (yy : ℕ) : ℕ :=
  (if yy > today.year % 100 + dobFutureSlack then 1900 else 2000) + yy

/-- Read as numbers, the digits name no day of the reader's year. -/
def NamesNoDay (today : Date) (raw : Str) : Prop :=
  ∃ yy mm dd, int? (slice 0 2 raw) = some yy ∧ int? (slice 2 4 raw) = some mm ∧
    int? (slice 4 6 raw) = some dd ∧ ¬ ValidYmd (birthYear today yy) mm dd

theorem isLeap_next_century {yy : ℕ} (hy : yy < 100) (h : isLeap (1900 + yy) = true) :
    isLeap (2000 + yy) = true := by
  unfold isLeap at h ⊢
  simp only [Bool.and_eq_true, Bool.or_eq_true, beq_iff_eq, bne_iff_ne] at h ⊢
  omega

theorem valid_next_century {yy mm dd : ℕ} (hy : yy < 100) (h : ValidYmd (1900 + yy) mm dd) :
    ValidYmd (2000 + yy) mm dd := by
  obtain ⟨-, -, hm, hm', hd, hd'⟩ := h
  refine ⟨by omega, by omega, hm, hm', hd, hd'.trans ?_⟩
  unfold daysInMonth
  by_cases hleap : isLeap (1900 + yy) = true
  · rw [if_pos hleap, if_pos (isLeap_next_century hy hleap)]
  · rw [if_neg hleap]
    split_ifs <;> omega

variable {today : Date} {raw : Str}

theorem parseDob_of_not_isdigit (h : isdigit raw = false) : parseDob today raw = .ok none := by
  simp [parseDob, h]

theorem parseDob_of_isdigit (h : isdigit raw = true) :
    parseDob today raw = (do
      let yy ← int (slice 0 2 raw)
      let mm ← int (slice 2 4 raw)
      let dd ← int (slice 4 6 raw)
      .ok (Date.ofYmd? (birthYear today yy) mm dd)) := by
  simp only [parseDob, h]
  rfl

theorem isdigit_of_sixDigits (h : SixDigits raw) : isdigit raw = true := by
  obtain ⟨yy, hy, mm, hm, dd, hd, rfl⟩ := six_digits h.1 h.2
  exact isdigit_six hy hm hd

/-- Digits that are not ASCII are to be refused, so a reading of them is right when they name no
day. -/
theorem reads_of_not_sixDigits (hdigit : isdigit raw = true) (h : ¬ SixDigits raw) :
    ReadsBirthDate today raw (parseDob today raw) ↔ NamesNoDay today raw := by
  have hright : ReadsBirthDate today raw (parseDob today raw) ↔ parseDob today raw = .ok none := by
    constructor
    · intro hreads
      exact hreads.none_iff.mpr (.inl h)
    · intro hnone
      rw [hnone]
      exact ⟨nofun, iff_of_true rfl (.inl h)⟩
  rw [hright, parseDob_of_isdigit hdigit]
  unfold NamesNoDay int
  cases int? (slice 0 2 raw) with
  | none => simp [bind, Except.bind]
  | some yy =>
    cases int? (slice 2 4 raw) with
    | none => simp [bind, Except.bind]
    | some mm =>
      cases int? (slice 4 6 raw) with
      | none => simp [bind, Except.bind]
      | some dd => simp [bind, Except.bind, Date.ofYmd?]

section
variable {yy mm dd : ℕ} (htoday : 2000 ≤ today.year ∧ today.year ≤ 2099)
include htoday

theorem year_of_pastCentury {e : Date} (h : InPastCentury today e) (hyear : e.year % 100 = yy) :
    e.year = 2000 + yy ∨ e.year = 1900 + yy := by
  obtain ⟨hle, hcentury⟩ := h
  have hyears := Date.year_le_of_le hle
  have he := e.month_lt_hundred
  have he' := e.day_lt_hundred
  unfold Date.serial at hcentury
  omega

theorem latest_of_noneAhead (hy : yy < 100) {d : Date} (hd : d.year = birthYear today yy)
    (h : today < d → d.year ≤ today.year + dobFutureSlack → 2099 < d.year) :
    InPastCentury today d ∧ ∀ e : Date, e.year % 100 = yy → e.month = d.month → e.day = d.day →
      e ≤ today → e ≤ d := by
  unfold birthYear dobFutureSlack at *
  have hle : d ≤ today := by
    by_cases hyear : d.year < today.year
    · exact Date.le_of_year_lt hyear
    · by_contra hlt
      have hnext := h (not_le.mp hlt)
      split_ifs at hd <;> omega
  have hcentury : today.serial ≤ d.serial + 100 * 10000 := by
    have ht := today.month_lt_hundred
    have ht' := today.day_lt_hundred
    have hyears := Date.year_le_of_le hle
    unfold Date.serial
    split_ifs at hd <;> omega
  refine ⟨⟨hle, hcentury⟩, fun e hyear hmonth hday he => Date.le_of_same_day hmonth hday ?_⟩
  have hyears := Date.year_le_of_le he
  split_ifs at hd <;> omega

theorem no_day_of_invalid (hy : yy < 100) (h : ¬ ValidYmd (birthYear today yy) mm dd) {e : Date}
    (he : InPastCentury today e) (hyear : e.year % 100 = yy) (hmonth : e.month = mm)
    (hday : e.day = dd) : False := by
  have hvalid := e.valid
  have hyears := Date.year_le_of_le he.1
  rw [hmonth, hday] at hvalid
  unfold birthYear dobFutureSlack at h
  rcases year_of_pastCentury htoday he hyear with hyear | hyear
  · rw [hyear] at hvalid
    rw [if_neg (by omega)] at h
    exact h hvalid
  · rw [hyear] at hvalid
    split_ifs at h
    · exact h hvalid
    · exact h (valid_next_century hy hvalid)

theorem reads_of_sixDigits (h : SixDigits raw) :
    ReadsBirthDate today raw (parseDob today raw) ↔ NoneAhead today raw := by
  have hsix := h
  obtain ⟨yy, hy, mm, hm, dd, hd, rfl⟩ := six_digits h.1 h.2
  have hread : parseDob today (digits2 yy ++ digits2 mm ++ digits2 dd) =
      .ok (Date.ofYmd? (birthYear today yy) mm dd) := parseDob_digits today hy hm hd
  rw [hread]
  constructor
  · intro hreads e hspells hahead hnear
    by_contra hcentury
    obtain ⟨hyear, hmonth, hday⟩ := (spells_iff hy hm hd e).mp hspells
    have hyears := Date.year_le_of_le hahead.le
    have hsome : Date.ofYmd? (birthYear today yy) mm dd = some e := by
      refine (Date.ofYmd?_eq_some_iff _ _ _ e).mpr ⟨?_, hmonth, hday⟩
      unfold birthYear
      unfold dobFutureSlack at hnear ⊢
      rw [if_neg (by omega)]
      omega
    exact absurd (hreads.some_latest e (by rw [hsome])).1 (not_le.mpr hahead)
  · intro hnone
    cases hdate : Date.ofYmd? (birthYear today yy) mm dd with
    | some d =>
      obtain ⟨hyear, hmonth, hday⟩ := (Date.ofYmd?_eq_some_iff _ _ _ d).mp hdate
      have hspells : Spells (digits2 yy ++ digits2 mm ++ digits2 dd) d := by
        refine (spells_iff hy hm hd d).mpr ⟨?_, hmonth, hday⟩
        unfold birthYear at hyear
        split_ifs at hyear <;> omega
      obtain ⟨hpast, hlatest⟩ := latest_of_noneAhead htoday hy hyear (hnone d hspells)
      refine ⟨fun d' h' => ?_, iff_of_false nofun ?_⟩
      · cases h'
        refine ⟨hpast.1, hspells, fun e he hle => ?_⟩
        obtain ⟨hyear', hmonth', hday'⟩ := (spells_iff hy hm hd e).mp he
        exact hlatest e hyear' (hmonth'.trans hmonth.symm) (hday'.trans hday.symm) hle
      · rintro (hnot | hnone)
        · exact hnot hsix
        · exact hnone d hpast hspells
    | none =>
      refine ⟨nofun, iff_of_true rfl (.inr (fun e he hspells => ?_))⟩
      obtain ⟨hyear, hmonth, hday⟩ := (spells_iff hy hm hd e).mp hspells
      have hinvalid : ¬ ValidYmd (birthYear today yy) mm dd := by
        intro hvalid
        simp [Date.ofYmd?, hvalid] at hdate
      exact no_day_of_invalid htoday hy hinvalid he hyear hmonth hday

end

/-- From 2000 to 2099, exactly these strings are read right as dates of birth: those that are not all
digits, six ASCII digits that spell no day ahead, and other digits that name no day. -/
theorem reads_birth_date_iff (today : Date) (raw : Str)
    (htoday : 2000 ≤ today.year ∧ today.year ≤ 2099) (hlength : raw.length = 6) :
    ReadsBirthDate today raw (parseDob today raw) ↔
      isdigit raw = false ∨
      ((∀ c ∈ raw, IsAsciiDigit c) ∧ NoneAhead today raw) ∨
      (isdigit raw = true ∧ ¬ (∀ c ∈ raw, IsAsciiDigit c) ∧ NamesNoDay today raw) := by
  by_cases hdigit : isdigit raw = true
  · by_cases hascii : ∀ c ∈ raw, IsAsciiDigit c
    · rw [reads_of_sixDigits htoday ⟨hlength, hascii⟩]
      constructor
      · exact fun h => .inr (.inl ⟨hascii, h⟩)
      · rintro (h | ⟨-, h⟩ | ⟨-, h, -⟩)
        · exact absurd hdigit (by simp [h])
        · exact h
        · exact absurd hascii h
    · rw [reads_of_not_sixDigits hdigit (fun h => hascii h.2)]
      constructor
      · exact fun h => .inr (.inr ⟨hdigit, hascii, h⟩)
      · rintro (h | ⟨h, -⟩ | ⟨-, -, h⟩)
        · exact absurd hdigit (by simp [h])
        · exact absurd h hascii
        · exact h
  · have hfalse : isdigit raw = false := by simpa using hdigit
    have hsix : ¬ SixDigits raw := fun h => hdigit (isdigit_of_sixDigits h)
    rw [parseDob_of_not_isdigit hfalse]
    exact iff_of_true ⟨nofun, iff_of_true rfl (.inl hsix)⟩ (.inl hfalse)

def specimenToday : Date := ⟨2026, 5, 10, by decide⟩

theorem reads_birth_date_specimen :
    ReadsBirthDate specimenToday "240115".toList (parseDob specimenToday "240115".toList) := by
  refine (reads_birth_date_iff specimenToday "240115".toList (by decide) (by decide)).mpr
    (.inr (.inl ⟨forall_of_all (by decide +kernel), fun e hspells hahead _ => ?_⟩))
  have hyear : e.year % 100 = 24 := by
    have hsix : "240115".toList = digits2 24 ++ digits2 1 ++ digits2 15 := by decide
    rw [hsix, spells_iff (by decide) (by decide) (by decide)] at hspells
    exact hspells.1
  have hyears : specimenToday.year ≤ e.year := Date.year_le_of_le hahead.le
  unfold specimenToday at hyears
  simp only at hyears
  omega

/-- In May 2026 a date of birth is read as New Year's Day 2027. -/
theorem reads_day_ahead :
    parseDob specimenToday "270101".toList = .ok (some ⟨2027, 1, 1, by decide⟩) ∧
      ¬ ReadsBirthDate specimenToday "270101".toList (parseDob specimenToday "270101".toList) := by
  have hread : parseDob specimenToday "270101".toList = .ok (some ⟨2027, 1, 1, by decide⟩) := by
    decide +kernel
  refine ⟨hread, fun h => ?_⟩
  have hpast := (h.some_latest _ hread).1
  exact absurd hpast (by decide)

end Mrz
end Hawiya
