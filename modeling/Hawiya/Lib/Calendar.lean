import Mathlib.Order.Basic
import Hawiya.Lib.PyString

/-!
# Calendar dates

Proleptic Gregorian dates as `datetime.date` has them: years 1 to 9999, a value cannot be built
for a day that does not exist. `isoformat` prints `YYYY-MM-DD` and `fromIsoformat` reads that
form back.
-/

namespace Calendar
open PyString

def isLeap (y : ℕ) : Bool := y % 4 == 0 && (y % 100 != 0 || y % 400 == 0)

def daysInMonth (y m : ℕ) : ℕ :=
  if m = 2 then (if isLeap y then 29 else 28)
  else if m = 4 ∨ m = 6 ∨ m = 9 ∨ m = 11 then 30 else 31

def ValidYmd (y m d : ℕ) : Prop :=
  1 ≤ y ∧ y ≤ 9999 ∧ 1 ≤ m ∧ m ≤ 12 ∧ 1 ≤ d ∧ d ≤ daysInMonth y m

instance (y m d : ℕ) : Decidable (ValidYmd y m d) :=
  inferInstanceAs (Decidable (_ ∧ _ ∧ _ ∧ _ ∧ _ ∧ _))

structure Date where
  year : ℕ
  month : ℕ
  day : ℕ
  valid : ValidYmd year month day
  deriving DecidableEq

namespace Date

/-- `date(y, m, d)`; `none` stands for its `ValueError`. -/
def ofYmd? (y m d : ℕ) : Option Date :=
  if h : ValidYmd y m d then some ⟨y, m, d, h⟩ else none

def isoformat (d : Date) : Str := digits4 d.year ++ '-' :: digits2 d.month ++ '-' :: digits2 d.day

/-- `date.fromisoformat` on the calendar form `YYYY-MM-DD`, the one `isoformat` prints. -/
def fromIsoformat (s : Str) : Option Date :=
  match s with
  | [y₁, y₂, y₃, y₄, '-', m₁, m₂, '-', d₁, d₂] => do
      let y ← asciiInt? [y₁, y₂, y₃, y₄]
      let m ← asciiInt? [m₁, m₂]
      let d ← asciiInt? [d₁, d₂]
      ofYmd? y m d
  | _ => none
where
  asciiInt? (s : Str) : Option ℕ :=
    s.foldl (fun acc c => acc.bind (fun n =>
      if 48 ≤ c.toNat ∧ c.toNat ≤ 57 then some (10 * n + (c.toNat - 48)) else none)) (some 0)

theorem ofYmd?_eq_some_iff (y m d : ℕ) (e : Date) :
    ofYmd? y m d = some e ↔ e.year = y ∧ e.month = m ∧ e.day = d := by
  unfold ofYmd?
  constructor
  · intro h
    split_ifs at h
    cases h
    exact ⟨rfl, rfl, rfl⟩
  · rintro ⟨rfl, rfl, rfl⟩
    rw [dif_pos e.valid]

theorem daysInMonth_le (y m : ℕ) : daysInMonth y m ≤ 31 := by
  unfold daysInMonth
  split_ifs <;> omega

theorem month_lt_hundred (d : Date) : d.month < 100 := by
  have h := d.valid.2.2.2.1
  omega

theorem day_lt_hundred (d : Date) : d.day < 100 := by
  have h := d.valid.2.2.2.2.2.trans (daysInMonth_le d.year d.month)
  omega

theorem year_lt_myriad (d : Date) : d.year < 10000 := by
  have h := d.valid.2.1
  omega

/-- `YYYYMMDD` as a number. -/
def serial (d : Date) : ℕ := d.year * 10000 + d.month * 100 + d.day

theorem serial_injective : Function.Injective serial := by
  intro d e h
  have hd := d.month_lt_hundred
  have he := e.month_lt_hundred
  have hd' := d.day_lt_hundred
  have he' := e.day_lt_hundred
  unfold serial at h
  obtain ⟨hyear, hmonth, hday⟩ : d.year = e.year ∧ d.month = e.month ∧ d.day = e.day := by omega
  cases d
  cases e
  simp_all

/-- Earlier dates come first. -/
instance : LinearOrder Date := LinearOrder.lift' serial serial_injective

theorem le_iff_serial {d e : Date} : d ≤ e ↔ d.serial ≤ e.serial := Iff.rfl

theorem year_le_of_le {d e : Date} (h : d ≤ e) : d.year ≤ e.year := by
  have hd := d.month_lt_hundred
  have he := e.month_lt_hundred
  have hd' := d.day_lt_hundred
  have he' := e.day_lt_hundred
  rw [le_iff_serial] at h
  unfold serial at h
  omega

theorem le_of_year_lt {d e : Date} (h : d.year < e.year) : d ≤ e := by
  by_contra hle
  have hyear := year_le_of_le (not_le.mp hle).le
  omega

/-- The same day of two years. -/
theorem le_of_same_day {d e : Date} (hmonth : d.month = e.month) (hday : d.day = e.day)
    (h : d.year ≤ e.year) : d ≤ e := by
  rw [le_iff_serial]
  unfold serial
  omega

theorem toNat_digitChar_div_mod (n : ℕ) :
    (Nat.digitChar (n % 10)).toNat = 48 + n % 10 := by
  have h : n % 10 < 10 := Nat.mod_lt _ (by omega)
  interval_cases n % 10 <;> rfl

theorem asciiInt?_digits2 (n : ℕ) (h : n < 100) : fromIsoformat.asciiInt? (digits2 n) = some n := by
  have hd : n / 10 = n / 10 % 10 := by omega
  unfold fromIsoformat.asciiInt? digits2
  rw [hd]
  simp only [List.foldl_cons, List.foldl_nil, Option.bind_some, toNat_digitChar_div_mod]
  rw [if_pos (by omega), Option.bind_some, if_pos (by omega)]
  congr 1
  omega

theorem asciiInt?_digits4 (n : ℕ) (h : n < 10000) :
    fromIsoformat.asciiInt? (digits4 n) = some n := by
  have h₁ : n / 100 / 10 = n / 100 / 10 % 10 := by omega
  have h₂ : n % 100 / 10 = n % 100 / 10 % 10 := by omega
  unfold fromIsoformat.asciiInt? digits4 digits2
  rw [h₁, h₂]
  simp only [List.cons_append, List.nil_append, List.foldl_cons, List.foldl_nil, Option.bind_some,
    toNat_digitChar_div_mod]
  rw [if_pos (by omega), Option.bind_some, if_pos (by omega), Option.bind_some,
    if_pos (by omega), Option.bind_some, if_pos (by omega)]
  congr 1
  omega

/-- Printing a date and reading it back gives the same date. -/
theorem fromIsoformat_isoformat (d : Date) : fromIsoformat d.isoformat = some d := by
  have hy := asciiInt?_digits4 d.year d.year_lt_myriad
  have hm := asciiInt?_digits2 d.month d.month_lt_hundred
  have hd := asciiInt?_digits2 d.day d.day_lt_hundred
  simp only [digits4, digits2, List.cons_append, List.nil_append] at hy hm hd
  simp only [isoformat, digits4, digits2, List.cons_append, List.nil_append, fromIsoformat, hy, hm,
    hd]
  exact (ofYmd?_eq_some_iff _ _ _ d).2 ⟨rfl, rfl, rfl⟩

end Date
end Calendar
