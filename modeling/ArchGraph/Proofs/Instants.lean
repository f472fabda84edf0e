import ArchGraph.Proofs.Sorting
import ArchGraph.Timestamp

/-!
Texts of times and the instants they mean. Stored times are compared by their texts, which differ in
length: a fraction of a second is written only where there is one. In universal time the order of
the texts is the order of the instants all the same (`storedText_le_iff`). The numbers in a text
have fixed widths, so texts are ordered as what clock and calendar show
(`storedText_lt_iff_reading`), and what these show later is later (`instant_lt_of_reading_lt`).
-/

namespace ArchGraph

/-! ## Texts of numbers -/

/-- Where the first parts are of one length, they decide first. -/
theorem append_lt_append_iff {xs ys as bs : List Char} (h : xs.length = ys.length) :
    xs ++ as < ys ++ bs ↔ xs < ys ∨ xs = ys ∧ as < bs := by
  induction xs generalizing ys with
  | nil =>
      have hnil : ys = [] := List.length_eq_zero_iff.mp h.symm
      simp [hnil]
  | cons x xs ih =>
      cases ys with
      | nil => simp at h
      | cons y ys =>
          have htail : xs.length = ys.length := by simpa using h
          simp only [List.cons_append, List.cons_lt_cons_iff, ih htail, List.cons.injEq]
          constructor
          · rintro (hlt | ⟨rfl, hlt | ⟨rfl, hlt⟩⟩)
            · exact .inl (.inl hlt)
            · exact .inl (.inr ⟨rfl, hlt⟩)
            · exact .inr ⟨⟨rfl, rfl⟩, hlt⟩
          · rintro ((hlt | ⟨rfl, hlt⟩) | ⟨⟨rfl, rfl⟩, hlt⟩)
            · exact .inl hlt
            · exact .inr ⟨rfl, .inl hlt⟩
            · exact .inr ⟨rfl, .inr ⟨rfl, hlt⟩⟩

namespace Timestamp

theorem digitChar_lt_iff {m n : Nat} (hm : m < 10) (hn : n < 10) :
    Nat.digitChar m < Nat.digitChar n ↔ m < n := by
  have hless : Nat.digitChar m < Nat.digitChar n ↔
      (Nat.digitChar m).toNat < (Nat.digitChar n).toNat :=
    Iff.rfl
  rw [hless, Nat.toNat_digitChar_of_lt_ten hm, Nat.toNat_digitChar_of_lt_ten hn]
  omega

theorem padded_toList (width n : Nat) :
    (padded width n).toList =
      List.replicate (width - (Nat.toDigits 10 n).length) '0' ++ Nat.toDigits 10 n := by
  simp [padded]

/-- The last digit stands behind what is left without it. -/
theorem padded_succ (width n : Nat) :
    (padded (width + 2) n).toList =
      (padded (width + 1) (n / 10)).toList ++ [Nat.digitChar (n % 10)] := by
  rw [padded_toList, padded_toList, Nat.toDigits_eq_if (n := n) (by decide)]
  split
  · rename_i hsmall
    have hdigit : Nat.toDigits 10 0 = ['0'] := rfl
    rw [Nat.div_eq_of_lt hsmall, Nat.mod_eq_of_lt hsmall, hdigit]
    simp [List.replicate_succ']
  · simp

theorem length_padded {width n : Nat} (h : n < Nat.pow 10 (width + 1)) :
    (padded (width + 1) n).toList.length = width + 1 := by
  have hlength : (Nat.toDigits 10 n).length ≤ width + 1 :=
    (Nat.length_toDigits_le_iff (by decide) (by omega)).mpr h
  rw [padded_toList, List.length_append, List.length_replicate]
  omega

/-- What is ordered as numbers are is told apart as they are. -/
theorem eq_of_lt_iff {xs ys : List Char} {m n : Nat} (hlt : xs < ys ↔ m < n)
    (hgt : ys < xs ↔ n < m) (h : xs = ys) : m = n := by
  subst h
  have hself : ¬ xs < xs := List.lt_irrefl xs
  have hmn : ¬ m < n := fun hless => hself (hlt.mpr hless)
  have hnm : ¬ n < m := fun hless => hself (hgt.mpr hless)
  omega

/-- Numbers of one width are ordered as their digits are. -/
theorem padded_lt_iff {width m n : Nat} (hm : m < Nat.pow 10 (width + 1))
    (hn : n < Nat.pow 10 (width + 1)) :
    (padded (width + 1) m).toList < (padded (width + 1) n).toList ↔ m < n := by
  induction width generalizing m n with
  | zero =>
      have hone : ∀ k < 10, (padded 1 k).toList = [Nat.digitChar k] := by decide
      rw [hone m hm, hone n hn, List.cons_lt_cons_iff, digitChar_lt_iff hm hn]
      simp
  | succ width ih =>
      have hpow : Nat.pow 10 (width + 1 + 1) = Nat.pow 10 (width + 1) * 10 := rfl
      have hm' : m / 10 < Nat.pow 10 (width + 1) := by omega
      have hn' : n / 10 < Nat.pow 10 (width + 1) := by omega
      have hlengths := (length_padded hm').trans (length_padded hn').symm
      have hlast : [Nat.digitChar (m % 10)] < [Nat.digitChar (n % 10)] ↔ m % 10 < n % 10 := by
        rw [List.cons_lt_cons_iff, digitChar_lt_iff (by omega) (by omega)]
        simp
      rw [padded_succ, padded_succ, append_lt_append_iff hlengths, ih hm' hn', hlast]
      constructor
      · rintro (hlt | ⟨heq, hlt⟩)
        · omega
        · have hsame := eq_of_lt_iff (ih hm' hn') (ih hn' hm') heq
          omega
      · intro hlt
        by_cases heq : m / 10 = n / 10
        · exact .inr ⟨by rw [heq], by omega⟩
        · exact .inl (by omega)

theorem padded_append_lt_iff (width : Nat) {m n : Nat} (hm : m < Nat.pow 10 (width + 1))
    (hn : n < Nat.pow 10 (width + 1)) (as bs : List Char) :
    (padded (width + 1) m).toList ++ as < (padded (width + 1) n).toList ++ bs ↔
      m < n ∨ m = n ∧ as < bs := by
  have hlengths := (length_padded hm).trans (length_padded hn).symm
  rw [append_lt_append_iff hlengths, padded_lt_iff hm hn]
  apply or_congr_right
  apply and_congr_left'
  constructor
  · exact eq_of_lt_iff (padded_lt_iff hm hn) (padded_lt_iff hn hm)
  · rintro rfl
    rfl

theorem cons_lt_cons_same (c : Char) (as bs : List Char) : c :: as < c :: bs ↔ as < bs := by
  rw [List.cons_lt_cons_iff]
  simp

/-! ## Timestamps in universal time -/

/-- A date that exists, a time of day, and no offset from universal time. -/
structure Utc (t : Timestamp) : Prop where
  year : 1 ≤ t.year ∧ t.year ≤ 9999
  month : 1 ≤ t.month ∧ t.month ≤ 12
  day : 1 ≤ t.day ∧ t.day ≤ monthLength t.year t.month
  hour : t.hour < 24
  minute : t.minute < 60
  second : t.second < 60
  microsecond : t.microsecond < 1000000
  offset : t.offset = some 0

/-- What stands behind the seconds in universal time. -/
def fractionText (microsecond : Nat) : List Char :=
  (if microsecond = 0 then "" else "." ++ padded 6 microsecond).toList ++ "+00:00".toList

/-- The sign of the offset comes before the point of a fraction. -/
theorem fractionText_lt_iff {m n : Nat} (hm : m < 1000000) (hn : n < 1000000) :
    fractionText m < fractionText n ↔ m < n := by
  have hpoint : ∀ k, k ≠ 0 → fractionText k = '.' :: ((padded 6 k).toList ++ "+00:00".toList) := by
    intro k hk
    simp [fractionText, hk]
  have hzero : fractionText 0 = '+' :: "00:00".toList := rfl
  by_cases hm0 : m = 0 <;> by_cases hn0 : n = 0
  · simp [hm0, hn0]
  · rw [hm0, hzero, hpoint n hn0, List.cons_lt_cons_iff]
    simp only [show '+' < '.' by decide, true_or, true_iff]
    omega
  · rw [hn0, hzero, hpoint m hm0, List.cons_lt_cons_iff]
    simp [show ¬ '.' < '+' by decide]
  · rw [hpoint m hm0, hpoint n hn0, cons_lt_cons_same, padded_append_lt_iff 5 hm hn]
    simp

theorem storedText_toList {t : Timestamp} (h : t.offset = some 0) :
    t.storedText.toList = (padded 4 t.year).toList ++ '-' :: ((padded 2 t.month).toList ++
      '-' :: ((padded 2 t.day).toList ++ 'T' :: ((padded 2 t.hour).toList ++
      ':' :: ((padded 2 t.minute).toList ++ ':' :: ((padded 2 t.second).toList ++
      fractionText t.microsecond))))) := by
  have hoffset : offsetText 0 = "+00:00" := by decide +kernel
  simp [storedText, localText, h, hoffset, fractionText]

/-- What a clock and a calendar show, the largest unit first. -/
def reading (t : Timestamp) : List Nat :=
  [t.year, t.month, t.day, t.hour, t.minute, t.second, t.microsecond]

theorem monthLength_le (year month : Nat) : monthLength year month ≤ 31 := by
  unfold monthLength
  split
  · split <;> omega
  all_goals omega

theorem storedText_lt_iff_reading {t u : Timestamp} (ht : t.Utc) (hu : u.Utc) :
    t.storedText < u.storedText ↔ t.reading < u.reading := by
  obtain ⟨⟨_, hty⟩, ⟨_, htm⟩, ⟨_, htd⟩, hth, htmin, hts, htmicro, hto⟩ := ht
  obtain ⟨⟨_, huy⟩, ⟨_, hum⟩, ⟨_, hud⟩, huh, humin, hus, humicro, huo⟩ := hu
  have htd' := monthLength_le t.year t.month
  have hud' := monthLength_le u.year u.month
  have h4 : Nat.pow 10 (3 + 1) = 10000 := rfl
  have h2 : Nat.pow 10 (1 + 1) = 100 := rfl
  rw [String.lt_iff, storedText_toList hto, storedText_toList huo,
    padded_append_lt_iff 3 (by omega) (by omega), cons_lt_cons_same,
    padded_append_lt_iff 1 (by omega) (by omega), cons_lt_cons_same,
    padded_append_lt_iff 1 (by omega) (by omega), cons_lt_cons_same,
    padded_append_lt_iff 1 (by omega) (by omega), cons_lt_cons_same,
    padded_append_lt_iff 1 (by omega) (by omega), cons_lt_cons_same,
    padded_append_lt_iff 1 (by omega) (by omega),
    fractionText_lt_iff htmicro humicro]
  simp [reading, List.cons_lt_cons_iff]

/-! ## Instants -/

/-- The days of a year before a month. -/
def daysBeforeMonth (year : Nat) : Nat → Nat
  | 0 => 0
  | month + 1 => daysBeforeMonth year month + monthLength year month

def yearLength (year : Nat) : Nat := daysBeforeMonth year 13

/-- The days before a year, from the start of the year 0. -/
def daysBeforeYear : Nat → Nat
  | 0 => 0
  | year + 1 => daysBeforeYear year + yearLength year

/-- The number of a date, one more for each day. -/
def dayNumber (t : Timestamp) : Nat :=
  daysBeforeYear t.year + daysBeforeMonth t.year t.month + t.day

/-- The time in microseconds, wherever the clock stands that shows it. -/
def instant (t : Timestamp) : Int :=
  (((t.dayNumber * 24 + t.hour) * 60 + t.minute - t.offset.getD 0) * 60 + t.second) * 1000000 +
    t.microsecond

theorem daysBeforeMonth_mono (year : Nat) {m n : Nat} (h : m ≤ n) :
    daysBeforeMonth year m ≤ daysBeforeMonth year n := by
  induction h with
  | refl => exact Nat.le_refl _
  | step _ ih => exact Nat.le_trans ih (Nat.le_add_right _ _)

theorem daysBeforeYear_mono {m n : Nat} (h : m ≤ n) : daysBeforeYear m ≤ daysBeforeYear n := by
  induction h with
  | refl => exact Nat.le_refl _
  | step _ ih => exact Nat.le_trans ih (Nat.le_add_right _ _)

variable {t u : Timestamp}

/-- A date is over before the next month begins. -/
theorem Utc.day_le (h : t.Utc) :
    daysBeforeMonth t.year t.month + t.day ≤ daysBeforeMonth t.year (t.month + 1) :=
  Nat.add_le_add_left h.day.2 _

theorem dayNumber_lt_of_month (ht : t.Utc) (hu : u.Utc) (hyear : t.year = u.year)
    (hmonth : t.month < u.month) : t.dayNumber < u.dayNumber := by
  have hover := ht.day_le
  have hnext := daysBeforeMonth_mono t.year (show t.month + 1 ≤ u.month from hmonth)
  have hday := hu.day.1
  unfold dayNumber
  rw [← hyear]
  omega

theorem dayNumber_lt_of_year (ht : t.Utc) (hu : u.Utc) (hyear : t.year < u.year) :
    t.dayNumber < u.dayNumber := by
  have hover := ht.day_le
  have hend := daysBeforeMonth_mono t.year (show t.month + 1 ≤ 13 by have := ht.month.2; omega)
  have hnext := daysBeforeYear_mono (show t.year + 1 ≤ u.year from hyear)
  have hday := hu.day.1
  simp only [dayNumber, daysBeforeYear, yearLength] at *
  omega

/-- What a clock shows later is later. -/
theorem instant_lt_of_reading_lt (ht : t.Utc) (hu : u.Utc) (h : t.reading < u.reading) :
    t.instant < u.instant := by
  obtain ⟨_, _, _, hth, htmin, hts, htmicro, hto⟩ := id ht
  obtain ⟨_, _, _, huh, humin, hus, humicro, huo⟩ := id hu
  simp only [instant, hto, huo, Option.getD_some]
  simp only [reading, List.cons_lt_cons_iff, List.lt_irrefl, and_false, or_false] at h
  rcases h with hyear | ⟨hyear, hmonth | ⟨hmonth, h⟩⟩
  · have hdays := dayNumber_lt_of_year ht hu hyear
    omega
  · have hdays := dayNumber_lt_of_month ht hu hyear hmonth
    omega
  · have hdays : t.dayNumber + u.day = u.dayNumber + t.day := by
      simp only [dayNumber, hyear, hmonth]
      omega
    omega

theorem instant_eq_of_reading_eq (ht : t.Utc) (hu : u.Utc) (h : t.reading = u.reading) :
    t.instant = u.instant := by
  simp only [reading, List.cons.injEq] at h
  obtain ⟨hyear, hmonth, hday, hhour, hminute, hsecond, hmicro, _⟩ := h
  simp only [instant, dayNumber, ht.offset, hu.offset, *]

/-- The next day comes a day later, over the ends of months and years. -/
theorem instant_nextDay (h : t.Utc) : t.nextDay.instant = t.instant + 86400000000 := by
  have hdays : t.nextDay.dayNumber = t.dayNumber + 1 := by
    obtain ⟨_, hmonth, hday, _⟩ := h
    unfold nextDay
    split
    · simp only [dayNumber]
      omega
    · have hlast : t.day = monthLength t.year t.month := by omega
      split
      · simp only [dayNumber, daysBeforeMonth]
        omega
      · have hdecember : t.month = 12 := by omega
        have hyear : yearLength t.year = daysBeforeMonth t.year 12 + monthLength t.year 12 := rfl
        have hjanuary : daysBeforeMonth (t.year + 1) 1 = 0 := rfl
        simp only [dayNumber, daysBeforeYear, hyear, hjanuary, hlast, hdecember]
        omega
  have hclock : t.nextDay.hour = t.hour ∧ t.nextDay.minute = t.minute ∧
      t.nextDay.second = t.second ∧
      t.nextDay.microsecond = t.microsecond ∧ t.nextDay.offset = t.offset := by
    unfold nextDay
    split
    · simp
    · split <;> simp
  obtain ⟨hhour, hminute, hsecond, hmicro, hoffset⟩ := hclock
  simp only [instant, hdays, hhour, hminute, hsecond, hmicro, hoffset]
  omega

/-! ## Texts and instants -/

theorem storedText_lt_iff (ht : t.Utc) (hu : u.Utc) :
    t.storedText < u.storedText ↔ t.instant < u.instant := by
  have htu := storedText_lt_iff_reading ht hu
  have hut := storedText_lt_iff_reading hu ht
  constructor
  · exact fun h => instant_lt_of_reading_lt ht hu (htu.mp h)
  · intro hlt
    rcases name_trichotomy t.storedText u.storedText with h | h | h
    · exact h
    · rw [h] at htu hut
      have hsame : t.reading = u.reading := by
        apply List.le_antisymm
        · exact List.not_lt.mp fun hless => String.lt_irrefl _ (hut.mpr hless)
        · exact List.not_lt.mp fun hless => String.lt_irrefl _ (htu.mpr hless)
      have := instant_eq_of_reading_eq ht hu hsame
      omega
    · have := instant_lt_of_reading_lt hu ht (hut.mp h)
      omega

theorem storedText_le_iff (ht : t.Utc) (hu : u.Utc) :
    t.storedText ≤ u.storedText ↔ t.instant ≤ u.instant := by
  rw [← String.not_lt, storedText_lt_iff hu ht]
  omega

theorem storedText_eq_iff (ht : t.Utc) (hu : u.Utc) :
    t.storedText = u.storedText ↔ t.instant = u.instant := by
  have htu := storedText_le_iff ht hu
  have hut := storedText_le_iff hu ht
  constructor
  · intro h
    rw [h] at htu hut
    have hle := htu.mp (String.le_refl _)
    have hge := hut.mp (String.le_refl _)
    omega
  · intro h
    exact String.le_antisymm (htu.mpr (by omega)) (hut.mpr (by omega))

end Timestamp

end ArchGraph
