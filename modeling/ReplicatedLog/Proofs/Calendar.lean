import Mathlib.Order.Basic
import Mathlib.Tactic.IntervalCases
import ReplicatedLog.Calendar

namespace ReplicatedLog

namespace Date

/-- Days from the first of March of the year 0 to that of `year`. -/
def marchDays (year : Int) : Int :=
  365 * year + year / 4 - year / 100 + year / 400

/-- The year to whose first of March a date is counted. -/
def marchYear (date : Date) : Int :=
  if date.month ≤ 2 then date.year - 1 else date.year

/-- The month of a date, counted from March. -/
def marchMonth (date : Date) : Nat :=
  (date.month + 9) % 12

/-- Days from the first of March to the first of a month that is counted from March. -/
def monthDays (month : Nat) : Nat :=
  (153 * month + 2) / 5

/-- Days from the first of March to a date. -/
def dayOfYear (date : Date) : Nat :=
  monthDays date.marchMonth + date.day - 1

/-- The date that lies `day` days after the first of March of `year`. -/
def ofMarch (year : Int) (day : Nat) : Date :=
  let month := (5 * day + 2) / 153
  { year := if month < 10 then year else year + 1
    month := if month < 10 then month + 3 else month - 9
    day := day - monthDays month + 1 }

variable {date other : Date} {year : Int} {day : Nat}

/-- A year that starts in March ends with the leap day of the next one. -/
theorem marchDays_succ (year : Int) :
    marchDays (year + 1) = marchDays year + if isLeap (year + 1) then 366 else 365 := by
  by_cases hleap : isLeap (year + 1)
  · rw [if_pos hleap]
    unfold isLeap at hleap
    rw [decide_eq_true_iff] at hleap
    unfold marchDays
    omega
  · rw [if_neg hleap]
    unfold isLeap at hleap
    rw [decide_eq_true_iff] at hleap
    unfold marchDays
    omega

theorem marchDays_le_of_le {first second : Int} (hle : first ≤ second) :
    marchDays first ≤ marchDays second := by
  unfold marchDays
  omega

/-- A day lies in one year only. -/
theorem march_unique {first second : Int} {low high : Nat}
    (hlow : marchDays first + low < marchDays (first + 1))
    (hhigh : marchDays second + high < marchDays (second + 1))
    (hsame : marchDays first + low = marchDays second + high) : first = second ∧ low = high := by
  have hle : first = second := by
    rcases lt_trichotomy first second with hlt | rfl | hlt
    · have := marchDays_le_of_le (show first + 1 ≤ second from hlt)
      omega
    · rfl
    · have := marchDays_le_of_le (show second + 1 ≤ first from hlt)
      omega
  subst hle
  exact ⟨rfl, by omega⟩

/-- Centuries, groups of four years and years add up to a year of an era. -/
theorem marchDays_parts (era : Int) {century four one : Nat} (hcentury : century ≤ 3)
    (hfour : four ≤ 24) (hone : one ≤ 3) :
    marchDays (era * 400 + (100 * century + 4 * four + one : Nat)) =
      146097 * era + (36524 * century + 1461 * four + 365 * one : Nat) := by
  unfold marchDays
  omega

/-- Four years end with a leap day, unless they end a century that does not end its era. -/
theorem isLeap_parts (era : Int) {century four : Nat}
    (hfour : four < 24 ∨ four = 24 ∧ century = 3) :
    isLeap (era * 400 + (100 * century + 4 * four + 3 : Nat) + 1) = true := by
  unfold isLeap
  rw [decide_eq_true_iff]
  omega

/-- Every day lies in some year, and its date is found there. -/
theorem exists_march (days : Int) :
    ∃ year day, days + epoch = marchDays year + (day : Nat) ∧
      marchDays year + day < marchDays (year + 1) ∧ ofDays days = ofMarch year day := by
  let era := (days + epoch) / 146097
  let dayOfEra := ((days + epoch) % 146097).toNat
  let century := min (dayOfEra / 36524) 3
  let dayOfCentury := dayOfEra - 36524 * century
  let four := dayOfCentury / 1461
  let dayOfFour := dayOfCentury - 1461 * four
  let one := min (dayOfFour / 365) 3
  have hsum : days + epoch = 146097 * era + dayOfEra := by omega
  have hera : dayOfEra < 146097 := by omega
  have hcentury : century ≤ 3 ∧ dayOfEra = 36524 * century + dayOfCentury ∧
      (century < 3 ∧ dayOfCentury < 36524 ∨ century = 3 ∧ dayOfCentury ≤ 36524) := by omega
  have hfour : four ≤ 24 ∧ dayOfCentury = 1461 * four + dayOfFour ∧ dayOfFour < 1461 := by omega
  have hone : dayOfFour = 365 * one + (dayOfFour - 365 * one) ∧
      (one < 3 ∧ dayOfFour - 365 * one < 365 ∨ one = 3 ∧ dayOfFour - 365 * one ≤ 365) := by omega
  have hfound : ofDays days = ofMarch (era * 400 + (100 * century + 4 * four + one : Nat))
      (dayOfFour - 365 * one) := rfl
  clear_value era dayOfEra century dayOfCentury four dayOfFour one
  have hstart := marchDays_parts era hcentury.1 hfour.1 (show one ≤ 3 by omega)
  refine ⟨_, _, ?_, ?_, hfound⟩
  · omega
  · rw [marchDays_succ]
    by_cases hlast : dayOfFour - 365 * one = 365
    · obtain rfl : one = 3 := by omega
      rw [isLeap_parts era (by omega), if_pos rfl]
      omega
    · split <;> omega

/-- A month and a day of it, counted from March. -/
theorem toDays_eq (hday : 1 ≤ date.day) :
    date.toDays = marchDays date.marchYear + date.dayOfYear - epoch := by
  unfold toDays marchDays marchYear dayOfYear monthDays marchMonth
  dsimp only
  split <;> omega

/-- A month has at most as many days as lie between its first one and the next month. -/
theorem monthDays_succ (hvalid : date.IsValid) :
    monthDays date.marchMonth + date.day ≤ monthDays (date.marchMonth + 1) := by
  obtain ⟨hlow, hhigh, -, hday⟩ := hvalid
  unfold daysInMonth at hday
  unfold monthDays marchMonth
  by_cases hmonth : date.month = 2
  · rw [if_pos hmonth] at hday
    rw [hmonth]
    split at hday <;> omega
  · rw [if_neg hmonth] at hday
    generalize date.month = month at *
    interval_cases month <;> simp at hday hmonth ⊢ <;> omega

theorem monthDays_le_of_lt {low high : Nat} (hlt : low < high) :
    monthDays (low + 1) ≤ monthDays high := by
  unfold monthDays
  omega

/-- A date lies in the year that it is counted in. -/
theorem dayOfYear_lt (hvalid : date.IsValid) :
    marchDays date.marchYear + date.dayOfYear < marchDays (date.marchYear + 1) := by
  rw [marchDays_succ]
  have hlength := monthDays_succ hvalid
  obtain ⟨hlow, hhigh, hpos, hday⟩ := hvalid
  unfold dayOfYear
  by_cases hmonth : date.month = 2
  · have hyear : date.marchYear + 1 = date.year := by simp [marchYear, hmonth]
    have hmarch : monthDays date.marchMonth = 337 := by simp [monthDays, marchMonth, hmonth]
    unfold daysInMonth at hday
    rw [if_pos hmonth] at hday
    rw [hyear, hmarch]
    cases hleap : isLeap date.year with
    | true =>
      rw [hleap, if_pos rfl] at hday
      rw [if_pos rfl]
      omega
    | false =>
      rw [hleap, if_neg Bool.false_ne_true] at hday
      rw [if_neg Bool.false_ne_true]
      omega
  · -- the months in front of the last one are as long in every year
    have hmarch : date.marchMonth + 1 ≤ 11 := by
      unfold marchMonth
      omega
    have hmonths : monthDays (date.marchMonth + 1) ≤ 337 := by
      unfold monthDays
      omega
    split <;> omega

/-- Every month but February ends where the next one begins. -/
theorem daysInMonth_eq {month : Nat} (hmonth : month ≤ 10) (year : Int) :
    daysInMonth year (if month < 10 then month + 3 else month - 9) =
      monthDays (month + 1) - monthDays month := by
  interval_cases month <;> rfl

/-- The date of a day of some year is valid. -/
theorem isValid_ofMarch (hday : marchDays year + day < marchDays (year + 1)) :
    (ofMarch year day).IsValid := by
  rw [marchDays_succ] at hday
  unfold ofMarch
  dsimp only
  generalize hmonth : (5 * day + 2) / 153 = month
  have hlast : day ≤ 365 := by
    split at hday <;> omega
  have hfirst : monthDays month ≤ day := by
    unfold monthDays
    omega
  have hnext : day < monthDays (month + 1) := by
    unfold monthDays
    omega
  by_cases hfebruary : month = 11
  · subst hfebruary
    have hstart : monthDays 11 = 337 := rfl
    have hfebruary : daysInMonth (year + 1) 2 = if isLeap (year + 1) then 29 else 28 := rfl
    refine ⟨Nat.le_succ 1, Nat.le_add_left 2 10, Nat.le_add_left 1 _, ?_⟩
    change day - monthDays 11 + 1 ≤ daysInMonth (year + 1) 2
    rw [hfebruary, hstart]
    split at hday <;> split <;> first | contradiction | omega
  · have hten : month ≤ 10 := by omega
    refine ⟨?_, ?_, by dsimp only; omega, ?_⟩
    · dsimp only
      split <;> omega
    · dsimp only
      split <;> omega
    · dsimp only
      rw [daysInMonth_eq hten]
      omega

/-- The date of a day of some year is counted as that day of that year. -/
theorem ofMarch_parts (hday : marchDays year + day < marchDays (year + 1)) :
    (ofMarch year day).marchYear = year ∧ (ofMarch year day).dayOfYear = day := by
  rw [marchDays_succ] at hday
  unfold ofMarch marchYear dayOfYear marchMonth
  dsimp only
  generalize hmonth : (5 * day + 2) / 153 = month
  have hlast : day ≤ 365 := by
    split at hday <;> omega
  have hfirst : monthDays month ≤ day := by
    unfold monthDays
    omega
  by_cases hten : month < 10
  · simp only [if_pos hten]
    have hback : (month + 3 + 9) % 12 = month := by omega
    rw [hback]
    exact ⟨by omega, by omega⟩
  · simp only [if_neg hten]
    have hback : (month - 9 + 9) % 12 = month := by omega
    rw [hback]
    exact ⟨by omega, by omega⟩

/-- A date is found again from the year and the day that it is counted as. -/
theorem ofMarch_marchYear_dayOfYear (hvalid : date.IsValid) :
    ofMarch date.marchYear date.dayOfYear = date := by
  have hlength := monthDays_succ hvalid
  obtain ⟨hlow, hhigh, hpos, -⟩ := hvalid
  have hmonth : (5 * date.dayOfYear + 2) / 153 = date.marchMonth := by
    unfold dayOfYear monthDays at *
    omega
  unfold ofMarch
  dsimp only
  rw [hmonth]
  have hday : date.dayOfYear - monthDays date.marchMonth + 1 = date.day := by
    unfold dayOfYear
    omega
  rw [hday]
  unfold marchYear marchMonth
  by_cases hspring : date.month ≤ 2
  · have hback : (date.month + 9) % 12 = date.month + 9 := by omega
    have hten : ¬ date.month + 9 < 10 := by omega
    simp [hback, hspring, hten]
  · have hback : (date.month + 9) % 12 = date.month - 3 := by omega
    have hten : date.month - 3 < 10 := by omega
    have hsum : date.month - 3 + 3 = date.month := by omega
    simp [hback, hspring, hten, hsum]

/-- The date of a day is valid. -/
theorem isValid_ofDays (days : Int) : (ofDays days).IsValid := by
  obtain ⟨year, day, -, hday, hfound⟩ := exists_march days
  rw [hfound]
  exact isValid_ofMarch hday

/-- The day of a day's date is that day. -/
theorem toDays_ofDays (days : Int) : (ofDays days).toDays = days := by
  obtain ⟨year, day, hdays, hday, hfound⟩ := exists_march days
  obtain ⟨hyear, hsame⟩ := ofMarch_parts hday
  rw [toDays_eq (isValid_ofDays days).2.2.1, hfound, hyear, hsame]
  omega

/-- The date of a date's day is that date. -/
theorem ofDays_toDays (hvalid : date.IsValid) : ofDays date.toDays = date := by
  obtain ⟨year, day, hdays, hday, hfound⟩ := exists_march date.toDays
  have hown := toDays_eq hvalid.2.2.1
  obtain ⟨rfl, rfl⟩ := march_unique hday (dayOfYear_lt hvalid) (by omega)
  rw [hfound, ofMarch_marchYear_dayOfYear hvalid]

/-- Year, month and day of a date, as digits written one behind the other. -/
def number (date : Date) : Int :=
  date.year * 10000 + (date.month * 100 + date.day : Nat)

theorem day_le_of_isValid (hvalid : date.IsValid) : date.day ≤ 31 := by
  obtain ⟨-, -, -, hday⟩ := hvalid
  unfold daysInMonth at hday
  split at hday <;> split at hday <;> omega

/-- No two dates are written with the same digits. -/
theorem eq_of_number_eq (hdate : date.IsValid) (hother : other.IsValid)
    (hsame : date.number = other.number) : date = other := by
  have hthirty := day_le_of_isValid hdate
  have hfew := day_le_of_isValid hother
  obtain ⟨-, hmonth, -, -⟩ := hdate
  obtain ⟨-, hotherMonth, -, -⟩ := hother
  obtain ⟨year, month, day⟩ := date
  obtain ⟨otherYear, otherMonth, otherDay⟩ := other
  unfold number at hsame
  dsimp only at *
  congr 1 <;> omega

/-- A later date has a later day. -/
theorem toDays_lt_of_number_lt (hdate : date.IsValid) (hother : other.IsValid)
    (hlt : date.number < other.number) : date.toDays < other.toDays := by
  have hlength := monthDays_succ hdate
  have hyear := dayOfYear_lt hdate
  have hthirty := day_le_of_isValid hdate
  have hfew := day_le_of_isValid hother
  rw [toDays_eq hdate.2.2.1, toDays_eq hother.2.2.1]
  obtain ⟨hlow, hhigh, hpos, -⟩ := hdate
  obtain ⟨hotherLow, hotherHigh, hotherPos, -⟩ := hother
  have hle : date.marchYear < other.marchYear ∨ date.marchYear = other.marchYear ∧
      (date.marchMonth < other.marchMonth ∨
        date.marchMonth = other.marchMonth ∧ date.day < other.day) := by
    unfold number at hlt
    unfold marchYear marchMonth
    split <;> split <;> omega
  rcases hle with hearlier | ⟨hsame, hearlier | ⟨hmonth, hday⟩⟩
  · have := marchDays_le_of_le (show date.marchYear + 1 ≤ other.marchYear from hearlier)
    omega
  · have := monthDays_le_of_lt hearlier
    rw [hsame]
    unfold dayOfYear
    omega
  · rw [hsame]
    unfold dayOfYear
    rw [hmonth]
    omega

end Date

namespace Instant

variable {instant other : Instant} {date : Date} {time : ClockTime}

/-- Year, month, day, hour, minute and second of an instant, as digits written one behind the other. -/
def stamp (instant : Instant) : Int :=
  let (date, time) := instant.civil
  date.number * 1000000 + (time.hour * 10000 + time.minute * 100 + time.second : Nat)

theorem second_lt (instant : Instant) : instant.civil.2.second < 60 :=
  Nat.mod_lt _ (by decide)

/-- The date and the time of day of an instant exist. -/
theorem isValid_civil (instant : Instant) :
    instant.civil.1.IsValid ∧ instant.civil.2.IsValid := by
  refine ⟨Date.isValid_ofDays _, ?_, Nat.mod_lt _ (by decide), Nat.le_of_lt instant.second_lt⟩
  have hday := Int.emod_lt_of_pos instant.seconds (by decide : (0 : Int) < 86400)
  dsimp only [civil]
  omega

/-- A whole second is found again from its date and time of day. -/
theorem ofCivil?_civil (hwhole : instant.nanos = 0) :
    ofCivil? instant.civil.1 instant.civil.2 = some instant := by
  have hsecond := instant.second_lt
  obtain ⟨seconds, nanos⟩ := instant
  dsimp only at hwhole
  subst hwhole
  rw [ofCivil?, if_pos (isValid_civil _)]
  dsimp only
  rw [if_neg hsecond.ne]
  dsimp only [civil]
  rw [Date.toDays_ofDays]
  congr 2
  omega

/-- Date and time of day are found again from their instant, unless they tell of a leap second. -/
theorem civil_of_ofCivil? (hfound : ofCivil? date time = some instant) (hleap : time.second ≠ 60) :
    instant.civil = (date, time) ∧ instant.nanos = 0 := by
  unfold ofCivil? at hfound
  by_cases hvalid : date.IsValid ∧ time.IsValid
  · rw [if_pos hvalid] at hfound
    dsimp only at hfound
    rw [if_neg hleap, Option.some.injEq] at hfound
    subst hfound
    refine ⟨?_, rfl⟩
    obtain ⟨hdate, hhour, hminute, hsecond⟩ := hvalid
    have hdays : (date.toDays * 86400 + (time.hour * 3600 + time.minute * 60 : Nat) + time.second)
        / 86400 = date.toDays := by omega
    have hrest : ((date.toDays * 86400 + (time.hour * 3600 + time.minute * 60 : Nat) + time.second)
        % 86400).toNat = time.hour * 3600 + time.minute * 60 + time.second := by omega
    dsimp only [civil]
    rw [hdays, hrest, Date.ofDays_toDays hdate]
    congr 1
    obtain ⟨hour, minute, second⟩ := time
    dsimp only at *
    congr 1 <;> omega
  · rw [if_neg hvalid] at hfound
    cases hfound

/-- Hour, minute and second of a second of the day, as digits written one behind the other. -/
theorem clock_lt_of_lt {low high : Nat} (hlt : low < high) :
    low / 3600 * 10000 + low / 60 % 60 * 100 + low % 60 <
      high / 3600 * 10000 + high / 60 % 60 * 100 + high % 60 := by
  have hlow : low / 60 / 60 = low / 3600 := Nat.div_div_eq_div_mul ..
  have hhigh : high / 60 / 60 = high / 3600 := Nat.div_div_eq_div_mul ..
  omega

/-- A later second has larger digits. -/
theorem stamp_lt_of_seconds_lt (hlt : instant.seconds < other.seconds) :
    instant.stamp < other.stamp := by
  have hdate := (isValid_civil instant).1
  have hother := (isValid_civil other).1
  have hdays : instant.civil.1.toDays = instant.seconds / 86400 := Date.toDays_ofDays _
  have hdaysOther : other.civil.1.toDays = other.seconds / 86400 := Date.toDays_ofDays _
  have htime : instant.civil.2 = ⟨(instant.seconds % 86400).toNat / 3600,
    (instant.seconds % 86400).toNat / 60 % 60, (instant.seconds % 86400).toNat % 60⟩ := rfl
  have htimeOther : other.civil.2 = ⟨(other.seconds % 86400).toNat / 3600,
    (other.seconds % 86400).toNat / 60 % 60, (other.seconds % 86400).toNat % 60⟩ := rfl
  unfold stamp
  generalize instant.civil = civil at *
  generalize other.civil = civilOther at *
  obtain ⟨date, time⟩ := civil
  obtain ⟨dateOther, timeOther⟩ := civilOther
  dsimp only at *
  subst htime htimeOther
  dsimp only
  rcases lt_trichotomy date.number dateOther.number with hless | hsame | hmore
  · omega
  · have := Date.eq_of_number_eq hdate hother hsame
    subst this
    have hclock := clock_lt_of_lt
      (show (instant.seconds % 86400).toNat < (other.seconds % 86400).toNat by omega)
    omega
  · have := Date.toDays_lt_of_number_lt hother hdate hmore
    omega

end Instant

end ReplicatedLog
