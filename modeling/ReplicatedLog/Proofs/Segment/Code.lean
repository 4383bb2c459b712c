import ReplicatedLog.Proofs.Calendar
import ReplicatedLog.Proofs.Log.Scanning
import ReplicatedLog.Proofs.Text.Decimal

namespace ReplicatedLog

namespace Decimal

/-- Only the low digits are written. -/
theorem padded_congr {width first second : Nat}
    (hsame : first % 10 ^ width = second % 10 ^ width) :
    padded width first = padded width second := by
  induction width with
  | zero => rfl
  | succ width ih =>
    rw [Nat.mod_pow_succ, Nat.mod_pow_succ] at hsame
    have hfirst := Nat.mod_lt first (show 0 < 10 ^ width by positivity)
    have hsecond := Nat.mod_lt second (show 0 < 10 ^ width by positivity)
    have hlow : first % 10 ^ width = second % 10 ^ width := by
      have := congrArg (· % 10 ^ width) hsame
      simpa [Nat.add_mul_mod_self_left] using this
    have hhigh : first / 10 ^ width % 10 = second / 10 ^ width % 10 := by
      rw [hlow, Nat.add_right_inj] at hsame
      exact Nat.eq_of_mul_eq_mul_left (by positivity) hsame
    simp only [padded, digit, Nat.pow_eq, hhigh, ih hlow]

/-- Digits behind others make one number with them. -/
theorem padded_append (width high : Nat) {behind low : Nat} (hlow : low < 10 ^ behind) :
    padded width high ++ padded behind low = padded (width + behind) (high * 10 ^ behind + low) := by
  induction width with
  | zero =>
    rw [Nat.zero_add]
    refine padded_congr ?_
    rw [Nat.mul_add_mod_self_right]
  | succ width ih =>
    have hfirst : (high * 10 ^ behind + low) / 10 ^ (width + behind) = high / 10 ^ width := by
      rw [Nat.add_comm width, Nat.pow_add, ← Nat.div_div_eq_div_mul, Nat.mul_comm,
        Nat.mul_add_div (by positivity), Nat.div_eq_of_lt hlow, Nat.add_zero]
    rw [Nat.succ_add, padded, padded, List.cons_append, ih]
    simp only [Nat.pow_eq, hfirst]

theorem value_eq_ofDigitChars (digits : List Char) : value digits = Nat.ofDigitChars 10 digits 0 := by
  rw [Nat.ofDigitChars_eq_foldl, value]
  congr 1
  funext start c
  rw [Nat.mul_comm]
  rfl

theorem value_cons (c : Char) (digits : List Char) :
    value (c :: digits) = (c.toNat - 48) * 10 ^ digits.length + value digits := by
  rw [value_eq_ofDigitChars, value_eq_ofDigitChars, Nat.ofDigitChars_cons,
    Nat.ofDigitChars_eq_ofDigitChars_zero, Nat.mul_zero, Nat.zero_add, Nat.mul_comm]
  rfl

theorem value_padded (width number : Nat) : value (padded width number) = number % 10 ^ width := by
  induction width with
  | zero => simp [padded, value, Nat.mod_one]
  | succ width ih =>
    rw [padded, value_cons, ih, length_padded, toNat_digit, Nat.mod_pow_succ, Nat.pow_eq,
      Nat.add_sub_cancel_left, Nat.mul_comm, Nat.add_comm]

theorem toNat_sub_lt {c : Char} (hdigit : c.isDigit = true) : c.toNat - 48 < 10 := by
  have hrange := Char.isDigit_iff_toNat.mp hdigit
  have hlast : '9'.toNat = 57 := rfl
  omega

theorem digit_toNat_sub {c : Char} (hdigit : c.isDigit = true) : digit (c.toNat - 48) = c := by
  have hrange := Char.isDigit_iff_toNat.mp hdigit
  have hfirst : '0'.toNat = 48 := rfl
  have hlt := toNat_sub_lt hdigit
  rw [← Char.toNat_inj, toNat_digit]
  omega

theorem value_lt {digits : List Char} (hdigits : digits.all Char.isDigit = true) :
    value digits < 10 ^ digits.length := by
  induction digits with
  | nil => simp [value]
  | cons c rest ih =>
    rw [List.all_cons, Bool.and_eq_true] at hdigits
    rw [value_cons, List.length_cons, Nat.pow_succ]
    have hrest := ih hdigits.2
    have hfirst := Nat.mul_le_mul_right (10 ^ rest.length)
      (Nat.le_of_lt_succ (toNat_sub_lt hdigits.1))
    omega

/-- Digits are what is written of the number that they make. -/
theorem padded_value {digits : List Char} (hdigits : digits.all Char.isDigit = true) :
    padded digits.length (value digits) = digits := by
  induction digits with
  | nil => rfl
  | cons c rest ih =>
    rw [List.all_cons, Bool.and_eq_true] at hdigits
    have hrest := value_lt hdigits.2
    have hfirst : value (c :: rest) / 10 ^ rest.length = c.toNat - 48 := by
      rw [value_cons, Nat.mul_comm, Nat.mul_add_div (by positivity), Nat.div_eq_of_lt hrest,
        Nat.add_zero]
    have hback : padded rest.length (value (c :: rest)) = padded rest.length (value rest) := by
      refine padded_congr ?_
      rw [value_cons, Nat.mul_add_mod_self_right]
    rw [List.length_cons, padded, Nat.pow_eq, hfirst, digit_toNat_sub hdigits.1, hback,
      ih hdigits.2]

/-- What is read from digits is the number that they make. -/
theorem ofDigitChars_of_parseFrom {start result : Nat} {digits : List Char}
    (hread : parseFrom start digits = .ok result) : Nat.ofDigitChars 10 digits start = result := by
  induction digits generalizing start with
  | nil => exact Except.ok.inj hread
  | cons c rest ih =>
    unfold parseFrom at hread
    dsimp only at hread
    split at hread
    · cases hread
    · split at hread
      · cases hread
      · rw [Nat.ofDigitChars_cons, Nat.mul_comm]
        exact ih hread

/-- Digits in equal number are in the order of the numbers that they make. -/
theorem padded_lt_padded {width low high : Nat} (hlt : low < high) (hhigh : high < 10 ^ width)
    (hfits : high ≤ maxValue) (rest others : List Char) :
    padded width low ++ rest < padded width high ++ others := by
  have hread : ∀ number < 10 ^ width, number ≤ maxValue →
      parseFrom 0 (padded width number) = .ok number := by
    intro number hnumber hle
    have hread := parseFrom_padded width 0 number (by rw [Nat.mod_eq_of_lt hnumber]; omega)
    rwa [Nat.mod_eq_of_lt hnumber, Nat.zero_mul, Nat.zero_add] at hread
  exact append_lt_append_of_parseFrom (hread low (hlt.trans hhigh) (by omega))
    (hread high hhigh hfits) (by simp) hlt _ _

end Decimal

/-- A moment that a name can tell: a whole second of the years that four digits tell. -/
structure Instant.Told (instant : Instant) : Prop where
  inCalendar : instant.InCalendar
  whole : instant.nanos = 0

namespace SegmentName

variable {instant created other : Instant} {start later : Nat} {name : String}

/-- The digits of a time are one number. -/
theorem timeText_eq (hyear : created.InCalendar) :
    timeText created = Decimal.padded 14 created.stamp.toNat ∧ 0 ≤ created.stamp ∧
      created.stamp < 10 ^ 14 := by
  obtain ⟨⟨-, hmonth, -, hday⟩, hhour, hminute, -⟩ := Instant.isValid_civil created
  have hsecond := created.second_lt
  have hthirty := Date.day_le_of_isValid (Instant.isValid_civil created).1
  unfold Instant.InCalendar at hyear
  unfold timeText Instant.stamp Date.number
  generalize created.civil = civil at *
  obtain ⟨⟨year, month, day⟩, ⟨hour, minute, second⟩⟩ := civil
  dsimp only at *
  rw [yearText, if_pos hyear, Decimal.padded_append 4 _ (by omega : month < 10 ^ 2),
    Decimal.padded_append 6 _ (by omega : day < 10 ^ 2),
    Decimal.padded_append 8 _ (by omega : hour < 10 ^ 2),
    Decimal.padded_append 10 _ (by omega : minute < 10 ^ 2),
    Decimal.padded_append 12 _ (by omega : second < 10 ^ 2)]
  refine ⟨?_, by omega, by omega⟩
  congr 1
  omega

/-- A name is its fields. -/
theorem split_encode (hyear : created.InCalendar) :
    split (encode start created).toList = .ok (Decimal.padded 20 start, timeText created) := by
  rw [encode, String.toList_ofList]
  exact split_eq_ok (by simp) (Decimal.all_isDigit_padded 20 start) (length_timeText hyear)
    (all_isDigit_timeText hyear)

/-- Fourteen digits are those of a year, a month, a day, an hour, a minute and a second. -/
theorem parseTime_append {year month day hour minute second : List Char} (hyear : year.length = 4)
    (hmonth : month.length = 2) (hday : day.length = 2) (hhour : hour.length = 2)
    (hminute : minute.length = 2) (hsecond : second.length = 2) :
    parseTime (year ++ month ++ day ++ hour ++ minute ++ second) =
      (Instant.ofCivil? ⟨Decimal.value year, Decimal.value month, Decimal.value day⟩
        ⟨Decimal.value hour, Decimal.value minute, Decimal.value second⟩).elim
          (.error .timeOutOfRange) .ok := by
  simp (disch := omega) [parseTime, List.drop_append, List.drop_eq_nil_of_le,
    List.take_of_length_le, hyear, hmonth, hday, hhour, hminute]
  cases Instant.ofCivil? _ _ <;> rfl

/-- What is read from the digits of a time is the instant of its date and time of day. -/
theorem ofCivil?_of_parseTime {year month day hour minute second : List Char}
    (hyear : year.length = 4) (hmonth : month.length = 2) (hday : day.length = 2)
    (hhour : hour.length = 2) (hminute : minute.length = 2) (hsecond : second.length = 2)
    (hread : parseTime (year ++ month ++ day ++ hour ++ minute ++ second) = .ok created) :
    Instant.ofCivil? ⟨Decimal.value year, Decimal.value month, Decimal.value day⟩
      ⟨Decimal.value hour, Decimal.value minute, Decimal.value second⟩ = some created := by
  rw [parseTime_append hyear hmonth hday hhour hminute hsecond] at hread
  cases hfound : Instant.ofCivil? ⟨Decimal.value year, Decimal.value month, Decimal.value day⟩
      ⟨Decimal.value hour, Decimal.value minute, Decimal.value second⟩ with
  | none =>
    rw [hfound] at hread
    cases hread
  | some instant =>
    rw [hfound] at hread
    exact congrArg some (Except.ok.inj hread)

/-- A time is read again as it was written, to the second. -/
theorem parseTime_timeText (hyear : created.InCalendar) :
    parseTime (timeText created) = .ok ⟨created.seconds, 0⟩ := by
  obtain ⟨⟨-, hmonth, -, hday⟩, hhour, hminute, -⟩ := Instant.isValid_civil created
  have hsecond := created.second_lt
  have hthirty := Date.day_le_of_isValid (Instant.isValid_civil created).1
  have hback : Instant.ofCivil? created.civil.1 created.civil.2 = some ⟨created.seconds, 0⟩ :=
    Instant.ofCivil?_civil (show Instant.nanos ⟨created.seconds, 0⟩ = 0 from rfl)
  unfold Instant.InCalendar at hyear
  unfold timeText
  generalize created.civil = civil at *
  obtain ⟨⟨year, month, day⟩, ⟨hour, minute, second⟩⟩ := civil
  dsimp only at *
  have hwritten : ((year.toNat % 10 ^ 4 : Nat) : Int) = year := by omega
  rw [yearText, if_pos hyear, parseTime_append (by simp) (by simp) (by simp) (by simp) (by simp)
    (by simp)]
  simp only [Decimal.value_padded]
  rw [hwritten, Nat.mod_eq_of_lt (by omega : month < 10 ^ 2),
    Nat.mod_eq_of_lt (by omega : day < 10 ^ 2), Nat.mod_eq_of_lt (by omega : hour < 10 ^ 2),
    Nat.mod_eq_of_lt (by omega : minute < 10 ^ 2), Nat.mod_eq_of_lt (by omega : second < 10 ^ 2),
    hback, Option.elim_some]

/-- The second that a name was made in is told by it. -/
theorem created_encode (hyear : created.InCalendar) :
    SegmentName.created (encode start created) = .ok ⟨created.seconds, 0⟩ := by
  simp [SegmentName.created, blame, split_encode hyear, bind, Except.bind, parseTime_timeText hyear]

/-- A name that tells a time: fourteen digits of it behind a point. -/
theorem exists_of_created_eq_ok (hname : SegmentName.created name = .ok created) :
    ∃ digits time, name.toList = digits ++ '.' :: time ∧ digits.length = 20 ∧
      digits.all Char.isDigit = true ∧ time.length = 14 ∧ time.all Char.isDigit = true ∧
      parseTime time = .ok created := by
  unfold SegmentName.created blame at hname
  cases hsplit : split name.toList with
  | error cause => simp [hsplit, bind, Except.bind] at hname
  | ok fields =>
    obtain ⟨digits, time⟩ := fields
    obtain ⟨htext, hlength, hall, htime, hallTime⟩ := exists_of_split_eq_ok hsplit
    refine ⟨digits, time, htext, hlength, hall, htime, hallTime, ?_⟩
    cases hread : parseTime time with
    | error cause => simp [hsplit, hread, bind, Except.bind] at hname
    | ok instant =>
      simp only [hsplit, hread, bind, Except.bind, Except.ok.injEq] at hname
      rw [hname]

/-- Fourteen digits fall into the fields of a time. -/
theorem exists_fields {time : List Char} (hlength : time.length = 14) :
    ∃ year month day hour minute second : List Char,
      time = year ++ month ++ day ++ hour ++ minute ++ second ∧ year.length = 4 ∧
        month.length = 2 ∧ day.length = 2 ∧ hour.length = 2 ∧ minute.length = 2 ∧
        second.length = 2 := by
  refine ⟨time.take 4, (time.drop 4).take 2, (time.drop 6).take 2, (time.drop 8).take 2,
    (time.drop 10).take 2, time.drop 12, ?_, by simp [hlength], by simp [hlength], by simp [hlength],
    by simp [hlength], by simp [hlength], by simp [hlength]⟩
  have hparts : ∀ start, (time.drop start).take 2 ++ time.drop (start + 2) = time.drop start := by
    intro start
    rw [← List.drop_drop, List.take_append_drop]
  simp only [List.append_assoc, hparts, List.take_append_drop]

/-- Fourteen digits of a time that does not end with a leap second are the digits of that time. -/
theorem timeText_of_parseTime {time : List Char} (hlength : time.length = 14)
    (hdigits : time.all Char.isDigit = true) (hleap : time.drop 12 ≠ ['6', '0'])
    (hread : parseTime time = .ok created) : timeText created = time ∧ created.Told := by
  obtain ⟨year, month, day, hour, minute, second, rfl, hyear, hmonth, hday, hhour, hminute,
    hsecond⟩ := exists_fields hlength
  have hlast : (year ++ month ++ day ++ hour ++ minute ++ second).drop 12 = second := by
    simp (disch := omega) [List.drop_append, List.drop_eq_nil_of_le, hyear, hmonth, hday, hhour]
  simp only [List.all_append, Bool.and_eq_true] at hdigits
  obtain ⟨⟨⟨⟨⟨hyears, hmonths⟩, hdays⟩, hhours⟩, hminutes⟩, hseconds⟩ := hdigits
  have hsixty : Decimal.value second ≠ 60 := by
    intro hsixty
    have hback := Decimal.padded_value hseconds
    rw [hsixty, hsecond] at hback
    exact hleap (hlast.trans hback.symm)
  have hfound := ofCivil?_of_parseTime hyear hmonth hday hhour hminute hsecond hread
  obtain ⟨hcivil, hwhole⟩ := Instant.civil_of_ofCivil? hfound hsixty
  have hfour := Decimal.value_lt hyears
  rw [hyear] at hfour
  have htold : created.InCalendar := by
    rw [Instant.InCalendar, hcivil]
    dsimp only
    omega
  refine ⟨?_, htold, hwhole⟩
  rw [Instant.InCalendar, hcivil] at htold
  rw [timeText, hcivil]
  dsimp only
  have hback : ∀ {digits : List Char} {width : Nat}, digits.all Char.isDigit = true →
      digits.length = width → Decimal.padded width (Decimal.value digits) = digits := by
    intro digits width hall hwidth
    rw [← hwidth, Decimal.padded_value hall]
  rw [yearText, if_pos htold, Int.toNat_natCast, hback hyears hyear, hback hmonths hmonth,
    hback hdays hday, hback hhours hhour, hback hminutes hminute, hback hseconds hsecond]

/-- A name that tells an offset and a time without a leap second is the one made for them. -/
theorem encode_of_decoded (hoffset : offset name = .ok start)
    (hcreated : SegmentName.created name = .ok created)
    (hleap : name.toList.drop 33 ≠ ['6', '0']) :
    start ≤ Decimal.maxValue ∧ created.Told ∧ encode start created = name := by
  obtain ⟨digits, time, htext, hlength, hall, htime, hallTime, hread⟩ :=
    exists_of_created_eq_ok hcreated
  obtain ⟨others, rest, htextOther, hlengthOther, -, hparse⟩ := exists_of_offset_eq_ok hoffset
  obtain ⟨rfl, -⟩ := List.append_inj (htext.symm.trans htextOther) (hlength.trans hlengthOther.symm)
  have hlast : time.drop 12 = name.toList.drop 33 := by
    rw [htext, List.drop_append, hlength]
    simp [List.drop_eq_nil_of_le, hlength]
  have hstart : Decimal.padded 20 start = digits := by
    rw [← Decimal.ofDigitChars_of_parseFrom hparse, ← Decimal.value_eq_ofDigitChars, ← hlength,
      Decimal.padded_value hall]
  obtain ⟨hwritten, htold⟩ := timeText_of_parseTime htime hallTime (hlast ▸ hleap) hread
  refine ⟨Decimal.parseFrom_le hparse (Nat.zero_le _), htold, ?_⟩
  rw [encode, hstart, hwritten, ← htext, String.ofList_toList]

/-- A year of more than four digits has a sign, which no decoder accepts. -/
theorem split_encode_of_not_inCalendar (hyear : ¬ created.InCalendar) :
    split (encode start created).toList = .error .timeDigits := by
  have hnone : ∀ c ∈ Decimal.padded 20 start, (c != '.') = true := fun c hc =>
    Decimal.ne_point_of_isDigit (List.all_eq_true.mp (Decimal.all_isDigit_padded 20 start) c hc)
  have hspan : (Decimal.padded 20 start ++ '.' :: timeText created).span (· != '.') =
      (Decimal.padded 20 start, '.' :: timeText created) := by
    rw [List.span_eq_takeWhile_dropWhile, List.takeWhile_append_of_pos hnone,
      List.dropWhile_append_of_pos hnone]
    simp
  have hsign : (timeText created).all Char.isDigit = false := by
    unfold Instant.InCalendar at hyear
    unfold timeText yearText
    dsimp only
    rw [if_neg hyear]
    split <;> simp
  rw [encode, String.toList_ofList]
  unfold split
  rw [hspan]
  simp only [Decimal.length_padded, Decimal.all_isDigit_padded, hsign, and_self, not_true_eq_false,
    if_false, Bool.false_eq_true, and_false, not_false_eq_true, if_true]

/-- A later offset has a later name. -/
theorem encode_lt_encode_of_offset_lt (hlater : later ≤ Decimal.maxValue) (hlt : start < later) :
    encode start created < encode later other := by
  have hwidth : later < 10 ^ 20 := lt_of_le_of_lt hlater (by decide)
  rw [String.lt_iff_toList_lt, encode, encode, String.toList_ofList, String.toList_ofList]
  exact Decimal.padded_lt_padded hlt hwidth hlater _ _

/-- At one offset a later time has a later name. -/
theorem encode_lt_encode_of_seconds_lt (hcreated : created.InCalendar) (hother : other.InCalendar)
    (hlt : created.seconds < other.seconds) : encode start created < encode start other := by
  obtain ⟨htext, hpos, -⟩ := timeText_eq hcreated
  obtain ⟨htextOther, -, hhigh⟩ := timeText_eq hother
  have hstamp := Instant.stamp_lt_of_seconds_lt hlt
  have hless : created.stamp.toNat < other.stamp.toNat := by omega
  have hwidth : other.stamp.toNat < 10 ^ 14 := by omega
  have htime := Decimal.padded_lt_padded hless hwidth (hwidth.le.trans (by decide)) [] []
  rw [String.lt_iff_toList_lt, encode, encode, String.toList_ofList, String.toList_ofList, htext,
    htextOther]
  simp only [List.append_nil] at htime
  exact List.append_left_lt (List.cons_lt_cons_self.mpr htime)

/-- Names are in the order of the offsets and, at one offset, of the times that they are made for. -/
theorem encode_lt_encode_iff (hstart : start ≤ Decimal.maxValue) (hlater : later ≤ Decimal.maxValue)
    (hcreated : created.InCalendar) (hother : other.InCalendar) :
    encode start created < encode later other ↔
      start < later ∨ start = later ∧ created.seconds < other.seconds := by
  constructor
  · intro hlt
    rcases Nat.lt_trichotomy start later with hless | rfl | hmore
    · exact Or.inl hless
    · rcases lt_trichotomy created.seconds other.seconds with hearlier | hsame | hafter
      · exact Or.inr ⟨rfl, hearlier⟩
      · have htext : encode start created = encode start other := by
          simp only [encode, timeText, Instant.civil, hsame]
        rw [htext] at hlt
        exact absurd hlt (lt_irrefl _)
      · exact absurd hlt (encode_lt_encode_of_seconds_lt hother hcreated hafter).not_gt
    · exact absurd hlt (encode_lt_encode_of_offset_lt hstart hmore).not_gt
  · rintro (hless | ⟨rfl, hearlier⟩)
    · exact encode_lt_encode_of_offset_lt hlater hless
    · exact encode_lt_encode_of_seconds_lt hcreated hother hearlier

/-- Segment names are a code of start offsets and creation times that keeps their order. Offset and
    time are found again in the name made for them; names are in the order of what they were made for,
    so that the files of a directory are in the order of their offsets; a name that is read is the one
    made for what was read, unless it tells of a leap second; and the name made for a year of another
    number of digits is not read. -/
theorem ordered_code :
    (∀ start created, start ≤ Decimal.maxValue → created.Told →
      offset (encode start created) = .ok start ∧
        SegmentName.created (encode start created) = .ok created) ∧
    (∀ start later created other, start ≤ Decimal.maxValue → later ≤ Decimal.maxValue →
      created.Told → other.Told →
        (encode start created < encode later other ↔
          start < later ∨ start = later ∧ created.seconds < other.seconds)) ∧
    (∀ topic (dir : Directory) stored, dir.entries.Ascending →
      StoredLog.ofDirectory topic dir = .ok stored →
        stored.log.segments.map (·.name) = dir.files.map (·.1) ∧
          stored.log.segments.Pairwise fun segment next =>
            segment.name < next.name ∧ segment.offset ≤ next.offset) ∧
    (∀ name start created, offset name = .ok start → SegmentName.created name = .ok created →
      name.toList.drop 33 ≠ ['6', '0'] →
        start ≤ Decimal.maxValue ∧ created.Told ∧ encode start created = name) ∧
    (∀ start created, ¬ created.InCalendar →
      offset (encode start created) = .error (.segmentName (encode start created) .timeDigits) ∧
        SegmentName.created (encode start created) =
          .error (.segmentName (encode start created) .timeDigits)) := by
  refine ⟨?_, ?_, ?_, ?_, ?_⟩
  · intro start created hstart htold
    refine ⟨offset_encode hstart htold.inCalendar, ?_⟩
    rw [created_encode htold.inCalendar, ← htold.whole]
  · intro start later created other hstart hlater hcreated hother
    exact encode_lt_encode_iff hstart hlater hcreated.inCalendar hother.inCalendar
  · intro topic dir stored hascending hopen
    obtain ⟨parts, hholds, rfl⟩ := StoredLog.ofDirectory_eq_ok_iff.mp hopen
    refine ⟨?_, List.pairwise_map.mpr (StoredLog.sorted_of_holds hascending hholds)⟩
    rw [hholds.files, List.map_map, List.map_map]
    rfl
  · intro name start created hoffset hcreated hleap
    obtain ⟨hstart, htold, hname⟩ := encode_of_decoded hoffset hcreated hleap
    exact ⟨hstart, htold, hname⟩
  · intro start created hyear
    simp [offset, SegmentName.created, blame, split_encode_of_not_inCalendar hyear, bind, Except.bind]

/-- The name made for an offset on the ninth of March 2024, a directory that was filled on that day, and
    a name made when five digits tell the year. -/
theorem ordered_code_march :
    let morning : Instant := ⟨1709967901, 0⟩
    let evening : Instant := ⟨1710014400, 0⟩
    let name := "00000000000000001024.20240309070501"
    let dir : Directory := ⟨.folder [("00000000000000000000.20240309000000", .file ⟨0, [1, 2], morning⟩),
      (name, .file ⟨1, [], evening⟩)], 2⟩
    (1024 ≤ Decimal.maxValue ∧ morning.Told ∧ evening.Told) ∧
      (offset (encode 1024 morning) = .ok 1024 ∧
        SegmentName.created (encode 1024 morning) = .ok morning) ∧
      encode 1024 morning < encode 1024 evening ∧
      (dir.entries.Ascending ∧ ∃ stored, StoredLog.ofDirectory "a" dir = .ok stored ∧
        stored.log.segments.map (·.name) = dir.files.map (·.1)) ∧
      (offset name = .ok 1024 ∧ SegmentName.created name = .ok morning ∧
        encode 1024 morning = name) ∧
      ¬ Instant.InCalendar ⟨253402300800, 0⟩ ∧
        SegmentName.created (encode 7 ⟨253402300800, 0⟩) =
          .error (.segmentName (encode 7 ⟨253402300800, 0⟩) .timeDigits) := by
  intro morning evening name dir
  obtain ⟨hdecoded, hordered, hsorted, hread, hrejected⟩ := ordered_code
  have hmorning : morning.Told := ⟨by decide +kernel, rfl⟩
  have hevening : evening.Told := ⟨by decide +kernel, rfl⟩
  have hoffset : 1024 ≤ Decimal.maxValue := by decide
  have hascending : dir.entries.Ascending := by
    unfold Items.Ascending
    decide +kernel
  have hstart : offset name = .ok 1024 := by decide +kernel
  have hcreated : SegmentName.created name = .ok morning := by decide +kernel
  have hyear : ¬ Instant.InCalendar ⟨253402300800, 0⟩ := by decide +kernel
  have hopen : StoredLog.ofDirectory "a" dir = .ok
      { log := {
          topic := "a"
          segments := [⟨"00000000000000000000.20240309000000", 0⟩, ⟨name, 1024⟩]
          maxOffset := 1024 }
        dir } := by
    decide +kernel
  refine ⟨⟨hoffset, hmorning, hevening⟩, hdecoded 1024 morning hoffset hmorning, ?_,
    ⟨hascending, _, hopen, (hsorted "a" dir _ hascending hopen).1⟩, ⟨hstart, hcreated, ?_⟩, hyear,
    (hrejected 7 _ hyear).2⟩
  · exact (hordered 1024 1024 morning evening hoffset hoffset hmorning hevening).mpr
      (Or.inr ⟨rfl, by decide⟩)
  · exact (hread name 1024 morning hstart hcreated (by decide +kernel)).2.2

end SegmentName

end ReplicatedLog
