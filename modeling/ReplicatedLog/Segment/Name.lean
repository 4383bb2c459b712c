import ReplicatedLog.Calendar
import ReplicatedLog.Text.Decimal

namespace ReplicatedLog.SegmentName

/-- Four digits; years outside 0 to 9999 carry a sign. -/
def yearText (year : Int) : List Char :=
  if 0 ≤ year ∧ year ≤ 9999 then Decimal.padded 4 year.toNat
  else
    let digits := Nat.toDigits 10 year.natAbs
    (if year < 0 then '-' else '+') :: (List.replicate (4 - digits.length) '0' ++ digits)

/-- A creation time as year, month, day, hour, minute and second. -/
def timeText (created : Instant) : List Char :=
  let (date, time) := created.civil
  yearText date.year ++ Decimal.padded 2 date.month ++ Decimal.padded 2 date.day
    ++ Decimal.padded 2 time.hour ++ Decimal.padded 2 time.minute ++ Decimal.padded 2 time.second

/-- The name of the segment that starts at `offset`: twenty digits, a point, and fourteen digits of the
    creation time. As the fields have fixed widths, names sort as their offsets do. -/
def encode (offset : Nat) (created : Instant) : String :=
  String.ofList (Decimal.padded 20 offset ++ '.' :: timeText created)

/-- The digits on both sides of the first point. -/
def split (name : List Char) : Except NameFault (List Char × List Char) :=
  match name.span (· != '.') with
  | (_, []) => .error .missingSeparator
  | (offset, _ :: time) =>
    if ¬(offset.length = 20 ∧ offset.all Char.isDigit) then .error .offsetDigits
    else if ¬(time.length = 14 ∧ time.all Char.isDigit) then .error .timeDigits
    else .ok (offset, time)

/-- The instant that fourteen digits tell. -/
def parseTime (digits : List Char) : Except NameFault Instant :=
  let field := fun start length => Decimal.value ((digits.drop start).take length)
  match Instant.ofCivil? ⟨field 0 4, field 4 2, field 6 2⟩ ⟨field 8 2, field 10 2, field 12 2⟩ with
  | some instant => .ok instant
  | none => .error .timeOutOfRange

/-- Makes a fault in a name one of the store. -/
def blame {α : Type} (name : String) : Except NameFault α → Except Fault α
  | .ok result => .ok result
  | .error cause => .error (.segmentName name cause)

/-- The start offset that a name tells. -/
def offset (name : String) : Except Fault Nat :=
  blame name do
    let (digits, _) ← split name.toList
    match Decimal.parse digits with
    | .ok offset => .ok offset
    | .error cause => .error (.offset cause)

/-- The creation time that a name tells. -/
def created (name : String) : Except Fault Instant :=
  blame name do
    let (_, digits) ← split name.toList
    parseTime digits

end ReplicatedLog.SegmentName
