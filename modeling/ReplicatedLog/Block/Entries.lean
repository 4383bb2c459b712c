import ReplicatedLog.Wire.Number

namespace ReplicatedLog

namespace Entries

/-- One entry behind its length. -/
def encodeOne (entry : Bytes) : Bytes :=
  Varint.encode entry.length ++ entry

/-- Entries in a row, each behind its length. -/
def encode (entries : List Bytes) : Bytes :=
  entries.flatMap encodeOne

/-- The entries of `data` up to its end or the first that does not decode, and the fault of that
    one. -/
def decode (data : Bytes) : List Bytes × Option Fault :=
  if data.isEmpty then ([], none)
  else
    match hread : Varint.decode data with
    | (.error fault, _) => ([], some (.corruption (.entryLength fault)))
    | (.ok length, rest) =>
      if rest.length < length then ([], some (.corruption (.entryOverrun length rest.length)))
      else
        have := Varint.length_decode_lt hread
        let (entries, fault) := decode (rest.drop length)
        (rest.take length :: entries, fault)
termination_by data.length
decreasing_by simp only [List.length_drop]; omega

/-- The next entry of what is left of a row, or the fault of one that does not decode, and what is left
    then. Nothing is left behind a fault. -/
def next (rest : Bytes) : Option (Except Fault Bytes) × Bytes :=
  if rest.isEmpty then (none, rest)
  else
    match Varint.decode rest with
    | (.error fault, _) => (some (.error (.corruption (.entryLength fault))), [])
    | (.ok length, rest) =>
      if rest.length < length then
        (some (.error (.corruption (.entryOverrun length rest.length))), [])
      else (some (.ok (rest.take length)), rest.drop length)

/-- All entries are what one gets by asking for the next one until there is none. -/
theorem decode_eq_next (data : Bytes) :
    decode data = match next data with
      | (none, _) => ([], none)
      | (some (.error fault), _) => ([], some fault)
      | (some (.ok entry), rest) => (entry :: (decode rest).1, (decode rest).2) := by
  rw [decode, next]
  split
  · rfl
  · split
    next fault rest hread => simp only [hread]
    next length rest hread =>
      simp only [hread]
      split
      · rfl
      · rfl

end Entries

end ReplicatedLog
