import ReplicatedLog.Text.Utf8

namespace ReplicatedLog.Text

/-- A line up to its end, and what follows it if it has one. -/
def splitLine : Bytes → Bytes × Option Bytes
  | [] => ([], none)
  | byte :: rest =>
    if byte = 10 then ([], some rest)
    else
      let (line, after) := splitLine rest
      (byte :: line, after)

theorem length_splitLine_lt {bytes line after : Bytes}
    (hsplit : splitLine bytes = (line, some after)) : after.length < bytes.length := by
  induction bytes generalizing line with
  | nil => simp [splitLine] at hsplit
  | cons byte rest ih =>
    unfold splitLine at hsplit
    split at hsplit
    · obtain ⟨_, hafter⟩ := Prod.mk.inj hsplit
      simp [← Option.some.inj hafter]
    · obtain ⟨_, hafter⟩ := Prod.mk.inj hsplit
      have := @ih (splitLine rest).1 (Prod.ext rfl hafter)
      simp
      omega

/-- A line without the carriage return at its end. -/
def chomp (line : Bytes) : Bytes :=
  if line.getLast? = some 13 then line.dropLast else line

/-- The lines of a text. Each ends with a line feed, and a carriage return in front of it is left
    out; the last line may lack its end. Nothing is read from the first line on that is not
    UTF-8. -/
def lines (bytes : Bytes) : List Bytes :=
  match hsplit : splitLine bytes with
  | (line, none) => if line.isEmpty || (Utf8.decode? line).isNone then [] else [line]
  | (line, some after) =>
    have := length_splitLine_lt hsplit
    if (Utf8.decode? line).isNone then [] else chomp line :: lines after
termination_by bytes.length

end ReplicatedLog.Text
