import ReplicatedLog.Bytes
import ReplicatedLog.Text.Unprintable
import ReplicatedLog.Text.Combining

namespace ReplicatedLog.Text

/-- A number in lowercase hexadecimal, without leading zeros. -/
def hexNumber (value : Nat) : String :=
  String.ofList (Nat.toDigits 16 value)

/-- How one character stands between double quotes: the usual backslash forms, the hexadecimal
    code point for what is invisible or would join the character before it, else itself. -/
def quotedChar (c : Char) : String :=
  match c with
  | '\x00' => "\\0"
  | '\t' => "\\t"
  | '\n' => "\\n"
  | '\r' => "\\r"
  | '"' => "\\\""
  | '\\' => "\\\\"
  | c =>
    if c.toNat < 0x20 || 0x7f ≤ c.toNat && (isCombining c || isUnprintable c) then
      "\\u\x7b" ++ hexNumber c.toNat ++ "\x7d"
    else c.toString

/-- A text between double quotes. -/
def quoted (text : String) : String :=
  "\"" ++ String.join (text.toList.map quotedChar) ++ "\""

end ReplicatedLog.Text
