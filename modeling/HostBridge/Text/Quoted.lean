import HostBridge.Text.Unprintable
import HostBridge.Text.Hex

/-!
# Quoted text in messages

A message that quotes a text puts it between double quotes and keeps it on one line: the quote and
the backslash are preceded by a backslash, the common controls have a letter each, and any other
character that would not show is written as its number in braces.
-/

namespace HostBridge.Text.Quoted

/-- A code point as `\u` and its hexadecimal number in braces. -/
def byNumber (c : Char) : String :=
  "\\u\x7b" ++ String.ofList ((Nat.toDigits 16 c.toNat)) ++ "\x7d"

/-- How one character of a quoted text is written. -/
def escape (c : Char) : String :=
  if c = '\x00' then "\\0"
  else if c = '\t' then "\\t"
  else if c = '\r' then "\\r"
  else if c = '\n' then "\\n"
  else if c = '\\' then "\\\\"
  else if c = '"' then "\\\""
  else if isUnprintable c then byNumber c
  else c.toString

/-- The text between double quotes. -/
def quote (s : String) : String :=
  "\"" ++ String.join (s.toList.map escape) ++ "\""

end HostBridge.Text.Quoted
