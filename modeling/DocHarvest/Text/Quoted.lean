import DocHarvest.Unicode.Hidden

/-!
# Text quoted for a message

Messages quote a text given by the user so that each of its characters can be seen: the quote and
the backslash are escaped, and so is every character that does not show by itself.
-/

namespace DocHarvest.Text

open DocHarvest.Unicode

/-- A number in lower-case hexadecimal digits. -/
def hex (n : Nat) : List Char :=
  Nat.toDigits 16 n

/-- A number in lower-case hexadecimal digits, filled up with zeros to `width` digits. -/
def hexPadded (width n : Nat) : List Char :=
  List.replicate (width - (hex n).length) '0' ++ hex n

/-- One character as it stands between the quotes of a message. -/
def quotedChar (c : Char) : List Char :=
  if c = '"' then ['\\', '"']
  else if c = '\\' then ['\\', '\\']
  else if c = '\n' then ['\\', 'n']
  else if c = '\r' then ['\\', 'r']
  else if c = '\t' then ['\\', 't']
  else if c.toNat = 0 then ['\\', '0']
  else if isHidden c then "\\u\x7b".toList ++ hex c.toNat ++ ['}']
  else [c]

/-- A text in double quotes, as messages show it. -/
def quoted (s : String) : String :=
  String.ofList ('"' :: s.toList.flatMap quotedChar ++ ['"'])

end DocHarvest.Text
