/-
  AccessControl/Text/Quoted.lean
  ==============================
  **Texts between quotes, with escapes for what cannot be seen.**

  The usual letters stand for the tab, the line ends and the zero character; a
  quote and a backslash have a backslash before them; a character that extends
  another or does not print is given by its code in braces.
-/
import AccessControl.Text.Numeral
import AccessControl.Text.Unprintable

namespace AccessControl.Text

/-- One character as it stands between quotes. -/
def escape (c : Char) : String :=
  if c = '\x00' then "\\0"
  else if c = '\t' then "\\t"
  else if c = '\r' then "\\r"
  else if c = '\n' then "\\n"
  else if c = '"' then "\\\""
  else if c = '\\' then "\\\\"
  else if isExtender c || !isPrintable c then "\\u\x7b" ++ Numeral.hex c.toNat ++ "\x7d"
  else c.toString

/-- The text between quotes. -/
def quote (s : String) : String :=
  "\"" ++ s.toList.foldl (fun said c => said ++ escape c) "" ++ "\""

end AccessControl.Text
