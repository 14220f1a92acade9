import IndicatorFormula.Text.Unprintable

/-! Quoted text, which shows every character of an unexpected input.

Single quotes enclose the text, or double quotes when it holds single quotes and no double ones. The
enclosing quote and the backslash are preceded by a backslash; tabs and line ends have a letter;
unprintable characters are shown by two, four or eight hexadecimal digits. -/

set_option autoImplicit false
namespace IndicatorFormula.Text

def hexadecimal (width n : Nat) : Text :=
  let digits := Nat.toDigits 16 n
  List.replicate (width - digits.length) '0' ++ digits

def quotedChar (quote c : Char) : Text :=
  if c = quote || c = '\\' then ['\\', c]
  else if c = '\t' then ['\\', 't']
  else if c = '\n' then ['\\', 'n']
  else if c = '\r' then ['\\', 'r']
  else if !isUnprintable c then [c]
  else if c.toNat < 0x100 then '\\' :: 'x' :: hexadecimal 2 c.toNat
  else if c.toNat < 0x10000 then '\\' :: 'u' :: hexadecimal 4 c.toNat
  else '\\' :: 'U' :: hexadecimal 8 c.toNat

def quoted (text : Text) : Text :=
  let quote := if text.contains '\'' && !text.contains '"' then '"' else '\''
  quote :: text.flatMap (quotedChar quote) ++ [quote]

end IndicatorFormula.Text
