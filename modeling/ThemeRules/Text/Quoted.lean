import ThemeRules.Text.Unprintable

/-!
# ThemeRules.Text.Quoted

A text as messages show it: in quotes, on one line, with everything visible. What cannot be seen is
written by its code point.
-/

namespace ThemeRules
namespace Text

def quotedChar (c : Char) : List Char :=
  if c = '"' then ['\\', '"']
  else if c = '\\' then ['\\', '\\']
  else if c = '\n' then ['\\', 'n']
  else if c = '\r' then ['\\', 'r']
  else if c = '\t' then ['\\', 't']
  else if c = '\x00' then ['\\', '0']
  else if isUnprintable c then '\\' :: 'u' :: '{' :: Nat.toDigits 16 c.toNat ++ ['}']
  else [c]

/-- A text in quotes, as a message shows it. -/
def quote (s : String) : String :=
  .ofList ('"' :: s.toList.flatMap quotedChar ++ ['"'])

end Text
end ThemeRules
