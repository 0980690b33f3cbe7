/-!
# ThemeRules.Text.Blank

The characters with the Unicode property White_Space, and cutting them off the ends of a text.
-/

namespace ThemeRules
namespace Text

/-- The property White_Space: the ASCII controls from tab to carriage return, the space, and the
spaces and separators beyond ASCII. -/
def isBlank (c : Char) : Bool :=
  let n := c.toNat
  (0x09 ≤ n && n ≤ 0x0D) || n == 0x20 || n == 0x85 || n == 0xA0 || n == 0x1680 ||
    (0x2000 ≤ n && n ≤ 0x200A) || n == 0x2028 || n == 0x2029 || n == 0x202F || n == 0x205F ||
    n == 0x3000

def trim (text : List Char) : List Char :=
  ((text.dropWhile isBlank).reverse.dropWhile isBlank).reverse

end Text
end ThemeRules
