import ThemeRules.Css.Identifier
import ThemeRules.Token.Table

/-!
# ThemeRules.Utilities

What a compilation asks of the framework around it: the design token at a path, and how a name is
escaped in a selector. A token table answers by its own lookup and escapes names as CSS identifiers.
-/

namespace ThemeRules

structure Utilities where
  lookup : String → Option Json
  escape : String → String

namespace Utilities

/-- The token at a path, if it is a text, or a default. -/
def textOr (utilities : Utilities) (path default : String) : String :=
  ((utilities.lookup path).bind Json.string?).getD default

/-- Utilities behind a reference, which passes on what it is asked. Borrowing utilities and sharing
them give such references. -/
def behind (utilities : Utilities) : Utilities where
  lookup path := utilities.lookup path
  escape name := utilities.escape name

end Utilities

def TokenTable.utilities (tokens : TokenTable) : Utilities := ⟨tokens.lookup, escapeIdentifier⟩

instance : Coe TokenTable Utilities := ⟨TokenTable.utilities⟩

end ThemeRules
