import Scaffold.Unicode.Case
import Scaffold.Unicode.Identifier

/-! The lower case of an identifier is an identifier, in whatever script it is written. -/

namespace Scaffold.Unicode

section Identifiers

variable {chars rest : List Char} {c : Char}

end Identifiers

section Lowercase

end Lowercase

end Scaffold.Unicode
