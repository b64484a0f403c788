/-
# Separated parts

Parts of a text put end to end with a separator between any two neighbours.
-/

namespace Lox.Text

/-- Parts with a separator between any two of them. -/
def separated (separator : String) : List String → String
  | [] => ""
  | [part] => part
  | part :: rest => part ++ separator ++ separated separator rest

end Lox.Text
