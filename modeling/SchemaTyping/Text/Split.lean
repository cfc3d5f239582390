set_option autoImplicit false

/-! # Cutting a text at a separator -/

namespace SchemaTyping.Text

/-- The pieces between the occurrences of a character; there is always at least one. -/
def split (separator : Char) : List Char → List (List Char)
  | [] => [[]]
  | c :: rest =>
    if c = separator then [] :: split separator rest
    else match split separator rest with
      | [] => [[c]]
      | piece :: more => (c :: piece) :: more

end SchemaTyping.Text
