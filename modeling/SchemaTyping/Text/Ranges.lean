set_option autoImplicit false

/-! # Sets of characters

A set of characters as a list of ranges of code points, each with its first and its last. -/

namespace SchemaTyping.Text

/-- Ranges of code points, both ends included. -/
abbrev Ranges := List (Nat × Nat)

/-- Does a range hold the character? -/
def Ranges.has (c : Char) (r : Ranges) : Bool := r.any fun (lo, hi) => lo ≤ c.toNat && c.toNat ≤ hi

end SchemaTyping.Text
