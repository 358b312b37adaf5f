set_option autoImplicit false

/-! # Natural numbers in text -/

namespace AttributeOptimizer.Text

/-- Reads a natural number written with the digits `0` to `9` only, after a plus sign or none. -/
def natural? (text : String) : Option Nat :=
  let digits := match text.toList with
    | '+' :: rest => rest
    | cs => cs
  if digits.isEmpty || digits.any (!·.isDigit) then none
  else some (digits.foldl (fun n c => n * 10 + (c.toNat - '0'.toNat)) 0)

end AttributeOptimizer.Text
