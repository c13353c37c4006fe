/-!
# Classes of characters

A class of characters is a list of ranges of code points, both ends included.
-/

namespace ScriptWriter.Text

def inRanges (ranges : List (Nat × Nat)) (c : Char) : Bool :=
  ranges.any fun r => r.1 ≤ c.toNat ∧ c.toNat ≤ r.2

end ScriptWriter.Text
