set_option autoImplicit false

/-!
# Ranges of code points

A property of characters is a list of closed ranges of code points.
-/
namespace CommandContract.Text

def inRanges (ranges : List (Nat × Nat)) (n : Nat) : Bool :=
  ranges.any fun r => r.1 ≤ n && n ≤ r.2

end CommandContract.Text
