/-!
# Sets of code points

A property of characters that no short rule gives is a table of code point ranges, both ends
included, in ascending order.
-/

namespace CompanyRegister.Text

/-- Whether `n` lies in one of the ranges. -/
def inRanges (table : Array (Nat × Nat)) (n : Nat) : Bool :=
  table.any fun (lo, hi) => lo ≤ n && n ≤ hi

end CompanyRegister.Text
