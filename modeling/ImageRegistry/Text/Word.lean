import ImageRegistry.Text.WordTable

/-! Word characters, found in the table by bisection. -/

namespace ImageRegistry

/-- Whether a code point lies in one of the ascending `ranges` with index from `low` up to,
and without, `high`. -/
def inRanges (ranges : Array (Nat × Nat)) (point low high : Nat) : Bool :=
  if _ : low < high then
    let middle := low + (high - low) / 2
    match ranges[middle]? with
    | none => false
    | some (first, last) =>
      if point < first then inRanges ranges point low middle
      else if last < point then inRanges ranges point (middle + 1) high
      else true
  else false
termination_by high - low

/-- A letter, mark, decimal digit, connector or join control of any script. -/
def isWordChar (c : Char) : Bool :=
  c.isAlphanum || inRanges WordTable.ranges c.toNat 0 WordTable.ranges.size

end ImageRegistry
