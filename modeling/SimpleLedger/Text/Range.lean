namespace SimpleLedger.Text

/-- Whether the code point of a character is in one of some ranges, which hold both of their ends. -/
def inRanges (ranges : List (Nat × Nat)) (c : Char) : Bool :=
  ranges.any fun (low, high) => low ≤ c.toNat && c.toNat ≤ high

end SimpleLedger.Text
