namespace HostBridge

abbrev CodeRanges := List (Nat × Nat)

def CodeRanges.covers (rs : CodeRanges) (n : Nat) : Bool := rs.any fun r => r.1 ≤ n && n ≤ r.2

end HostBridge
