namespace DemandPaging

def hex (word : UInt64) : String :=
  "0x" ++ String.ofList (Nat.toDigits 16 word.toNat)

end DemandPaging
