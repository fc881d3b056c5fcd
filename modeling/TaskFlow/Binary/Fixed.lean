import TaskFlow.Binary.Shortest

namespace TaskFlow

def placesText (places units : Nat) : String :=
  let ds := Nat.toDigits 10 units
  let ds := List.replicate (places + 1 - ds.length) '0' ++ ds
  .ofList (ds.take (ds.length - places) ++ '.' :: ds.drop (ds.length - places))

/-- The text of a number with a number of places, one at least. The exact value is rounded to the
nearest, and a half to the even neighbour. -/
def Binary.fixedText {f : BinaryFormat} (places : Nat) : Binary f → String
  | .nan => "NaN"
  | .infinite s => if s then "-inf" else "inf"
  | .finite s m e =>
    (if s then "-" else "") ++
      placesText places (roundDiv (m * powPos e * Nat.pow 10 places) (powPos (-e)))

end TaskFlow
