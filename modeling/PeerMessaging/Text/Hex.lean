/-!
# Hexadecimal numerals

A number is shown in base sixteen with small letters and a fixed least count of digits (`hex`).
-/

namespace PeerMessaging

/-- The digits of `n` in base sixteen, padded with zeros to at least `width` digits. -/
def hex (width n : Nat) : String :=
  let digits := Nat.toDigits 16 n
  .ofList (List.replicate (width - digits.length) '0' ++ digits)

end PeerMessaging
