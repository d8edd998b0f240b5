import Chainfolio.Keccak
import Chainfolio.Text.Hex

/-! Checksummed address text: a letter is upper case where the digest of the lower-case digits has a
nibble of at least eight. -/
namespace Chainfolio

/-- The address in mixed-case hexadecimal. -/
def Address.checksum (a : Address) : String :=
  let digits := Text.Hex.digits 40 a.bits.toNat
  let marks := Text.Hex.digits 64 (keccak256 (digits.map fun c => c.toNat.toUInt8)).bits.toNat
  "0x" ++ String.ofList (digits.zipWith (fun c m => if '8' ≤ m then c.toUpper else c) marks)

end Chainfolio
