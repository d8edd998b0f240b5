import Chainfolio.Codec.Token
import Chainfolio.Float.Scientific
import Chainfolio.Position

/-! JSON forms of yields. A yield is read from any number and written with ten significant digits;
what is not finite is null. -/
namespace Chainfolio

/-- A float with ten significant digits. -/
def Json.scientific (x : Float) : Json := .str (Scientific.text 9 x)

/-- A float with ten significant digits, null when not finite. -/
def Json.finite (x : Float) : Json := if x.isFinite then scientific x else .null

def TokenApy.toJson (t : TokenApy) : Json :=
  .obj (t.token.fields ++ [("apyDecimal", Json.finite t.apy)])

def TokenApy.ofJson? (j : Json) : Option TokenApy := do
  let r ← JsonRecord.shared? Token.fieldNames ["apyDecimal"] j
  return { token := ← Token.ofRecord? r, apy := ← r.required "apyDecimal" Json.float? }

def TokenApr.toJson (t : TokenApr) : Json :=
  .obj (t.token.fields ++ [("aprDecimal", Json.finite t.apr)])

def TokenApr.ofJson? (j : Json) : Option TokenApr := do
  let r ← JsonRecord.shared? Token.fieldNames ["aprDecimal"] j
  return { token := ← Token.ofRecord? r, apr := ← r.required "aprDecimal" Json.float? }

end Chainfolio
