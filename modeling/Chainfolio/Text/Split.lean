/-! Cutting text into the parts between separators. -/
namespace Chainfolio.Text

/-- Splits a text at a character; there is always at least one part. -/
def splitOn (c : Char) : List Char → List (List Char)
  | [] => [[]]
  | x :: rest =>
    if x = c then [] :: splitOn c rest
    else match splitOn c rest with
      | [] => [[x]]
      | part :: parts => (x :: part) :: parts

end Chainfolio.Text
