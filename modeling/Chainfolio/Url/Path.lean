import Chainfolio.Text.Split
import Chainfolio.Url.Encoding

/-! Paths of URLs. Dot segments are followed as they come; a segment that names a drive is never left
by two dots, and at the head of a file's path it is written with a colon. -/
namespace Chainfolio.UrlPath

/-- A letter, and a colon or a bar. -/
def isDrive : List Char → Bool
  | [a, b] => a.isAlpha && (b = ':' || b = '|')
  | _ => false

/-- Whether a segment is a drive, or goes on with a backslash after one. -/
def keepsPlace : List Char → Bool
  | a :: b :: rest => isDrive [a, b] && (rest.isEmpty || rest.head? = some '\\')
  | _ => false

def isDot (segment : List Char) : Bool :=
  let s := String.ofList (segment.map Char.toLower)
  s = "." || s = "%2e"

def isDoubleDot (segment : List Char) : Bool :=
  let s := String.ofList (segment.map Char.toLower)
  s = ".." || s = ".%2e" || s = "%2e." || s = "%2e%2e"

/-- The segments without the last one, which stays if it is a drive. -/
def up (segments : List (List Char)) : List (List Char) :=
  if segments.getLast?.any keepsPlace then segments else segments.dropLast

/-- A path that has been followed, and whether its head is the drive of a file. -/
structure Followed where
  segments : List (List Char)
  hasDrive : Bool := false

/-- Adds a segment that is no dot segment. -/
def Followed.add (isFile : Bool) (f : Followed) (segment : List Char) : Followed :=
  if isFile && f.segments.isEmpty && isDrive segment then
    ⟨[segment.take 1 ++ [':']], true⟩
  else { f with segments := f.segments ++ [segment] }

/-- Follows segments; a dot segment at the end leaves an empty one. -/
def follow (isFile : Bool) : Followed → List (List Char) → Followed
  | f, [] => f
  | f, [s] =>
    if isDoubleDot s then { f with segments := up f.segments ++ [[]] }
    else if isDot s then { f with segments := f.segments ++ [[]] }
    else f.add isFile s
  | f, s :: rest =>
    if isDoubleDot s then follow isFile { f with segments := up f.segments } rest
    else if isDot s then follow isFile f rest
    else follow isFile (f.add isFile s) rest

/-- The normal form of what follows the first slash of a path. -/
def ofTail (isFile : Bool) (text : List Char) : Followed :=
  follow isFile ⟨[], false⟩ ((Text.splitOn '/' text).map (Percent.encode Percent.inPath))

def Followed.text (f : Followed) : List Char := f.segments.flatMap fun s => '/' :: s

/-- The text of a file's path, which begins with one slash. -/
def Followed.fileText (f : Followed) : List Char := '/' :: f.text.dropWhile (· = '/')

end Chainfolio.UrlPath
