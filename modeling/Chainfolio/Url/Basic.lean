import Chainfolio.Url.Host
import Chainfolio.Url.Path

/-! URLs in normal form: lower-case scheme, normal host, no default port, no dot segments, an empty
path of a web address written as a slash. -/
namespace Chainfolio

/-- A URL by its parts; an opaque path belongs to a URL without a host. -/
structure Url where
  scheme : List Char
  userinfo : List Char
  host : Option (List Char)
  port : Option Nat
  path : List Char
  query : Option (List Char)
  fragment : Option (List Char)
  deriving DecidableEq

namespace Url

/-- Kinds of schemes: those of web addresses with their default port, files, and others. -/
inductive SchemeKind where
  | web (port : Nat)
  | file
  | other
  deriving DecidableEq

def SchemeKind.ofScheme (scheme : List Char) : SchemeKind :=
  match String.ofList scheme with
  | "http" | "ws" => .web 80
  | "https" | "wss" => .web 443
  | "ftp" => .web 21
  | "file" => .file
  | _ => .other

/-- Whether backslashes count as slashes. -/
def SchemeKind.isSpecial (k : SchemeKind) : Bool := k ≠ .other

/-- The text without surrounding blanks, tabs and line ends. -/
def cleaned (s : String) : List Char :=
  let blank (c : Char) : Bool := c.toNat ≤ 0x20
  let core := ((s.toList.dropWhile blank).reverse.dropWhile blank).reverse
  core.filter fun c => c ≠ '\t' ∧ c ≠ '\n' ∧ c ≠ '\r'

/-- The lower-case scheme and what follows its colon. -/
def scheme? (text : List Char) : Option (List Char × List Char) :=
  let allowed (c : Char) : Bool := c.isAlphanum || c = '+' || c = '-' || c = '.'
  let name := text.takeWhile allowed
  match name, text.drop name.length with
  | c :: _, ':' :: rest => if c.isAlpha then some (name.map Char.toLower, rest) else none
  | _, _ => none

/-- Cuts a text at its first character out of some. -/
def cutAt (stops : List Char) (text : List Char) : List Char × List Char :=
  (text.takeWhile fun c => !stops.contains c, text.dropWhile fun c => !stops.contains c)

def SchemeKind.endsAuthority (k : SchemeKind) (c : Char) : Bool :=
  c = '/' || c = '?' || c = '#' || (k.isSpecial && c = '\\')

/-- User and password, each encoded on its own; an empty password is left out. -/
def encodeUserinfo (text : List Char) : List Char :=
  let (user, rest) := cutAt [':'] text
  let password := Percent.encode Percent.inUserinfo (rest.drop 1)
  Percent.encode Percent.inUserinfo user ++ if password.isEmpty then [] else ':' :: password

/-- Splits the userinfo off the front of an authority, at its last at-sign. Nothing at all before
the at-sign goes with no host behind it only at the end of the text. -/
def splitUserinfo (k : SchemeKind) (text : List Char) :
    Except UrlFault (List Char × List Char) :=
  let authority := text.takeWhile fun c => !k.endsAuthority c
  match authority.reverse.span (· ≠ '@') with
  | (_, []) => .ok ([], text)
  | (_, _ :: user) =>
    let rest := text.drop (user.length + 1)
    if user.isEmpty ∧ rest.head?.any k.endsAuthority then .error .emptyHost
    else .ok (encodeUserinfo user.reverse, rest)

/-- How many characters the host at the front of a text has. A colon in brackets belongs to it. -/
def hostLength (k : SchemeKind) : (inBrackets : Bool) → List Char → Nat
  | _, [] => 0
  | inBrackets, c :: rest =>
    if k.endsAuthority c ∨ (c = ':' ∧ !inBrackets) then 0
    else hostLength k (c = '[' || (inBrackets && c ≠ ']')) rest + 1

/-- Reads the host at the front of a text. Only another address that has no userinfo and no port may
go without one. -/
def readHost (k : SchemeKind) (hasUserinfo : Bool) (text : List Char) :
    Except UrlFault (List Char × List Char) := do
  let length := hostLength k false text
  let rest := text.drop length
  if length = 0 then
    if k.isSpecial ∨ hasUserinfo ∨ rest.head? = some ':' then .error .emptyHost
    else return ([], rest)
  else
    let host := text.take length
    return (← if k.isSpecial then Host.parse host else Host.parseOpaque host, rest)

def portLimit : Nat := 65535

/-- Reads the port at the front of a text, if there is one; the default port is left out. -/
def readPort (k : SchemeKind) (text : List Char) : Except UrlFault (Option Nat × List Char) :=
  match text with
  | ':' :: rest =>
    let digits := rest.takeWhile Char.isDigit
    let after := rest.drop digits.length
    let n := Nat.ofDigitChars 10 digits 0
    if after.head?.all (fun c => SchemeKind.file.endsAuthority c) ∧ n ≤ portLimit then
      .ok (if digits.isEmpty ∨ k = .web n then none else some n, after)
    else .error .invalidPort
  | text => .ok (none, text)

/-- Slashes in place of backslashes, where these count as slashes. -/
def SchemeKind.slashed (k : SchemeKind) (text : List Char) : List Char :=
  if k.isSpecial then text.map fun c => if c = '\\' then '/' else c else text

/-- The path after an authority; an empty one is written as a slash where slashes count. -/
def pathAfterAuthority (k : SchemeKind) (text : List Char) : UrlPath.Followed :=
  match k.slashed text with
  | [] => if k.isSpecial then ⟨[[]], false⟩ else ⟨[], false⟩
  | '/' :: rest => UrlPath.ofTail (k = .file) rest
  | text => UrlPath.ofTail (k = .file) text

def tail (special : Bool) (text : List Char) : Option (List Char) × Option (List Char) :=
  let (before, after) := cutAt ['#'] text
  let fragment := match after with
    | [] => none
    | _ :: f => some (Percent.encode Percent.inFragment f)
  let query := match before with
    | [] => none
    | _ :: q => some (Percent.encode (Percent.inQuery special) q)
  (query, fragment)

/-- A URL whose text goes on with an authority. -/
def withAuthority (k : SchemeKind) (scheme text : List Char) : Except UrlFault Url := do
  let (userinfo, rest) ← splitUserinfo k text
  let (host, rest) ← readHost k (!userinfo.isEmpty) rest
  let (port, rest) ← readPort k rest
  let (pathText, rest) := cutAt ['?', '#'] rest
  let (query, fragment) := tail k.isSpecial rest
  return ⟨scheme, userinfo, some host, port, (pathAfterAuthority k pathText).text, query, fragment⟩

/-- A URL without an authority. -/
def withoutAuthority (scheme text : List Char) : Url :=
  let (pathText, rest) := cutAt ['?', '#'] text
  let (query, fragment) := tail false rest
  let p := match pathText with
    | '/' :: rest => (UrlPath.ofTail false rest).text
    | _ => Percent.encodeControls pathText
  ⟨scheme, [], none, none, p, query, fragment⟩

/-- The host of a file, and whether there is one. The local host is none. -/
def readFileHost (text : List Char) : Except UrlFault (List Char × Bool) := do
  if text.isEmpty then return ([], false)
  let host ← Host.parse text
  return if host = "localhost".toList then ([], false) else (host, true)

/-- The host and the path of a file whose text goes on with a host. A drive in the place of the host
belongs to the path, and so does the slash after a host that is none. -/
def withFileHost (text : List Char) : Except UrlFault (List Char × UrlPath.Followed) := do
  let hostText := text.takeWhile fun c => !SchemeKind.file.endsAuthority c
  if UrlPath.isDrive hostText then
    return ([], UrlPath.ofTail true (SchemeKind.file.slashed text))
  else
    let rest := text.drop hostText.length
    let (host, isHost) ← readFileHost hostText
    if isHost then
      let path := pathAfterAuthority .file rest
      return (if path.hasDrive then [] else host, path)
    else return ([], UrlPath.ofTail true (SchemeKind.file.slashed rest))

def ofFile (scheme text : List Char) : Except UrlFault Url := do
  let (pathText, rest) := cutAt ['?', '#'] text
  let (query, fragment) := tail true rest
  let (host, path) ← match SchemeKind.file.slashed (pathText.take 2) with
    | ['/', '/'] => withFileHost (pathText.drop 2)
    | '/' :: _ => .ok ([], UrlPath.ofTail true (SchemeKind.file.slashed (pathText.drop 1)))
    | _ => .ok ([], UrlPath.ofTail true (SchemeKind.file.slashed pathText))
  return ⟨scheme, [], some host, none, path.fileText, query, fragment⟩

def parse (s : String) : Except UrlFault Url :=
  match scheme? (cleaned s) with
  | none => .error .relative
  | some (scheme, rest) =>
    match SchemeKind.ofScheme scheme with
    | .web port =>
      withAuthority (.web port) scheme (rest.dropWhile fun c => c = '/' ∨ c = '\\')
    | .file => ofFile scheme rest
    | .other =>
      match rest with
      | '/' :: '/' :: rest => withAuthority .other scheme rest
      | rest => .ok (withoutAuthority scheme rest)

/-- The URL in normal form. Without an authority, a path that begins like one is set off by a dot
segment. -/
def text (u : Url) : String :=
  let authority := match u.host with
    | none => if u.path.take 2 = ['/', '/'] then ['/', '.'] else []
    | some host =>
      '/' :: '/' :: (if u.userinfo.isEmpty then [] else u.userinfo ++ ['@']) ++ host ++
        (match u.port with
          | none => []
          | some n => ':' :: (toString n).toList)
  String.ofList (u.scheme ++ ':' :: authority ++ u.path ++
    (match u.query with
      | none => []
      | some q => '?' :: q) ++
    match u.fragment with
    | none => []
    | some f => '#' :: f)

end Url

end Chainfolio
