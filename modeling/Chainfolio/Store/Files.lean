import Chainfolio.Codec.Token
import Chainfolio.Json.Printer
import Chainfolio.Json.Reader
import Chainfolio.Store.Basic
import Chainfolio.Store.Place
import Chainfolio.Store.Timestamp

/-! The store that keeps one file per product: a directory per protocol, below it one per product,
and in it a file named after the chain. A file that is missing is no listing; one that cannot be read
is a fault. -/
namespace Chainfolio

/-- A listing as it stands in a file, with the time when it was written. -/
structure ListingFile where
  writtenAt : String
  tokens : List ProtocolToken

namespace ListingFile

def toJson (f : ListingFile) : Json :=
  .obj [("writtenAt", .str f.writtenAt), ("protocolTokens", .arr (f.tokens.map ProtocolToken.toJson))]

def ofJson? (j : Json) : Option ListingFile := do
  let r ← JsonRecord.read? ["writtenAt", "protocolTokens"] j
  let writtenAt ← r.required "writtenAt" Json.text?
  if Timestamp.isValid writtenAt then
    return ⟨writtenAt, ← r.required "protocolTokens" (Json.list? ProtocolToken.ofJson?)⟩
  else none

def text (f : ListingFile) : String := f.toJson.text

def parse (text : String) : Except Fault ListingFile :=
  match (Json.parse? text).bind ofJson? with
  | some f => .ok f
  | none => .error .json

end ListingFile

/-- The directory of a store, and the time that new listings are stamped with. -/
structure FileStore where
  place : Place
  now : String := "1970-01-01T00:00:00Z"

/-- Where the file of a product lies below the store's directory. A product that begins with a slash
leads there from the topmost directory. -/
def ProductKey.filePath (k : ProductKey) : String :=
  let isAbsolute := k.product.toList.head? = some '/'
  let directory := if isAbsolute then k.product else k.protocol.name ++ "/" ++ k.product
  let closed := k.product.isEmpty || k.product.toList.getLast? = some '/'
  directory ++ (if closed then "" else "/") ++ k.chain.name ++ ".json"

namespace FileStore

/-- A new store: an empty directory, without a name of its own, among the temporary files. -/
def new : FileStore where
  place := { entries := [], above := [("", []), ("tmp", [])] }

/-- The bytes left for an absolute path. -/
def absoluteRoom : Nat := 4095

/-- The bytes left for a path below the store's directory. -/
def relativeRoom : Nat := 4079

/-- Whether a path can be looked up. -/
def isUsable (path : Path) : Bool :=
  path.isUsable (if path.isAbsolute then absoluteRoom else relativeRoom)

def start (f : FileStore) (path : Path) : Place := if path.isAbsolute then f.place.top else f.place

/-- The store after something changed, which leaves its directory where it was. -/
def changed (f : FileStore) (place : Place) : FileStore :=
  { f with place := f.place.names.foldl Place.down place.top }

def readText (f : FileStore) (path : Path) : Except PathFault String :=
  if ¬isUsable path then .error .unusable
  else match path.fileName? with
    | some name => do (← (f.start path).follow path.parts.dropLast).readFile name
    | none => do
      let _ ← (f.start path).follow path.parts
      .error .unusable

/-- Makes the directories of a path; those made before a failure stay. -/
def makeDirectories (path : Path) : Run FileStore Unit := fun f =>
  if ¬isUsable path then (.error .io, f)
  else
    let (r, place) := Place.followOrMake path.parts (f.start path)
    (r, f.changed place)

/-- Writes a file into a directory that is there. -/
def replaceText (path : Path) (text : String) : Run FileStore Unit := fun f =>
  match path.fileName?.filter fun _ => isUsable path with
  | none => (.error .io, f)
  | some name =>
    match (f.start path).follow path.parts.dropLast with
    | .error _ => (.error .io, f)
    | .ok directory =>
      match directory.writeFile name text with
      | .error _ => (.error .io, f)
      | .ok place => (.ok (), f.changed place)

def writeText (path : Path) (text : String) : Run FileStore Unit := do
  makeDirectories path.parent
  replaceText path text

def get? (f : FileStore) (key : ProductKey) : Except Fault (Option (List ProtocolToken)) :=
  match f.readText (Path.ofText key.filePath) with
  | .error .missing => .ok none
  | .error .unusable => .error .io
  | .ok text => do return some (← ListingFile.parse text).tokens

def insert (key : ProductKey) (tokens : List ProtocolToken) : Run FileStore Unit := do
  let now ← Run.read FileStore.now
  writeText (Path.ofText key.filePath) (ListingFile.text ⟨now, tokens⟩)

/-- Writes a text to a path, or makes a directory there. -/
def write (path : String) (text : Option String) : Run FileStore Unit :=
  match text with
  | some text => writeText (Path.ofText path) text
  | none => makeDirectories (Path.ofText path)

/-- The JSON value in a file, if a file can be read there. -/
def read? (f : FileStore) (path : String) : Except Fault (Option Json) :=
  match f.readText (Path.ofText path) with
  | .error _ => .ok none
  | .ok text =>
    match ((Json.parse? text).bind Json.expand?).bind Json.settle? with
    | some j => .ok (some j)
    | none => .error .json

/-- The store that a part of the state is. -/
def store {σ : Type} (files : Slot σ FileStore) : MetadataStore σ where
  get key := do Run.ofExcept ((← Run.read files.get).get? key)
  put key tokens := files.run (insert key tokens)

end FileStore

end Chainfolio
