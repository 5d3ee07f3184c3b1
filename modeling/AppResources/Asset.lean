import AppResources.Table

/-!
# Assets

An asset is one set of resources: a loaded table, the path it came from, and for an
overlay the maps that it was loaded through.
-/

namespace AppResources

/-- A loaded set of resources. -/
structure Asset where
  /-- Where the resources came from. -/
  path : String
  /-- The table. -/
  table : Table
  /-- The maps of an overlay. -/
  idmap : Option Idmap

/-- Why an asset cannot be loaded. -/
inductive AssetError where
  /-- The file is empty. -/
  | emptyFile
  /-- The table or the maps cannot be loaded. -/
  | load (e : LoadError)
  deriving DecidableEq, Repr

namespace AssetError

/-- The message about an error. -/
def message : AssetError → String
  | .emptyFile => "invalid input: got empty resource table"
  | .load _ => "got error while loading resources"

/-- The messages about an error and the errors it was made from, outermost first. -/
def chain (e : AssetError) : List String :=
  match e with
  | .emptyFile => [e.message]
  | .load cause => e.message :: cause.chain

end AssetError

namespace Asset

/-- The asset in a file. -/
def loadWith (path : String) (b : ByteArray) (mode : LoadMode) : Except AssetError Asset :=
  if b.size = 0 then .error .emptyFile
  else
    match Table.load b mode with
    | .ok table => .ok ⟨path, table, mode.idmap⟩
    | .error e => .error (.load e)

/-- The asset in a file. -/
def load (path : String) (b : ByteArray) (system : Bool) : Except AssetError Asset :=
  loadWith path b { system := system }

/-- The asset in a file, whose application packages become shared libraries. -/
def loadAsLibrary (path : String) (b : ByteArray) (system : Bool) : Except AssetError Asset :=
  loadWith path b { system := system, asLibrary := true }

/-- The overlay in a file, with the file of its maps. -/
def loadOverlay (path : String) (idmap b : ByteArray) (system : Bool) :
    Except AssetError Asset :=
  match Idmap.load idmap with
  | .ok m => loadWith path b { idmap := some m, system := system }
  | .error f => .error (.load (.idmap f))

/-- An asset without resources. -/
def empty (path : String) : Asset :=
  ⟨path, .empty, none⟩

/-- Whether an asset is an overlay. -/
def isOverlay (a : Asset) : Bool := a.idmap.isSome

end Asset

end AppResources
