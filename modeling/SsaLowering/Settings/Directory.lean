/-
# SsaLowering.Settings.Directory -- settings files in a directory

A `Directory` is what a file system shows from one place down: files with their
bytes, and directories.  A path leads step by step, and every place on the way has
to be a directory.  Settings are loaded from a named file, or looked up under the
usual file name, where an absent file means the usual settings.
-/
import SsaLowering.Lower.Journal
import SsaLowering.Settings.Basic

namespace SsaLowering

set_option autoImplicit false

/-- What stands under a name. -/
inductive DirectoryEntry where
  | file (bytes : List UInt8)
  | directory
deriving DecidableEq, Inhabited

/-- The names on the way down from a directory; none leads to the directory itself. -/
abbrev Place := List String

/-- A directory with its path, and what stands at the places below it, what was put
there last first.  A place on the way to another is a directory even if nothing says
so. -/
structure Directory where
  path : String
  entries : List (Place × DirectoryEntry)
deriving Inhabited

namespace Directory

/-- What stands between the slashes of a path. -/
def steps (path : String) : List String := path.splitOn "/"

/-- The place that a path names by its steps alone: an empty step or a point stays, two
points go up. -/
def placeOf (path : String) : Place :=
  (steps path).foldl
    (fun place step =>
      if step = "" ∨ step = "." then place
      else if step = ".." then place.dropLast
      else place ++ [step])
    []

/-- Put an entry where a path leads. -/
def put (d : Directory) (path : String) (entry : DirectoryEntry) : Directory :=
  { d with entries := (placeOf path, entry) :: d.entries }

/-- A directory with the given entries, put in order. -/
def ofEntries (path : String) (entries : List (String × DirectoryEntry)) : Directory :=
  entries.foldl (fun d (name, entry) => d.put name entry) ⟨path, []⟩

/-- What stands at a place. -/
def at? (d : Directory) (place : Place) : Option DirectoryEntry :=
  match d.entries.lookup place with
  | some entry => some entry
  | none =>
    if place.isEmpty || d.entries.any fun entry => place.isPrefixOf entry.1 then some .directory
    else none

/-- One step from a place, which has to be a directory, and not out of the whole. -/
def step? (d : Directory) (place : Place) (step : String) : Option Place :=
  match d.at? place with
  | some .directory =>
    if step = "" ∨ step = "." then some place
    else if step = ".." then (if place.isEmpty then none else some place.dropLast)
    else some (place ++ [step])
  | _ => none

/-- A path that does not start from the directory. -/
def isAbsolute (path : String) : Bool := path.toList.head? == some '/'

/-- What is found by walking along a path. -/
def entry? (d : Directory) (path : String) : Option DirectoryEntry :=
  if isAbsolute path then none else ((steps path).foldlM d.step? []).bind d.at?

/-- The whole path of what a path leads to. -/
def pathOf (d : Directory) (path : String) : String :=
  if isAbsolute path then path else d.path ++ "/" ++ path

/-- The text of a file, if there is one and its bytes are a text. -/
def readText? (d : Directory) (name : String) : Option String :=
  match d.entry? name with
  | some (.file bytes) => String.fromUTF8? bytes.toByteArray
  | _ => none

/-- The settings in a named file. -/
def loadSettings (d : Directory) (name : String) : Except SettingsError Settings :=
  match d.readText? name with
  | none => .error (.unreadable (d.pathOf name))
  | some text =>
    match Settings.ofText text with
    | .ok settings => .ok settings
    | .error _ => .error (.malformedFile (d.pathOf name))

/-- The usual name of a settings file. -/
def settingsFile : String := "kiln.toml"

/-- The settings of a directory, with what is told about them: those of the usual
file, or the usual ones where there is no such file. -/
def findSettings (d : Directory) : Except SettingsError Settings × Journal :=
  match d.entry? settingsFile with
  | some (.file _) => (d.loadSettings settingsFile, [])
  | _ => (.ok Settings.usual, [.settingsAbsent settingsFile d.path])

end Directory

end SsaLowering
