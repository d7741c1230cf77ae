/-
# SsaLowering.Settings.Basic -- settings of a lowering run

A run needs the name of the module and the separator of linkage names.  Both have
usual values, and a settings file may give one or the other.  A file with any
other entry is refused.
-/
import SsaLowering.Linkage
import SsaLowering.Settings.Toml

namespace SsaLowering

set_option autoImplicit false

/-- Settings of a run. -/
structure Settings where
  moduleName : String
  separator : String
deriving DecidableEq, Inhabited

/-- Why there are no settings. -/
inductive SettingsError where
  | malformed
  | malformedFile (path : String)
  | unreadable (path : String)
deriving DecidableEq, Inhabited

/-- The message of an error, outer causes first. -/
def SettingsError.message : SettingsError → String
  | malformed => "Failed to parse lowering configuration"
  | malformedFile path =>
    s!"Invalid config file: {path}: Failed to parse lowering configuration"
  | unreadable path => s!"Failed to read config file: {path}"

namespace Settings

def usual : Settings := ⟨"main", Mangler.usual.separator⟩

def moduleNameKey : String := "module_name"

def separatorKey : String := "mangle_separator"

def mangler (settings : Settings) : Mangler := ⟨settings.separator⟩

/-- Settings from entries, of which each has to be known. -/
def ofEntries? (entries : List (String × String)) : Option Settings :=
  if entries.all fun entry => entry.1 == moduleNameKey || entry.1 == separatorKey then
    some
      ⟨(entries.lookup moduleNameKey).getD usual.moduleName,
        (entries.lookup separatorKey).getD usual.separator⟩
  else none

/-- Settings from the text of a settings file. -/
def ofText (text : String) : Except SettingsError Settings :=
  match (Toml.entries? text).bind ofEntries? with
  | some settings => .ok settings
  | none => .error .malformed

end Settings

end SsaLowering
