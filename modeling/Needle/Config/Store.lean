import Needle.Log

/-!
# The configuration file

Reading and writing the configuration, and where it is kept unless a path is given. The default
place is the program's directory below the user's configuration directory; an unusable file there
is noted and passed over.
-/
set_option autoImplicit false

namespace Needle

structure Environment where
  home : Option Path
  configHome : Option Path
  /-- The home directory of the account, where none is set. -/
  accountHome : Option Path := none

namespace Environment

/-- A home that is set to nothing counts as not set. -/
def homeDir (env : Environment) : Option Path :=
  match env.home with
  | some p => if p.bytes.isEmpty then env.accountHome else some p
  | none => env.accountHome

/-- The user's configuration directory; a setting that is no absolute path is passed over. -/
def userConfigDir (env : Environment) : Option Path :=
  match env.configHome with
  | some p =>
    if p.isAbsolute then some p else env.homeDir.map (·.join (.ofText ".config"))
  | none => env.homeDir.map (·.join (.ofText ".config"))

def configDir (env : Environment) : Path :=
  (env.userConfigDir.getD (.ofText ".")).join (.ofText "rulescan")

def configPath (env : Environment) : Path :=
  env.configDir.join (.ofText "config.json")

end Environment

namespace Config

def ofText? (text : String) : Option Config :=
  (Json.ofText? text).bind ofJson?

def load (files : FileTree) (path : Path) : Except Error Config :=
  match files.readText path with
  | .error cause => .error (.configLoad ("Failed to read config file: " ++ cause.text))
  | .ok text =>
    match ofText? text with
    | some c => .ok c
    -- How the fault in the text is worded is left open.
    | none => .error (.configLoad "Failed to parse config file: ")

def toText (c : Config) : String :=
  (Json.written (c.toJson.pretty 0)).1

def makeParent (files : FileTree) (path : Path) : FileTree × Except IoError Unit :=
  match path.parent? with
  | none => (files, .ok ())
  | some dir => files.makePath dir

def save (c : Config) (files : FileTree) (path : Path) : Except Error Unit × FileTree :=
  match makeParent files path with
  | (files, .error cause) =>
    (.error (.configSave ("Failed to create config directory: " ++ cause.text)), files)
  | (files, .ok ()) =>
    match files.writeFile path (Utf8.encode c.toText) with
    | .error cause =>
      (.error (.configSave ("Failed to write config file: " ++ cause.text)), files)
    | .ok files => (.ok (), files)

def loadOrDefault (env : Environment) (files : FileTree) : Config × List Note :=
  if files.holds env.configPath then
    match load files env.configPath with
    | .ok c => (c, [])
    | .error cause => ({}, [.configUnusable cause])
  else ({}, [])

end Config

end Needle
