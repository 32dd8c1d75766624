import Needle.Config
import Needle.Text.Terminal

/-!
# The log

What the program notes about its work. A note is data: its level, the part of the program that makes
it and its wording follow from what it says. `LogConfig` says how a log writes its notes down.
-/
set_option autoImplicit false

namespace Needle

inductive ScanNotice where
  | registered
  | foreign
  | reentrant
  | unknown
deriving DecidableEq

inductive Note where
  | startupFailed (engine : String) (code : Code)
  | initialized (engine : String)
  | finalized (engine : String)
  | finalizeFailed (engine : String) (cause : Error)
  | compilerCreated
  | compilingFile (path : Path) (ns : String)
  | compilingText (ns : String)
  | compileWarning (diagnostic : Diagnostic)
  | compiled (sources namespaces : Nat)
  | loaded (path : Path)
  | saved (path : Path)
  | releaseFailed (cause : Error)
  | scanningBuffer (size : Nat)
  | scanningFile (path : Path)
  | scan (notice : ScanNotice) (id : Nat)
  | configUnusable (cause : Error)
  | loggingStarted (level : Level)
  | version (number : String)
  | compilingSource (path : Path) (ns : String)
  | cannotAccess (target : Path) (cause : String)
  | skippingLarge (path : Path)
  | scanningFiles (count : Nat)
  | scanFailed (path : Path) (cause : Error)
  | resettingConfig
deriving DecidableEq

inductive Origin where
  | program
  | owner
  | compiler
  | rules
  | registry
  | config
  | logging
deriving DecidableEq

def Origin.path : Origin → String
  | .program => "rulescan"
  | .owner => "rulescan::runtime"
  | .compiler => "rulescan::compiler"
  | .rules => "rulescan::rules"
  | .registry => "rulescan::scanner::registry"
  | .config => "rulescan::core::config"
  | .logging => "rulescan::utils::logging"

namespace Note

def level : Note → Level
  | .startupFailed .. => .error
  | .initialized _ | .finalized _ | .compilingSource .. | .scanningFiles _ | .resettingConfig =>
    .info
  | .finalizeFailed .. | .compileWarning _ | .releaseFailed _ | .configUnusable _
  | .cannotAccess .. | .scanFailed .. => .warn
  | .scan .registered _ => .trace
  | .scan _ _ => .warn
  | .compilerCreated | .compilingFile .. | .compilingText _ | .compiled .. | .loaded _ | .saved _
  | .scanningBuffer _ | .scanningFile _ | .loggingStarted _ | .version _ | .skippingLarge _ =>
    .debug

def origin : Note → Origin
  | .startupFailed .. | .initialized _ | .finalized _ | .finalizeFailed .. => .owner
  | .compilerCreated | .compilingFile .. | .compilingText _ | .compileWarning _ | .compiled .. =>
    .compiler
  | .loaded _ | .saved _ | .releaseFailed _ | .scanningBuffer _ | .scanningFile _ => .rules
  | .scan .. => .registry
  | .configUnusable _ => .config
  | .loggingStarted _ => .logging
  | .version _ | .compilingSource .. | .cannotAccess .. | .skippingLarge _ | .scanningFiles _
  | .scanFailed .. | .resettingConfig => .program

def scanText (notice : ScanNotice) (id : String) : String :=
  match notice with
  | .registered => "Registered scan " ++ id
  | .foreign => "Match for scan " ++ id ++ " reported from a foreign thread"
  | .reentrant => "Re-entrant match report for scan " ++ id
  | .unknown => "Match reported for unknown scan " ++ id

def text (scanName : Nat → String) : Note → String
  | .startupFailed engine code =>
    "Failed to initialize " ++ engine ++ " (code " ++ Decimal.ofInt code ++ ")"
  | .initialized engine => engine ++ " initialized"
  | .finalized engine => engine ++ " finalized"
  | .finalizeFailed engine cause => "Failed to finalize " ++ engine ++ ": " ++ cause.message
  | .compilerCreated => "Created compiler session"
  | .compilingFile path name =>
    "Compiling " ++ path.display ++ " into namespace '" ++ name ++ "'"
  | .compilingText name => "Compiling rule text into namespace '" ++ name ++ "'"
  | .compileWarning diagnostic => diagnostic.display
  | .compiled sources namespaces =>
    "Compiled " ++ Decimal.ofNat sources ++ " source(s) in " ++ Decimal.ofNat namespaces
      ++ " namespace(s)"
  | .loaded path => "Loaded compiled rules from " ++ path.display
  | .saved path => "Saved compiled rules to " ++ path.display
  | .releaseFailed cause => "Failed to release rule set: " ++ cause.message
  | .scanningBuffer size => "Scanning " ++ Decimal.ofNat size ++ " byte(s)"
  | .scanningFile path => "Scanning " ++ path.display
  | .scan notice id => scanText notice (scanName id)
  | .configUnusable cause => "Failed to load config, using defaults: " ++ cause.message
  | .loggingStarted level => "Logging initialized with level: " ++ level.name
  | .version number => "rulescan v" ++ number
  | .compilingSource path name => "Compiling " ++ path.display ++ " [" ++ name ++ "]"
  | .cannotAccess target cause => "Cannot access " ++ target.display ++ ": " ++ cause
  | .skippingLarge path => "Skipping large file: " ++ path.display
  | .scanningFiles count => "Scanning " ++ Decimal.ofNat count ++ " file(s)"
  | .scanFailed path cause => "Failed to scan " ++ path.display ++ ": " ++ cause.message
  | .resettingConfig => "Resetting configuration to defaults..."

end Note

/-- How a log is kept: which notes it admits, and whether a line shows the time and the origin. -/
structure LogConfig where
  level : Level := .info
  timestamps : Bool := true
  modulePath : Bool := false
deriving DecidableEq

namespace LogConfig

def verbose : LogConfig := ⟨.debug, true, true⟩

def quiet : LogConfig := ⟨.error, false, false⟩

/-- The configured level, or `info` where it is no level; the origin is shown from `debug` on. -/
def ofConfig (c : Config) : LogConfig :=
  let level := (Level.ofName? c.logging.logLevel).getD .info
  ⟨level, true, level.admits .debug⟩

def levelMark : Level → String
  | .warn => "[WARN ] "
  | .info => "[INFO ] "
  | l => "[" ++ l.label ++ "] "

/-- What the log writes for a note, if it admits it: a line without what would steer a terminal. A
sequence that a name leaves unfinished takes the end of the line with it. -/
def record? (c : LogConfig) (time : String) (note : Note) : Option String :=
  if c.level.admits note.level then
    some (Terminal.plain ((if c.timestamps then time ++ " " else "") ++ levelMark note.level
      ++ (if c.modulePath then note.origin.path ++ ": " else "")
      ++ note.text Decimal.ofNat ++ "\n"))
  else none

end LogConfig

end Needle
