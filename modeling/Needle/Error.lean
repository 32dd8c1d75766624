import Needle.Diagnostic
import Needle.File.Access

/-!
# Errors

Everything that a call can fail with. Each error has a message, a category, at times a hint for the
user and a status code of the engine. Status codes are numbers that the engine chooses; the
functions at the end say which error a code means for the call that returned it.
-/
set_option autoImplicit false

namespace Needle

abbrev Code := Int

namespace Code

def success : Code := 0
def insufficientMemory : Code := 1
def couldNotOpenFile : Code := 3
def couldNotMapFile : Code := 4
def invalidFile : Code := 6
def corruptFile : Code := 7
def unsupportedVersion : Code := 8
def scanTimeout : Code := 26
def tooManyThreads : Code := 27
def callbackError : Code := 28
def invalidArgument : Code := 29
def internalError : Code := 31

end Code

inductive Error where
  | startup (code : Code)
  | resourcesOutstanding (live : Nat)
  | compile (ns : String) (errors : Nat) (diagnostics : List Diagnostic)
  | sessionFailed (errors : Nat)
  | fileRead (path : Path) (cause : IoError)
  | fileWrite (path : Path) (cause : IoError)
  | corruptArtifact (path : Path) (code : Code)
  | engine (code : Code)
  | callbackFailed
  | scanTimeout
  | emptyBuffer
  | invalidArgument (message : String)
  | configLoad (message : String)
  | configSave (message : String)
  | configInvalid (field message : String)
  | jsonWriting
  | other (text : String)
deriving DecidableEq

inductive Category where
  | startup
  | compile
  | io
  | engine
  | scan
  | usage
  | configuration
  | serialization
  | other
deriving DecidableEq

def Category.label : Category → String
  | .startup => "Startup"
  | .compile => "Compile"
  | .io => "I/O"
  | .engine => "Engine"
  | .scan => "Scan"
  | .usage => "Usage"
  | .configuration => "Configuration"
  | .serialization => "Serialization"
  | .other => "Other"

namespace Error

def message : Error → String
  | .startup code =>
    "Failed to initialize the matching engine (code " ++ Decimal.ofInt code ++ ")"
  | .resourcesOutstanding live =>
    "Cannot finalize the engine: " ++ Decimal.ofNat live ++ " compiler(s)/rule set(s) still alive"
  | .compile name errors _ =>
    "Failed to compile rules in namespace '" ++ name ++ "': " ++ Decimal.ofNat errors ++ " error(s)"
  | .sessionFailed errors =>
    "Compiler session already failed with " ++ Decimal.ofNat errors
      ++ " error(s) and cannot be reused"
  | .fileRead path _ => "Failed to read file: " ++ path.display
  | .fileWrite path _ => "Failed to write file: " ++ path.display
  | .corruptArtifact path code =>
    "Compiled rules are corrupt or from an unsupported version: " ++ path.display
      ++ " (code " ++ Decimal.ofInt code ++ ")"
  | .engine code => "libyara: " ++ Decimal.ofInt code
  | .callbackFailed => "Scan callback reported a failure"
  | .scanTimeout => "Scan timeout exceeded"
  | .emptyBuffer => "Cannot scan an empty buffer"
  | .invalidArgument text => "Invalid argument: " ++ text
  | .configLoad text => "Failed to load configuration: " ++ text
  | .configSave text => "Failed to save configuration: " ++ text
  | .configInvalid field text => "Invalid configuration value: " ++ field ++ " - " ++ text
  | .jsonWriting => "JSON serialization error"
  | .other text => text

/-- The status code behind an error, where there is one. -/
def code? : Error → Option Code
  | .startup code | .engine code | .corruptArtifact _ code => some code
  | .scanTimeout => some Code.scanTimeout
  | _ => none

def diagnostics : Error → List Diagnostic
  | .compile _ _ diagnostics => diagnostics
  | _ => []

def isCallbackFailure : Error → Bool
  | .callbackFailed => true
  | _ => false

def suggestion? : Error → Option String
  | .startup _ => some "Check that libyara is installed and usable"
  | .compile .. => some "Fix the reported rule diagnostics and compile again"
  | .sessionFailed _ => some "Create a new compiler; a failed session cannot be reused"
  | .corruptArtifact .. =>
    some "Recompile the rules with the same engine version that loads them"
  | .scanTimeout => some "Increase scan.timeout_secs or scan smaller inputs"
  | .resourcesOutstanding _ => some "Drop every compiler and rule set before finalizing"
  | .configLoad _ | .configInvalid .. =>
    some "Check your configuration file for syntax errors or missing fields"
  | _ => none

def category : Error → Category
  | .startup _ => .startup
  | .compile .. | .sessionFailed _ => .compile
  | .fileRead .. | .fileWrite .. => .io
  | .engine _ | .corruptArtifact .. => .engine
  | .callbackFailed | .scanTimeout => .scan
  | .emptyBuffer | .invalidArgument _ | .resourcesOutstanding _ => .usage
  | .configLoad _ | .configSave _ | .configInvalid .. => .configuration
  | .jsonWriting => .serialization
  | .other _ => .other

end Error

namespace Code

/-- The engine could not get at a file. -/
def fileTrouble (code : Code) : IoError :=
  .other ("engine could not access file (code " ++ Decimal.ofInt code ++ ")")

def check (code : Code) : Except Error Unit :=
  if code = success then .ok () else .error (.engine code)

def loadError (code : Code) (path : Path) : Error :=
  if code = couldNotOpenFile ∨ code = couldNotMapFile then .fileRead path (fileTrouble code)
  else if code = invalidFile ∨ code = corruptFile ∨ code = unsupportedVersion then
    .corruptArtifact path code
  else .engine code

def checkLoad (code : Code) (path : Path) : Except Error Unit :=
  if code = success then .ok () else .error (loadError code path)

def checkSave (code : Code) (path : Path) : Except Error Unit :=
  if code = success then .ok ()
  else if code = couldNotOpenFile then .error (.fileWrite path (fileTrouble code))
  else .error (.engine code)

/-- A scan; a failed access is an error of the file only where a file was scanned. -/
def checkScan (code : Code) (path : Option Path) : Except Error Unit :=
  if code = success then .ok ()
  else if code = scanTimeout then .error .scanTimeout
  else if code = callbackError then .error .callbackFailed
  else
    match path with
    | some path =>
      if code = couldNotOpenFile ∨ code = couldNotMapFile then
        .error (.fileRead path (fileTrouble code))
      else .error (.engine code)
    | none => .error (.engine code)

end Code

end Needle
