import Needle.Command.Line
import Needle.Command.Scan
import Needle.Config.Store

/-!
# Runs of the program

A command line is read, the configuration is loaded, the log is opened, and the command is carried
out. What the command writes to the standard output and how it ends is its `Outcome`; the notes it
makes stay in the log of the host. `Completion` is all that a run leaves: the exit code, the two
outputs and the files.
-/
set_option autoImplicit false

namespace Needle

namespace Program

def version : String := "0.1.0"

/-- What the configuration commands do; `path` is the place of the configuration file. -/
def configure (config : Config) (path : Path) (h : Host) : ConfigAction → Outcome × Host
  | .display => (.ofJson config.toJson, h)
  | .path => (.ofLines [path.display], h)
  | .reset confirmed =>
    if !confirmed && h.files.holds path then
      (.ofLines ["This overwrites " ++ path.display ++ "; pass --yes to confirm."], h)
    else
      let h := h.note .resettingConfig
      match ({} : Config).save h.files path with
      | (.ok (), files) =>
        (.ofLines ["Configuration reset to defaults."], { h with files := files })
      | (.error e, files) => (.fail e, { h with files := files })

def truth (b : Bool) : String := if b then "true" else "false"

def title : String := "rulescan - compile pattern rules and scan files with them"

def info (config : Config) (path : Path) : Outcome :=
  .ofLines
    [title, "",
      "Version:          " ++ version,
      "Engine:           libyara",
      "Config Path:      " ++ path.display, "",
      "Compiler Settings:",
      "  Namespace:      " ++ config.compiler.defaultNamespace,
      "  Strict:         " ++ truth config.compiler.failOnWarnings, "",
      "Scan Settings:",
      "  Fast Mode:      " ++ truth config.scan.fastMode,
      "  Timeout:        " ++ Decimal.ofNat config.scan.timeoutSecs.toNat ++ " s",
      "  Max File Size:  " ++ Decimal.ofNat config.scan.maxFileSizeMb.toNat ++ " MB",
      "  Follow Links:   " ++ truth config.scan.followSymlinks]

def welcome : Outcome :=
  .ofLines
    [title, "",
      "Use --help for usage information", "",
      "Quick start:",
      "  rulescan check rules.yar                 Validate rule files",
      "  rulescan compile rules.yar -o rules.bin  Save compiled rules",
      "  rulescan scan -c rules.bin -R ./samples  Scan a directory"]

def run (config : Config) (path : Path) (format : OutputFormat) (h : Host) :
    Option Command → Outcome × Host
  | none => (welcome, h)
  | some (.compile arguments ns output) =>
    compile config format arguments (ns.getD config.compiler.defaultNamespace) output h
  | some (.scan request) => scan config format request h
  | some (.check arguments) => check config format arguments h
  | some (.config action) => configure config path h action
  | some .info => (info config path, h)

end Program

structure Completion where
  exitCode : Nat
  output : String
  errors : String
  files : FileTree

namespace Request

/-- The configuration of a request: from the file it names, where every fault counts, or from the
default place. -/
def loadConfig (r : Request) (env : Environment) (files : FileTree) : Except Error Config :=
  match r.config with
  | some path => Config.load files path
  | none => .ok (Config.loadOrDefault env files).1

def configPath (r : Request) (env : Environment) : Path := r.config.getD env.configPath

def logConfig (r : Request) (config : Config) : LogConfig :=
  if r.verbose then .verbose else .ofConfig config

def runWith (r : Request) (env : Environment) (config : Config) (h : Host) : Outcome × Host :=
  let h := h.note (.loggingStarted (r.logConfig config).level)
  match config.validate with
  | .error e => (.fail e, h)
  | .ok () =>
    let h := h.note (.version Program.version)
    Program.run config (r.configPath env) (r.format.getD .text) h r.command

end Request

namespace Completion

def errorLines (e : Error) : List String :=
  ("Error: " ++ e.message) :: e.diagnostics.map (fun d => "  " ++ d.display) ++
    match e.suggestion? with
    | some hint => ["Hint: " ++ hint]
    | none => []

def join (lines : List String) : String := String.join (lines.map (· ++ "\n"))

/-- The completion of a request: the notes that the log admits, then the error if there is one. -/
def ofOutcome (log : LogConfig) (time : String) (outcome : Outcome) (h : Host) : Completion :=
  let notes := String.join (h.notes.filterMap (log.record? time))
  match outcome.failure with
  | none => ⟨0, outcome.text, notes, h.files⟩
  | some e => ⟨1, outcome.text, notes ++ join (errorLines e), h.files⟩

def ofRequest (r : Request) (env : Environment) (time : String) (h : Host) : Completion :=
  match r.loadConfig env h.files with
  | .error e => ⟨1, "", join (errorLines e), h.files⟩
  | .ok config =>
    let (outcome, h) := r.runWith env config h
    ofOutcome (r.logConfig config) time outcome h

def ofUsage (u : Usage) (files : FileTree) : Completion :=
  match u with
  | .version => ⟨0, "rulescan " ++ Program.version ++ "\n", "", files⟩
  | .help => ⟨0, u.text, "", files⟩
  | _ => ⟨u.exitCode, "", u.text, files⟩

/-- The run of the program on a host, with the time that the lines of the log show. -/
def ofArguments (env : Environment) (time : String) (arguments : List Bytes) (h : Host) :
    Completion :=
  match Request.ofArguments arguments with
  | .ok r => ofRequest r env time h
  | .error u => ofUsage u h.files

end Completion

end Needle
