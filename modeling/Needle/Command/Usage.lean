/-!
# Command lines that are not carried out

A command line asks for help or for the version, or there is something wrong with it. The kind of
the fault is a `Usage`; what the user is told follows from it.
-/
set_option autoImplicit false

namespace Needle

inductive Usage where
  | help
  | version
  /-- A verb has to follow, and nothing was given. -/
  | helpForMissing
  | missingVerb
  | unknownVerb
  | unknownArgument
  | missingArgument
  | conflict
  | invalidValue
  | unreadableValue
  | surplusValue
  | notUtf8
deriving DecidableEq

/-- Asking for help or for the version is no failure. -/
def Usage.exitCode : Usage → Nat
  | .help | .version => 0
  | _ => 2

def Usage.summary : List String :=
  ["Usage: rulescan [-v] [--format text|json] [--config FILE] [COMMAND]", "",
    "Commands:",
    "  compile RULES... -o FILE [-n NAMESPACE]     Compile rule files into a saved rule set",
    "  scan (-r RULES | -c FILE) [OPTIONS] TARGETS...  Scan files or directories",
    "  check RULES...                              Compile rule files and report diagnostics",
    "  config show|reset|path                      Configure settings",
    "  info                                        Show application information", "",
    "Scan options: -R/--recursive --fast --timeout SECONDS --first-match --tag TAG"]

def Usage.complaint : Usage → String
  | .unknownVerb => "unrecognized subcommand"
  | .unknownArgument => "unexpected argument"
  | .missingArgument => "a required argument was not provided"
  | .missingVerb => "a subcommand is required but one was not provided"
  | .conflict => "an argument cannot be used with another or more than once"
  | .invalidValue => "a value is missing or not one of the possible values"
  | .unreadableValue => "a value could not be read"
  | .surplusValue => "a value was given where none is taken"
  | .notUtf8 => "invalid UTF-8 was detected in an argument"
  | _ => ""

def Usage.text (u : Usage) : String :=
  let lines := match u with
    | .help | .helpForMissing => Usage.summary
    | .version => []
    | _ => ["error: " ++ u.complaint, "", "For more information, try '--help'."]
  String.join (lines.map (· ++ "\n"))

end Needle
