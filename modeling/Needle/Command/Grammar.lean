/-!
# The grammar of the command line

A command line is a sequence of verbs, each with its own switches and positional arguments. The verb
before the first word is the program itself. The switches for help, for more output, for the output
format and for the configuration file may stand after every verb.
-/
set_option autoImplicit false

namespace Needle

inductive Key where
  | help
  | version
  | verbose
  | format
  | config
  | rules
  | ns
  | output
  | compiled
  | targets
  | deep
  | fast
  | timeout
  | firstMatch
  | tag
  | confirmed
deriving DecidableEq

/-- A switch with its names; it stands for itself or takes one value. -/
structure Switch where
  key : Key
  long : String
  short : Option Char
  takesValue : Bool

inductive Verb where
  | program
  | compile
  | scan
  | check
  | config
  | configShow
  | configReset
  | configPath
  | info
deriving DecidableEq

namespace Verb

def commonSwitches : List Switch :=
  [⟨.help, "help", some 'h', false⟩, ⟨.verbose, "verbose", some 'v', false⟩,
    ⟨.format, "format", none, true⟩, ⟨.config, "config", none, true⟩]

def ownSwitches : Verb → List Switch
  | program => [⟨.version, "version", some 'V', false⟩]
  | compile => [⟨.ns, "namespace", some 'n', true⟩, ⟨.output, "output", some 'o', true⟩]
  | scan =>
    [⟨.rules, "rules", some 'r', true⟩, ⟨.compiled, "compiled", some 'c', true⟩,
      ⟨.deep, "recursive", some 'R', false⟩, ⟨.fast, "fast", none, false⟩,
      ⟨.timeout, "timeout", none, true⟩, ⟨.firstMatch, "first-match", none, false⟩,
      ⟨.tag, "tag", none, true⟩]
  | configReset => [⟨.confirmed, "yes", some 'y', false⟩]
  | _ => []

def switches (v : Verb) : List Switch := v.ownSwitches ++ commonSwitches

def positional? : Verb → Option Key
  | compile | check => some .rules
  | scan => some .targets
  | _ => none

def verbs : Verb → List (String × Verb)
  | program =>
    [("compile", compile), ("scan", scan), ("check", check), ("config", config), ("info", info)]
  | config => [("show", configShow), ("reset", configReset), ("path", configPath)]
  | _ => []

/-- The word that asks for help on the words after it; it may stand where a verb may. -/
def helpWord : String := "help"

end Verb

end Needle
