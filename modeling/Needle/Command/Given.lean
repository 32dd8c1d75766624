import Needle.Command.Grammar
import Needle.Command.Request
import Needle.Command.Usage
import Needle.Config

/-!
# What has been given after a verb

The values that the arguments of one verb have set so far, already read: a path is not empty, a text
is UTF-8, a number fits 64 bits. `Given.take` takes over the values of one more argument;
`Given.request` judges the whole when the arguments are at an end.
-/
set_option autoImplicit false

namespace Needle

structure Given where
  verbose : Bool := false
  format : Option OutputFormat := none
  config : Option Path := none
  rules : List String := []
  ns : Option String := none
  output : Option Path := none
  compiled : Option Path := none
  targets : List Path := []
  deep : Bool := false
  fast : Bool := false
  timeout : Option UInt64 := none
  firstMatch : Bool := false
  tag : Option String := none
  confirmed : Bool := false
deriving DecidableEq

namespace Given

def textValue (raw : Bytes) : Except Usage String :=
  match Utf8.decode? raw with
  | some s => .ok s
  | none => .error .notUtf8

def pathValue (raw : Bytes) : Except Usage Path :=
  if raw.isEmpty then .error .invalidValue else .ok ⟨raw⟩

def secondsValue (raw : Bytes) : Except Usage UInt64 := do
  let s ← textValue raw
  match Decimal.unsigned? s.toList with
  | some n => if n < wordSize then .ok (.ofNat n) else .error .unreadableValue
  | none => .error .unreadableValue

def formatValue (raw : Bytes) : Except Usage OutputFormat :=
  if raw = Utf8.encode "text" then .ok .text
  else if raw = Utf8.encode "json" then .ok .json
  else .error .invalidValue

def flag (old : Bool) : Except Usage Bool :=
  if old then .error .conflict else .ok true

def single {α : Type} (old : Option α) (value : Bytes → Except Usage α) :
    List Bytes → Except Usage (Option α)
  | [raw] => if old.isSome then .error .conflict else (value raw).map some
  | _ => .error .invalidValue

def more {α : Type} (old : List α) (value : Bytes → Except Usage α) (raws : List Bytes) :
    Except Usage (List α) :=
  if raws.isEmpty then .error .invalidValue else (raws.mapM value).map (old ++ ·)

def take (g : Given) (raws : List Bytes) : Key → Except Usage Given
  | .help => .error .help
  | .version => .error .version
  | .verbose => (flag g.verbose).map fun b => { g with verbose := b }
  | .format => (single g.format formatValue raws).map fun v => { g with format := v }
  | .config => (single g.config pathValue raws).map fun v => { g with config := v }
  | .rules => (more g.rules textValue raws).map fun v => { g with rules := v }
  | .ns => (single g.ns textValue raws).map fun v => { g with ns := v }
  | .output => (single g.output pathValue raws).map fun v => { g with output := v }
  | .compiled => (single g.compiled pathValue raws).map fun v => { g with compiled := v }
  | .targets => (more g.targets pathValue raws).map fun v => { g with targets := v }
  | .deep => (flag g.deep).map fun b => { g with deep := b }
  | .fast => (flag g.fast).map fun b => { g with fast := b }
  | .timeout => (single g.timeout secondsValue raws).map fun v => { g with timeout := v }
  | .firstMatch => (flag g.firstMatch).map fun b => { g with firstMatch := b }
  | .tag => (single g.tag textValue raws).map fun v => { g with tag := v }
  | .confirmed => (flag g.confirmed).map fun b => { g with confirmed := b }

/-- The scan that was asked for. Rule texts and a saved rule set exclude each other. -/
def scan (g : Given) : Except Usage ScanRequest :=
  let request (origin : RuleOrigin) : Except Usage ScanRequest :=
    if g.targets.isEmpty then .error .missingArgument
    else .ok ⟨origin, g.targets, g.deep, g.fast, g.timeout, g.firstMatch, g.tag⟩
  match g.compiled with
  | some path => if g.rules.isEmpty then request (.saved path) else .error .conflict
  | none => if g.rules.isEmpty then .error .missingArgument else request (.sources g.rules)

def command (g : Given) (inner : Option Command) : Verb → Except Usage (Option Command)
  | .program => .ok inner
  | .compile =>
    match g.rules, g.output with
    | _ :: _, some output => .ok (some (.compile g.rules g.ns output))
    | _, _ => .error .missingArgument
  | .scan => g.scan.map fun request => some (.scan request)
  | .check => if g.rules.isEmpty then .error .missingArgument else .ok (some (.check g.rules))
  | .config =>
    if inner.isSome then .ok inner
    else if g = {} then .error .helpForMissing
    else .error .missingVerb
  | .configShow => .ok (some (.config .display))
  | .configReset => .ok (some (.config (.reset g.confirmed)))
  | .configPath => .ok (some (.config .path))
  | .info => .ok (some .info)

/-- The request of a verb, given the request of the verb after it. Of a switch that both have, the
inner one counts. -/
def request (g : Given) (v : Verb) (inner : Request) : Except Usage Request :=
  (g.command inner.command v).map fun command =>
    ⟨g.verbose || inner.verbose, inner.format.or g.format, inner.config.or g.config, command⟩

end Given

end Needle
