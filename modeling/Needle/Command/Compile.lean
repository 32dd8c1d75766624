import Needle.Command.Report
import Needle.Compiler

/-!
# Compiling and checking rule files

Both commands compile the rule texts that their arguments name in one session. `compile` saves the
rule set and then reports; `check` reports and then looks whether there is a rule set. What a
command has made is given up again when it fails, the last made first.
-/
set_option autoImplicit false

namespace Needle.Program

def addSources (c : Compiler) (ns : String) (h : Host) :
    List String → Except Error Unit × Compiler × Host
  | [] => (.ok (), c, h)
  | argument :: rest =>
    match RuleSource.ofArgument argument ns with
    | .error e => (.error e, c, h)
    | .ok source =>
      match c.addFile source.ns source.path (h.note (.compilingSource source.path source.ns)) with
      | (.ok (), c, h) => addSources c ns h rest
      | (.error e, c, h) => (.error e, c, h)

def compileSources (config : Config) (r : Owner) (arguments : List String) (ns : String)
    (h : Host) : Except Error Compiler × Host :=
  match Compiler.create r h with
  | (.error e, h) => (.error e, h)
  | (.ok c, h) =>
    match addSources { c with failOnWarnings := config.compiler.failOnWarnings } ns h arguments with
    | (.ok (), c, h) => (.ok c, h)
    | (.error e, c, h) => (.error e, c.drop h)

/-- Carries out something with an owner of an engine, which is finalized at the end. -/
def withOwner (h : Host) (body : Owner → Host → Outcome × Host) : Outcome × Host :=
  match Owner.start {} h with
  | (.error e, h) => (.fail e, h)
  | (.ok r, h) =>
    match body r h with
    | (⟨text, some e⟩, h) => (⟨text, some e⟩, r.drop h)
    | (⟨text, none⟩, h) =>
      match r.finalize h with
      | (.ok (), h) => (⟨text, none⟩, h)
      | (.error e, h) => (⟨text, some e⟩, h)

def destroyAfter (text : String) (s : RuleSet) (h : Host) : Outcome × Host :=
  match s.destroy h with
  | (.ok (), h) => (⟨text, none⟩, h)
  | (.error e, h) => (⟨text, some e⟩, h)

def report (c : Compiler) (output : Option Path) : CompileReport :=
  ⟨output, c.sources, c.namespaces, c.warnings⟩

def compile (config : Config) (format : OutputFormat) (arguments : List String) (ns : String)
    (output : Path) (h : Host) : Outcome × Host :=
  withOwner h fun r h =>
    match compileSources config r arguments ns h with
    | (.error e, h) => (.fail e, h)
    | (.ok c, h) =>
      match c.rules h with
      | (.error e, h) => (.fail e, h)
      | (.ok s, h) =>
        match s.save output h with
        | (.error e, h) => (.fail e, s.drop h)
        | (.ok (), h) =>
          match s.destroy h with
          | (.error e, h) => (.fail e, h)
          | (.ok (), h) => ((report c (some output)).outcome format, h)

def check (config : Config) (format : OutputFormat) (arguments : List String) (h : Host) :
    Outcome × Host :=
  withOwner h fun r h =>
    match compileSources config r arguments config.compiler.defaultNamespace h with
    | (.error e, h) => (.fail e, h)
    | (.ok c, h) =>
      match (report c none).outcome format with
      | ⟨text, some e⟩ => (⟨text, some e⟩, c.drop h)
      | ⟨text, none⟩ =>
        match c.rules h with
        | (.error e, h) => (⟨text, some e⟩, h)
        | (.ok s, h) => destroyAfter text s h

end Needle.Program
