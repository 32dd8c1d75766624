import Needle.Compiler
import Needle.Scan.Call

/-!
# Clients

A client uses the library: it starts engines, makes compilers and rule sets, scans, and gives up
what it has in any order. It names a value by its place in a list; an operation on a value that is
not there does nothing. It does not look at answers: one that does goes some way, and there is a
client that goes the same way in any case.

The handler of a scan is a client as well, another one at each of its calls, and it can use and give
up whatever there is. What it ends with is its reply.
-/
set_option autoImplicit false

namespace Needle

inductive Operation where
  /-- Starts an engine that gives these statuses when it is started, when it is stopped and when a
  scan got through. -/
  | start (start stop scans : Code)
  | createCompiler (owner : Nat) (strict : Bool)
  | addText (compiler : Nat) (ns text : String)
  | addFile (compiler : Nat) (ns : String) (path : Path)
  | addFiles (compiler : Nat) (ns : String) (paths : List Path)
  | rules (compiler : Nat)
  | dropCompiler (compiler : Nat)
  | load (owner : Nat) (path : Path)
  | loadBytes (owner : Nat) (content : Bytes)
  | withOptions (rules : Nat) (options : ScanOptions)
  | save (rules : Nat) (path : Path)
  | saveBytes (rules : Nat)
  | destroyRules (rules : Nat)
  | dropRules (rules : Nat)
  | finalize (owner : Nat)
  | dropOwner (owner : Nat)
  /-- Something outside the library changes the files, and the client goes on on some thread. -/
  | elsewhere (files : FileTree) (thread : ThreadId)

inductive Client where
  | finish (reply : Reply)
  | call (operation : Operation) (rest : Client)
  | scan (rules : Nat) (target : ScanTarget) (options : ScanOptions) (handler : Nat → Client)
      (rest : Client)

structure Values where
  owners : List Owner := []
  compilers : List Compiler := []
  ruleSets : List RuleSet := []

structure Moment extends Values where
  host : Host

namespace Moment

def added (m : Moment) (place : Nat) (answer : Except Error Unit × Compiler × Host) : Moment :=
  { m with host := answer.2.2, compilers := m.compilers.set place answer.2.1 }

def produced (m : Moment) (answer : Except Error RuleSet × Host) : Moment :=
  match answer with
  | (.ok s, h) => { m with host := h, ruleSets := m.ruleSets ++ [s] }
  | (.error _, h) => { m with host := h }

def withValue {α : Type} (m : Moment) (values : List α) (place : Nat) (use : α → Moment) : Moment :=
  match values[place]? with
  | none => m
  | some value => use value

def perform (m : Moment) : Operation → Moment
  | .start start stop scans =>
    match Owner.start { start := start, stop := stop, scans := scans } m.host with
    | (.ok r, h) => { m with host := h, owners := m.owners ++ [r] }
    | (.error _, h) => { m with host := h }
  | .createCompiler owner strict =>
    m.withValue m.owners owner fun r =>
      match Compiler.create r m.host with
      | (.ok c, h) =>
        { m with host := h, compilers := m.compilers ++ [{ c with failOnWarnings := strict }] }
      | (.error _, h) => { m with host := h }
  | .addText place ns text =>
    m.withValue m.compilers place fun c => m.added place (c.addText ns text m.host)
  | .addFile place ns path =>
    m.withValue m.compilers place fun c => m.added place (c.addFile ns path m.host)
  | .addFiles place ns paths =>
    m.withValue m.compilers place fun c => m.added place (c.addFiles ns m.host paths)
  | .rules place =>
    m.withValue m.compilers place fun c =>
      { m with compilers := m.compilers.eraseIdx place }.produced (c.rules m.host)
  | .dropCompiler place =>
    m.withValue m.compilers place fun c =>
      { m with host := c.drop m.host, compilers := m.compilers.eraseIdx place }
  | .load owner path =>
    m.withValue m.owners owner fun r => m.produced (RuleSet.load r path m.host)
  | .loadBytes owner content =>
    m.withValue m.owners owner fun r => m.produced (RuleSet.loadBytes r content m.host)
  | .withOptions place options =>
    m.withValue m.ruleSets place fun s =>
      { m with ruleSets := m.ruleSets.set place (s.withOptions options) }
  | .save place path =>
    m.withValue m.ruleSets place fun s => { m with host := (s.save path m.host).2 }
  | .saveBytes place =>
    m.withValue m.ruleSets place fun s => { m with host := (s.saveBytes m.host).2 }
  | .destroyRules place =>
    m.withValue m.ruleSets place fun s =>
      { m with host := (s.destroy m.host).2, ruleSets := m.ruleSets.eraseIdx place }
  | .dropRules place =>
    m.withValue m.ruleSets place fun s =>
      { m with host := s.drop m.host, ruleSets := m.ruleSets.eraseIdx place }
  | .finalize place =>
    m.withValue m.owners place fun r =>
      { m with host := (r.finalize m.host).2, owners := m.owners.eraseIdx place }
  | .dropOwner place =>
    m.withValue m.owners place fun r =>
      { m with host := r.drop m.host, owners := m.owners.eraseIdx place }
  | .elsewhere files thread => { m with host := { m.host with files := files, thread := thread } }

end Moment

namespace Client

/-- A handler with a body for each of its calls. What it starts from is a moment of its own. -/
def handle (body : Nat → Moment × List Moment → Reply × (Moment × List Moment)) :
    Handler (Nat × Values × List Moment) :=
  fun _ (h, number, v, past) =>
    let m : Moment := { v with host := h }
    let (reply, m, past) := body number (m, past ++ [m])
    (reply, m.host, number + 1, m.toValues, past)

/-- Runs a client, and keeps the moments that it goes through: after each operation, at each call
of a handler and after each scan. -/
def run : Client → Moment × List Moment → Reply × (Moment × List Moment)
  | finish reply, state => (reply, state)
  | call operation rest, (m, past) =>
    let m := m.perform operation
    rest.run (m, past ++ [m])
  | scan place target options handler rest, (m, past) =>
    match m.ruleSets[place]? with
    | none => rest.run (m, past)
    | some s =>
      let (_, h, _, v, past) := ScanCall.run ⟨s, target, options⟩
        (handle fun number state => (handler number).run state) (m.host, 0, m.toValues, past)
      let m : Moment := { v with host := h }
      rest.run (m, past ++ [m])

def moments (client : Client) (h : Host) : List Moment :=
  let m : Moment := { host := h }
  (client.run (m, [m])).2.2

end Client

end Needle
