import Needle.Command.Compile
import Needle.File.Walk

/-!
# Scanning files

The targets are walked first, and the regular files found there are scanned one after another. The
report tells about walk errors before it tells about files. A file that cannot be scanned is told
and counted; it does not stop the others.
-/
set_option autoImplicit false

namespace Needle.Program

structure Survey where
  report : ScanReport := {}
  files : List Path := []
  notes : List Note := []

namespace Survey

/-- An item of a walk from a target. Regular files are scanned unless they are known to be larger
than `limit`; what a walk could not visit is told first. -/
def visit (limit : Nat) (target : Path) (s : Survey) : WalkItem → Survey
  | .failed e =>
    { s with
      report := { s.report with errors := s.report.errors + 1 }.addFile e.path [] (some e.text)
      notes := s.notes ++ [.cannotAccess target e.text] }
  | .visited path (.file size) =>
    if size.any (limit < ·) then
      { s with
        report := { s.report with skipped := s.report.skipped + 1 }
        notes := s.notes ++ [.skippingLarge path] }
    else { s with files := s.files ++ [path] }
  | .visited _ .directory | .visited _ .link => s

end Survey

def survey (config : Config) (request : ScanRequest) (files : FileTree) : Survey :=
  let options : FileTree.WalkOptions :=
    ⟨config.scan.followSymlinks, if request.deep then none else some 1⟩
  request.targets.foldl (fun s target =>
    (files.walkFrom options target).foldl (Survey.visit config.scan.maxFileSize target) s) {}

def select (tag : Option String) (firstMatch : Bool) : Handler (List Rule) :=
  fun rule (h, found) =>
    if tag.all rule.hasTag then
      (.verdict (if firstMatch then .abort else .proceed), (h, found ++ [rule]))
    else (.verdict .proceed, (h, found))

def resultOf : ScanOutcome → Except Error ScanSummary
  | .returned result => result
  | .panicked text => .error (.other text)

/-- Scans files and takes them into the report, up to the first failure that is not of a file. -/
def scanFiles (s : RuleSet) (request : ScanRequest) (options : ScanOptions) (report : ScanReport)
    (h : Host) : List Path → Except Error ScanReport × Host
  | [] => (.ok report, h)
  | path :: rest =>
    let (outcome, h, found) :=
      s.scanFile path options (select request.tag request.firstMatch) (h, [])
    let result := resultOf outcome
    let h := match result with
      | .error e => if ScanReport.concernsFile e then h.note (.scanFailed path e) else h
      | .ok _ => h
    match report.record path found result with
    | .ok report => scanFiles s request options report h rest
    | .error e => (.error e, h)

def scanRules (config : Config) (r : Owner) (h : Host) : RuleOrigin → Except Error RuleSet × Host
  | .saved path => RuleSet.load r path h
  | .sources arguments =>
    match compileSources config r arguments config.compiler.defaultNamespace h with
    | (.ok c, h) => c.rules h
    | (.error e, h) => (.error e, h)

def scanOptions (config : Config) (request : ScanRequest) : ScanOptions :=
  let configured := ScanOptions.ofConfig config.scan
  ⟨request.fast || configured.fastMode,
    (request.timeout.map Duration.ofSeconds).or configured.timeout⟩

def scan (config : Config) (format : OutputFormat) (request : ScanRequest) (h : Host) :
    Outcome × Host :=
  withOwner h fun r h =>
    match scanRules config r h request.origin with
    | (.error e, h) => (.fail e, h)
    | (.ok s, h) =>
      let found := survey config request h.files
      let h := { h with notes := h.notes ++ found.notes }
      let h := h.note (.scanningFiles found.files.length)
      match scanFiles s request (scanOptions config request) found.report h found.files with
      | (.error e, h) => (.fail e, s.drop h)
      | (.ok report, h) =>
        match report.outcome format with
        | ⟨text, some e⟩ => (⟨text, some e⟩, s.drop h)
        | ⟨text, none⟩ => destroyAfter text s h

end Needle.Program
