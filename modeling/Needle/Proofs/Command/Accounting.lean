import Needle.Proofs.Command.Files

/-!
# What a scan report accounts for

Every regular file that the walks met is scanned, skipped or told with an error, and so is every
place that a walk could not visit. The report is followed through both loops of a scan: over the
items of the walks, and over the files to scan.
-/
set_option autoImplicit false

namespace Needle

namespace WalkItem

def file? : WalkItem → Option (Path × Option Nat)
  | .visited path (.file size) => some (path, size)
  | _ => none

def failure? : WalkItem → Option FileReport
  | .failed e => some ⟨e.path, [], some e.text⟩
  | _ => none

end WalkItem

def isLarge (limit : Nat) (file : Path × Option Nat) : Bool := file.2.any (limit < ·)

theorem isLarge_of_le {limit size : Nat} (small : size ≤ limit) (path : Path) :
    isLarge limit (path, some size) = false := by
  simp [isLarge, small]

def filesAmong (items : List WalkItem) : List (Path × Option Nat) := items.filterMap WalkItem.file?

def filesToScan (limit : Nat) (items : List WalkItem) : List Path :=
  ((filesAmong items).filter fun file => !isLarge limit file).map Prod.fst

namespace ScanReport

/-- The counts of a report agree with what it tells, and it tells nothing idle. -/
structure Sound (r : ScanReport) : Prop where
  errors : r.errors = r.files.countP fun file => file.error.isSome
  matched : r.matched = r.files.countP fun file => !file.found.isEmpty
  tells : ∀ file ∈ r.files, file.found ≠ [] ∨ file.error ≠ none

/-- What a report on a scan accounts for: the items of the walks, where files above `limit` are
skipped and `outcome` is what comes of scanning a file. -/
structure Accounts (r : ScanReport) (limit : Nat) (items : List WalkItem)
    (outcome : Path → FileOutcome) : Prop extends Sound r where
  total : r.scanned + r.skipped + r.errors =
    (filesAmong items).length + (items.filterMap WalkItem.failure?).length
  skipped : r.skipped = (filesAmong items).countP (isLarge limit)
  scanned : r.scanned = (filesToScan limit items).countP fun path => (outcome path).succeeded
  /-- First what the walks could not visit, then the files: at most one entry for each. -/
  files : r.files = items.filterMap WalkItem.failure? ++
    (filesToScan limit items).filterMap fun path => (outcome path).report? path

theorem Sound.more {r after : ScanReport} (sound : r.Sound) {more : List FileReport}
    (files : after.files = r.files ++ more)
    (errors : after.errors = r.errors + more.countP fun file => file.error.isSome)
    (matched : after.matched = r.matched + more.countP fun file => !file.found.isEmpty)
    (tells : ∀ file ∈ more, file.found ≠ [] ∨ file.error ≠ none) : after.Sound where
  errors := by rw [errors, sound.errors, files, List.countP_append]
  matched := by rw [matched, sound.matched, files, List.countP_append]
  tells := by
    intro file member
    rw [files] at member
    rcases List.mem_append.mp member with old | new
    · exact sound.tells file old
    · exact tells file new

theorem sound_tell {r : ScanReport} (sound : r.Sound) (path : Path) (o : FileOutcome) :
    (r.tell path o).Sound := by
  obtain ⟨result, found⟩ := o
  have counts : ∀ file ∈ (FileOutcome.report? ⟨result, found⟩ path).toList,
      file.found ≠ [] ∨ file.error ≠ none := by
    cases result with
    | ok summary => cases found <;> simp [FileOutcome.report?]
    | error e => simp [FileOutcome.report?]
  refine sound.more rfl ?_ ?_ counts
  · cases result with
    | ok summary => cases found <;> simp [tell, FileOutcome.report?, FileOutcome.succeeded]
    | error e => simp [tell, FileOutcome.report?, FileOutcome.succeeded]
  · cases result with
    | ok summary => cases found <;> simp [tell, FileOutcome.report?]
    | error e => cases found <;> simp [tell, FileOutcome.report?]

structure Tells (r : ScanReport) (outcome : Path → FileOutcome) (paths : List Path)
    (after : ScanReport) : Prop where
  sound : after.Sound
  counted : after.scanned + after.errors = r.scanned + r.errors + paths.length
  scanned : after.scanned = r.scanned + paths.countP fun path => (outcome path).succeeded
  skipped : after.skipped = r.skipped
  files : after.files = r.files ++ paths.filterMap fun path => (outcome path).report? path

theorem tells_files {r : ScanReport} (sound : r.Sound) (outcome : Path → FileOutcome)
    (paths : List Path) :
    r.Tells outcome paths (paths.foldl (fun r path => r.tell path (outcome path)) r) := by
  induction paths generalizing r with
  | nil => exact ⟨sound, rfl, rfl, rfl, (List.append_nil _).symm⟩
  | cons path rest ih =>
      let next := r.tell path (outcome path)
      obtain ⟨last, counted, scanned, skipped, files⟩ := ih (sound_tell sound path (outcome path))
      have one : next.scanned = r.scanned + if (outcome path).succeeded then 1 else 0 := rfl
      have other : next.errors = r.errors + if (outcome path).succeeded then 0 else 1 := rfl
      have told : next.files = r.files ++ ((outcome path).report? path).toList := rfl
      refine ⟨last, ?_, ?_, skipped, ?_⟩
      · rw [List.foldl_cons, counted, one, other, List.length_cons]
        split
        · omega
        · omega
      · rw [List.foldl_cons, scanned, one, List.countP_cons]
        omega
      · rw [List.foldl_cons, files, told, List.append_assoc, List.filterMap_cons]
        cases (outcome path).report? path with
        | none => rfl
        | some file => rfl

end ScanReport

namespace Program

namespace Survey

def ofWalks (config : Config) (walks : List (Path × List WalkItem)) : Survey :=
  walks.foldl (fun s walk => walk.2.foldl (visit config.scan.maxFileSize walk.1) s) {}

/-- What a survey has found among the items visited so far. -/
structure Covers (s : Survey) (limit : Nat) (items : List WalkItem) : Prop where
  sound : s.report.Sound
  scanned : s.report.scanned = 0
  skipped : s.report.skipped = (filesAmong items).countP (isLarge limit)
  errors : s.report.errors = (items.filterMap WalkItem.failure?).length
  told : s.report.files = items.filterMap WalkItem.failure?
  files : s.files = filesToScan limit items

theorem Covers.visit {s : Survey} {limit : Nat} {items : List WalkItem}
    (covers : s.Covers limit items) (target : Path) (item : WalkItem) :
    (s.visit limit target item).Covers limit (items ++ [item]) := by
  obtain ⟨sound, scanned, skipped, errors, told, files⟩ := covers
  -- Directories and links are neither files nor failures, so no count changes.
  have idle (nothing : item.file? = none) (quiet : item.failure? = none) :
      s.Covers limit (items ++ [item]) := by
    refine ⟨sound, scanned, ?_, ?_, ?_, ?_⟩
    · simpa [filesAmong, nothing] using skipped
    · simpa [quiet] using errors
    · simpa [quiet] using told
    · simpa [filesToScan, filesAmong, nothing] using files
  cases item with
  | failed e =>
      have nothing : (WalkItem.failed e).file? = none := rfl
      have failure : (WalkItem.failed e).failure? = some ⟨e.path, [], some e.text⟩ := rfl
      unfold Survey.visit ScanReport.addFile
      refine ⟨sound.more rfl rfl rfl ?_, scanned, ?_, ?_, ?_, ?_⟩
      · simp
      · simpa [filesAmong, nothing] using skipped
      · simp [failure, errors]
      · simp [failure, told]
      · simpa [filesToScan, filesAmong, nothing] using files
  | visited path kind =>
      cases kind with
      | directory => exact idle rfl rfl
      | link => exact idle rfl rfl
      | file size =>
          have here : (WalkItem.visited path (.file size)).file? = some (path, size) := rfl
          have quiet : (WalkItem.visited path (.file size)).failure? = none := rfl
          unfold Survey.visit
          dsimp only
          split
          case isTrue large =>
            have large : isLarge limit (path, size) = true := large
            refine ⟨⟨sound.errors, sound.matched, sound.tells⟩, scanned, ?_, ?_, ?_, ?_⟩
            · simp [filesAmong, here, large, skipped]
            · simpa [quiet] using errors
            · simpa [quiet] using told
            · simpa [filesToScan, filesAmong, here, large] using files
          case isFalse small =>
            have small : isLarge limit (path, size) = false := Bool.eq_false_iff.mpr small
            refine ⟨sound, scanned, ?_, ?_, ?_, ?_⟩
            · simpa [filesAmong, here, small] using skipped
            · simpa [quiet] using errors
            · simpa [quiet] using told
            · simp [filesToScan, filesAmong, here, small, files]

theorem Covers.walk {s : Survey} {limit : Nat} {items : List WalkItem}
    (covers : s.Covers limit items) (target : Path) (more : List WalkItem) :
    (more.foldl (Survey.visit limit target) s).Covers limit (items ++ more) := by
  induction more generalizing s items with
  | nil =>
      rw [List.append_nil]
      exact covers
  | cons item rest ih =>
      rw [List.append_cons]
      exact ih (covers.visit target item)

theorem covers_ofWalks (config : Config) (walks : List (Path × List WalkItem)) :
    (ofWalks config walks).Covers config.scan.maxFileSize (walks.flatMap Prod.snd) := by
  have more {s : Survey} {items : List WalkItem} (covers : s.Covers config.scan.maxFileSize items) :
      (walks.foldl (fun s walk => walk.2.foldl (visit config.scan.maxFileSize walk.1) s) s).Covers
        config.scan.maxFileSize (items ++ walks.flatMap Prod.snd) := by
    induction walks generalizing s items with
    | nil =>
        rw [List.flatMap_nil, List.append_nil]
        exact covers
    | cons walk rest ih =>
        rw [List.flatMap_cons, ← List.append_assoc]
        exact ih (covers.walk walk.1 walk.2)
  have nothing : ({} : Survey).Covers config.scan.maxFileSize [] :=
    ⟨⟨rfl, rfl, fun _ member => absurd member List.not_mem_nil⟩, rfl, rfl, rfl, rfl, rfl⟩
  exact more nothing

end Survey

theorem maxFileSize_lt_iff (config : ScanConfig) {size : Nat} (fits : size < wordSize) :
    config.maxFileSize < size ↔ config.maxFileSizeMb.toNat * 1048576 < size := by
  unfold ScanConfig.maxFileSize
  omega

theorem isLarge_congr {limit other : Nat} {file : Path × Option Nat}
    (same : ∀ size, file.2 = some size → (limit < size ↔ other < size)) :
    isLarge limit file = isLarge other file := by
  unfold isLarge
  cases known : file.2 with
  | none => rfl
  | some size => exact decide_eq_decide.mpr (same size known)

/-- The limit is exact for every size that 64 bits can hold. -/
theorem isLarge_maxFileSize (config : ScanConfig) {walks : List (Path × List WalkItem)}
    (sizes : ∀ walk ∈ walks, ∀ path size, .visited path (.file (some size)) ∈ walk.2 →
      size < wordSize) :
    ∀ file ∈ filesAmong (walks.flatMap Prod.snd),
      isLarge config.maxFileSize file = isLarge (config.maxFileSizeMb.toNat * 1048576) file := by
  intro file member
  apply isLarge_congr
  intro size known
  apply maxFileSize_lt_iff
  obtain ⟨item, among, seen⟩ := List.mem_filterMap.mp member
  obtain ⟨walk, walked, here⟩ := List.mem_flatMap.mp among
  cases item with
  | failed e => contradiction
  | visited path kind =>
      cases kind with
      | directory => contradiction
      | link => contradiction
      | file given =>
          obtain rfl := Option.some.inj seen
          obtain rfl : given = some size := known
          exact sizes walk walked path size here

theorem length_filesAmong (limit : Nat) (items : List WalkItem) :
    (filesAmong items).length =
      (filesAmong items).countP (isLarge limit) + (filesToScan limit items).length := by
  unfold filesToScan
  rw [List.length_map, ← List.countP_eq_length_filter,
    List.length_eq_countP_add_countP (isLarge limit)]
  simp

def walksOf (config : Config) (request : ScanRequest) (files : FileTree) :
    List (Path × List WalkItem) :=
  let options : FileTree.WalkOptions :=
    ⟨config.scan.followSymlinks, if request.deep then none else some 1⟩
  request.targets.map fun target => (target, files.walkFrom options target)

/-- A scan takes the items of its walks as they are, and whatever they are, its report accounts for
them all. Sizes are numbers of 64 bits. -/
theorem scan_accounts (config : Config) (request : ScanRequest)
    (walks : List (Path × List WalkItem))
    (sizes : ∀ walk ∈ walks, ∀ path size, .visited path (.file (some size)) ∈ walk.2 →
      size < wordSize)
    (s : RuleSet) (options : ScanOptions) (h : Host) {patterns : List Pattern}
    (live : s.patterns? h = some patterns) (genuine : (h.engine s.slot).faults.Genuine) :
    (∀ files, survey config request files = Survey.ofWalks config (walksOf config request files)) ∧
    let found := Survey.ofWalks config walks
    let items := walks.flatMap Prod.snd
    let limit := config.scan.maxFileSizeMb.toNat * 1048576
    found.files = filesToScan limit items ∧
    ∃ report after, scanFiles s request options found.report h found.files = (.ok report, after) ∧
      report.Accounts limit items
        (fileOutcome request patterns (h.engine s.slot).faults.scans h.files) := by
  constructor
  · intro files
    unfold survey Survey.ofWalks walksOf
    rw [List.foldl_map]
  intro found items limit
  let outcome := fileOutcome request patterns (h.engine s.slot).faults.scans h.files
  have covers : found.Covers config.scan.maxFileSize items := Survey.covers_ofWalks config walks
  -- The survey goes by the limit that 64 bits can hold, the report by the exact one.
  have same : ∀ file ∈ filesAmong items,
      isLarge config.scan.maxFileSize file = isLarge limit file :=
    isLarge_maxFileSize config.scan sizes
  have skipped : found.report.skipped = (filesAmong items).countP (isLarge limit) := by
    rw [covers.skipped]
    exact List.countP_congr fun file member => by rw [same file member]
  have files : found.files = filesToScan limit items := by
    rw [covers.files]
    unfold filesToScan
    exact congrArg _ (List.filter_congr fun file member => by rw [same file member])
  obtain ⟨after, scanned, _⟩ := scanFiles_eq s request options live genuine.scan found.files
    found.report
  let report := found.files.foldl (fun report path => report.tell path (outcome path)) found.report
  have tells : found.report.Tells outcome found.files report :=
    ScanReport.tells_files covers.sound outcome found.files
  have total : report.scanned + report.skipped + report.errors =
      (filesAmong items).length + (items.filterMap WalkItem.failure?).length := by
    rw [length_filesAmong limit items, ← files, ← skipped, ← covers.errors]
    have counted := tells.counted
    have still := tells.skipped
    have nothing := covers.scanned
    omega
  refine ⟨files, report, after, scanned, tells.sound, total, tells.skipped.trans skipped, ?_, ?_⟩
  · rw [tells.scanned, covers.scanned, files, Nat.zero_add]
  · rw [tells.files, files, covers.told]

/-- One file is just above the limit, one is not, and the size of a third is unknown. -/
theorem scan_accounts_of_given_items :
    let patterns : List Pattern := [⟨"ns", "rule", "x", [], []⟩]
    let h : Host := {
      files := ⟨[], []⟩
      tempDir := .ofText ""
      engines := [{ engine := (Engine.addRuleSet {} patterns).2, holders := 2 }] }
    let s : RuleSet := ⟨0, 1, {}⟩
    let config : Config := { scan := { maxFileSizeMb := 1 } }
    let request : ScanRequest := ⟨.saved (.ofText "rules"), [], false, false, none, false, none⟩
    let items : List WalkItem := [
      .visited (.ofText "a") .directory,
      .visited (.ofText "a/large") (.file (some 1048577)),
      .visited (.ofText "a/small") (.file (some 1048576)),
      .failed (.loop (.ofText "a") (.ofText "a/link")),
      .visited (.ofText "a/hidden") (.file none)]
    let found := Survey.ofWalks config [(.ofText "a", items)]
    ∃ report after, scanFiles s request {} found.report h found.files = (.ok report, after) ∧
      report.skipped = 1 ∧ report.scanned + report.errors = 3 ∧
      report.files.head?.map FileReport.path = some (.ofText "a/link") := by
  intro patterns h s config request items found
  have sizes : ∀ walk ∈ [(Path.ofText "a", items)], ∀ path size,
      .visited path (.file (some size)) ∈ walk.2 → size < wordSize := by
    intro walk member path size among
    obtain rfl := List.mem_singleton.mp member
    simp only [items, List.mem_cons, WalkItem.visited.injEq, WalkKind.file.injEq,
      Option.some.injEq] at among
    unfold wordSize
    rcases among with ⟨_, other⟩ | ⟨_, rfl⟩ | ⟨_, rfl⟩ | other | ⟨_, other⟩ | other
    · contradiction
    · omega
    · omega
    · contradiction
    · contradiction
    · contradiction
  obtain ⟨_, _, report, after, scanned, accounts⟩ := scan_accounts config request
    [(.ofText "a", items)] sizes s {} h (rfl : _ = some patterns) rfl
  have skipped : report.skipped = 1 := accounts.skipped.trans (by decide +kernel)
  have total : report.scanned + report.skipped + report.errors = 3 + 1 := accounts.total
  refine ⟨report, after, scanned, skipped, by omega, ?_⟩
  rw [accounts.files]
  rfl

end Program

end Needle
