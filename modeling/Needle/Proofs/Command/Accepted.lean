import Mathlib.Data.List.Forall2
import Needle.Proofs.Command.Meaning

/-!
# Command lines that are accepted

A command line that is accepted is a line of verbs with what is given to them, and its command is
the command of the last verb. What that command works with is what was given to the verb, one by
one and in the order in which it was given, and nothing that the command needs is missing.
-/
set_option autoImplicit false

namespace Needle

open Line

def Giving.of (key : Key) (givings : List Giving) : List (Option Bytes) :=
  (givings.filter (·.key = key)).map Giving.value

namespace Given

variable {A : Type} {value : Bytes → Except Usage A} {g next : Given} {key other : Key}
  {raws : List (Option Bytes)} {raw : Option Bytes}

def Spells (value : Bytes → Except Usage A) (raw : Option Bytes) (read : A) : Prop :=
  ∃ bytes, raw = some bytes ∧ value bytes = .ok read

/-- What is held for a key is all that has been given for it, in order. -/
def Holds (g : Given) (raws : List (Option Bytes)) : Key → Prop
  | .help | .version => raws = []
  | .verbose => raws.length = g.verbose.toNat
  | .format => List.Forall₂ (Spells formatValue) raws g.format.toList
  | .config => List.Forall₂ (Spells pathValue) raws g.config.toList
  | .rules => List.Forall₂ (Spells textValue) raws g.rules
  | .ns => List.Forall₂ (Spells textValue) raws g.ns.toList
  | .output => List.Forall₂ (Spells pathValue) raws g.output.toList
  | .compiled => List.Forall₂ (Spells pathValue) raws g.compiled.toList
  | .targets => List.Forall₂ (Spells pathValue) raws g.targets
  | .deep => raws.length = g.deep.toNat
  | .fast => raws.length = g.fast.toNat
  | .timeout => List.Forall₂ (Spells secondsValue) raws g.timeout.toList
  | .firstMatch => raws.length = g.firstMatch.toNat
  | .tag => List.Forall₂ (Spells textValue) raws g.tag.toList
  | .confirmed => raws.length = g.confirmed.toNat

theorem holds_empty (key : Key) : ({} : Given).Holds [] key := by
  cases key <;> first | rfl | exact .nil

theorem holds_flag {old new : Bool} (taken : flag old = .ok new) (held : raws.length = old.toNat)
    (raw : Option Bytes) : (raws ++ [raw]).length = new.toNat := by
  cases old with
  | true => contradiction
  | false =>
      obtain rfl := Except.ok.inj taken
      rw [List.length_append, held]
      rfl

theorem holds_single {old new : Option A} (taken : single old value raw.toList = .ok new)
    (held : List.Forall₂ (Spells value) raws old.toList) :
    List.Forall₂ (Spells value) (raws ++ [raw]) new.toList := by
  cases raw with
  | none => contradiction
  | some bytes =>
      cases old with
      | some a => contradiction
      | none =>
          obtain ⟨a, read, rfl⟩ := map_eq_ok_iff.mp taken
          obtain rfl := List.forall₂_nil_right_iff.mp held
          exact .cons ⟨bytes, rfl, read⟩ .nil

theorem holds_more {old new : List A} (taken : more old value raw.toList = .ok new)
    (held : List.Forall₂ (Spells value) raws old) :
    List.Forall₂ (Spells value) (raws ++ [raw]) new := by
  cases raw with
  | none => contradiction
  | some bytes =>
      obtain ⟨all, each, rfl⟩ := map_eq_ok_iff.mp taken
      rw [Option.toList_some, List.mapM_cons, List.mapM_nil] at each
      obtain ⟨a, read, same⟩ := bind_eq_ok_iff.mp each
      obtain rfl := Except.ok.inj same
      exact List.rel_append held (.cons ⟨bytes, rfl, read⟩ .nil)

theorem holds_own (taken : g.take raw.toList key = .ok next) (held : g.Holds raws key) :
    next.Holds (raws ++ [raw]) key := by
  cases key
  case help | version => contradiction
  case verbose | deep | fast | firstMatch | confirmed =>
    obtain ⟨new, set, rfl⟩ := map_eq_ok_iff.mp taken
    exact holds_flag set held raw
  case format | config | ns | output | compiled | timeout | tag =>
    obtain ⟨new, set, rfl⟩ := map_eq_ok_iff.mp taken
    exact holds_single set held
  case rules | targets =>
    obtain ⟨new, set, rfl⟩ := map_eq_ok_iff.mp taken
    exact holds_more set held

theorem holds_other (taken : g.take raw.toList other = .ok next) (apart : other ≠ key)
    (held : g.Holds raws key) : next.Holds raws key := by
  cases other
  case help | version => contradiction
  -- what is taken over is the field of one key, and `key` is another
  all_goals
    obtain ⟨new, -, rfl⟩ := map_eq_ok_iff.mp taken
    cases key <;> first | exact held | contradiction

theorem holds_all {givings : List Giving} (taken : g.takeAll givings = .ok next)
    (held : g.Holds raws key) : next.Holds (raws ++ Giving.of key givings) key := by
  induction givings generalizing g raws with
  | nil =>
      obtain rfl := Except.ok.inj taken
      exact (List.append_nil raws).symm ▸ held
  | cons giving rest ih =>
      obtain ⟨after, first, later⟩ := bind_eq_ok_iff.mp taken
      by_cases own : giving.key = key
      · subst own
        have spread : raws ++ Giving.of giving.key (giving :: rest) =
            raws ++ [giving.value] ++ Giving.of giving.key rest := by
          simp [Giving.of]
        rw [spread]
        exact ih later (holds_own first held)
      · have skipped : Giving.of key (giving :: rest) = Giving.of key rest := by
          simp [Giving.of, own]
        rw [skipped]
        exact ih later (holds_other first own held)

theorem spells_text_iff {text : String} :
    Spells textValue raw text ↔ raw.bind Utf8.decode? = some text := by
  rw [Option.bind_eq_some_iff]
  refine exists_congr fun bytes => and_congr_right fun _ => ?_
  unfold textValue
  cases Utf8.decode? bytes with
  | none => exact iff_of_false nofun nofun
  | some read =>
      constructor
      · exact fun same => congrArg some (Except.ok.inj same)
      · exact fun same => congrArg Except.ok (Option.some.inj same)

theorem spells_path_iff {path : Path} :
    Spells pathValue raw path ↔ raw = some path.bytes ∧ path.bytes ≠ [] := by
  constructor
  · rintro ⟨bytes, rfl, read⟩
    unfold pathValue at read
    split at read
    case isTrue => contradiction
    case isFalse filled =>
      obtain rfl := Except.ok.inj read
      exact ⟨rfl, mt List.isEmpty_iff.mpr filled⟩
  · rintro ⟨rfl, filled⟩
    exact ⟨path.bytes, rfl, if_neg (mt List.isEmpty_iff.mp filled)⟩

theorem paths_of_spells {paths : List Path} (held : List.Forall₂ (Spells pathValue) raws paths) :
    raws = paths.map (some ·.bytes) ∧ ∀ path ∈ paths, path.bytes ≠ [] := by
  induction held with
  | nil => exact ⟨rfl, nofun⟩
  | cons spelled _ ih =>
      obtain ⟨rfl, filled⟩ := spells_path_iff.mp spelled
      exact ⟨congrArg _ ih.1, List.forall_mem_cons.mpr ⟨filled, ih.2⟩⟩

end Given

/-! ## The last verb -/

namespace Line

variable {v : Verb} {g : Given} {line : Line} {request : Request}

def verb : Line → Verb
  | last v _ => v
  | before _ _ inner => inner.verb

def givings : Line → List Giving
  | last _ givings => givings
  | before _ _ inner => inner.givings

/-- Only verbs that have others after them are followed by one. -/
def Nested : Line → Prop
  | last _ _ => True
  | before v _ inner => v.verbs ≠ [] ∧ inner.Nested

theorem nested_add (nested : line.Nested) (givings : List Giving) : (line.add givings).Nested := by
  cases line with
  | last v later => exact nested
  | before v later inner => exact nested

theorem nested_of_reads {words : List Bytes} (spelled : Reads v words line) : line.Nested := by
  induction spelled with
  | done | divider | literal => exact trivial
  | word _ _ ih => exact nested_add ih _
  | pair _ _ _ ih => exact nested_add ih _
  | verb named _ ih => exact ⟨List.ne_nil_of_mem named, ih⟩

theorem command_of_config {command : Option Command} : g.command none .config ≠ .ok command := by
  intro judged
  dsimp only [Given.command] at judged
  rw [Option.isSome_none, if_neg Bool.false_ne_true] at judged
  split at judged
  · contradiction
  · contradiction

theorem command_of_outer {asked command : Option Command} (outer : v.verbs ≠ [])
    (judged : g.command asked v = .ok command) : command = asked := by
  cases v
  case program => exact (Except.ok.inj judged).symm
  case config =>
    cases asked with
    | some inner => exact (Except.ok.inj judged).symm
    | none => exact absurd judged command_of_config
  all_goals exact absurd rfl outer

/-- The command of a line is the command of its last verb. -/
theorem command_of_request (nested : line.Nested) (asks : line.request {} = .ok request) :
    ∃ g, ({} : Given).takeAll line.givings = .ok g ∧
      g.command none line.verb = .ok request.command := by
  induction line generalizing request with
  | last v givings =>
      obtain ⟨g, taken, judged⟩ := bind_eq_ok_iff.mp asks
      obtain ⟨command, own, rfl⟩ := map_eq_ok_iff.mp judged
      exact ⟨g, taken, own⟩
  | before v givings inner ih =>
      obtain ⟨g, -, rest⟩ := bind_eq_ok_iff.mp asks
      obtain ⟨asked, inside, judged⟩ := bind_eq_ok_iff.mp rest
      obtain ⟨command, own, rfl⟩ := map_eq_ok_iff.mp judged
      obtain rfl := command_of_outer nested.1 own
      have found := ih nested.2 inside
      exact found

end Line

/-! ## Commands -/

def RulesGiven (givings : List Giving) (rules : List String) : Prop :=
  rules ≠ [] ∧ List.Forall₂ (fun raw rule => raw.bind Utf8.decode? = some rule)
    (Giving.of .rules givings) rules

/-- The rules of a scan are all from one origin, and nothing is given for the other. -/
def RuleOrigin.Complete (givings : List Giving) : RuleOrigin → Prop
  | .sources rules => RulesGiven givings rules ∧ Giving.of .compiled givings = []
  | .saved path => path.bytes ≠ [] ∧ Giving.of .compiled givings = [some path.bytes] ∧
      Giving.of .rules givings = []

/-- A scan has targets, all that are given, in order, and its rules. -/
structure ScanRequest.Complete (givings : List Giving) (request : ScanRequest) : Prop where
  some : request.targets ≠ []
  filled : ∀ target ∈ request.targets, target.bytes ≠ []
  inOrder : Giving.of .targets givings = request.targets.map fun target => .some target.bytes
  origin : request.origin.Complete givings

/-- A command of a verb has what it needs from what is given to the verb. -/
def Command.Complete (v : Verb) (givings : List Giving) : Option Command → Prop
  | none => v = .program
  | some (.compile rules _ output) => v = .compile ∧ RulesGiven givings rules ∧
      output.bytes ≠ [] ∧ Giving.of .output givings = [some output.bytes]
  | some (.scan request) => v = .scan ∧ request.Complete givings
  | some (.check rules) => v = .check ∧ RulesGiven givings rules
  | some (.config .display) => v = .configShow
  | some (.config (.reset _)) => v = .configReset
  | some (.config .path) => v = .configPath
  | some .info => v = .info

namespace Given

variable {g : Given} {givings : List Giving}

theorem rulesGiven (held : ∀ key, g.Holds (Giving.of key givings) key) (some : g.rules ≠ []) :
    RulesGiven givings g.rules :=
  ⟨some, (held .rules).imp fun _ _ => spells_text_iff.mp⟩

theorem scan_cases {request : ScanRequest} (judged : g.scan = .ok request) :
    request.targets = g.targets ∧ g.targets ≠ [] ∧
      ((request.origin = .sources g.rules ∧ g.rules ≠ [] ∧ g.compiled = none) ∨
        ∃ path, request.origin = .saved path ∧ g.rules = [] ∧ g.compiled = some path) := by
  unfold scan at judged
  dsimp only at judged
  cases saved : g.compiled with
  | some path =>
      rw [saved] at judged
      dsimp only at judged
      split at judged
      case isFalse => contradiction
      case isTrue unnamed =>
        split at judged
        case isTrue => contradiction
        case isFalse aimed =>
          obtain rfl := Except.ok.inj judged
          exact ⟨rfl, mt List.isEmpty_iff.mpr aimed,
            .inr ⟨path, rfl, List.isEmpty_iff.mp unnamed, rfl⟩⟩
  | none =>
      rw [saved] at judged
      dsimp only at judged
      split at judged
      case isTrue => contradiction
      case isFalse named =>
        split at judged
        case isTrue => contradiction
        case isFalse aimed =>
          obtain rfl := Except.ok.inj judged
          exact ⟨rfl, mt List.isEmpty_iff.mpr aimed,
            .inl ⟨rfl, mt List.isEmpty_iff.mpr named, rfl⟩⟩

theorem complete_of_scan (held : ∀ key, g.Holds (Giving.of key givings) key)
    {request : ScanRequest} (judged : g.scan = .ok request) : request.Complete givings := by
  obtain ⟨inOrder, filled⟩ := paths_of_spells (held .targets)
  obtain ⟨saved, whole⟩ := paths_of_spells (held .compiled)
  have named := held .rules
  obtain ⟨same, aimed, ⟨origin, some, unsaved⟩ | ⟨path, origin, unnamed, given⟩⟩ :=
    scan_cases judged
  · refine ⟨same ▸ aimed, same ▸ filled, same ▸ inOrder, ?_⟩
    rw [origin]
    refine ⟨rulesGiven held some, ?_⟩
    rw [saved, unsaved]
    rfl
  · refine ⟨same ▸ aimed, same ▸ filled, same ▸ inOrder, ?_⟩
    rw [given] at saved whole
    rw [origin]
    refine ⟨whole path List.mem_cons_self, saved, ?_⟩
    simp only [Holds, unnamed] at named
    exact List.forall₂_nil_right_iff.mp named

theorem complete_of_command {v : Verb} {command : Option Command}
    (held : ∀ key, g.Holds (Giving.of key givings) key) (judged : g.command none v = .ok command) :
    Command.Complete v givings command := by
  cases v with
  | program =>
      obtain rfl := Except.ok.inj judged
      rfl
  | compile =>
      dsimp only [Given.command] at judged
      split at judged
      case h_1 rule rules output named saved =>
        obtain rfl := Except.ok.inj judged
        have some : g.rules ≠ [] := named ▸ List.cons_ne_nil rule rules
        obtain ⟨given, filled⟩ := paths_of_spells (held .output)
        rw [saved] at given filled
        exact ⟨rfl, rulesGiven held some, filled output List.mem_cons_self, given⟩
      case h_2 => contradiction
  | scan =>
      obtain ⟨request, scans, rfl⟩ := map_eq_ok_iff.mp judged
      exact ⟨rfl, complete_of_scan held scans⟩
  | check =>
      dsimp only [Given.command] at judged
      split at judged
      case isTrue => contradiction
      case isFalse named =>
        obtain rfl := Except.ok.inj judged
        exact ⟨rfl, rulesGiven held (mt List.isEmpty_iff.mpr named)⟩
  | config => exact absurd judged Line.command_of_config
  | configShow | configReset | configPath | info =>
      obtain rfl := Except.ok.inj judged
      rfl

end Given

/-- Every command line that is accepted can be read as a line, and however it is read, its command
has what it needs from what is given to the last verb. -/
theorem Request.complete_of_accepted {arguments : List Bytes} {request : Request}
    (accepted : Request.ofArguments arguments = .ok request) :
    (∃ line, Line.Reads .program arguments line) ∧
      ∀ line, Line.Reads .program arguments line →
        Command.Complete line.verb line.givings request.command := by
  obtain ⟨line, spelled, -⟩ := ofArguments_eq_ok_iff.mp accepted
  refine ⟨⟨line, spelled⟩, fun line spelled => ?_⟩
  have asks := (ofArguments_of_reads spelled request).mp accepted
  obtain ⟨g, taken, judged⟩ := Line.command_of_request (Line.nested_of_reads spelled) asks
  exact Given.complete_of_command (fun key => Given.holds_all taken (Given.holds_empty key)) judged

/-- Switches that share a dash, a value behind `=`, and what follows `--`. -/
theorem Request.complete_of_accepted_scan :
    ofArguments (["scan", "-Rr", "b.yar", "t", "--rules=a.yar", "--", "-x"].map Utf8.encode) =
        .ok ⟨false, none, none, some (.scan ⟨.sources ["b.yar", "a.yar"],
          [.ofText "t", .ofText "-x"], true, false, none, false, none⟩)⟩ ∧
      ∀ line, Line.Reads .program
          (["scan", "-Rr", "b.yar", "t", "--rules=a.yar", "--", "-x"].map Utf8.encode) line →
        Giving.of .targets line.givings = [some (Utf8.encode "t"), some (Utf8.encode "-x")] := by
  refine (and_iff_left_of_imp ?_).mpr (by decide +kernel)
  intro accepted line spelled
  obtain ⟨-, complete⟩ := (complete_of_accepted accepted).2 line spelled
  exact complete.inOrder

end Needle
