import Needle.Proofs.Command.Words

/-!
# Reading a command line

The values of an argument are taken over late, but in the end what has been given is what comes of
taking one argument after the other. So the reading of words is the meaning of the line that they
make up, and words that are accepted make one up.
-/
set_option autoImplicit false

namespace Needle

open Line

def Given.takeAll (g : Given) (givings : List Giving) : Except Usage Given :=
  givings.foldlM (fun g giving => g.take giving.value.toList giving.key) g

def Line.request (g : Given) : Line → Except Usage Request
  | last v givings => (g.takeAll givings).bind fun g => g.request v {}
  | before v givings inner =>
    (g.takeAll givings).bind fun g => (inner.request {}).bind fun request => g.request v request

theorem bind_eq_ok_iff {A B : Type} {x : Except Usage A} {next : A → Except Usage B} {b : B} :
    x.bind next = .ok b ↔ ∃ a, x = .ok a ∧ next a = .ok b := by
  cases x with
  | error fault => exact iff_of_false nofun nofun
  | ok a => exact ⟨fun goes => ⟨a, rfl, goes⟩, fun ⟨_, same, goes⟩ => Except.ok.inj same ▸ goes⟩

theorem map_eq_ok_iff {A B : Type} {x : Except Usage A} {f : A → B} {b : B} :
    x.map f = .ok b ↔ ∃ a, x = .ok a ∧ f a = b := by
  cases x with
  | error fault => exact iff_of_false nofun nofun
  | ok a =>
      refine ⟨fun goes => ⟨a, rfl, Except.ok.inj goes⟩, ?_⟩
      rintro ⟨_, same, rfl⟩
      obtain rfl := Except.ok.inj same
      rfl

theorem Given.takeAll_append (g : Given) (first later : List Giving) :
    g.takeAll (first ++ later) = (g.takeAll first).bind (·.takeAll later) :=
  List.foldlM_append

theorem Given.takeAll_single (g : Given) (giving : Giving) :
    g.takeAll [giving] = g.take giving.value.toList giving.key := by
  rw [takeAll, List.foldlM_cons]
  exact bind_pure _

theorem Line.request_add (g : Given) (givings : List Giving) (line : Line) :
    (line.add givings).request g = (g.takeAll givings).bind (line.request ·) := by
  cases line with
  | last v later =>
      rw [add, request, Given.takeAll_append]
      cases g.takeAll givings <;> rfl
  | before v later inner =>
      rw [add, request, Given.takeAll_append]
      cases g.takeAll givings <;> rfl

namespace LineState

variable {v : Verb} {s : LineState} {key : Key} {word : Bytes}

/-- What has been given, with the values that have not been taken over yet. -/
def settled (s : LineState) : Except Usage Given :=
  match s.pending with
  | none => .ok s.given
  | some (key, raws) => s.given.take raws key

theorem settle_eq (s : LineState) :
    s.settle = s.settled.map fun g => ⟨g, none, s.literal⟩ := by
  obtain ⟨given, pending, literal⟩ := s
  cases pending with
  | none => rfl
  | some waiting => rfl

theorem apply_eq (s : LineState) (key : Key) (raws : List Bytes) :
    s.apply key raws = (s.settled.bind (·.take raws key)).map fun g => ⟨g, none, s.literal⟩ := by
  unfold apply
  rw [settle_eq]
  cases s.settled with
  | error fault => rfl
  | ok g =>
      show (g.take raws key).bind _ = (g.take raws key).map _
      cases g.take raws key <;> rfl

theorem await_eq (s : LineState) (key : Key) :
    s.await key = s.settled.map fun g => ⟨g, some (key, []), s.literal⟩ := by
  unfold await
  rw [settle_eq]
  cases s.settled <;> rfl

theorem close_eq (s : LineState) (v : Verb) (inner : Request) :
    s.close v inner = s.settled.bind fun g => g.request v inner := by
  unfold close
  rw [settle_eq]
  cases s.settled <;> rfl

/-- The next word may begin an argument. -/
structure Open (s : LineState) : Prop where
  begins : s.waiting? = none
  switches : s.literal = false

theorem Open.opensVerbs (opens : s.Open) : s.opensVerbs = true := by
  unfold LineState.opensVerbs
  rw [opens.switches, opens.begins]
  rfl

theorem opensVerbs_of_waiting (waits : s.waiting? = some key) : s.opensVerbs = false := by
  unfold opensVerbs
  rw [waits]
  exact Bool.and_false _

theorem opensVerbs_of_literal (literal : s.literal = true) : s.opensVerbs = false := by
  unfold opensVerbs
  rw [literal]
  rfl

/-! ## Positional arguments -/

/-- Values of an argument may be taken over together or one by one. -/
theorem more_append {A : Type} (old : List A) (value : Bytes → Except Usage A) {raws : List Bytes}
    (some : raws ≠ []) (raw : Bytes) :
    Given.more old value (raws ++ [raw]) =
      (Given.more old value raws).bind fun l => Given.more l value [raw] := by
  unfold Given.more
  rw [if_neg (by simp), if_neg (mt List.isEmpty_iff.mp some), List.mapM_append]
  cases raws.mapM value with
  | error fault => rfl
  | ok read =>
      show ([raw].mapM value >>= fun last => pure (read ++ last)).map (old ++ ·) =
        ([raw].mapM value).map (old ++ read ++ ·)
      cases [raw].mapM value with
      | error fault => rfl
      | ok last => exact congrArg Except.ok (List.append_assoc old read last).symm

theorem take_append (takes : v.positional? = some key) (g : Given) {raws : List Bytes}
    (some : raws ≠ []) (raw : Bytes) :
    g.take (raws ++ [raw]) key = (g.take raws key).bind (·.take [raw] key) := by
  rcases Verb.positional_cases takes with rfl | rfl
  · rw [Given.take, Given.take, more_append g.rules Given.textValue some]
    cases Given.more g.rules Given.textValue raws with
    | error fault => rfl
    | ok read => rfl
  · rw [Given.take, Given.take, more_append g.targets Given.pathValue some]
    cases Given.more g.targets Given.pathValue raws with
    | error fault => rfl
    | ok read => rfl

/-- A positional argument is taken over when the next argument of another kind comes. -/
theorem readPositional_settled (takes : v.positional? = some key) (begins : s.waiting? = none)
    (word : Bytes) :
    (s.readPositional v word).bind settled = s.settled.bind (·.take [word] key) ∧
      ∀ next, s.readPositional v word = .ok next →
        next.waiting? = none ∧ next.literal = s.literal := by
  obtain ⟨given, pending, literal⟩ := s
  unfold readPositional
  rw [takes]
  cases pending with
  | none =>
      refine ⟨rfl, fun next read => ?_⟩
      cases read
      exact ⟨rfl, rfl⟩
  | some held =>
      obtain ⟨k, raws⟩ := held
      have some : raws ≠ [] := by
        rintro rfl
        contradiction
      dsimp only
      by_cases same : k = key
      · -- the words of one argument are kept together until another comes
        subst same
        rw [if_pos rfl]
        refine ⟨take_append takes given some word, fun next read => ?_⟩
        cases read
        refine ⟨?_, rfl⟩
        cases raws with
        | nil => contradiction
        | cons raw more => rfl
      · rw [if_neg same, settle_eq]
        cases settled ⟨given, .some (k, raws), literal⟩ with
        | error fault =>
            refine ⟨rfl, fun next read => ?_⟩
            have read : Except.error fault = .ok next := read
            contradiction
        | ok g =>
            refine ⟨rfl, fun next read => ?_⟩
            obtain rfl := Except.ok.inj read
            exact ⟨rfl, rfl⟩

theorem positional_of_readPositional {next : LineState}
    (read : s.readPositional v word = .ok next) : ∃ key, v.positional? = some key := by
  unfold readPositional at read
  split at read
  case h_1 key takes => exact ⟨key, takes⟩
  case h_2 =>
    split at read
    · contradiction
    · contradiction

/-! ## Switches -/

theorem readCluster_flag {letter : UInt8} {sw : Switch} (own : sw ∈ v.switches)
    (named : IsLetter letter sw) (stands : sw.takesValue = false) (s : LineState) (rest : Bytes) :
    s.readCluster v (letter :: rest) = (s.apply sw.key []).bind fun s => s.readCluster v rest := by
  rw [readCluster, Verb.switchOf_eq_some_iff.mpr ⟨own, named⟩]
  dsimp only
  rw [stands, if_neg Bool.false_ne_true]

theorem readCluster_value {letter : UInt8} {sw : Switch} (own : sw ∈ v.switches)
    (named : IsLetter letter sw) (takes : sw.takesValue = true) (s : LineState) (rest : Bytes) :
    s.readCluster v (letter :: rest) =
      match rest with
      | [] => s.await sw.key
      | b :: value => s.apply sw.key [if b = Shape.equals then value else b :: value] := by
  rw [readCluster, Verb.switchOf_eq_some_iff.mpr ⟨own, named⟩]
  dsimp only
  rw [takes, if_pos rfl]
  cases rest <;> rfl

theorem apply_giving (s : LineState) (giving : Giving) :
    s.apply giving.key giving.value.toList =
      (s.settled.bind (·.takeAll [giving])).map fun g => ⟨g, none, s.literal⟩ := by
  rw [apply_eq]
  simp only [Given.takeAll_single]

theorem readCluster_eq {letters : Bytes} {givings : List Giving} {awaited : Option Key}
    (spelled : Letters v letters givings awaited) (s : LineState)
    (some : letters ≠ [] ∨ s.pending = none) :
    s.readCluster v letters = (s.settled.bind (·.takeAll givings)).map
      fun g => ⟨g, awaited.map (·, []), s.literal⟩ := by
  induction spelled generalizing s with
  | none =>
      obtain ⟨given, pending, literal⟩ := s
      obtain rfl : pending = none := some.resolve_left fun nil => nil rfl
      rfl
  | @flag sw letter rest givings awaited own named stands more ih =>
      rw [readCluster_flag own named stands, apply_eq]
      cases s.settled with
      | error fault => rfl
      | ok g =>
          show ((g.take [] sw.key).map _).bind _ =
            ((g.take [] sw.key).bind (·.takeAll givings)).map _
          cases g.take [] sw.key with
          | error fault => rfl
          | ok g => exact ih ⟨g, none, s.literal⟩ (.inr rfl)
  | awaits own named takes =>
      rw [readCluster_value own named takes, await_eq]
      cases s.settled <;> rfl
  | @joined sw letter first value own named takes apart =>
      rw [readCluster_value own named takes]
      dsimp only
      rw [if_neg apart]
      exact s.apply_giving ⟨sw.key, .some (first :: value)⟩
  | @assigned sw letter value own named takes =>
      rw [readCluster_value own named takes]
      dsimp only
      rw [if_pos rfl]
      exact s.apply_giving ⟨sw.key, .some value⟩

theorem readLong_eq {sw : Switch} (own : sw ∈ v.switches) (s : LineState) (value : Option Bytes) :
    s.readLong v (Utf8.encode sw.long) value =
      match sw.takesValue, value with
      | true, some raw => s.apply sw.key [raw]
      | true, none => s.await sw.key
      | false, some _ => .error .surplusValue
      | false, none => s.apply sw.key [] := by
  rewrite [readLong, Verb.find?_long own]
  rfl

/-! ## Words -/

variable {givings : List Giving} {awaited : Option Key}

/-- A word is positional, or its switches are taken over and the last may wait for its value. -/
theorem readWord_eq (switches : s.literal = false) (spelled : Word v word givings awaited) :
    (∃ key, v.positional? = some key ∧ Loose word ∧ givings = [⟨key, some word⟩] ∧
        awaited = none) ∨
      s.readWord v word = (s.settled.bind (·.takeAll givings)).map
        fun g => ⟨g, awaited.map (·, []), s.literal⟩ := by
  have nonliteral : ¬s.literal = true := by simp [switches]
  cases spelled with
  | positional loose takes => exact .inl ⟨_, takes, loose, rfl, rfl⟩
  | @flag sw own stands =>
      obtain ⟨some, free⟩ := Verb.long_spelled own
      right
      rw [readWord, if_neg nonliteral, Shape.ofWord_flag some free]
      dsimp only
      rw [readLong_eq own, stands]
      exact s.apply_giving ⟨sw.key, none⟩
  | @awaits sw own takes =>
      obtain ⟨some, free⟩ := Verb.long_spelled own
      right
      rw [readWord, if_neg nonliteral, Shape.ofWord_flag some free]
      dsimp only
      rw [readLong_eq own, takes]
      dsimp only
      rw [await_eq]
      cases s.settled <;> rfl
  | @assigned sw value own takes =>
      obtain ⟨some, free⟩ := Verb.long_spelled own
      right
      rw [readWord, if_neg nonliteral, Shape.ofWord_assigned free]
      dsimp only
      rw [readLong_eq own, takes]
      exact s.apply_giving ⟨sw.key, .some value⟩
  | letters spelled =>
      right
      rw [readWord, if_neg nonliteral, Shape.ofWord_letters spelled.ne_dash]
      exact readCluster_eq spelled s (.inl (List.cons_ne_nil _ _))

theorem readWord_divider (switches : s.literal = false) :
    s.readWord v [Shape.dash, Shape.dash] = .ok ⟨s.given, s.pending, true⟩ := by
  rw [readWord, switches]
  rfl

theorem readWord_whole (opens : s.Open) (spelled : Word v word givings none) :
    (s.readWord v word).bind settled = s.settled.bind (·.takeAll givings) ∧
      ∀ next, s.readWord v word = .ok next → next.Open := by
  rcases readWord_eq opens.switches spelled with ⟨key, takes, loose, rfl, -⟩ | read
  · have read : s.readWord v word = s.readPositional v word := by
      rw [readWord, opens.switches, if_neg Bool.false_ne_true, Shape.ofWord_of_loose loose]
      dsimp only
      rw [opens.begins]
    obtain ⟨settles, remains⟩ := readPositional_settled takes opens.begins word
    rw [read]
    refine ⟨?_, fun next given => ?_⟩
    · rw [settles]
      simp only [Given.takeAll_single]
      rfl
    · obtain ⟨begins, same⟩ := remains next given
      exact ⟨begins, same.trans opens.switches⟩
  · rw [read]
    refine ⟨?_, fun next given => ?_⟩
    · cases s.settled.bind (·.takeAll givings) <;> rfl
    · obtain ⟨g, -, rfl⟩ := map_eq_ok_iff.mp given
      exact ⟨rfl, opens.switches⟩

theorem waiting_of_readWord (switches : s.literal = false)
    (spelled : Word v word givings (some key)) {next : LineState}
    (read : s.readWord v word = .ok next) : next.waiting? = some key ∧ next.literal = false := by
  rcases readWord_eq switches spelled with ⟨_, _, _, _, none⟩ | same
  · contradiction
  · rw [same] at read
    obtain ⟨g, -, rfl⟩ := map_eq_ok_iff.mp read
    exact ⟨rfl, switches⟩

/-- A word whose last switch waits, and its value. -/
theorem readWord_pair (opens : s.Open) (spelled : Word v word givings (some key)) {value : Bytes}
    (loose : Loose value) :
    ((s.readWord v word).bind fun s => s.readWord v value) =
      (s.settled.bind (·.takeAll givings)).map fun g => ⟨g, some (key, [value]), false⟩ := by
  rcases readWord_eq opens.switches spelled with ⟨_, _, _, _, none⟩ | read
  · contradiction
  · rw [read, opens.switches]
    cases s.settled.bind (·.takeAll givings) with
    | error fault => rfl
    | ok g =>
        show readWord v ⟨g, some (key, []), false⟩ value = _
        rw [readWord, if_neg Bool.false_ne_true, Shape.ofWord_of_loose loose]
        rfl

/-! ## Words that can be read -/

theorem letters_of_readCluster {letters : Bytes} {next : LineState}
    (read : s.readCluster v letters = .ok next) :
    ∃ givings awaited, Letters v letters givings awaited := by
  induction letters generalizing s with
  | nil => exact ⟨[], none, .none⟩
  | cons letter rest ih =>
      cases found : switchOf v letter with
      | none =>
          rw [readCluster, found] at read
          contradiction
      | some sw =>
          obtain ⟨own, named⟩ := Verb.switchOf_eq_some_iff.mp found
          cases takes : sw.takesValue with
          | true =>
              cases rest with
              | nil => exact ⟨_, _, .awaits own named takes⟩
              | cons first value =>
                  by_cases sign : first = Shape.equals
                  · subst sign
                    exact ⟨_, _, .assigned own named takes⟩
                  · exact ⟨_, _, .joined own named takes sign⟩
          | false =>
              rw [readCluster_flag own named takes, bind_eq_ok_iff] at read
              obtain ⟨after, -, read⟩ := read
              obtain ⟨givings, awaited, spelled⟩ := ih read
              exact ⟨_, _, .flag own named takes spelled⟩

theorem switch_of_readLong {name : Bytes} {value : Option Bytes} {next : LineState}
    (read : s.readLong v name value = .ok next) :
    ∃ sw ∈ v.switches, Utf8.encode sw.long = name ∧ (sw.takesValue = true ∨ value = none) := by
  unfold readLong at read
  cases found : v.switches.find? fun sw => Utf8.encode sw.long == name with
  | none =>
      rw [found] at read
      contradiction
  | some sw =>
      have same := List.find?_some found
      refine ⟨sw, List.mem_of_find?_eq_some found, beq_iff_eq.mp same, ?_⟩
      rw [found] at read
      cases takes : sw.takesValue with
      | true => exact .inl rfl
      | false =>
          cases value with
          | none => exact .inr rfl
          | some raw =>
              dsimp only at read
              rw [takes] at read
              contradiction

/-- A word that can be read in a state that begins arguments. -/
theorem word_of_readWord (opens : s.Open) {next : LineState} (read : s.readWord v word = .ok next) :
    word = [Shape.dash, Shape.dash] ∨ ∃ givings awaited, Word v word givings awaited := by
  rw [readWord, opens.switches, if_neg Bool.false_ne_true] at read
  rcases Shape.ofWord_cases word with ⟨loose, shape⟩ | ⟨divider, -⟩ | ⟨letter, rest, rfl, shape⟩ |
    ⟨name, rfl, shape⟩ | ⟨name, value, rfl, shape⟩
  · rw [shape] at read
    dsimp only at read
    rw [opens.begins] at read
    obtain ⟨key, takes⟩ := positional_of_readPositional read
    exact .inr ⟨_, _, .positional loose takes⟩
  · exact .inl divider
  · rw [shape] at read
    obtain ⟨givings, awaited, spelled⟩ := letters_of_readCluster read
    exact .inr ⟨givings, awaited, .letters spelled⟩
  · rw [shape] at read
    obtain ⟨sw, own, rfl, -⟩ := switch_of_readLong read
    cases takes : sw.takesValue with
    | true => exact .inr ⟨_, _, .awaits own takes⟩
    | false => exact .inr ⟨_, _, .flag own takes⟩
  · rw [shape] at read
    obtain ⟨sw, own, rfl, takes⟩ := switch_of_readLong read
    exact .inr ⟨_, _, .assigned own (takes.resolve_right nofun)⟩

/-! ## Switches that wait -/

variable {fault : Usage} {next : LineState}

theorem readLong_of_unsettled (unsettled : s.settled = .error fault) (name : Bytes)
    (value : Option Bytes) : s.readLong v name value ≠ .ok next := by
  intro read
  obtain ⟨sw, own, rfl, -⟩ := switch_of_readLong read
  rw [readLong_eq own] at read
  split at read
  · rw [apply_eq, unsettled] at read
    contradiction
  · rw [await_eq, unsettled] at read
    contradiction
  · contradiction
  · rw [apply_eq, unsettled] at read
    contradiction

theorem readCluster_of_unsettled (unsettled : s.settled = .error fault) (letter : UInt8)
    (rest : Bytes) : s.readCluster v (letter :: rest) ≠ .ok next := by
  intro read
  obtain ⟨givings, awaited, spelled⟩ := letters_of_readCluster read
  rw [readCluster_eq spelled s (.inl (List.cons_ne_nil _ _)), unsettled] at read
  contradiction

theorem settled_of_waiting (waits : s.waiting? = some key) (valued : v.Valued key) :
    s.settled = .error .invalidValue := by
  obtain ⟨given, pending, literal⟩ := s
  unfold waiting? at waits
  split at waits
  case h_1 k held =>
    obtain rfl := Option.some.inj waits
    obtain rfl : pending = some (k, []) := held
    exact valued.take_nil given
  case h_2 => contradiction

/-- A switch that waits takes a word that looks like none. -/
theorem loose_of_waiting (waits : s.waiting? = some key) (valued : v.Valued key)
    (switches : s.literal = false) (read : s.readWord v word = .ok next) :
    (Loose word ∧ next = ⟨s.given, some (key, [word]), false⟩) ∨
      next = ⟨s.given, s.pending, true⟩ := by
  have unsettled := settled_of_waiting waits valued
  rw [readWord, switches, if_neg Bool.false_ne_true] at read
  rcases Shape.ofWord_cases word with ⟨loose, shape⟩ | ⟨-, shape⟩ | ⟨letter, rest, -, shape⟩ |
    ⟨name, -, shape⟩ | ⟨name, value, -, shape⟩
  · rw [shape] at read
    dsimp only at read
    rw [waits] at read
    exact .inl ⟨loose, (Except.ok.inj read).symm⟩
  · rw [shape] at read
    exact .inr (Except.ok.inj read).symm
  · rw [shape] at read
    exact absurd read (readCluster_of_unsettled unsettled letter rest)
  · rw [shape] at read
    exact absurd read (readLong_of_unsettled unsettled name none)
  · rw [shape] at read
    exact absurd read (readLong_of_unsettled unsettled name (some value))

theorem not_readPositional_of_waiting (waits : s.waiting? = some key) (valued : v.Valued key) :
    s.readPositional v word ≠ .ok next := by
  intro read
  have unsettled := settled_of_waiting waits valued
  obtain ⟨given, pending, literal⟩ := s
  unfold waiting? at waits
  split at waits
  case h_1 k held =>
    obtain rfl := Option.some.inj waits
    obtain rfl : pending = some (k, []) := held
    obtain ⟨positional, takes⟩ := positional_of_readPositional read
    have other : k ≠ positional := fun same => valued.not_positional (same ▸ takes)
    unfold readPositional at read
    rw [takes] at read
    dsimp only at read
    rw [if_neg other, settle_eq, unsettled] at read
    contradiction
  case h_2 => contradiction

end LineState

end Needle
