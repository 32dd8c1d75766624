import Needle.Proofs.Command.Reading

/-!
# The meaning of a command line

Words that are read as a line are accepted exactly if all that is given can be taken over and
judged, and what they ask for is what the line asks for. Words that are accepted can be read as a
line.
-/
set_option autoImplicit false

namespace Needle

open Line

namespace Request

variable {v : Verb} {s : LineState} {key : Key} {word : Bytes} {rest : List Bytes} {line : Line}
  {request : Request}

theorem read_cons (unopened : (s.opensVerbs && LineState.isVerbWord v word) = false)
    (rest : List Bytes) :
    read v s (word :: rest) = (s.readWord v word).bind fun s => read v s rest := by
  rw [read, unopened, if_neg Bool.false_ne_true]

/-- Words are read as a line from where an argument may begin. -/
def Means (v : Verb) (s : LineState) (words : List Bytes) (line : Line) : Prop :=
  ∀ request, read v s words = .ok request ↔
    ∃ g, s.settled = .ok g ∧ line.request g = .ok request

/-- Where nothing has been given before, words ask for what their line asks for. -/
theorem Means.asks (means : Means v {} rest line) (request : Request) :
    read v {} rest = .ok request ↔ line.request {} = .ok request := by
  rw [means request]
  constructor
  · rintro ⟨g, start, asks⟩
    obtain rfl := Except.ok.inj start
    exact asks
  · exact fun asks => ⟨{}, rfl, asks⟩

/-- What is given before a line is taken over before it. -/
theorem means_add {x : Except Usage LineState} {givings : List Giving} {words : List Bytes}
    (reads : read v s words = x.bind fun s => read v s rest)
    (settles : x.bind LineState.settled = s.settled.bind (·.takeAll givings))
    (more : ∀ next, x = .ok next → Means v next rest line) :
    Means v s words (line.add givings) := by
  intro request
  have given (g : Given) : (∃ next, x = .ok next ∧ next.settled = .ok g) ↔
      ∃ h, s.settled = .ok h ∧ h.takeAll givings = .ok g := by
    rw [← bind_eq_ok_iff, ← bind_eq_ok_iff, settles]
  rw [reads, bind_eq_ok_iff]
  simp only [request_add, bind_eq_ok_iff]
  constructor
  · rintro ⟨next, taken, accepted⟩
    obtain ⟨g, settled, asks⟩ := (more next taken request).mp accepted
    obtain ⟨h, before, takes⟩ := (given g).mp ⟨next, taken, settled⟩
    exact ⟨h, before, g, takes, asks⟩
  · rintro ⟨h, before, g, takes, asks⟩
    obtain ⟨next, taken, settled⟩ := (given g).mpr ⟨h, before, takes⟩
    exact ⟨next, taken, (more next taken request).mpr ⟨g, settled, asks⟩⟩

theorem means_done (v : Verb) (s : LineState) : Means v s [] (.last v []) := by
  intro request
  rw [read, LineState.close_eq, bind_eq_ok_iff]
  rfl

theorem means_literal (takes : v.positional? = some key) (begins : s.waiting? = none)
    (literal : s.literal = true) :
    Means v s rest (.last v (rest.map fun word => ⟨key, some word⟩)) := by
  induction rest generalizing s with
  | nil => exact means_done v s
  | cons word rest ih =>
      obtain ⟨settled, remains⟩ := LineState.readPositional_settled takes begins word
      have unopened : (s.opensVerbs && LineState.isVerbWord v word) = false := by
        rw [LineState.opensVerbs_of_literal literal, Bool.false_and]
      have reads : s.readWord v word = s.readPositional v word := by
        rw [LineState.readWord, if_pos literal]
      have settles : (s.readWord v word).bind LineState.settled =
          s.settled.bind (·.takeAll [⟨key, some word⟩]) := by
        rw [reads, settled]
        simp only [Given.takeAll_single]
        rfl
      have more (next : LineState) (given : s.readWord v word = .ok next) :
          Means v next rest (.last v (rest.map fun word => ⟨key, some word⟩)) := by
        obtain ⟨begin, same⟩ := remains next (reads ▸ given)
        exact ih begin (same.trans literal)
      exact means_add (read_cons unopened rest) settles more

variable {givings : List Giving} {awaited : Option Key}

theorem isVerbWord_of_word (spelled : Word v word givings awaited) :
    LineState.isVerbWord v word = false := by
  cases spelled with
  | positional loose takes => exact Verb.isVerbWord_of_positional takes word
  | flag => exact Verb.isVerbWord_dash v _
  | awaits => exact Verb.isVerbWord_dash v _
  | assigned => exact Verb.isVerbWord_dash v _
  | letters => exact Verb.isVerbWord_dash v _

theorem read_word (spelled : Word v word givings awaited) (s : LineState) (rest : List Bytes) :
    read v s (word :: rest) = (s.readWord v word).bind fun s => read v s rest :=
  read_cons (by rw [isVerbWord_of_word spelled, Bool.and_false]) rest

theorem read_divider (switches : s.literal = false) (rest : List Bytes) :
    read v s ([Shape.dash, Shape.dash] :: rest) = read v ⟨s.given, s.pending, true⟩ rest := by
  rw [read_cons (by rw [Verb.isVerbWord_dash, Bool.and_false]),
    LineState.readWord_divider switches]
  rfl

theorem means_of_reads {words : List Bytes} (spelled : Reads v words line) (s : LineState)
    (opens : s.Open) : Means v s words line := by
  induction spelled generalizing s with
  | done => exact means_done _ s
  | word spelled more ih =>
      obtain ⟨settles, remains⟩ := LineState.readWord_whole opens spelled
      exact means_add (read_word spelled s _) settles fun next given => ih next (remains next given)
  | @pair v word value givings key rest line spelled loose more ih =>
      have taken := LineState.readWord_pair opens spelled loose
      have reads : read v s (word :: value :: rest) =
          ((s.readWord v word).bind fun s => s.readWord v value).bind fun s => read v s rest := by
        rw [read_word spelled]
        cases read : s.readWord v word with
        | error fault => rfl
        | ok next =>
            -- what waits for a value opens no verb, so the next word is that value
            have waits := (LineState.waiting_of_readWord opens.switches spelled read).1
            exact read_cons (by rw [LineState.opensVerbs_of_waiting waits, Bool.false_and]) rest
      have settles : ((s.readWord v word).bind fun s => s.readWord v value).bind LineState.settled =
          s.settled.bind (·.takeAll (givings ++ [⟨key, some value⟩])) := by
        rw [taken]
        simp only [Given.takeAll_append, Given.takeAll_single]
        cases s.settled with
        | error fault => rfl
        | ok g =>
            show ((g.takeAll givings).map _).bind LineState.settled = (g.takeAll givings).bind _
            cases g.takeAll givings <;> rfl
      refine means_add reads settles fun next given => ih next ?_
      rw [taken] at given
      obtain ⟨g, -, rfl⟩ := map_eq_ok_iff.mp given
      exact ⟨rfl, rfl⟩
  | @divider v =>
      intro request
      rw [read_divider opens.switches]
      exact means_done v ⟨s.given, s.pending, true⟩ request
  | @literal v key rest takes =>
      have means : Means v ⟨s.given, s.pending, true⟩ rest _ :=
        means_literal takes opens.begins rfl
      intro request
      rw [read_divider opens.switches]
      exact means request
  | @verb v inner name rest line named more ih =>
      have splits (g : Given) : (before v [] line).request g =
          (line.request {}).bind fun asked => g.request v asked := rfl
      intro request
      rw [read, opens.opensVerbs, Verb.isVerbWord_of_named named, Bool.and_true, if_pos rfl,
        Verb.named?_eq_some_iff.mpr ⟨name, named, rfl⟩]
      dsimp only
      simp only [splits, bind_eq_ok_iff, LineState.close_eq, (ih {} ⟨rfl, rfl⟩).asks]
      constructor
      · rintro ⟨asked, reads, g, settled, judged⟩
        exact ⟨g, settled, asked, reads, judged⟩
      · rintro ⟨g, settled, asked, reads, judged⟩
        exact ⟨asked, reads, g, settled, judged⟩

/-! ## Words that are accepted -/

theorem valued_of_letters {letters : Bytes} (spelled : Letters v letters givings (some key)) :
    v.Valued key := by
  generalize waits : some key = awaited at spelled
  induction spelled with
  | none => contradiction
  | flag own named stands more ih => exact ih waits
  | awaits own named takes => exact ⟨_, own, takes, (Option.some.inj waits).symm⟩
  | joined => contradiction
  | assigned => contradiction

theorem valued_of_word (spelled : Word v word givings (some key)) : v.Valued key := by
  cases spelled with
  | awaits own takes => exact ⟨_, own, takes, rfl⟩
  | letters spelled => exact valued_of_letters spelled

/-- Nothing is accepted where a switch waits behind `--`. -/
theorem not_read_of_waiting (waits : s.waiting? = some key) (valued : v.Valued key)
    (literal : s.literal = true) (words : List Bytes) : read v s words ≠ .ok request := by
  intro accepted
  cases words with
  | nil =>
      rw [read, LineState.close_eq, LineState.settled_of_waiting waits valued] at accepted
      contradiction
  | cons word rest =>
      rw [read_cons (by rw [LineState.opensVerbs_of_waiting waits, Bool.false_and]),
        LineState.readWord, if_pos literal, bind_eq_ok_iff] at accepted
      obtain ⟨next, taken, -⟩ := accepted
      exact LineState.not_readPositional_of_waiting waits valued taken

theorem value_of_read (waits : s.waiting? = some key) (valued : v.Valued key)
    (switches : s.literal = false) {words : List Bytes} (accepted : read v s words = .ok request) :
    ∃ value rest, words = value :: rest ∧ Loose value ∧
      read v ⟨s.given, some (key, [value]), false⟩ rest = .ok request := by
  cases words with
  | nil =>
      rw [read, LineState.close_eq, LineState.settled_of_waiting waits valued] at accepted
      contradiction
  | cons word rest =>
      rw [read_cons (by rw [LineState.opensVerbs_of_waiting waits, Bool.false_and]),
        bind_eq_ok_iff] at accepted
      obtain ⟨next, taken, accepted⟩ := accepted
      rcases LineState.loose_of_waiting waits valued switches taken with ⟨loose, rfl⟩ | rfl
      · exact ⟨word, rest, rfl, loose, accepted⟩
      · have waits : LineState.waiting? ⟨s.given, s.pending, true⟩ = some key := waits
        exact absurd accepted (not_read_of_waiting waits valued rfl rest)

theorem positional_of_read (literal : s.literal = true) {words : List Bytes}
    (accepted : read v s words = .ok request) : words = [] ∨ ∃ key, v.positional? = some key := by
  cases words with
  | nil => exact .inl rfl
  | cons word rest =>
      right
      rw [read_cons (by rw [LineState.opensVerbs_of_literal literal, Bool.false_and]),
        LineState.readWord, if_pos literal, bind_eq_ok_iff] at accepted
      obtain ⟨next, taken, -⟩ := accepted
      exact LineState.positional_of_readPositional taken

theorem reads_of_read {words : List Bytes} (opens : s.Open)
    (accepted : read v s words = .ok request) : ∃ line, Reads v words line := by
  -- on the number of words, since a switch and its value are two of them
  induction size : words.length using Nat.strongRecOn generalizing v s words request with
  | ind n ih =>
    subst size
    cases words with
    | nil => exact ⟨_, .done⟩
    | cons word rest =>
        cases verb : LineState.isVerbWord v word with
        | true =>
          rw [read, opens.opensVerbs, verb, Bool.and_true, if_pos rfl] at accepted
          cases named : v.named? word with
          | none =>
              rw [named] at accepted
              contradiction
          | some inner =>
              rw [named] at accepted
              obtain ⟨asked, accepted, -⟩ := bind_eq_ok_iff.mp accepted
              obtain ⟨name, member, rfl⟩ := Verb.named?_eq_some_iff.mp named
              obtain ⟨line, more⟩ := ih rest.length (by simp) ⟨rfl, rfl⟩ accepted rfl
              exact ⟨_, .verb member more⟩
        | false =>
          rw [read_cons (by rw [verb, Bool.and_false]), bind_eq_ok_iff] at accepted
          obtain ⟨next, taken, accepted⟩ := accepted
          rcases LineState.word_of_readWord opens taken with rfl | ⟨givings, awaited, spelled⟩
          · rw [LineState.readWord_divider opens.switches] at taken
            obtain rfl := Except.ok.inj taken
            rcases positional_of_read rfl accepted with empty | ⟨key, takes⟩
            · subst empty
              exact ⟨_, .divider⟩
            · exact ⟨_, .literal takes⟩
          · cases awaited with
            | none =>
                have opens := (LineState.readWord_whole opens spelled).2 next taken
                obtain ⟨line, more⟩ := ih rest.length (by simp) opens accepted rfl
                exact ⟨_, .word spelled more⟩
            | some key =>
                obtain ⟨waits, switches⟩ :=
                  LineState.waiting_of_readWord opens.switches spelled taken
                obtain ⟨value, rest, rfl, loose, accepted⟩ :=
                  value_of_read waits (valued_of_word spelled) switches accepted
                have shorter : rest.length < (word :: value :: rest).length :=
                  (Nat.lt_succ_self _).trans (Nat.lt_succ_self _)
                obtain ⟨line, more⟩ := ih rest.length shorter ⟨rfl, rfl⟩ accepted rfl
                exact ⟨_, .pair spelled loose more⟩

/-! ## Command lines -/

variable {arguments : List Bytes}

theorem ofArguments_of_reads (spelled : Reads .program arguments line) (request : Request) :
    ofArguments arguments = .ok request ↔ line.request {} = .ok request :=
  (means_of_reads spelled {} ⟨rfl, rfl⟩).asks request

/-- A command line is accepted if it can be read as a line whose arguments can all be taken over and
make up a command, and it asks for what that line asks for. -/
theorem ofArguments_eq_ok_iff :
    ofArguments arguments = .ok request ↔
      ∃ line, Reads .program arguments line ∧ line.request {} = .ok request := by
  constructor
  · intro accepted
    obtain ⟨line, spelled⟩ := reads_of_read ⟨rfl, rfl⟩ accepted
    exact ⟨line, spelled, (ofArguments_of_reads spelled request).mp accepted⟩
  · rintro ⟨line, spelled, asks⟩
    exact (ofArguments_of_reads spelled request).mpr asks

end Request

end Needle
