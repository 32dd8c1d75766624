import Needle.Proofs.Json.RoundTrip

/-!
# The form with blanks

What is written with one item a line denotes the value, like the form without blanks, if the value
is writable. If it is not, the writer stops behind a blank: the part that has no written form is an
item, which follows the blanks of its line, or the value of a field, which follows the blank behind
the colon. So what has been put out by then neither is empty nor ends its line.
-/
set_option autoImplicit false

namespace Needle.Json

/-! ## Writable values -/

theorem Spells.newline {text : List Symbol} {spelled : List Token} (spells : Spells text spelled)
    (depth : Nat) : Spells (newline depth ++ text) spelled := by
  have blanks (n : Nat) : Spells (List.replicate n (some ' ') ++ text) spelled := by
    induction n with
    | zero => exact spells
    | succ n ih => exact ih.blank rfl
  exact (blanks (2 * depth)).blank rfl

def moreItems : List Json → List Token
  | [] => [.closeArray]
  | v :: rest => .comma :: (tokens v ++ moreItems rest)

def moreFields : List (Option String × Json) → List Token
  | [] => [.closeObject]
  | (key, v) :: rest => .comma :: keyToken key :: .colon :: (tokens v ++ moreFields rest)

theorem itemTokens_cons (v : Json) (rest : List Json) :
    itemTokens (v :: rest) ++ [.closeArray] = tokens v ++ moreItems rest := by
  induction rest generalizing v with
  | nil => rfl
  | cons w rest ih =>
      rw [itemTokens_cons_cons, List.append_assoc, List.cons_append, ih]
      rfl

theorem fieldTokens_cons (key : Option String) (v : Json) (rest : List (Option String × Json)) :
    fieldTokens ((key, v) :: rest) ++ [.closeObject] =
      keyToken key :: .colon :: (tokens v ++ moreFields rest) := by
  induction rest generalizing key v with
  | nil => rfl
  | cons field rest ih =>
      obtain ⟨other, w⟩ := field
      rw [fieldTokens_cons_cons, List.cons_append, List.cons_append, List.append_assoc,
        List.cons_append, ih]
      rfl

theorem endsNumber_prettyItems (depth : Nat) (items : List Json) (rest : List Symbol) :
    EndsNumber (prettyItems depth items ++ rest) := by
  cases items with
  | nil => exact endsNumber_cons _ (by decide)
  | cons v items => exact endsNumber_cons _ (by decide)

theorem endsNumber_prettyFields (depth : Nat) (fields : List (Option String × Json))
    (rest : List Symbol) : EndsNumber (prettyFields depth fields ++ rest) := by
  cases fields with
  | nil => exact endsNumber_cons _ (by decide)
  | cons field fields => exact endsNumber_cons _ (by decide)

theorem spells_prettyItems (depth : Nat) (items : List Json)
    (each : ∀ v ∈ items, Spells (pretty (depth + 1) v) (tokens v)) :
    Spells (prettyItems depth items) (moreItems items) := by
  induction items with
  | nil => exact (Spells.nil.cons rfl).newline depth
  | cons v items ih =>
      have first := each v List.mem_cons_self
      have rest := ih fun w member => each w (List.mem_cons_of_mem v member)
      have both := first.follow (fun more _ => endsNumber_prettyItems depth items more) rest
      have line := both.newline (depth + 1)
      rw [← List.append_assoc] at line
      exact line.cons rfl

theorem spells_field {key : Option String} {value more : List Symbol} {spelled later : List Token}
    (named : key.isSome) (spells : Spells value spelled)
    (ends : ∀ rest, EndsNumber rest → EndsNumber (more ++ rest)) (follows : Spells more later)
    (depth : Nat) :
    Spells (newline depth ++ keyText key ++ some ':' :: some ' ' :: value ++ more)
      (keyToken key :: .colon :: (spelled ++ later)) := by
  obtain ⟨key, rfl⟩ := Option.isSome_iff_exists.mp named
  have both := spells.follow ends follows
  have field := (spells_quoted key).append (c := ':') (by decide) ((both.blank (c := ' ') rfl).cons rfl)
  have line := field.newline depth
  simpa [keyText, keyToken] using line

theorem spells_prettyFields (depth : Nat) (fields : List (Option String × Json))
    (keys : ∀ f ∈ fields, f.1.isSome)
    (each : ∀ f ∈ fields, Spells (pretty (depth + 1) f.2) (tokens f.2)) :
    Spells (prettyFields depth fields) (moreFields fields) := by
  induction fields with
  | nil => exact (Spells.nil.cons rfl).newline depth
  | cons field fields ih =>
      obtain ⟨key, v⟩ := field
      have named := keys (key, v) List.mem_cons_self
      have value : Spells (pretty (depth + 1) v) (tokens v) := each (key, v) List.mem_cons_self
      have rest := ih (fun f member => keys f (List.mem_cons_of_mem _ member))
        fun f member => each f (List.mem_cons_of_mem _ member)
      have line := spells_field named value
        (fun more _ => endsNumber_prettyFields depth fields more) rest (depth + 1)
      exact line.cons rfl

/-- The form with blanks is read as the tokens of the value. -/
theorem spells_pretty {v : Json} (writable : Writable v) (depth : Nat) :
    Spells (pretty depth v) (tokens v) := by
  induction writable generalizing depth with
  | null => exact spells_compact .null
  | bool b => exact spells_compact (.bool b)
  | int i => exact spells_compact (.int i)
  | text s => exact spells_compact (.text s)
  | arr items _ ih =>
      cases items with
      | nil => exact (Spells.nil.cons rfl).cons rfl
      | cons v rest =>
          have first := ih v List.mem_cons_self (depth + 1)
          have more := spells_prettyItems depth rest fun w member =>
            ih w (List.mem_cons_of_mem v member) (depth + 1)
          have both := first.follow (fun more _ => endsNumber_prettyItems depth rest more) more
          have line := both.newline (depth + 1)
          rw [← itemTokens_cons, ← List.append_assoc] at line
          exact line.cons rfl
  | obj fields keys _ ih =>
      cases fields with
      | nil => exact (Spells.nil.cons rfl).cons rfl
      | cons field rest =>
          obtain ⟨key, v⟩ := field
          have first := ih (key, v) List.mem_cons_self (depth + 1)
          have more := spells_prettyFields depth rest
            (fun f member => keys f (List.mem_cons_of_mem _ member))
            fun f member => ih f (List.mem_cons_of_mem _ member) (depth + 1)
          have line := spells_field (keys (key, v) List.mem_cons_self) first
            (fun more _ => endsNumber_prettyFields depth rest more) more (depth + 1)
          rw [← fieldTokens_cons] at line
          exact line.cons rfl

theorem ofText?_pretty {v : Json} (writable : Writable v) :
    ofText? (written (pretty 0 v)).1 = some v := by
  rw [ofText?, map_some_written (all_isSome_pretty writable 0)]
  exact parse?_of_spells (spells_pretty writable 0)

/-! ## Values that are not writable -/

theorem whole_of_prettyItems {depth : Nat} {items : List Json}
    (whole : (prettyItems depth items).all Option.isSome = true) :
    ∀ v ∈ items, (pretty (depth + 1) v).all Option.isSome = true := by
  induction items with
  | nil => simp
  | cons v rest ih =>
      simp only [prettyItems, List.all_cons, List.all_append, Bool.and_eq_true] at whole
      intro w member
      rcases List.mem_cons.mp member with rfl | later
      · exact whole.2.1.2
      · exact ih whole.2.2 w later

theorem whole_of_keyText {key : Option String} (whole : (keyText key).all Option.isSome = true) :
    key.isSome := by
  cases key with
  | none => simp [keyText] at whole
  | some key => rfl

theorem whole_of_prettyFields {depth : Nat} {fields : List (Option String × Json)}
    (whole : (prettyFields depth fields).all Option.isSome = true) :
    ∀ f ∈ fields, f.1.isSome ∧ (pretty (depth + 1) f.2).all Option.isSome = true := by
  induction fields with
  | nil => simp
  | cons field rest ih =>
      obtain ⟨key, v⟩ := field
      simp only [prettyFields, List.all_cons, List.all_append, Bool.and_eq_true] at whole
      obtain ⟨_, ⟨⟨_, named⟩, _, _, value⟩, more⟩ := whole
      intro f member
      rcases List.mem_cons.mp member with rfl | later
      · exact ⟨whole_of_keyText named, value⟩
      · exact ih more f later

theorem writable_of_whole {v : Json} {depth : Nat}
    (whole : (pretty depth v).all Option.isSome = true) : Writable v := by
  match v with
  | .null => exact .null
  | .bool b => exact .bool b
  | .int i => exact .int i
  | .text s => exact .text s
  | .fraction => simp [pretty, scalar] at whole
  | .broken => simp [pretty, scalar] at whole
  | .arr [] => exact .arr [] (by simp)
  | .arr (v :: rest) =>
      have parts : (prettyItems depth (v :: rest)).all Option.isSome = true := by
        rw [pretty, List.all_cons] at whole
        rw [prettyItems, List.all_cons]
        exact whole
      exact .arr _ fun w member => writable_of_whole (whole_of_prettyItems parts w member)
  | .obj [] => exact .obj [] (by simp) (by simp)
  | .obj ((key, v) :: rest) =>
      have parts : (prettyFields depth ((key, v) :: rest)).all Option.isSome = true := by
        rw [pretty, List.all_cons] at whole
        rw [prettyFields, List.all_cons]
        exact whole
      exact .obj _ (fun f member => (whole_of_prettyFields parts f member).1)
        fun f member => writable_of_whole (whole_of_prettyFields parts f member).2
termination_by sizeOf v
decreasing_by
  · have smaller := List.sizeOf_lt_of_mem member
    simp only [Json.arr.sizeOf_spec]
    omega
  · have smaller := List.sizeOf_lt_of_mem member
    have part : sizeOf f = 1 + sizeOf f.1 + sizeOf f.2 := rfl
    simp only [Json.obj.sizeOf_spec]
    omega

/-- A value can be written exactly if it is writable. -/
theorem whole_pretty_iff {v : Json} {depth : Nat} :
    (pretty depth v).all Option.isSome = true ↔ Writable v :=
  ⟨writable_of_whole, fun writable => all_isSome_pretty writable depth⟩

/-! ## Where the writer stops -/

/-- Every symbol that is missing in a text stands behind a blank; `before` is what the text follows. -/
def Led : Symbol → List Symbol → Prop
  | _, [] => True
  | before, s :: rest => (s = none → before = some ' ') ∧ Led s rest

theorem led_of_whole {text : List Symbol} (whole : text.all Option.isSome = true)
    (before : Symbol) : Led before text := by
  induction text generalizing before with
  | nil => trivial
  | cons s rest ih =>
      rw [List.all_cons, Bool.and_eq_true] at whole
      refine ⟨?_, ih whole.2 s⟩
      rintro rfl
      simp at whole

theorem Led.append {before : Symbol} {first second : List Symbol} (led : Led before first)
    (later : ∀ s, Led s second) : Led before (first ++ second) := by
  induction first generalizing before with
  | nil => exact later before
  | cons s rest ih => exact ⟨led.1, ih led.2⟩

theorem Led.newline {text : List Symbol} (led : Led (some ' ') text) (depth : Nat)
    (before : Symbol) : Led before (newline (depth + 1) ++ text) := by
  have blanks (n : Nat) : Led (some ' ') (List.replicate n (some ' ') ++ text) := by
    induction n with
    | zero => exact led
    | succ n ih => exact ⟨by simp, ih⟩
  exact ⟨by simp, by simp, blanks (2 * depth + 1)⟩

theorem led_prettyItems (depth : Nat) (items : List Json)
    (each : ∀ v ∈ items, Led (some ' ') (pretty (depth + 1) v)) (before : Symbol) :
    Led before (prettyItems depth items) := by
  induction items generalizing before with
  | nil =>
      apply led_of_whole
      simp [prettyItems, all_isSome_newline]
  | cons v rest ih =>
      have first := each v List.mem_cons_self
      have more := ih fun w member => each w (List.mem_cons_of_mem v member)
      have line := (first.append more).newline depth (some ',')
      rw [← List.append_assoc] at line
      exact ⟨by simp, line⟩

theorem led_keyText (key : Option String) : Led (some ' ') (keyText key) := by
  cases key with
  | none => exact ⟨fun _ => rfl, trivial⟩
  | some key => exact led_of_whole (all_isSome_quoted key) _

theorem led_field (key : Option String) {value more : List Symbol} (led : Led (some ' ') value)
    (follows : ∀ s, Led s more) (depth : Nat) (before : Symbol) :
    Led before (newline (depth + 1) ++ keyText key ++ some ':' :: some ' ' :: value ++ more) := by
  have field : Led (some ' ') (keyText key ++ some ':' :: some ' ' :: (value ++ more)) :=
    (led_keyText key).append fun _ => ⟨by simp, by simp, led.append follows⟩
  have line := field.newline depth before
  simpa using line

theorem led_prettyFields (depth : Nat) (fields : List (Option String × Json))
    (each : ∀ f ∈ fields, Led (some ' ') (pretty (depth + 1) f.2)) (before : Symbol) :
    Led before (prettyFields depth fields) := by
  induction fields generalizing before with
  | nil =>
      apply led_of_whole
      simp [prettyFields, all_isSome_newline]
  | cons field rest ih =>
      obtain ⟨key, v⟩ := field
      have value : Led (some ' ') (pretty (depth + 1) v) := each (key, v) List.mem_cons_self
      have more := ih fun f member => each f (List.mem_cons_of_mem _ member)
      exact ⟨by simp, led_field key value more depth (some ',')⟩

theorem led_pretty (v : Json) (depth : Nat) : Led (some ' ') (pretty depth v) := by
  match v with
  | .null => exact led_of_whole (all_isSome_pretty .null depth) _
  | .bool b => exact led_of_whole (all_isSome_pretty (.bool b) depth) _
  | .int i => exact led_of_whole (all_isSome_pretty (.int i) depth) _
  | .text s => exact led_of_whole (all_isSome_pretty (.text s) depth) _
  | .fraction | .broken => exact ⟨fun _ => rfl, trivial⟩
  | .arr [] | .obj [] => exact led_of_whole rfl _
  | .arr (v :: rest) =>
      have each : ∀ w ∈ v :: rest, Led (some ' ') (pretty (depth + 1) w) :=
        fun w member => led_pretty w (depth + 1)
      have items := led_prettyItems depth (v :: rest) each none
      exact ⟨by simp, by simp, items.2.2⟩
  | .obj ((key, v) :: rest) =>
      have each : ∀ f ∈ (key, v) :: rest, Led (some ' ') (pretty (depth + 1) f.2) :=
        fun f member => led_pretty f.2 (depth + 1)
      have fields := led_prettyFields depth ((key, v) :: rest) each none
      exact ⟨by simp, by simp, fields.2.2⟩
termination_by sizeOf v
decreasing_by
  · have smaller := List.sizeOf_lt_of_mem member
    simp only [Json.arr.sizeOf_spec]
    omega
  · have smaller := List.sizeOf_lt_of_mem member
    have part : sizeOf f = 1 + sizeOf f.1 + sizeOf f.2 := rfl
    simp only [Json.obj.sizeOf_spec]
    omega

/-- A text that is not whole breaks off behind a blank. -/
theorem Led.stops {before : Symbol} {text : List Symbol} (led : Led before text)
    (broken : text.all Option.isSome = false) :
    (∃ shorter, text.takeWhile Option.isSome = shorter ++ [some ' ']) ∨
      text.takeWhile Option.isSome = [] ∧ before = some ' ' := by
  induction text generalizing before with
  | nil => simp at broken
  | cons s rest ih =>
      cases s with
      | none => exact Or.inr ⟨rfl, led.1 rfl⟩
      | some c =>
          have later : rest.all Option.isSome = false := by simpa using broken
          have goes : (some c :: rest).takeWhile Option.isSome =
              some c :: rest.takeWhile Option.isSome := rfl
          rw [goes]
          rcases ih led.2 later with ⟨shorter, stopped⟩ | ⟨empty, blank⟩
          · exact Or.inl ⟨some c :: shorter, by rw [stopped, List.cons_append]⟩
          · exact Or.inl ⟨[], by rw [empty, blank, List.nil_append]⟩

theorem written_of_not_writable {fields : List (Option String × Json)}
    (unwritable : ¬ Writable (.obj fields)) :
    ∃ shorter, written (pretty 0 (.obj fields)) = (shorter ++ " ", false) := by
  have broken : (pretty 0 (.obj fields)).all Option.isSome = false := by
    rw [← Bool.not_eq_true, whole_pretty_iff]
    exact unwritable
  have led : Led none (pretty 0 (.obj fields)) := by
    have blank := led_pretty (.obj fields) 0
    cases fields with
    | nil => exact ⟨by simp, blank.2⟩
    | cons field rest => exact ⟨by simp, blank.2⟩
  rcases led.stops broken with ⟨shorter, stopped⟩ | ⟨_, begins⟩
  · refine ⟨String.ofList (shorter.filterMap id), ?_⟩
    rw [written, broken, stopped, List.filterMap_append, String.ofList_append]
    rfl
  · contradiction

end Needle.Json
