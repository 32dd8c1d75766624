import Needle.Json.Reader
import Needle.Proofs.Json.Tokens
import Needle.Proofs.Utf8

/-!
# Reading what was written

A value is writable when nothing in it stands for a token without content. The written form of a
writable value consists of the value's tokens, the reader puts these together to the value again,
and so both the text and its bytes are read back as the value that was written.
-/
set_option autoImplicit false

namespace Needle.Json

/-- Every part of the value has a written form. -/
inductive Writable : Json → Prop where
  | null : Writable .null
  | bool (b : Bool) : Writable (.bool b)
  | int (i : Int) : Writable (.int i)
  | text (s : String) : Writable (.text s)
  | arr (items : List Json) (each : ∀ v ∈ items, Writable v) : Writable (.arr items)
  | obj (fields : List (Option String × Json)) (keys : ∀ f ∈ fields, f.1.isSome)
      (each : ∀ f ∈ fields, Writable f.2) : Writable (.obj fields)

def keyToken : Option String → Token
  | some key => .text key
  | none => .broken

mutual

def tokens : Json → List Token
  | .null => [.null]
  | .bool b => [.bool b]
  | .int i => [.int i]
  | .fraction => [.fraction]
  | .text s => [.text s]
  | .broken => [.broken]
  | .arr items => .openArray :: (itemTokens items ++ [.closeArray])
  | .obj fields => .openObject :: (fieldTokens fields ++ [.closeObject])

def itemTokens : List Json → List Token
  | [] => []
  | [v] => tokens v
  | v :: rest => tokens v ++ .comma :: itemTokens rest

def fieldTokens : List (Option String × Json) → List Token
  | [] => []
  | [(key, v)] => keyToken key :: .colon :: tokens v
  | (key, v) :: rest => keyToken key :: .colon :: (tokens v ++ .comma :: fieldTokens rest)

end

/-! ## From text to tokens -/

/-- The text is read as these tokens wherever it stands, unless a number goes on after it. -/
def Spells (text : List Symbol) (spelled : List Token) : Prop :=
  ∀ (read : List Token) (rest : List Symbol), EndsNumber rest →
    lexed (some (.between, read)) (text ++ rest) =
      lexed (some (.between, spelled.reverse ++ read)) rest

theorem Spells.nil : Spells [] [] := by
  intro read rest _
  rfl

theorem Spells.cons {c : Char} {token : Token} {text : List Symbol} {spelled : List Token}
    (begun : begin (some c) = some (.between, [token])) (spells : Spells text spelled) :
    Spells (some c :: text) (token :: spelled) := by
  intro read rest ends
  rw [List.cons_append, lexed_begin begun, spells _ rest ends]
  simp

/-- A text and one after it that does not go on with a number. -/
theorem Spells.follow {first second : List Symbol} {firstTokens secondTokens : List Token}
    (free : ∀ rest, EndsNumber rest → EndsNumber (second ++ rest))
    (spellsFirst : Spells first firstTokens) (spellsSecond : Spells second secondTokens) :
    Spells (first ++ second) (firstTokens ++ secondTokens) := by
  intro read rest ends
  rw [List.append_assoc, spellsFirst read _ (free rest ends), spellsSecond _ rest ends]
  simp

theorem Spells.append {c : Char} {first second : List Symbol} {firstTokens secondTokens : List Token}
    (free : c.isDigit = false ∧ c ≠ '.' ∧ c ≠ 'e' ∧ c ≠ 'E')
    (spellsFirst : Spells first firstTokens) (spellsSecond : Spells (some c :: second) secondTokens) :
    Spells (first ++ some c :: second) (firstTokens ++ secondTokens) := by
  apply spellsFirst.follow _ spellsSecond
  intro rest _
  exact endsNumber_cons _ free

theorem Spells.blank {c : Char} {text : List Symbol} {spelled : List Token}
    (begun : begin (some c) = some (.between, [])) (spells : Spells text spelled) :
    Spells (some c :: text) spelled := by
  intro read rest ends
  rw [List.cons_append, lexed_begin begun]
  exact spells read rest ends

theorem spells_word {c : Char} {left : List Char} {token : Token}
    (begun : begin (some c) = some (.word left token, [])) (more : left ≠ []) :
    Spells ((c :: left).map some) [token] := by
  intro read rest _
  rw [List.map_cons, List.cons_append, lexed_begin begun, lexed_word token _ rest left more]
  rfl

theorem spells_quoted (s : String) : Spells (quoted s) [.text s] := by
  intro read rest _
  exact lexed_quoted s read rest

theorem spells_compactItems (items : List Json)
    (each : ∀ v ∈ items, Spells (compact v) (tokens v)) :
    Spells (compactItems items) (itemTokens items) := by
  induction items with
  | nil => exact Spells.nil
  | cons v items ih =>
      have first := each v (List.mem_cons_self ..)
      have rest := ih fun w member => each w (List.mem_cons_of_mem v member)
      cases items with
      | nil => exact first
      | cons w items => exact first.append (by decide) (rest.cons rfl)

theorem spells_compactFields (fields : List (Option String × Json))
    (keys : ∀ f ∈ fields, f.1.isSome) (each : ∀ f ∈ fields, Spells (compact f.2) (tokens f.2)) :
    Spells (compactFields fields) (fieldTokens fields) := by
  induction fields with
  | nil => exact Spells.nil
  | cons field fields ih =>
      obtain ⟨key?, v⟩ := field
      have value : Spells (compact v) (tokens v) := each (key?, v) (List.mem_cons_self ..)
      have rest := ih (fun f member => keys f (List.mem_cons_of_mem _ member))
        fun f member => each f (List.mem_cons_of_mem _ member)
      obtain ⟨key, rfl⟩ := Option.isSome_iff_exists.mp (keys (key?, v) (List.mem_cons_self ..))
      cases fields with
      | nil => exact (spells_quoted key).append (by decide) (value.cons rfl)
      | cons w fields =>
          exact (spells_quoted key).append (by decide)
            ((value.append (by decide) (rest.cons rfl)).cons rfl)

theorem spells_compact {v : Json} (writable : Writable v) : Spells (compact v) (tokens v) := by
  induction writable with
  | null => exact spells_word (c := 'n') rfl (by decide)
  | bool b =>
      cases b with
      | true => exact spells_word (c := 't') rfl (by decide)
      | false => exact spells_word (c := 'f') rfl (by decide)
  | int i =>
      intro read rest ends
      exact lexed_int i read rest ends
  | text s => exact spells_quoted s
  | arr items _ ih =>
      exact ((spells_compactItems items ih).append (by decide) (Spells.nil.cons rfl)).cons rfl
  | obj fields keys _ ih =>
      exact ((spells_compactFields fields keys ih).append (by decide) (Spells.nil.cons rfl)).cons rfl

/-! ## From tokens to values -/

theorem readAll_cons (state : Reading) (t : Token) (rest : List Token) :
    readAll (some state) (t :: rest) = readAll (read state t) rest := rfl

theorem itemTokens_cons_cons (v w : Json) (rest : List Json) :
    itemTokens (v :: w :: rest) = tokens v ++ .comma :: itemTokens (w :: rest) := rfl

theorem fieldTokens_cons_cons (key : Option String) (v : Json) (f : Option String × Json)
    (rest : List (Option String × Json)) :
    fieldTokens ((key, v) :: f :: rest) =
      keyToken key :: .colon :: (tokens v ++ .comma :: fieldTokens (f :: rest)) := rfl

/-- Reading the tokens of a value completes the value. -/
def Completes (v : Json) : Prop :=
  ∀ (stack : List Frame) (rest : List Token),
    readAll (some (.value stack)) (tokens v ++ rest) = readAll (some (.after v stack)) rest

theorem readAll_items (items : List Json) (each : ∀ v ∈ items, Completes v) (more : items ≠ [])
    (done : List Json) (stack : List Frame) (rest : List Token) :
    readAll (some (.value (.items done :: stack))) (itemTokens items ++ .closeArray :: rest) =
      readAll (some (.after (.arr (done.reverse ++ items)) stack)) rest := by
  induction items generalizing done with
  | nil => exact absurd rfl more
  | cons v items ih =>
      have first : Completes v := each v (List.mem_cons_self ..)
      cases items with
      | nil =>
          have closed : read (.after v (.items done :: stack)) .closeArray =
              some (.after (.arr (v :: done).reverse) stack) := rfl
          rw [itemTokens, first, readAll_cons, closed, List.reverse_cons]
      | cons w items =>
          have comma : read (.after v (.items done :: stack)) .comma =
              some (.value (.items (v :: done) :: stack)) := rfl
          have later := ih (fun u member => each u (List.mem_cons_of_mem v member))
            (List.cons_ne_nil w items) (v :: done)
          rw [itemTokens_cons_cons, List.append_assoc, first, List.cons_append, readAll_cons, comma,
            later, List.reverse_cons, List.append_assoc, List.singleton_append]

theorem readAll_fields (fields : List (Option String × Json))
    (each : ∀ f ∈ fields, Completes f.2) (more : fields ≠ [])
    (done : List (Option String × Json)) (stack : List Frame) (rest : List Token) :
    readAll (some (.key done stack)) (fieldTokens fields ++ .closeObject :: rest) =
      readAll (some (.after (.obj (done.reverse ++ fields)) stack)) rest := by
  induction fields generalizing done with
  | nil => exact absurd rfl more
  | cons field fields ih =>
      obtain ⟨key, v⟩ := field
      have value : Completes v := each (key, v) (List.mem_cons_self ..)
      have named : read (.key done stack) (keyToken key) = some (.colon done key stack) := by
        cases key <;> rfl
      have colon : read (.colon done key stack) .colon =
          some (.value (.fields done key :: stack)) := rfl
      cases fields with
      | nil =>
          have closed : read (.after v (.fields done key :: stack)) .closeObject =
              some (.after (.obj ((key, v) :: done).reverse) stack) := rfl
          rw [fieldTokens, List.cons_append, List.cons_append, readAll_cons, named, readAll_cons,
            colon, value, readAll_cons, closed, List.reverse_cons]
      | cons f fields =>
          have comma : read (.after v (.fields done key :: stack)) .comma =
              some (.key ((key, v) :: done) stack) := rfl
          have later := ih (fun u member => each u (List.mem_cons_of_mem (key, v) member))
            (List.cons_ne_nil f fields) ((key, v) :: done)
          rw [fieldTokens_cons_cons, List.cons_append, List.cons_append, readAll_cons, named,
            readAll_cons, colon, List.append_assoc, value, List.cons_append, readAll_cons, comma,
            later, List.reverse_cons, List.append_assoc, List.singleton_append]

/-- The first token of an item is none that ends an array. -/
theorem readAll_firstItem (v : Json) (items : List Json) (stack : List Frame) (rest : List Token) :
    readAll (some (.firstItem stack)) (itemTokens (v :: items) ++ rest) =
      readAll (some (.value (.items [] :: stack))) (itemTokens (v :: items) ++ rest) := by
  have first : ∀ more, readAll (some (.firstItem stack)) (tokens v ++ more) =
      readAll (some (.value (.items [] :: stack))) (tokens v ++ more) := by
    intro more
    cases v <;> rfl
  cases items with
  | nil => exact first rest
  | cons w items =>
      rw [itemTokens_cons_cons, List.append_assoc]
      exact first _

theorem readAll_firstKey (key : Option String) (v : Json) (fields : List (Option String × Json))
    (stack : List Frame) (rest : List Token) :
    readAll (some (.firstKey stack)) (fieldTokens ((key, v) :: fields) ++ rest) =
      readAll (some (.key [] stack)) (fieldTokens ((key, v) :: fields) ++ rest) := by
  cases fields <;> cases key <;> rfl

theorem completes (v : Json) : Completes v := by
  intro stack rest
  -- On the value: an array or object is completed by completing its parts one after the other.
  match v with
  | .null | .bool _ | .int _ | .fraction | .text _ | .broken => rfl
  | .arr [] => rfl
  | .arr (v :: items) =>
      have each : ∀ w ∈ v :: items, Completes w := fun w member => completes w
      have opened : read (.value stack) .openArray = some (.firstItem stack) := rfl
      rw [tokens, List.cons_append, List.append_assoc, readAll_cons, opened, List.singleton_append,
        readAll_firstItem]
      exact readAll_items (v :: items) each (List.cons_ne_nil v items) [] stack rest
  | .obj [] => rfl
  | .obj ((key, v) :: fields) =>
      have each : ∀ f ∈ (key, v) :: fields, Completes f.2 := fun f member => completes f.2
      have opened : read (.value stack) .openObject = some (.firstKey stack) := rfl
      rw [tokens, List.cons_append, List.append_assoc, readAll_cons, opened, List.singleton_append,
        readAll_firstKey]
      exact readAll_fields _ each (List.cons_ne_nil _ fields) [] stack rest
termination_by sizeOf v
decreasing_by
  · have smaller := List.sizeOf_lt_of_mem member
    simp only [Json.arr.sizeOf_spec]
    omega
  · have smaller := List.sizeOf_lt_of_mem member
    have part : sizeOf f = 1 + sizeOf f.1 + sizeOf f.2 := rfl
    simp only [Json.obj.sizeOf_spec]
    omega

theorem ofTokens?_tokens (v : Json) : ofTokens? (tokens v) = some v := by
  have read := completes v [] []
  rw [List.append_nil] at read
  rw [ofTokens?, read]
  rfl

/-! ## From text to values -/

/-- A text that spells the tokens of a value denotes it. -/
theorem parse?_of_spells {text : List Symbol} {v : Json} (spells : Spells text (tokens v)) :
    parse? text = some v := by
  have read := spells [] [] endsNumber_nil
  rw [List.append_nil, List.append_nil, lexed_between, List.reverse_reverse] at read
  rw [parse?, tokens?_eq_lexed, read, Option.bind_some, ofTokens?_tokens]

theorem all_isSome_quoted (s : String) : (quoted s).all Option.isSome = true := by
  simp [quoted, List.all_map, Function.comp_def]

theorem all_isSome_compactItems (items : List Json)
    (each : ∀ v ∈ items, (compact v).all Option.isSome = true) :
    (compactItems items).all Option.isSome = true := by
  induction items with
  | nil => rfl
  | cons v items ih =>
      have first := each v (List.mem_cons_self ..)
      have rest := ih fun w member => each w (List.mem_cons_of_mem v member)
      cases items with
      | nil => exact first
      | cons w items =>
          have shape : compactItems (v :: w :: items) =
              compact v ++ some ',' :: compactItems (w :: items) := rfl
          rw [shape, List.all_append, List.all_cons, first, rest]
          rfl

theorem all_isSome_compactFields (fields : List (Option String × Json))
    (keys : ∀ f ∈ fields, f.1.isSome)
    (each : ∀ f ∈ fields, (compact f.2).all Option.isSome = true) :
    (compactFields fields).all Option.isSome = true := by
  induction fields with
  | nil => rfl
  | cons field fields ih =>
      obtain ⟨key?, v⟩ := field
      have value : (compact v).all Option.isSome = true := each (key?, v) (List.mem_cons_self ..)
      have rest := ih (fun f member => keys f (List.mem_cons_of_mem _ member))
        fun f member => each f (List.mem_cons_of_mem _ member)
      obtain ⟨key, rfl⟩ := Option.isSome_iff_exists.mp (keys (key?, v) (List.mem_cons_self ..))
      have named : (keyText (some key)).all Option.isSome = true := all_isSome_quoted key
      cases fields with
      | nil =>
          rw [compactFields, List.all_append, List.all_cons, named, value]
          rfl
      | cons f fields =>
          have shape : compactFields ((some key, v) :: f :: fields) =
              keyText (some key) ++ some ':' ::
                (compact v ++ some ',' :: compactFields (f :: fields)) := rfl
          rw [shape, List.all_append, List.all_cons, List.all_append, List.all_cons, named, value, rest]
          rfl

/-- Nothing in the compact form of a writable value lacks a symbol. -/
theorem all_isSome_compact {v : Json} (writable : Writable v) :
    (compact v).all Option.isSome = true := by
  induction writable with
  | null => rfl
  | bool b => cases b <;> rfl
  | int i => simp [compact, scalar, List.all_map, Function.comp_def]
  | text s => exact all_isSome_quoted s
  | arr items _ ih => simp [compact, all_isSome_compactItems items ih]
  | obj fields keys _ ih => simp [compact, all_isSome_compactFields fields keys ih]

theorem all_isSome_newline (depth : Nat) : (newline depth).all Option.isSome = true := by
  simp [newline]

theorem all_isSome_prettyItems (depth : Nat) (items : List Json)
    (each : ∀ v ∈ items, (pretty (depth + 1) v).all Option.isSome = true) :
    (prettyItems depth items).all Option.isSome = true := by
  induction items with
  | nil => simp [prettyItems, all_isSome_newline]
  | cons v items ih =>
      have first := each v (List.mem_cons_self ..)
      have rest := ih fun w member => each w (List.mem_cons_of_mem v member)
      rw [prettyItems, List.all_cons, List.all_append, List.all_append, all_isSome_newline, first,
        rest]
      rfl

theorem all_isSome_prettyFields (depth : Nat) (fields : List (Option String × Json))
    (keys : ∀ f ∈ fields, f.1.isSome)
    (each : ∀ f ∈ fields, (pretty (depth + 1) f.2).all Option.isSome = true) :
    (prettyFields depth fields).all Option.isSome = true := by
  induction fields with
  | nil => simp [prettyFields, all_isSome_newline]
  | cons field fields ih =>
      obtain ⟨key?, v⟩ := field
      have value : (pretty (depth + 1) v).all Option.isSome = true :=
        each (key?, v) (List.mem_cons_self ..)
      have rest := ih (fun f member => keys f (List.mem_cons_of_mem _ member))
        fun f member => each f (List.mem_cons_of_mem _ member)
      obtain ⟨key, rfl⟩ := Option.isSome_iff_exists.mp (keys (key?, v) (List.mem_cons_self ..))
      have named : (keyText (some key)).all Option.isSome = true := all_isSome_quoted key
      simp only [prettyFields, List.all_cons, List.all_append, all_isSome_newline, named, value,
        rest, Option.isSome_some, Bool.and_self]

theorem all_isSome_pretty {v : Json} (writable : Writable v) (depth : Nat) :
    (pretty depth v).all Option.isSome = true := by
  induction writable generalizing depth with
  | null => rfl
  | bool b => cases b <;> rfl
  | int i => simp [pretty, scalar, List.all_map, Function.comp_def]
  | text s => exact all_isSome_quoted s
  | arr items _ ih =>
      cases items with
      | nil => rfl
      | cons v rest =>
          have parts := all_isSome_prettyItems depth (v :: rest) fun w member =>
            ih w member (depth + 1)
          rw [prettyItems, List.all_cons] at parts
          rw [pretty, List.all_cons]
          exact parts
  | obj fields keys _ ih =>
      cases fields with
      | nil => rfl
      | cons field rest =>
          have parts := all_isSome_prettyFields depth (field :: rest) keys fun f member =>
            ih f member (depth + 1)
          rw [prettyFields, List.all_cons] at parts
          rw [pretty, List.all_cons]
          exact parts

theorem map_some_written {symbols : List Symbol} (whole : symbols.all Option.isSome = true) :
    (written symbols).1.toList.map some = symbols := by
  rw [written, String.toList_ofList]
  induction symbols with
  | nil => rfl
  | cons s symbols ih =>
      rw [List.all_cons, Bool.and_eq_true] at whole
      obtain ⟨c, rfl⟩ := Option.isSome_iff_exists.mp whole.1
      have head : (some c :: symbols).takeWhile Option.isSome =
          some c :: symbols.takeWhile Option.isSome := rfl
      have kept : ∀ more : List Symbol, (some c :: more).filterMap id = c :: more.filterMap id :=
        fun _ => rfl
      rw [head, kept, List.map_cons, ih whole.2]

theorem map_some_toText {v : Json} (writable : Writable v) :
    v.toText.toList.map some = compact v :=
  map_some_written (all_isSome_compact writable)

/-- The text of a writable value denotes the value. -/
theorem ofText?_toText {v : Json} (writable : Writable v) : ofText? v.toText = some v := by
  rw [ofText?, map_some_toText writable]
  exact parse?_of_spells (spells_compact writable)

theorem ofBytes?_encode_toText {v : Json} (writable : Writable v) :
    ofBytes? (Utf8.encode v.toText) = some v := by
  rw [ofBytes?, Utf8.symbols_encode, map_some_toText writable]
  exact parse?_of_spells (spells_compact writable)

end Needle.Json
