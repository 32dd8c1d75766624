import Needle.Proofs.Json.RoundTrip

/-!
# Which tokens are a value

What the reader has put together always accounts for the tokens it was given: `spent` lists them. So
the reader accepts the tokens of a value and nothing else, and no value's tokens go on to be those
of another one.
-/
set_option autoImplicit false

namespace Needle.Json

def itemsBefore (items : List Json) : List Token :=
  items.flatMap fun v => tokens v ++ [.comma]

def fieldsBefore (fields : List (Option String × Json)) : List Token :=
  fields.flatMap fun f => keyToken f.1 :: .colon :: (tokens f.2 ++ [.comma])

theorem itemTokens_concat (items : List Json) (v : Json) :
    itemTokens (items ++ [v]) = itemsBefore items ++ tokens v := by
  induction items with
  | nil => rfl
  | cons w items ih =>
      have more : itemTokens (w :: items ++ [v]) = tokens w ++ .comma :: itemTokens (items ++ [v]) := by
        cases items <;> rfl
      rw [more, ih]
      simp [itemsBefore]

theorem fieldTokens_concat (fields : List (Option String × Json)) (key : Option String) (v : Json) :
    fieldTokens (fields ++ [(key, v)]) = fieldsBefore fields ++ keyToken key :: .colon :: tokens v := by
  induction fields with
  | nil => rfl
  | cons f fields ih =>
      have more : fieldTokens (f :: fields ++ [(key, v)]) =
          keyToken f.1 :: .colon :: (tokens f.2 ++ .comma :: fieldTokens (fields ++ [(key, v)])) := by
        cases fields <;> rfl
      rw [more, ih]
      simp [fieldsBefore]

/-! ## What has been read -/

/-- The tokens up to a value that is to stand in these open arrays and objects. -/
def spentOpen : List Frame → List Token
  | [] => []
  | .items done :: stack => spentOpen stack ++ .openArray :: itemsBefore done.reverse
  | .fields done key :: stack =>
    spentOpen stack ++ .openObject :: (fieldsBefore done.reverse ++ [keyToken key, .colon])

def spent : Reading → List Token
  | .value stack => spentOpen stack
  | .firstItem stack => spentOpen stack ++ [.openArray]
  | .firstKey stack => spentOpen stack ++ [.openObject]
  | .key done stack => spentOpen stack ++ .openObject :: fieldsBefore done.reverse
  | .colon done key stack =>
    spentOpen stack ++ .openObject :: (fieldsBefore done.reverse ++ [keyToken key])
  | .after v stack => spentOpen stack ++ tokens v

theorem spent_readValue {stack : List Frame} {t : Token} {after : Reading}
    (moved : readValue stack t = some after) : spent after = spentOpen stack ++ [t] := by
  cases t <;> cases moved <;> rfl

theorem spent_readKey {done : List (Option String × Json)} {stack : List Frame} {t : Token}
    {after : Reading} (moved : readKey done stack t = some after) :
    spent after = spentOpen stack ++ .openObject :: (fieldsBefore done.reverse ++ [t]) := by
  cases t <;> cases moved <;> rfl

/-- A token that is taken is the next one of those that are accounted for. -/
theorem spent_read {before after : Reading} {t : Token} (moved : read before t = some after) :
    spent after = spent before ++ [t] := by
  unfold read at moved
  split at moved
  case h_1 stack => exact spent_readValue moved
  case h_2 stack =>
    cases moved
    simp [spent, tokens, itemTokens]
  case h_3 stack _ =>
    rw [spent_readValue moved]
    simp [spent, spentOpen, itemsBefore]
  case h_4 stack =>
    cases moved
    simp [spent, tokens, fieldTokens]
  case h_5 stack _ =>
    rw [spent_readKey moved]
    simp [spent, fieldsBefore]
  case h_6 done stack =>
    rw [spent_readKey moved]
    simp [spent]
  case h_7 done key stack =>
    cases moved
    simp [spent, spentOpen]
  case h_8 v done stack =>
    cases moved
    simp [spent, spentOpen, itemsBefore]
  case h_9 v done stack =>
    cases moved
    simp [spent, spentOpen, tokens, itemTokens_concat]
  case h_10 v done key stack =>
    cases moved
    simp [spent, spentOpen, fieldsBefore]
  case h_11 v done key stack =>
    cases moved
    simp [spent, spentOpen, tokens, fieldTokens_concat]
  case h_12 => contradiction

theorem readAll_none (ts : List Token) : readAll none ts = none := by
  induction ts with
  | nil => rfl
  | cons t ts ih => exact ih

theorem spent_readAll {before after : Reading} {ts : List Token}
    (moved : readAll (some before) ts = some after) : spent after = spent before ++ ts := by
  induction ts generalizing before with
  | nil =>
      cases moved
      simp
  | cons t ts ih =>
      rw [readAll_cons] at moved
      cases step : read before t with
      | none =>
          rw [step, readAll_none] at moved
          contradiction
      | some next =>
          rw [step] at moved
          rw [ih moved, spent_read step, List.append_assoc, List.singleton_append]

theorem complete?_eq_some {r : Reading} {v : Json} (complete : complete? r = some v) :
    r = .after v [] := by
  unfold complete? at complete
  split at complete
  case h_1 =>
    cases complete
    rfl
  case h_2 => contradiction

/-! ## Acceptance -/

/-- The reader accepts the tokens of a value, and nothing else. -/
theorem ofTokens?_eq_some_iff {ts : List Token} {v : Json} : ofTokens? ts = some v ↔ ts = tokens v := by
  constructor
  · intro accepted
    obtain ⟨last, moved, complete⟩ := Option.bind_eq_some_iff.mp accepted
    obtain rfl := complete?_eq_some complete
    exact (spent_readAll moved).symm
  · rintro rfl
    exact ofTokens?_tokens v

theorem tokens_injective {u v : Json} (same : tokens u = tokens v) : u = v := by
  have read := ofTokens?_tokens u
  rw [same, ofTokens?_tokens] at read
  exact (Option.some.inj read).symm

theorem ofTokens?_more (v : Json) (t : Token) (ts : List Token) :
    ofTokens? (tokens v ++ t :: ts) = none := by
  have ended : read (.after v []) t = none := by
    cases t <;> rfl
  rw [ofTokens?, completes, readAll_cons, ended, readAll_none]
  rfl

theorem tokens_append {u v : Json} {more : List Token} (same : tokens v = tokens u ++ more) :
    v = u ∧ more = [] := by
  cases more with
  | nil =>
      rw [List.append_nil] at same
      exact ⟨tokens_injective same, rfl⟩
  | cons t ts =>
      have nothing := ofTokens?_more u t ts
      rw [← same, ofTokens?_tokens] at nothing
      contradiction

/-! ## Numbers -/

def IsNumber : Json → Prop
  | .int _ => True
  | .fraction => True
  | _ => False

def Token.IsNumber : Token → Prop
  | .int _ => True
  | .fraction => True
  | _ => False

theorem tokens_of_isNumber {t : Token} (number : t.IsNumber) :
    ∃ v : Json, v.IsNumber ∧ tokens v = [t] := by
  cases t with
  | int i => exact ⟨.int i, trivial, rfl⟩
  | fraction => exact ⟨.fraction, trivial, rfl⟩
  | _ => exact number.elim

theorem isNumber_of_first {v : Json} {t : Token} {more : List Token} (number : t.IsNumber)
    (same : tokens v = t :: more) : v.IsNumber := by
  obtain ⟨w, isNumber, single⟩ := tokens_of_isNumber number
  have begins : tokens v = tokens w ++ more := by rw [same, single, List.singleton_append]
  obtain ⟨rfl, _⟩ := tokens_append begins
  exact isNumber

/-- A value whose tokens end with a number is that number: arrays and objects end otherwise. -/
theorem eq_nil_of_last {v : Json} {before : List Token} {t : Token} (number : t.IsNumber)
    (same : tokens v = before ++ [t]) : before = [] := by
  have scalar (s : Token) (single : [s] = before ++ [t]) : before = [] := by
    have length := congrArg List.length single
    rw [List.length_append] at length
    exact List.eq_nil_of_length_eq_zero (by simpa using length.symm)
  have ended (last : Token) (parts : List Token) (ends : parts ++ [last] = before ++ [t]) :
      last = t := by
    have lasts := congrArg List.getLast? ends
    simpa using lasts
  cases v with
  | arr items =>
      obtain rfl := ended .closeArray (.openArray :: itemTokens items) same
      exact number.elim
  | obj fields =>
      obtain rfl := ended .closeObject (.openObject :: fieldTokens fields) same
      exact number.elim
  | _ => exact scalar _ same

end Needle.Json
