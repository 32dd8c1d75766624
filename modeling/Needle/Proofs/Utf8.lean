import Needle.Text.Utf8

/-!
# Reading encoded text

Whatever text is encoded, the machine reads back exactly its characters, so nothing in it is broken
and the lossy form shows it unchanged. One lemma for each kind of leading byte gives what the byte
begins; the four widths of a character are then composed from them.
-/
set_option autoImplicit false

namespace Needle.Utf8

theorem opening_ascii (b : UInt8) (small : b.toNat < 0x80) :
    opening b = .whole (Char.ofNat b.toNat) := by
  have below : b < 0x80 := UInt8.lt_iff_toNat_lt.mpr small
  rw [opening, if_pos below]

theorem opening_two (b : UInt8) (low : 0xC2 ≤ b.toNat) (high : b.toNat < 0xE0) :
    opening b = .begun ⟨b.toNat - 0xC0, 0x80, 0xBF, 0⟩ := by
  have notAscii : ¬ b < 0x80 := by rw [UInt8.lt_iff_toNat_lt]; simp; omega
  have notStray : ¬ b < 0xC2 := by rw [UInt8.lt_iff_toNat_lt]; simp; omega
  have two : b < 0xE0 := UInt8.lt_iff_toNat_lt.mpr high
  rw [opening, if_neg notAscii, if_neg notStray, if_pos two]

theorem opening_three (b : UInt8) (low : 0xE0 ≤ b.toNat) (high : b.toNat < 0xF0) :
    opening b = .begun ⟨b.toNat - 0xE0, if b.toNat = 0xE0 then 0xA0 else 0x80,
      if b.toNat = 0xED then 0x9F else 0xBF, 1⟩ := by
  have notAscii : ¬ b < 0x80 := by rw [UInt8.lt_iff_toNat_lt]; simp; omega
  have notStray : ¬ b < 0xC2 := by rw [UInt8.lt_iff_toNat_lt]; simp; omega
  have notTwo : ¬ b < 0xE0 := by rw [UInt8.lt_iff_toNat_lt]; simp; omega
  have three : b < 0xF0 := UInt8.lt_iff_toNat_lt.mpr high
  rw [opening, if_neg notAscii, if_neg notStray, if_neg notTwo, if_pos three]
  simp only [← UInt8.toNat_inj, UInt8.reduceToNat]

theorem opening_four (b : UInt8) (low : 0xF0 ≤ b.toNat) (high : b.toNat < 0xF5) :
    opening b = .begun ⟨b.toNat - 0xF0, if b.toNat = 0xF0 then 0x90 else 0x80,
      if b.toNat = 0xF4 then 0x8F else 0xBF, 2⟩ := by
  have notAscii : ¬ b < 0x80 := by rw [UInt8.lt_iff_toNat_lt]; simp; omega
  have notStray : ¬ b < 0xC2 := by rw [UInt8.lt_iff_toNat_lt]; simp; omega
  have notTwo : ¬ b < 0xE0 := by rw [UInt8.lt_iff_toNat_lt]; simp; omega
  have notThree : ¬ b < 0xF0 := by rw [UInt8.lt_iff_toNat_lt]; simp; omega
  have four : b < 0xF5 := UInt8.lt_iff_toNat_lt.mpr high
  rw [opening, if_neg notAscii, if_neg notStray, if_neg notTwo, if_neg notThree, if_pos four]
  simp only [← UInt8.toNat_inj, UInt8.reduceToNat]

theorem step_begins (read : List Symbol) (b : UInt8) (p : Pending) (begun : opening b = .begun p) :
    Machine.step ⟨read, none⟩ b = ⟨read, some p⟩ := by
  simp only [Machine.step, Machine.enter, begun]

theorem step_completes (read : List Symbol) (value : Nat) (low high b : UInt8)
    (above : low.toNat ≤ b.toNat) (below : b.toNat ≤ high.toNat) :
    Machine.step ⟨read, some ⟨value, low, high, 0⟩⟩ b =
      ⟨some (Char.ofNat (value * 64 + (b.toNat - 0x80))) :: read, none⟩ := by
  have within : low ≤ b ∧ b ≤ high :=
    ⟨UInt8.le_iff_toNat_le.mpr above, UInt8.le_iff_toNat_le.mpr below⟩
  simp only [Machine.step, if_pos within]

theorem step_continues (read : List Symbol) (value owed : Nat) (low high b : UInt8)
    (above : low.toNat ≤ b.toNat) (below : b.toNat ≤ high.toNat) :
    Machine.step ⟨read, some ⟨value, low, high, owed + 1⟩⟩ b =
      ⟨read, some ⟨value * 64 + (b.toNat - 0x80), 0x80, 0xBF, owed⟩⟩ := by
  have within : low ≤ b ∧ b ≤ high :=
    ⟨UInt8.le_iff_toNat_le.mpr above, UInt8.le_iff_toNat_le.mpr below⟩
  simp only [Machine.step, if_pos within]

/-! ## The four widths -/

theorem toNat_marked (x mark : Nat) (small : x + mark < 256) :
    (UInt8.ofNat (x + mark)).toNat = x + mark := by
  rw [UInt8.toNat_ofNat']
  exact Nat.mod_eq_of_lt small

theorem read_one (read : List Symbol) (v : Nat) (high : v ≤ 0x7f) :
    [UInt8.ofNat v].foldl Machine.step ⟨read, none⟩ = ⟨some (Char.ofNat v) :: read, none⟩ := by
  have byte : (UInt8.ofNat v).toNat = v := toNat_marked v 0 (by omega)
  simp only [List.foldl_cons, List.foldl_nil, Machine.step, Machine.enter]
  rw [opening_ascii _ (by omega), byte]

theorem read_two (read : List Symbol) (v : Nat) (low : 0x7f < v) (high : v ≤ 0x7ff) :
    [UInt8.ofNat (v / 64 % 32 + 0xc0), UInt8.ofNat (v % 64 + 0x80)].foldl Machine.step
      ⟨read, none⟩ = ⟨some (Char.ofNat v) :: read, none⟩ := by
  have lead := toNat_marked (v / 64 % 32) 0xc0 (by omega)
  have last := toNat_marked (v % 64) 0x80 (by omega)
  generalize UInt8.ofNat (v / 64 % 32 + 0xc0) = leadByte at lead
  generalize UInt8.ofNat (v % 64 + 0x80) = lastByte at last
  have joined : (leadByte.toNat - 0xC0) * 64 + (lastByte.toNat - 0x80) = v := by omega
  simp only [List.foldl_cons, List.foldl_nil]
  rw [step_begins read leadByte _ (opening_two leadByte (by omega) (by omega)),
    step_completes _ _ _ _ _ (by simp; omega) (by simp; omega), joined]

theorem read_three (read : List Symbol) (v : Nat) (low : 0x7ff < v) (high : v ≤ 0xffff)
    (valid : v < 0xD800 ∨ 0xDFFF < v) :
    [UInt8.ofNat (v / 4096 % 16 + 0xe0), UInt8.ofNat (v / 64 % 64 + 0x80),
      UInt8.ofNat (v % 64 + 0x80)].foldl Machine.step ⟨read, none⟩ =
      ⟨some (Char.ofNat v) :: read, none⟩ := by
  have lead := toNat_marked (v / 4096 % 16) 0xe0 (by omega)
  have second := toNat_marked (v / 64 % 64) 0x80 (by omega)
  have last := toNat_marked (v % 64) 0x80 (by omega)
  generalize UInt8.ofNat (v / 4096 % 16 + 0xe0) = leadByte at lead
  generalize UInt8.ofNat (v / 64 % 64 + 0x80) = secondByte at second
  generalize UInt8.ofNat (v % 64 + 0x80) = lastByte at last
  have joined : ((leadByte.toNat - 0xE0) * 64 + (secondByte.toNat - 0x80)) * 64 +
      (lastByte.toNat - 0x80) = v := by omega
  simp only [List.foldl_cons, List.foldl_nil]
  rw [step_begins read leadByte _ (opening_three leadByte (by omega) (by omega)),
    step_continues _ _ _ _ _ secondByte ?above ?below,
    step_completes _ _ _ _ _ (by simp; omega) (by simp; omega), joined]
  case above => split <;> simp <;> omega
  case below => split <;> simp <;> omega

theorem read_four (read : List Symbol) (v : Nat) (low : 0xffff < v) (high : v < 0x110000) :
    [UInt8.ofNat (v / 262144 % 8 + 0xf0), UInt8.ofNat (v / 4096 % 64 + 0x80),
      UInt8.ofNat (v / 64 % 64 + 0x80), UInt8.ofNat (v % 64 + 0x80)].foldl Machine.step
      ⟨read, none⟩ = ⟨some (Char.ofNat v) :: read, none⟩ := by
  have lead := toNat_marked (v / 262144 % 8) 0xf0 (by omega)
  have second := toNat_marked (v / 4096 % 64) 0x80 (by omega)
  have third := toNat_marked (v / 64 % 64) 0x80 (by omega)
  have last := toNat_marked (v % 64) 0x80 (by omega)
  generalize UInt8.ofNat (v / 262144 % 8 + 0xf0) = leadByte at lead
  generalize UInt8.ofNat (v / 4096 % 64 + 0x80) = secondByte at second
  generalize UInt8.ofNat (v / 64 % 64 + 0x80) = thirdByte at third
  generalize UInt8.ofNat (v % 64 + 0x80) = lastByte at last
  have joined : (((leadByte.toNat - 0xF0) * 64 + (secondByte.toNat - 0x80)) * 64 +
      (thirdByte.toNat - 0x80)) * 64 + (lastByte.toNat - 0x80) = v := by omega
  simp only [List.foldl_cons, List.foldl_nil]
  rw [step_begins read leadByte _ (opening_four leadByte (by omega) (by omega)),
    step_continues _ _ _ _ _ secondByte ?above ?below,
    step_continues _ _ _ _ _ thirdByte (by simp; omega) (by simp; omega),
    step_completes _ _ _ _ _ (by simp; omega) (by simp; omega), joined]
  case above => split <;> simp <;> omega
  case below => split <;> simp <;> omega

/-! ## Texts -/

theorem read_character (read : List Symbol) (c : Char) :
    (String.utf8EncodeChar c).foldl Machine.step ⟨read, none⟩ = ⟨some c :: read, none⟩ := by
  have whole : Char.ofNat c.val.toNat = c := Char.ofNat_toNat c
  have valid : c.val.toNat < 0xD800 ∨ 0xDFFF < c.val.toNat ∧ c.val.toNat < 0x110000 := c.valid
  rw [String.utf8EncodeChar]
  generalize c.val.toNat = v at whole valid
  by_cases one : v ≤ 0x7f
  · simp only [if_pos one, read_one read v one, whole]
  by_cases two : v ≤ 0x7ff
  · simp only [if_neg one, if_pos two, read_two read v (by omega) two, whole]
  by_cases three : v ≤ 0xffff
  · simp only [if_neg one, if_neg two, if_pos three,
      read_three read v (by omega) three (by omega), whole]
  · simp only [if_neg one, if_neg two, if_neg three, read_four read v (by omega) (by omega), whole]

theorem read_characters (chars : List Char) (read : List Symbol) :
    (chars.flatMap String.utf8EncodeChar).foldl Machine.step ⟨read, none⟩ =
      ⟨(chars.map some).reverse ++ read, none⟩ := by
  induction chars generalizing read with
  | nil => rfl
  | cons c rest ih =>
      rw [List.flatMap_cons, List.foldl_append, read_character, ih]
      simp

/-- The symbols of an encoded text are its characters. -/
theorem symbols_encode (text : String) : symbols (encode text) = text.toList.map some := by
  rw [symbols, encode, read_characters]
  simp [Machine.finish]

theorem lossy_encode (text : String) : lossy (encode text) = text := by
  rw [lossy, symbols_encode, List.map_map]
  have same : ((fun s : Symbol => s.getD replacement) ∘ some) = id := rfl
  rw [same, List.map_id, String.ofList_toList]

theorem encode_injective {first second : String} (same : encode first = encode second) :
    first = second := by
  rw [← lossy_encode first, same, lossy_encode]

theorem decode?_encode (text : String) : decode? (encode text) = some text := by
  have whole : chars? (text.toList.map some) = some text.toList := by
    simp [chars?, List.all_map, List.filterMap_map]
  rw [decode?, symbols_encode, whole, Option.map_some, String.ofList_toList]

theorem encodeChar_ascii {c : Char} (small : c.toNat < 0x80) :
    String.utf8EncodeChar c = [UInt8.ofNat c.toNat] := by
  have one : c.val.toNat ≤ 0x7f := Nat.le_of_lt_succ small
  rw [String.utf8EncodeChar]
  exact if_pos one

/-- A text of ASCII characters has one byte for each of them. -/
theorem encode_ascii {text : String} (ascii : ∀ c ∈ text.toList, c.toNat < 0x80) :
    encode text = text.toList.map fun c => UInt8.ofNat c.toNat := by
  have each : text.toList.map String.utf8EncodeChar =
      text.toList.map fun c => [UInt8.ofNat c.toNat] :=
    List.map_congr_left fun c member => encodeChar_ascii (ascii c member)
  rw [encode, List.flatMap_def, each, ← List.flatMap_def, ← List.map_eq_flatMap]

end Needle.Utf8
