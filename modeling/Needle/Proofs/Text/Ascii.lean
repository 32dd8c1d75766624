import Needle.Proofs.Utf8

/-!
# Bytes of plain characters

Bytes after which no character is owed can be read apart from those that follow. A byte that is no
plain character by itself always leaves a symbol that is none either, so where all symbols are plain
there is one byte for each of them.
-/
set_option autoImplicit false

namespace Needle.Utf8

theorem step_older (m : Machine) (older : List Symbol) (b : UInt8) :
    Machine.step ⟨m.read ++ older, m.pending⟩ b =
      ⟨(m.step b).read ++ older, (m.step b).pending⟩ := by
  have entered (read : List Symbol) : Machine.enter (read ++ older) b =
      ⟨(Machine.enter read b).read ++ older, (Machine.enter read b).pending⟩ := by
    unfold Machine.enter
    cases opening b <;> rfl
  obtain ⟨read, pending⟩ := m
  unfold Machine.step
  cases pending with
  | none => exact entered read
  | some p =>
      dsimp only
      split
      case isTrue =>
        cases p.owed <;> rfl
      case isFalse => exact entered (none :: read)

theorem foldl_older (bytes : Bytes) (m : Machine) (older : List Symbol) :
    bytes.foldl Machine.step ⟨m.read ++ older, m.pending⟩ =
      ⟨(bytes.foldl Machine.step m).read ++ older, (bytes.foldl Machine.step m).pending⟩ := by
  induction bytes generalizing m with
  | nil => rfl
  | cons b rest ih =>
      rw [List.foldl_cons, step_older, ih]
      rfl

theorem finish_older (m : Machine) (older : List Symbol) :
    Machine.finish ⟨m.read ++ older, m.pending⟩ = older.reverse ++ m.finish := by
  unfold Machine.finish
  cases m.pending <;> simp

theorem symbols_append {first : Bytes} (whole : (first.foldl Machine.step ⟨[], none⟩).pending = none)
    (second : Bytes) : symbols (first ++ second) = symbols first ++ symbols second := by
  obtain ⟨⟨read, pending⟩, reached⟩ : ∃ m, m = first.foldl Machine.step ⟨[], none⟩ := ⟨_, rfl⟩
  rw [← reached] at whole
  obtain rfl : pending = none := whole
  have later := foldl_older second ⟨[], none⟩ read
  rw [List.nil_append] at later
  rw [symbols, symbols, symbols, List.foldl_append, ← reached, later, finish_older]
  rfl

theorem mem_finish {m : Machine} {s : Symbol} (member : s ∈ m.read) (bytes : Bytes) :
    s ∈ (bytes.foldl Machine.step m).finish := by
  have later := foldl_older bytes ⟨[], m.pending⟩ m.read
  rw [List.nil_append] at later
  rw [later, finish_older]
  exact List.mem_append_left _ (List.mem_reverse.mpr member)

/-! ## Plain characters -/

/-- An ASCII character other than NUL, which also stands for the numbers of no character. -/
def Ascii (s : Symbol) : Prop := ∃ c : Char, s = some c ∧ 0 < c.toNat ∧ c.toNat < 0x80

theorem not_ascii_none : ¬Ascii none := by
  rintro ⟨_, none, _⟩
  contradiction

theorem toNat_ofNat_of_valid {v : Nat} (valid : v.isValidChar) : (Char.ofNat v).toNat = v := by
  rw [Char.ofNat, dif_pos valid]
  rfl

theorem not_ascii_ofNat {v : Nat} (past : 0x80 ≤ v) : ¬Ascii (some (Char.ofNat v)) := by
  rintro ⟨c, same, positive, small⟩
  obtain rfl := Option.some.inj same
  by_cases valid : v.isValidChar
  · rw [toNat_ofNat_of_valid valid] at small
    omega
  · have nul : (Char.ofNat v).toNat = 0 := by
      rw [Char.ofNat, dif_neg valid]
      rfl
    omega

/-- Whatever bytes complete it, the character that has begun is not a plain one. -/
structure Pending.Heavy (p : Pending) : Prop where
  next : 2 ≤ p.value * 64 + (p.low.toNat - 0x80)
  last : p.owed = 0 → 0x80 ≤ p.value * 64 + (p.low.toNat - 0x80)

theorem opening_of_large {b : UInt8} (large : 0x80 ≤ b.toNat) :
    opening b = .stray ∨ ∃ p, opening b = .begun p ∧ p.Heavy := by
  have byte : b.toNat < 256 := b.toNat_lt
  by_cases stray : b.toNat < 0xC2 ∨ 0xF5 ≤ b.toNat
  · refine .inl ?_
    unfold opening
    simp only [UInt8.lt_iff_toNat_lt, UInt8.reduceToNat]
    rcases stray with low | high
    · rw [if_neg (by omega), if_pos low]
    · rw [if_neg (by omega), if_neg (by omega), if_neg (by omega), if_neg (by omega),
        if_neg (by omega)]
  refine .inr ?_
  by_cases two : b.toNat < 0xE0
  · refine ⟨_, opening_two b (by omega) two, ?_⟩
    constructor <;> simp <;> omega
  by_cases three : b.toNat < 0xF0
  · refine ⟨_, opening_three b (by omega) three, ?_, by simp⟩
    dsimp only
    split
    · simp
    · simp
      omega
  · refine ⟨_, opening_four b (by omega) (by omega), ?_, by simp⟩
    dsimp only
    split
    · simp
    · simp
      omega

/-- A character that has begun leaves a symbol that is not plain, whether it is completed or not. -/
theorem exists_not_ascii {p : Pending} (heavy : p.Heavy) (bytes : Bytes) (read : List Symbol) :
    ∃ s ∈ (bytes.foldl Machine.step ⟨read, some p⟩).finish, ¬Ascii s := by
  induction bytes generalizing p with
  | nil => exact ⟨none, by simp [Machine.finish], not_ascii_none⟩
  | cons b rest ih =>
      rw [List.foldl_cons]
      by_cases within : p.low ≤ b ∧ b ≤ p.high
      · have above : p.low.toNat ≤ b.toNat := UInt8.le_iff_toNat_le.mp within.1
        have next := heavy.next
        obtain ⟨value, low, high, owed⟩ := p
        cases owed with
        | zero =>
            have last := heavy.last rfl
            refine ⟨some (Char.ofNat (value * 64 + (b.toNat - 0x80))), mem_finish ?_ rest,
              not_ascii_ofNat ?_⟩
            · simp only [Machine.step, if_pos within]
              exact List.mem_cons_self
            · dsimp only at last above
              omega
        | succ owed =>
            have grown : Pending.Heavy ⟨value * 64 + (b.toNat - 0x80), 0x80, 0xBF, owed⟩ := by
              dsimp only at next above
              constructor <;> simp <;> omega
            simp only [Machine.step, if_pos within]
            exact ih grown
      · refine ⟨none, mem_finish ?_ rest, not_ascii_none⟩
        simp only [Machine.step, if_neg within]
        unfold Machine.enter
        cases opening b <;> simp

theorem symbols_of_ascii {bytes : Bytes} (plain : ∀ s ∈ symbols bytes, Ascii s) :
    symbols bytes = bytes.map fun b => some (Char.ofNat b.toNat) := by
  induction bytes with
  | nil => rfl
  | cons b rest ih =>
      have begins : symbols (b :: rest) =
          (rest.foldl Machine.step (Machine.enter [] b)).finish := rfl
      by_cases small : b.toNat < 0x80
      · have first : [b].foldl Machine.step ⟨[], none⟩ = ⟨[some (Char.ofNat b.toNat)], none⟩ := by
          simp only [List.foldl_cons, List.foldl_nil, Machine.step, Machine.enter,
            opening_ascii b small]
        have alone : symbols [b] = [some (Char.ofNat b.toNat)] := by
          rw [symbols, first]
          rfl
        have apart : symbols ([b] ++ rest) = symbols [b] ++ symbols rest :=
          symbols_append (by rw [first]) rest
        rw [List.singleton_append, alone] at apart
        rw [apart] at plain
        rw [apart, ih fun s member => plain s (List.mem_append_right _ member)]
        rfl
      · rcases opening_of_large (Nat.le_of_not_lt small) with stray | ⟨p, begun, heavy⟩
        · refine absurd (plain none ?_) not_ascii_none
          rw [begins, Machine.enter, stray]
          exact mem_finish List.mem_cons_self rest
        · obtain ⟨s, member, other⟩ := exists_not_ascii heavy rest []
          refine absurd (plain s ?_) other
          rw [begins, Machine.enter, begun]
          exact member

end Needle.Utf8
