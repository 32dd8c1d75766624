import Needle.Scan.Options

/-!
# Timeouts in whole seconds

A timeout is rounded up to whole seconds in the 64 bits of its seconds, and then cut to what the
engine can count. As long as the rounded timeout fits 64 bits, only no timeout and a timeout of zero
become 0, and a longer timeout becomes no smaller number. The timeouts that do not fit, those of the
greatest number of seconds and a fraction, become no number at all: the addition that rounds them up
dies.
-/
set_option autoImplicit false

namespace Needle

theorem checkedAdd_eq_ok_iff {a b sum : UInt64} :
    checkedAdd a b = .ok sum ↔ sum.toNat = a.toNat + b.toNat := by
  have word : sum.toNat < wordSize := sum.toNat_lt
  unfold checkedAdd
  split
  case isTrue small =>
    have whole : (a + b).toNat = a.toNat + b.toNat :=
      (UInt64.toNat_add a b).trans (Nat.mod_eq_of_lt small)
    rw [Except.ok.injEq, ← UInt64.toNat_inj, whole, eq_comm]
  case isFalse large =>
    constructor
    · nofun
    · omega

theorem checkedAdd_eq_error_iff {a b : UInt64} {text : String} :
    checkedAdd a b = .error text ↔
      text = additionOverflow ∧ wordSize ≤ a.toNat + b.toNat := by
  unfold checkedAdd
  split
  case isTrue small =>
    constructor
    · nofun
    · omega
  case isFalse large =>
    rw [Except.error.injEq, eq_comm, and_iff_left (Nat.le_of_not_lt large)]

namespace Duration

def length (d : Duration) : Nat := d.seconds.toNat * 1000000000 + d.nanos

def wholeSeconds (d : Duration) : Nat := (d.length + 999999999) / 1000000000

/-- So many whole seconds are enough, and no fewer. -/
theorem wholeSeconds_le_iff (d : Duration) (n : Nat) :
    d.wholeSeconds ≤ n ↔ d.length ≤ n * 1000000000 := by
  unfold wholeSeconds
  omega

theorem wholeSeconds_le {d e : Duration} (shorter : d.length ≤ e.length) :
    d.wholeSeconds ≤ e.wholeSeconds := by
  have enough : e.length ≤ e.wholeSeconds * 1000000000 :=
    (e.wholeSeconds_le_iff _).mp (Nat.le_refl _)
  exact (d.wholeSeconds_le_iff _).mpr (Nat.le_trans shorter enough)

theorem wholeSeconds_eq_zero_iff (d : Duration) : d.wholeSeconds = 0 ↔ d.length = 0 := by
  rw [← Nat.le_zero_eq, wholeSeconds_le_iff, Nat.zero_mul, Nat.le_zero_eq]

theorem wholeSeconds_eq (d : Duration) :
    d.wholeSeconds = d.seconds.toNat + if d.nanos = 0 then 0 else 1 := by
  have below := d.nanos_lt
  unfold wholeSeconds length
  split
  · omega
  · omega

theorem isZero_iff (d : Duration) : d.isZero = true ↔ d.length = 0 := by
  unfold isZero length
  rw [Bool.and_eq_true, beq_iff_eq, beq_iff_eq, ← UInt64.toNat_inj, UInt64.toNat_zero]
  omega

/-- The rounded span fits the 64 bits that it is computed in. -/
def Fits (d : Duration) : Prop := d.wholeSeconds < wordSize

theorem not_fits_iff (d : Duration) :
    ¬ d.Fits ↔ d.seconds.toNat = wordSize - 1 ∧ d.nanos ≠ 0 := by
  have below : d.seconds.toNat < wordSize := d.seconds.toNat_lt
  unfold Fits
  rw [wholeSeconds_eq]
  split
  · omega
  · omega

theorem fits_of_length_eq_zero {d : Duration} (zero : d.length = 0) : d.Fits := by
  unfold Fits
  rw [d.wholeSeconds_eq_zero_iff.mpr zero]
  decide

/-- The two words that rounding adds make the rounded span. -/
theorem toNat_seconds_add (d : Duration) :
    d.seconds.toNat + (if d.nanos = 0 then 0 else 1 : UInt64).toNat = d.wholeSeconds := by
  rw [wholeSeconds_eq]
  split
  · rfl
  · rfl

theorem ceilSeconds_eq_ok_iff {d : Duration} {seconds : UInt64} :
    d.ceilSeconds = .ok seconds ↔ seconds.toNat = d.wholeSeconds := by
  unfold ceilSeconds
  rw [checkedAdd_eq_ok_iff, toNat_seconds_add]

theorem ceilSeconds_eq_error_iff {d : Duration} {text : String} :
    d.ceilSeconds = .error text ↔ text = additionOverflow ∧ ¬ d.Fits := by
  unfold ceilSeconds Fits
  rw [checkedAdd_eq_error_iff, toNat_seconds_add, Nat.not_lt]

theorem ceilSeconds_of_fits {d : Duration} (fits : d.Fits) :
    ∃ seconds, d.ceilSeconds = .ok seconds ∧ seconds.toNat = d.wholeSeconds := by
  have same : (UInt64.ofNat d.wholeSeconds).toNat = d.wholeSeconds := UInt64.toNat_ofNat_of_lt fits
  exact ⟨_, ceilSeconds_eq_ok_iff.mpr same, same⟩

end Duration

namespace ScanOptions

theorem timeoutSecs_of_fits {d : Duration} (fits : d.Fits) (fastMode : Bool) :
    timeoutSecs ⟨fastMode, some d⟩ = .ok (min d.wholeSeconds Config.maxTimeout) := by
  unfold timeoutSecs
  dsimp only
  split
  case isTrue zero =>
    rw [d.wholeSeconds_eq_zero_iff.mpr (d.isZero_iff.mp zero), Nat.zero_min]
  case isFalse =>
    obtain ⟨seconds, rounded, same⟩ := Duration.ceilSeconds_of_fits fits
    rw [rounded, ← same]
    rfl

theorem timeoutSecs_of_not_fits {d : Duration} (wide : ¬ d.Fits) (fastMode : Bool) :
    timeoutSecs ⟨fastMode, some d⟩ = .error additionOverflow := by
  unfold timeoutSecs
  dsimp only
  split
  case isTrue zero => exact absurd (Duration.fits_of_length_eq_zero (d.isZero_iff.mp zero)) wide
  case isFalse =>
    rw [Duration.ceilSeconds_eq_error_iff.mpr ⟨rfl, wide⟩]
    rfl

/-- What the timeout of some options is for the engine, where 0 is no timeout. -/
structure Converts (o : ScanOptions) : Prop where
  rounded : ∀ d, o.timeout = some d → d.Fits →
    (∃ seconds, d.ceilSeconds = .ok seconds ∧ seconds.toNat = d.wholeSeconds) ∧
      o.timeoutSecs = .ok (min d.wholeSeconds Config.maxTimeout)
  zero : o.timeoutSecs = .ok 0 ↔ ∀ d, o.timeout = some d → d.length = 0
  monotone : ∀ d e, o.timeout = some d → e.Fits → d.length ≤ e.length →
    ∃ m n, o.timeoutSecs = .ok m ∧ timeoutSecs { o with timeout := some e } = .ok n ∧ m ≤ n
  /-- Converting dies of the spans that do not fit, and of no other ones. -/
  lost : ∀ text, o.timeoutSecs = .error text ↔ text = additionOverflow ∧
    ∃ d, o.timeout = some d ∧ d.seconds.toNat = wordSize - 1 ∧ d.nanos ≠ 0

theorem timeoutSecs_eq_zero_iff (d : Duration) (fastMode : Bool) :
    timeoutSecs ⟨fastMode, some d⟩ = .ok 0 ↔ d.length = 0 := by
  by_cases fits : d.Fits
  · have limit : 0 < Config.maxTimeout := by decide
    rw [timeoutSecs_of_fits fits, ← d.wholeSeconds_eq_zero_iff, Except.ok.injEq]
    omega
  · rw [timeoutSecs_of_not_fits fits]
    constructor
    · nofun
    · intro short
      exact absurd (Duration.fits_of_length_eq_zero short) fits

theorem timeoutSecs_eq_error_iff (d : Duration) (fastMode : Bool) (text : String) :
    timeoutSecs ⟨fastMode, some d⟩ = .error text ↔ text = additionOverflow ∧ ¬ d.Fits := by
  by_cases fits : d.Fits
  · rw [timeoutSecs_of_fits fits]
    simp [fits]
  · rw [timeoutSecs_of_not_fits fits, Except.error.injEq, eq_comm, and_iff_left fits]

/-- A timeout is rounded up to whole seconds and cut to what the engine can count, unless rounding
leaves the 64 bits. -/
theorem timeoutSecs_converts (o : ScanOptions) : o.Converts := by
  obtain ⟨fastMode, timeout⟩ := o
  cases timeout with
  | none =>
      refine ⟨nofun, ⟨fun _ => nofun, fun _ => rfl⟩, nofun, fun text => ⟨nofun, ?_⟩⟩
      rintro ⟨_, _, absent, _⟩
      cases absent
  | some d =>
      constructor
      case rounded =>
        rintro _ ⟨⟩ fits
        exact ⟨Duration.ceilSeconds_of_fits fits, timeoutSecs_of_fits fits fastMode⟩
      case zero =>
        rw [timeoutSecs_eq_zero_iff]
        constructor
        · rintro short _ ⟨⟩
          exact short
        · intro short
          exact short d rfl
      case monotone =>
        rintro _ e ⟨⟩ fits shorter
        have fewer := Duration.wholeSeconds_le shorter
        have also : d.Fits := Nat.lt_of_le_of_lt fewer fits
        refine ⟨_, _, timeoutSecs_of_fits also fastMode, timeoutSecs_of_fits fits fastMode, ?_⟩
        omega
      case lost =>
        intro text
        rw [timeoutSecs_eq_error_iff, d.not_fits_iff]
        constructor
        · rintro ⟨overflow, lost⟩
          exact ⟨overflow, d, rfl, lost⟩
        · rintro ⟨overflow, _, ⟨⟩, lost⟩
          exact ⟨overflow, lost⟩

/-- Of the shortest span that does not fit the conversion dies, though one that is shorter by a
nanosecond becomes the greatest timeout. -/
theorem timeoutSecs_of_the_shortest_lost_span :
    let d : Duration := ⟨18446744073709551615, 1, by decide⟩
    d.isZero = false ∧
      timeoutSecs { timeout := some d } = .error "attempt to add with overflow" ∧
      timeoutSecs { timeout := some ⟨d.seconds, 0, by decide⟩ } = .ok Config.maxTimeout :=
  ⟨rfl, rfl, rfl⟩

end ScanOptions

end Needle
