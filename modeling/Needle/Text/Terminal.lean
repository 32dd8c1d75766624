/-!
# Terminal control sequences

Some characters steer a terminal instead of showing: the control characters, and the sequences that
an escape character opens. `Terminal.plain` is a text without them, for readers that are no
terminal.

A sequence takes everything up to the character that ends it, and one that never ends takes the rest
of the text. White space is the exception: in an escape or control sequence it shows, and so does
what follows it, up to the next control character; there the sequence goes on.

Main statement: a text without control characters is its own plain form (`plain_eq_self`).
-/
set_option autoImplicit false

namespace Needle.Terminal

inductive Mode where
  | text
  /-- After an escape character. -/
  | escape
  /-- In an escape sequence, after a character that is not its last one. -/
  | escapeMore
  /-- In a control sequence, `ESC [`. -/
  | control
  /-- At the head of a device control string, `ESC P`. -/
  | device
  /-- Among the parameters of a device control string. -/
  | deviceParameters
  /-- Between the parameters and the final character of a device control string. -/
  | deviceMore
  /-- In a string that a terminator ends. -/
  | string
  /-- In an operating system command, `ESC ]`, which a bell ends. -/
  | command
deriving DecidableEq

def isBreak (c : Char) : Bool := c = '\t' || c = '\n' || c = '\r' || c.toNat = 0x0C

def isVisible (c : Char) : Bool := isBreak c || (0x20 ≤ c.toNat && c.toNat ≠ 0x7F)

def within (first last : Nat) (c : Char) : Bool := first ≤ c.toNat && c.toNat ≤ last

/-- The string terminator is a byte, so it also ends a string from within an encoded character. -/
def holdsTerminator (c : Char) : Bool := (String.utf8EncodeChar c).contains 0x9C

namespace Mode

def shows (m : Mode) (c : Char) : Bool :=
  match m with
  | .text => isVisible c
  | .escape | .escapeMore | .control => isBreak c
  | .device | .deviceParameters | .deviceMore | .string | .command => false

def advance (m : Mode) (c : Char) : Mode :=
  match m with
  | .text => .text
  | .escape =>
    if c = '[' then .control
    else if c = ']' then .command
    else if c = 'P' then .device
    else if c = 'X' || c = '^' || c = '_' then .string
    else if within 0x20 0x2F c then .escapeMore
    else if within 0x30 0x7E c then .text
    else .escape
  | .escapeMore => if within 0x30 0x7E c then .text else .escapeMore
  | .control => if within 0x40 0x7E c then .text else .control
  | .device =>
    if within 0x20 0x2F c then .deviceMore
    else if within 0x30 0x3F c then .deviceParameters
    else if within 0x40 0x7E c then .string
    else .device
  | .deviceParameters =>
    if within 0x20 0x2F c then .deviceMore
    else if within 0x3C 0x7E c then .string
    else .deviceParameters
  | .deviceMore => if within 0x30 0x7E c then .string else .deviceMore
  | .string => if holdsTerminator c then .text else .string
  | .command => if c.toNat = 0x07 then .text else .command

/-- The mode after a character that does not show: an escape opens a sequence in every mode, and
the characters for cancel and substitute end one. -/
def next (m : Mode) (c : Char) : Mode :=
  if c.toNat = 0x1B then .escape
  else if c.toNat = 0x18 || c.toNat = 0x1A then .text
  else m.advance c

end Mode

structure State where
  mode : Mode := .text
  showing : Bool := false
deriving DecidableEq

/-- Whether a character is shown, and the state after it. What follows a shown character is shown up
to a control character, in whatever mode; one beyond ASCII ends the sequence it stands in. -/
def State.step (s : State) (c : Char) : Bool × State :=
  if s.showing && isVisible c then
    (true, ⟨if c.toNat < 0x80 then s.mode else .text, true⟩)
  else if s.mode.shows c then (true, ⟨s.mode, true⟩)
  else (false, ⟨s.mode.next c, false⟩)

def shownFrom (s : State) : List Char → List Char
  | [] => []
  | c :: rest =>
    let (shown, s) := s.step c
    if shown then c :: shownFrom s rest else shownFrom s rest

def plain (text : String) : String := String.ofList (shownFrom {} text.toList)

theorem shownFrom_eq_self (showing : Bool) {cs : List Char}
    (h : ∀ c ∈ cs, isVisible c = true) : shownFrom ⟨.text, showing⟩ cs = cs := by
  induction cs generalizing showing with
  | nil => rfl
  | cons c rest ih =>
    have hc : isVisible c = true := h c List.mem_cons_self
    have hrest : shownFrom ⟨.text, true⟩ rest = rest :=
      ih true fun d hd => h d (List.mem_cons_of_mem c hd)
    cases showing <;> simp [shownFrom, State.step, Mode.shows, hc, hrest]

theorem plain_eq_self {text : String} (h : ∀ c ∈ text.toList, isVisible c = true) :
    plain text = text := by
  rw [plain, shownFrom_eq_self false h, String.ofList_toList]

end Needle.Terminal
