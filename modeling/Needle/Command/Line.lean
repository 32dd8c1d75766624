import Needle.Command.Given

/-!
# Reading a command line

The arguments are read from left to right. A word that names a verb opens that verb, and what
follows belongs to it. A switch of one dash may share its dash with others; its value is the rest
of the word or, if there is none, the next word that does not look like a switch. A switch of two
dashes has its value after `=` or in the next word. Everything behind `--` is positional.

Values are taken over as late as the next switch, so which of two faults is reported depends on
where the first is taken over. What belongs to an inner verb is judged before what is left of the
outer one.
-/
set_option autoImplicit false

namespace Needle

inductive Shape where
  | divider
  /-- Two dashes, a name, and perhaps `=` and a value. -/
  | long (name : Bytes) (value : Option Bytes)
  /-- One dash and the letters of switches. -/
  | cluster (letters : Bytes)
  | plain
deriving DecidableEq

namespace Shape

def dash : UInt8 := 0x2D

def equals : UInt8 := 0x3D

def split (word : Bytes) : Bytes × Option Bytes :=
  match word.span (· != equals) with
  | (name, []) => (name, none)
  | (name, _ :: value) => (name, some value)

def ofWord (word : Bytes) : Shape :=
  match word with
  | a :: b :: rest =>
    if a ≠ dash then .plain
    else if b ≠ dash then .cluster (b :: rest)
    else if rest.isEmpty then .divider
    else
      let (name, value) := split rest
      .long name value
  -- A lone dash is plain.
  | _ => .plain

end Shape

/-- The reading of one verb's arguments. -/
structure LineState where
  given : Given := {}
  /-- An argument whose values have not been taken over yet; a switch that still waits for its value
  has none. -/
  pending : Option (Key × List Bytes) := none
  literal : Bool := false
deriving DecidableEq

namespace LineState

def settle (s : LineState) : Except Usage LineState :=
  match s.pending with
  | none => .ok s
  | some (key, raws) => (s.given.take raws key).map fun g => { s with given := g, pending := none }

/-- Takes over the values of a switch that is complete. -/
def apply (s : LineState) (key : Key) (raws : List Bytes) : Except Usage LineState := do
  let s ← s.settle
  let g ← s.given.take raws key
  pure { s with given := g }

def await (s : LineState) (key : Key) : Except Usage LineState :=
  s.settle.map fun s => { s with pending := some (key, []) }

def waiting? (s : LineState) : Option Key :=
  match s.pending with
  | some (key, []) => some key
  | _ => none

def readLong (v : Verb) (s : LineState) (name : Bytes) (value : Option Bytes) :
    Except Usage LineState :=
  match v.switches.find? fun sw => Utf8.encode sw.long == name with
  | none => .error .unknownArgument
  | some sw =>
    match sw.takesValue, value with
    | true, some raw => s.apply sw.key [raw]
    | true, none => s.await sw.key
    | false, some _ => .error .surplusValue
    | false, none => s.apply sw.key []

def switchOf (v : Verb) (letter : UInt8) : Option Switch :=
  v.switches.find? fun sw => sw.short.any fun c => c.toNat == letter.toNat

def readCluster (v : Verb) (s : LineState) : Bytes → Except Usage LineState
  | [] => .ok s
  | letter :: rest =>
    match switchOf v letter with
    | none => .error .unknownArgument
    | some sw =>
      if sw.takesValue then
        match rest with
        | [] => s.await sw.key
        | b :: value => s.apply sw.key [if b = Shape.equals then value else b :: value]
      else (s.apply sw.key []).bind fun s => readCluster v s rest

def isVerbWord (v : Verb) (word : Bytes) : Bool :=
  !v.verbs.isEmpty &&
    (word == Utf8.encode Verb.helpWord || v.verbs.any fun (name, _) => Utf8.encode name == word)

def readPositional (v : Verb) (s : LineState) (word : Bytes) : Except Usage LineState :=
  match v.positional? with
  | some key =>
    match s.pending with
    | some (k, raws) =>
      if k = key then .ok { s with pending := some (key, raws ++ [word]) }
      else s.settle.map fun s => { s with pending := some (key, [word]) }
    | none => .ok { s with pending := some (key, [word]) }
  | none =>
    if v.verbs.isEmpty || (s.literal && isVerbWord v word) then .error .unknownArgument
    else .error .unknownVerb

def readWord (v : Verb) (s : LineState) (word : Bytes) : Except Usage LineState :=
  if s.literal then s.readPositional v word
  else
    match Shape.ofWord word with
    | .divider => .ok { s with literal := true }
    | .long name value => s.readLong v name value
    | .cluster letters => s.readCluster v letters
    | .plain =>
      match s.waiting? with
      | some key => .ok { s with pending := some (key, [word]) }
      | none => s.readPositional v word

def close (v : Verb) (s : LineState) (inner : Request) : Except Usage Request :=
  s.settle.bind fun s => s.given.request v inner

/-- Whether a word that names a verb opens it. -/
def opensVerbs (s : LineState) : Bool := !s.literal && s.waiting?.isNone

end LineState

namespace Verb

def named? (v : Verb) (word : Bytes) : Option Verb :=
  (v.verbs.find? fun (name, _) => Utf8.encode name == word).map Prod.snd

/-- Help on the verb that the words lead to. The verb for help is itself such a verb, with nothing
below it. -/
def helpOn (v : Verb) : List Bytes → Usage
  | [] => .help
  | word :: rest =>
    match v.named? word with
    | some inner => helpOn inner rest
    | none =>
      if LineState.isVerbWord v word && rest.isEmpty then .help else .unknownVerb

end Verb

namespace Request

def read (v : Verb) (s : LineState) : List Bytes → Except Usage Request
  | [] => s.close v {}
  | word :: rest =>
    if s.opensVerbs && LineState.isVerbWord v word then
      match v.named? word with
      | some inner => (read inner {} rest).bind (s.close v)
      | none => .error (v.helpOn rest)
    else (s.readWord v word).bind fun s => read v s rest

def ofArguments (arguments : List Bytes) : Except Usage Request :=
  read .program {} arguments

end Request

end Needle
