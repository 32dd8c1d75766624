/-!
# Blanks, words and lines

Blanks are the characters with the Unicode property White_Space. A text is cut at single characters
by `split`, which gives one piece more than there are cuts; words are its non-empty pieces between
blanks, lines its pieces between line feeds.
-/
set_option autoImplicit false

namespace Needle.Text

/-- The Unicode property White_Space. -/
def isBlank (c : Char) : Bool :=
  let n := c.toNat
  (0x9 ≤ n && n ≤ 0xD) || n == 0x20 || n == 0x85 || n == 0xA0 || n == 0x1680
    || (0x2000 ≤ n && n ≤ 0x200A) || n == 0x2028 || n == 0x2029 || n == 0x202F
    || n == 0x205F || n == 0x3000

def splitStep (cut : Char → Bool) (c : Char) : List (List Char) → List (List Char)
  -- From the right: a cut opens a new first piece, any other character joins it.
  | [] => if cut c then [[], []] else [[c]]
  | piece :: pieces => if cut c then [] :: piece :: pieces else (c :: piece) :: pieces

def split (cut : Char → Bool) (text : List Char) : List (List Char) :=
  text.foldr (splitStep cut) [[]]

def words (text : List Char) : List (List Char) :=
  (split isBlank text).filter (fun word => !word.isEmpty)

def lines (text : List Char) : List (List Char) :=
  split (· == '\n') text

def cutAt (c : Char) (text : List Char) : Option (List Char × List Char) :=
  match text.span (· != c) with
  | (_, []) => none
  | (before, _ :: after) => some (before, after)

end Needle.Text
