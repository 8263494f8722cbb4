/-!
# White space

The characters that count as white space, and the operations on text that depend on them:
trimming, cutting a text into pieces at a separator, words and lines.

Texts are lists of characters here, so that every operation is a recursion on the text.
-/

namespace ServiceDocs.Text

/-! ### Blank characters -/

/-- The characters of the Unicode property `White_Space`. -/
def isBlank (c : Char) : Bool :=
  let n := c.toNat
  n = 0x20 || (0x09 ≤ n && n ≤ 0x0D) || n = 0x85 || n = 0xA0 || n = 0x1680
    || (0x2000 ≤ n && n ≤ 0x200A) || n = 0x2028 || n = 0x2029 || n = 0x202F || n = 0x205F
    || n = 0x3000

/-- Remove leading white space. -/
def trimLeft (cs : List Char) : List Char :=
  cs.dropWhile isBlank

/-- Remove trailing white space. -/
def trimRight (cs : List Char) : List Char :=
  (cs.reverse.dropWhile isBlank).reverse

/-- Remove white space at both ends. -/
def trim (cs : List Char) : List Char :=
  trimRight (trimLeft cs)

/-! ### Pieces between separators -/

/-- Put a character in front of the first piece. -/
def consHead (c : Char) : List (List Char) → List (List Char)
  | []      => [[c]]
  | w :: ws => (c :: w) :: ws

/-- The pieces of a text between the characters that satisfy `p`, empty pieces included. -/
def pieces (p : Char → Bool) : List Char → List (List Char)
  | []      => [[]]
  | c :: cs => if p c then [] :: pieces p cs else consHead c (pieces p cs)

/-- The lines of a text, without their line ends: a line feed, or a carriage return and a line feed.
Behind the last line end there is no line, unless there is more text. -/
def endedLines : List Char → List (List Char)
  | []                 => []
  | '\r' :: '\n' :: cs => [] :: endedLines cs
  | '\n' :: cs         => [] :: endedLines cs
  | c :: cs            => consHead c (endedLines cs)

/-- The words of a text: its longest runs without white space. -/
def words (cs : List Char) : List (List Char) :=
  (pieces isBlank cs).filter (fun w => !w.isEmpty)

/-- Join texts with a separator between them. -/
def join (sep : List Char) : List (List Char) → List Char
  | []           => []
  | [w]          => w
  | w :: v :: ws => w ++ sep ++ join sep (v :: ws)

/-- The words of a text with single spaces between them. -/
def flatten (cs : List Char) : List Char :=
  join [' '] (words cs)

/-- The text behind the last occurrence of `c`, or the whole text if there is none. -/
def afterLast (c : Char) (cs : List Char) : List Char :=
  (pieces (· = c) cs).getLastD cs

/-! ### Parts of a text -/

/-- Remove `start` from the beginning of a text, if the text begins with it. -/
def dropStart? (start cs : List Char) : Option (List Char) :=
  if start.isPrefixOf cs then some (cs.drop start.length) else none

/-- Remove `stop` from the end of a text, if the text ends with it. -/
def dropEnd? (stop cs : List Char) : Option (List Char) :=
  if stop.isSuffixOf cs then some (cs.take (cs.length - stop.length)) else none

/-- Put a text in the place of the occurrences of `pattern`, from left to right; `skip` characters
of the occurrence that has been found are still to be passed over. -/
def replaceFrom (pattern text : List Char) : Nat → List Char → List Char
  | _,        []      => []
  | skip + 1, _ :: cs => replaceFrom pattern text skip cs
  | 0,        c :: cs =>
    if pattern.isPrefixOf (c :: cs) then text ++ replaceFrom pattern text (pattern.length - 1) cs
    else c :: replaceFrom pattern text 0 cs

/-- Put a text in the place of every occurrence of a nonempty pattern. -/
def replace (pattern text : List Char) : List Char → List Char :=
  replaceFrom pattern text 0

/-- Remove every occurrence of a nonempty pattern. -/
def erase (pattern : List Char) : List Char → List Char :=
  replace pattern []

/-- The first word and the trimmed text behind the first white space. -/
def splitTag (cs : List Char) : List Char × List Char :=
  (cs.takeWhile (fun c => !isBlank c), trim ((cs.dropWhile (fun c => !isBlank c)).drop 1))

/-! ### Equations -/

@[simp] theorem trimLeft_nil : trimLeft [] = [] := rfl

@[simp] theorem trim_nil : trim [] = [] := rfl

@[simp] theorem pieces_nil (p : Char → Bool) : pieces p [] = [[]] := rfl

@[simp] theorem words_nil : words [] = [] := rfl

theorem pieces_cons_of_pos {p : Char → Bool} {c : Char} (h : p c = true) (cs : List Char) :
    pieces p (c :: cs) = [] :: pieces p cs := by simp [pieces, h]

theorem pieces_cons_of_neg {p : Char → Bool} {c : Char} (h : p c = false) (cs : List Char) :
    pieces p (c :: cs) = consHead c (pieces p cs) := by simp [pieces, h]

theorem pieces_ne_nil (p : Char → Bool) (cs : List Char) : pieces p cs ≠ [] := by
  induction cs with
  | nil => simp
  | cons c cs ih =>
    cases h : p c
    · rw [pieces_cons_of_neg h]
      cases hp : pieces p cs with
      | nil => exact absurd hp ih
      | cons w ws => simp [consHead]
    · simp [pieces_cons_of_pos h]

end ServiceDocs.Text
