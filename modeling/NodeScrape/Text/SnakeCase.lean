import NodeScrape.Text.Case

/-!
# Snake case names

A name is cut into words where its case or its kind of character changes and at separators; the
words are lowered and joined by underscores.
-/

namespace NodeScrape.Text

/-- One letter: a character with the marks that extend it. -/
structure Letter where
  /-- The character. -/
  base : Char
  /-- Its marks. -/
  marks : List Char
  deriving DecidableEq, Repr

namespace Letter

/-- Gathers marks with the character before them. -/
def ofChars : List Char → List Letter
  | [] => []
  | c :: rest =>
    let marks := rest.takeWhile isExtending
    ⟨c, marks⟩ :: ofChars (rest.drop marks.length)
  termination_by cs => cs.length
  decreasing_by
    rw [List.length_drop, List.length_cons]
    omega

/-- The characters of a letter. -/
def chars (l : Letter) : List Char := l.base :: l.marks

/-- What a letter is for the division into words. -/
def isDigit (l : Letter) : Bool := l.base.isDigit && l.marks.isEmpty

def isUpper (l : Letter) : Bool := Text.isUpper l.base

def isLower (l : Letter) : Bool := Text.isLower l.base

/-- Separators divide words and are dropped. -/
def isSeparator (l : Letter) : Bool :=
  l.marks.isEmpty && (l.base = '_' || l.base = '-' || l.base = ' ')

end Letter

/-- Whether a word ends between two letters, given the letter after them: lower before upper case,
a digit beside a letter, and the last capital of an acronym before a lower case letter. -/
def isWordEnd (a b : Letter) (after : Option Letter) : Bool :=
  (a.isLower && b.isUpper) ||
  (a.isUpper && b.isDigit) || (a.isDigit && b.isUpper) ||
  (a.isDigit && b.isLower) || (a.isLower && b.isDigit) ||
  (a.isUpper && b.isUpper && after.any Letter.isLower)

/-- The words of a name; `word` holds the letters of the current one in reverse. -/
def words (word : List Letter) : List Letter → List (List Letter)
  | [] => [word.reverse]
  | a :: rest =>
    if a.isSeparator then word.reverse :: words [] rest
    else match rest with
      | b :: later =>
        if isWordEnd a b later.head? then (a :: word).reverse :: words [] rest
        else words (a :: word) rest
      | [] => words (a :: word) rest

/-- The snake case form of a name; empty words disappear. -/
def snakeCase (name : String) : String :=
  let lowered := ((words [] (Letter.ofChars name.toList)).filter fun word => !word.isEmpty).map
    fun word => String.ofList (lowerWord (word.flatMap Letter.chars))
  String.intercalate "_" lowered

end NodeScrape.Text
