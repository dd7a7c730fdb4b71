import ApiReport.Text.Blank
import ApiReport.Text.Fold

/-!
# Finding things in text

A reader looks at the start of a text and gives what it has read, if it can read there. A text is
searched from the left: `firstAt?` reads at the first place where the reader can, `allAt` goes on
behind every reading, so that readings do not overlap.

Key definitions: `after?`, `afterAnyCase?`, `skipBlanks`, `contains`, `firstAt?`, `allAt`. Key
theorems: `after?_append`, `after?_eq_some_iff`.
-/
namespace ApiReport.Text

/-- What follows a word at the start of a text. -/
def after? : (word cs : List Char) → Option (List Char)
  | [], cs => some cs
  | w :: word, c :: cs => if c = w then after? word cs else none
  | _ :: _, [] => none

/-- What follows a word at the start of a text that may spell it in either case. -/
def afterAnyCase? : (word cs : List Char) → Option (List Char)
  | [], cs => some cs
  | w :: word, c :: cs => if fold c = fold w then afterAnyCase? word cs else none
  | _ :: _, [] => none

theorem after?_append : ∀ word rest : List Char, after? word (word ++ rest) = some rest
  | [], _ => rfl
  | w :: word, rest => by simpa [after?] using after?_append word rest

theorem after?_eq_some_iff : ∀ {word cs rest : List Char},
    after? word cs = some rest ↔ cs = word ++ rest
  | [], cs, rest => by simp [after?]
  | w :: word, [], rest => by simp [after?]
  | w :: word, c :: cs, rest => by
    by_cases h : c = w
    · simp [after?, h, after?_eq_some_iff]
    · simp [after?, h]

/-- A text behind the blanks at its start. -/
def skipBlanks (cs : List Char) : List Char := cs.dropWhile isBlank

/-- Whether a word stands somewhere in a text. -/
def contains (word : List Char) : List Char → Bool
  | [] => word.isEmpty
  | c :: cs => word.isPrefixOf (c :: cs) || contains word cs

/-- The reading at the first place of a text where there is one. -/
def firstAt? {α : Type} (read : List Char → Option α) : List Char → Option α
  | [] => read []
  | c :: cs => read (c :: cs) <|> firstAt? read cs

/-- All readings of a text from left to right, each behind the one before. A reader gives what it
has read and the text behind it. -/
def allAt {α : Type} (read : List Char → Option (α × List Char)) : List Char → List α
  | [] => []
  | c :: cs =>
    match read (c :: cs) with
    | none => allAt read cs
    | some (a, rest) => if rest.length ≤ cs.length then a :: allAt read rest else [a]
termination_by cs => cs.length

end ApiReport.Text
