/-!
# Blank characters

Lines are stripped of blanks at both ends and cut into fields at runs of blanks. The zero-width
characters and the byte order mark are not blank.
-/

namespace CnfAudit.Text

/-- The characters that separate fields: the ASCII controls from tab to carriage return, the four
information separators, the space, and the space and line separators of Unicode. -/
def isBlank (c : Char) : Bool :=
  let n := c.toNat
  (0x09 ≤ n && n ≤ 0x0d) || (0x1c ≤ n && n ≤ 0x20) || n == 0x85 || n == 0xa0 || n == 0x1680 ||
    (0x2000 ≤ n && n ≤ 0x200a) || n == 0x2028 || n == 0x2029 || n == 0x202f || n == 0x205f ||
    n == 0x3000

def dropTrailing (cs : List Char) : List Char :=
  (cs.reverse.dropWhile isBlank).reverse

/-- A text without the blanks at its two ends. -/
def stripChars (cs : List Char) : List Char :=
  dropTrailing (cs.dropWhile isBlank)

def finishWord : List Char → List (List Char)
  | [] => []
  | cs => [cs.reverse]

/-- Cuts a text at its blanks; `word` holds the word being read, last character first. -/
def wordsFrom : List Char → List Char → List (List Char)
  | [], word => finishWord word
  | c :: cs, word =>
      if isBlank c then finishWord word ++ wordsFrom cs []
      else wordsFrom cs (c :: word)

/-- The maximal runs of characters that are not blank, in order. -/
def words (cs : List Char) : List (List Char) := wordsFrom cs []

def strip (s : String) : String := String.ofList (stripChars s.toList)

def fields (s : String) : List String := (words s.toList).map String.ofList

/-- The stripped lines that are not empty, each with its number counted from `first`. -/
def numberedFrom (first : Nat) : List String → List (Nat × String)
  | [] => []
  | line :: rest =>
      let text := strip line
      if text.isEmpty then numberedFrom (first + 1) rest
      else (first, text) :: numberedFrom (first + 1) rest

/-- Lines are counted from one, empty ones included. -/
def numbered (lines : List String) : List (Nat × String) := numberedFrom 1 lines

theorem wordsFrom_length_le (cs word : List Char) :
    (wordsFrom cs word).length ≤ cs.length + (finishWord word).length := by
  induction cs generalizing word with
  | nil => simp [wordsFrom]
  | cons c cs ih =>
      unfold wordsFrom
      split
      · have := ih []
        simp only [List.length_append, List.length_cons]
        simp only [finishWord, List.length_nil] at this
        omega
      · have := ih (c :: word)
        simp only [List.length_cons]
        simp only [finishWord, List.length_singleton] at this
        omega

theorem fields_length_le (s : String) : (fields s).length ≤ s.toList.length := by
  have := wordsFrom_length_le s.toList []
  simpa [fields, words, finishWord] using this

theorem stripChars_length_le (cs : List Char) : (stripChars cs).length ≤ cs.length := by
  have hlead := (List.dropWhile_sublist (l := cs) isBlank).length_le
  have htrail := (List.dropWhile_sublist (l := (cs.dropWhile isBlank).reverse) isBlank).length_le
  simp only [List.length_reverse] at htrail
  simp only [stripChars, dropTrailing, List.length_reverse]
  omega

theorem strip_length_le (s : String) : (strip s).toList.length ≤ s.toList.length := by
  simpa [strip] using stripChars_length_le s.toList

end CnfAudit.Text
