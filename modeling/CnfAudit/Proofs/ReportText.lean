import CnfAudit.Proofs.Spelling
import CnfAudit.Report

/-!
# Reading reports back

One machine cuts the characters of a report into tokens, another one puts the tokens together.
-/

namespace CnfAudit.Report

open Text

inductive Token
  | mark (c : Char)
  | word (chars : List Char)
  | text (s : String)
deriving DecidableEq

/-- Between two characters. The characters of an open token are kept last first. Behind the first
half of a surrogate pair, `high` is that half. -/
inductive Scanning
  | between
  | word (read : List Char)
  | text (read : List Char) (high : Option Nat)
  | escape (read : List Char) (high : Option Nat)
  | unit (read : List Char) (high : Option Nat) (count value : Nat)

def isSpace (c : Char) : Bool := [' ', '\t', '\n', '\r'].contains c

def isMark (c : Char) : Bool := ['\x7b', '\x7d', '[', ']', ':', ','].contains c

def isWordChar (c : Char) : Bool := c.isAlphanum || c = '-'

/-- The value of a hexadecimal digit. -/
def hexValue (c : Char) : Option Nat :=
  if c.isDigit then some (c.toNat - '0'.toNat)
  else if 'a' ≤ c ∧ c ≤ 'f' then some (c.toNat - 'a'.toNat + 10)
  else if 'A' ≤ c ∧ c ≤ 'F' then some (c.toNat - 'A'.toNat + 10)
  else none

/-- The character that a letter behind a backslash stands for. -/
def unescaped : Char → Option Char
  | '"' => some '"'
  | '\\' => some '\\'
  | '/' => some '/'
  | 'b' => some '\x08'
  | 'f' => some '\x0c'
  | 'n' => some '\n'
  | 'r' => some '\r'
  | 't' => some '\t'
  | _ => none

/-- What begins with a character if no token is open. -/
def begin (c : Char) : Option (List Token × Scanning) :=
  if isSpace c then some ([], .between)
  else if isMark c then some ([.mark c], .between)
  else if c = '"' then some ([], .text [] none)
  else if isWordChar c then some ([], .word [c])
  else none

/-- Adds a code unit to a text: a character, or one half of a pair. -/
def addUnit (read : List Char) (unit : Nat) : Option Nat → Option Scanning
  | none =>
      if 0xd800 ≤ unit ∧ unit < 0xdc00 then some (.text read (some unit))
      else if 0xdc00 ≤ unit ∧ unit < 0xe000 then none
      else some (.text (Char.ofNat unit :: read) none)
  | some high =>
      if 0xdc00 ≤ unit ∧ unit < 0xe000 then
        let c := Char.ofNat (0x10000 + (high - 0xd800) * 0x400 + (unit - 0xdc00))
        some (.text (c :: read) none)
      else none

/-- One character: the tokens that it ends, and the state behind it. -/
def scanStep : Scanning → Char → Option (List Token × Scanning)
  | .between, c => begin c
  | .word read, c =>
      if isWordChar c then some ([], .word (c :: read))
      else (begin c).map fun (tokens, next) => (.word read.reverse :: tokens, next)
  | .text read high, c =>
      if c = '\\' then some ([], .escape read high)
      else if high.isSome || c.toNat < 0x20 then none
      else if c = '"' then some ([.text (String.ofList read.reverse)], .between)
      else some ([], .text (c :: read) none)
  | .escape read high, c =>
      if c = 'u' then some ([], .unit read high 0 0)
      else if high.isSome then none
      else (unescaped c).map fun d => ([], .text (d :: read) none)
  | .unit read high count value, c =>
      match hexValue c with
      | none => none
      | some digit =>
          if count < 3 then some ([], .unit read high (count + 1) (16 * value + digit))
          else (addUnit read (16 * value + digit) high).map ([], ·)

/-- The tokens of a text, which must not break off inside one. -/
def scan : Scanning → List Char → Option (List Token)
  | .between, [] => some []
  | _, [] => none
  | s, c :: cs =>
      match scanStep s c with
      | none => none
      | some (tokens, next) => (scan next cs).map (tokens ++ ·)

def integer? (chars : List Char) : Option Int :=
  let (negative, digits) := splitSign chars
  if isNumeral digits then some (withSign negative (numeralValue digits)) else none

def wordValue (chars : List Char) : Option Value :=
  match integer? chars with
  | some n => some (.int n)
  | none =>
      if chars = ['n', 'u', 'l', 'l'] then some .null
      else if chars = ['t', 'r', 'u', 'e'] then some (.bool true)
      else if chars = ['f', 'a', 'l', 's', 'e'] then some (.bool false)
      else none

/-- Between two tokens of an object. The integers of an open list are kept last first. -/
inductive Reading
  | opening
  | name (first : Bool)
  | colon (name : String)
  | value (name : String)
  | item (name : String) (read : List Int)
  | items (name : String) (read : List Int)
  | behind
  | closed

/-- One token: the entry that it ends, if it does, and the state behind it. -/
def readStep : Reading → Token → Option (Entries × Reading)
  | .opening, .mark '\x7b' => some ([], .name true)
  | .name _, .text name => some ([], .colon name)
  | .name true, .mark '\x7d' => some ([], .closed)
  | .colon name, .mark ':' => some ([], .value name)
  | .value name, .text s => some ([(name, .text s)], .behind)
  | .value name, .word chars => (wordValue chars).map fun v => ([(name, v)], .behind)
  | .value name, .mark '[' => some ([], .item name [])
  | .item name [], .mark ']' => some ([(name, .ints [])], .behind)
  | .item name read, .word chars => (integer? chars).map fun n => ([], .items name (n :: read))
  | .items name read, .mark ',' => some ([], .item name read)
  | .items name read, .mark ']' => some ([(name, .ints read.reverse)], .behind)
  | .behind, .mark ',' => some ([], .name false)
  | .behind, .mark '\x7d' => some ([], .closed)
  | _, _ => none

/-- The entries of an object, which must be closed by the last token. -/
def readTokens : Reading → List Token → Option Entries
  | .closed, [] => some []
  | _, [] => none
  | s, token :: tokens =>
      match readStep s token with
      | none => none
      | some (entries, next) => (readTokens next tokens).map (entries ++ ·)

/-- The entries of a report, in the order of the text. -/
def read (text : String) : Option Entries := (scan .between text.toList).bind (readTokens .opening)

section Scan

variable {s t : Scanning} {c : Char} {read cs rest : List Char} {tokens : List Token}

theorem scan_cons_of_step (h : scanStep s c = some (tokens, t)) :
    scan s (c :: cs) = (scan t cs).map (tokens ++ ·) := by
  rw [scan, h]

theorem scan_cons_of_silent (h : scanStep s c = some ([], t)) : scan s (c :: cs) = scan t cs := by
  rw [scan_cons_of_step h]
  cases scan t cs <;> rfl

theorem scan_mark (h : scanStep .between c = some ([.mark c], .between)) :
    scan .between (c :: cs) = (scan .between cs).map (Token.mark c :: ·) :=
  scan_cons_of_step h

theorem scan_spaces (h : cs.all isSpace = true) :
    scan .between (cs ++ rest) = scan .between rest := by
  induction cs with
  | nil => rfl
  | cons c cs ih =>
      rw [List.all_cons, Bool.and_eq_true] at h
      rw [List.cons_append, scan_cons_of_silent (t := .between) (by simp [scanStep, begin, h.1])]
      exact ih h.2

end Scan

section Texts

variable {read rest : List Char}

private theorem hexPadded_succ {width : Nat} (hwidth : 0 < width) (n : Nat) :
    hexPadded (width + 1) n = hexPadded width (n / 16) ++ [(n % 16).digitChar] := by
  unfold hexPadded
  by_cases hn : n < 16
  · have hzero : n / 16 = 0 := Nat.div_eq_of_lt hn
    obtain ⟨k, rfl⟩ := Nat.exists_eq_succ_of_ne_zero (Nat.pos_iff_ne_zero.1 hwidth)
    rw [Nat.toDigits_of_lt_base hn, hzero, Nat.toDigits_of_lt_base (by decide), Nat.mod_eq_of_lt hn]
    simp [List.replicate_succ']
  · rw [Nat.toDigits_of_base_le (by decide) (Nat.not_lt.1 hn)]
    simp

private theorem hexPadded_four {n : Nat} (h : n < 0x10000) :
    hexPadded 4 n = [(n / 16 / 16 / 16).digitChar, (n / 16 / 16 % 16).digitChar,
      (n / 16 % 16).digitChar, (n % 16).digitChar] := by
  have hfirst : n / 16 / 16 / 16 < 16 := by omega
  rw [hexPadded_succ (by decide), hexPadded_succ (by decide), hexPadded_succ (by decide), hexPadded,
    Nat.toDigits_of_lt_base hfirst]
  rfl

private theorem hexValue_digitChar {d : Nat} (h : d < 16) : hexValue d.digitChar = some d := by
  have hall : ∀ d : Fin 16, hexValue d.val.digitChar = some d.val := by decide
  exact hall ⟨d, h⟩

private theorem scan_digit {high : Option Nat} {count value d : Nat} (hd : d < 16)
    (hcount : count < 3) :
    scan (.unit read high count value) (d.digitChar :: rest) =
      scan (.unit read high (count + 1) (16 * value + d)) rest :=
  scan_cons_of_silent (by simp [scanStep, hexValue_digitChar hd, hcount])

private theorem scan_escapedUnit {high : Option Nat} {unit : Nat} {t : Scanning}
    (hunit : unit < 0x10000) (h : addUnit read unit high = some t) :
    scan (.text read high) (escapedUnit unit ++ rest) = scan t rest := by
  have hlast : scanStep (.unit read high 3 (unit / 16)) (unit % 16).digitChar = some ([], t) := by
    simp only [scanStep, hexValue_digitChar (Nat.mod_lt unit (by decide : 0 < 16))]
    rw [Nat.div_add_mod, h]
    rfl
  rw [escapedUnit, hexPadded_four hunit]
  simp only [List.cons_append, List.nil_append]
  rw [scan_cons_of_silent (t := .escape read high) rfl,
    scan_cons_of_silent (t := .unit read high 0 0) rfl, scan_digit (by omega) (by decide),
    scan_digit (by omega) (by decide), scan_digit (by omega) (by decide)]
  have hvalue : 16 * (16 * (16 * 0 + unit / 16 / 16 / 16) + unit / 16 / 16 % 16) + unit / 16 % 16 =
      unit / 16 := by omega
  rw [hvalue]
  exact scan_cons_of_silent hlast

private theorem scan_escapedUnits (c : Char) :
    scan (.text read none) (escapedUnits c.toNat ++ rest) = scan (.text (c :: read) none) rest := by
  have hvalid : c.toNat < 0xd800 ∨ (0xdfff < c.toNat ∧ c.toNat < 0x110000) := c.valid
  have hchar : Char.ofNat c.toNat = c := c.ofNat_toNat
  rw [escapedUnits]
  split
  · rename_i hsmall
    apply scan_escapedUnit hsmall
    rw [addUnit, if_neg (by omega), if_neg (by omega), hchar]
  · rename_i hlarge
    have hpair : 0x10000 + (0xd800 + (c.toNat - 0x10000) / 0x400 - 0xd800) * 0x400 +
        (0xdc00 + (c.toNat - 0x10000) % 0x400 - 0xdc00) = c.toNat := by omega
    have hhigh : addUnit read (0xd800 + (c.toNat - 0x10000) / 0x400) none =
        some (.text read (some (0xd800 + (c.toNat - 0x10000) / 0x400))) := if_pos (by omega)
    simp only [List.append_assoc]
    rw [scan_escapedUnit (by omega) hhigh]
    apply scan_escapedUnit (by omega)
    rw [addUnit, if_pos (by omega), hpair, hchar]

theorem scan_escapedChar (c : Char) :
    scan (.text read none) (escapedChar c ++ rest) = scan (.text (c :: read) none) rest := by
  have hletter {code : Nat} {letter : Char} (hc : c.toNat = code)
      (h : scanStep (.escape read none) letter = some ([], .text (Char.ofNat code :: read) none)) :
      scan (.text read none) (['\\', letter] ++ rest) = scan (.text (c :: read) none) rest := by
    rw [← hc, c.ofNat_toNat] at h
    rw [List.cons_append, scan_cons_of_silent (t := .escape read none) rfl]
    exact scan_cons_of_silent h
  unfold escapedChar
  simp only
  split
  · rename_i hquote
    rw [Bool.or_eq_true, decide_eq_true_eq, decide_eq_true_eq] at hquote
    rcases hquote with rfl | rfl
    · exact hletter rfl rfl
    · exact hletter rfl rfl
  · rename_i hquote
    rw [Bool.or_eq_true, decide_eq_true_eq, decide_eq_true_eq, not_or] at hquote
    split
    · rename_i hplain
      rw [Bool.and_eq_true, decide_eq_true_eq, decide_eq_true_eq] at hplain
      apply scan_cons_of_silent
      simp [scanStep, hquote, Nat.not_lt.2 hplain.1]
    · split
      · exact hletter ‹_› rfl
      · split
        · exact hletter ‹_› rfl
        · split
          · exact hletter ‹_› rfl
          · split
            · exact hletter ‹_› rfl
            · split
              · exact hletter ‹_› rfl
              · exact scan_escapedUnits c

theorem scan_escapedChars (chars read : List Char) :
    scan (.text read none) (chars.flatMap escapedChar ++ '"' :: rest) =
      (scan .between rest).map (Token.text (String.ofList (read.reverse ++ chars)) :: ·) := by
  induction chars generalizing read with
  | nil =>
      have hstep : scanStep (.text read none) '"' =
          some ([.text (String.ofList read.reverse)], .between) := rfl
      rw [List.append_nil]
      exact scan_cons_of_step hstep
  | cons c chars ih =>
      rw [List.flatMap_cons, List.append_assoc, scan_escapedChar, ih, List.reverse_cons,
        List.append_assoc]
      rfl

/-- A rendered text is read as one token. -/
theorem scan_renderText (s : String) :
    scan .between ((renderText s).toList ++ rest) =
      (scan .between rest).map (Token.text s :: ·) := by
  rw [renderText, String.toList_ofList]
  simp only [List.cons_append, List.append_assoc, List.nil_append]
  rw [scan_cons_of_silent (t := .text [] none) rfl, scan_escapedChars s.toList []]
  simp

end Texts

section Words

variable {rest : List Char} {c : Char}

/-- A character behind which a word has come to its end. -/
def EndsWord (c : Char) : Prop := c = ',' ∨ c = '\n'

theorem EndsWord.not_isWordChar (h : EndsWord c) : isWordChar c = false := by
  rcases h with rfl | rfl <;> decide

private theorem begin_of_isWordChar (h : isWordChar c = true) : begin c = some ([], .word [c]) := by
  have hother : ([' ', '\t', '\n', '\r'] ++ ['\x7b', '\x7d', '[', ']', ':', ','] ++ ['"']).all
      (!isWordChar ·) = true := by decide
  have hnot : c ∉ [' ', '\t', '\n', '\r'] ++ ['\x7b', '\x7d', '[', ']', ':', ','] ++ ['"'] := by
    intro hc
    have hc' := List.all_eq_true.1 hother c hc
    rw [h] at hc'
    exact absurd hc' (by decide)
  simp only [List.mem_append, not_or, List.mem_singleton] at hnot
  rw [begin, isSpace, isMark, if_neg (by simpa using hnot.1.1), if_neg (by simpa using hnot.1.2),
    if_neg hnot.2, if_pos h]

/-- The text is cut into these tokens wherever a comma or a line end stands behind it. -/
def Scans (text : List Char) (tokens : List Token) : Prop :=
  ∀ c rest, EndsWord c →
    scan .between (text ++ c :: rest) = (scan .between (c :: rest)).map (tokens ++ ·)

theorem scans_renderText (s : String) : Scans (renderText s).toList [.text s] :=
  fun _ _ _ => scan_renderText s

private theorem scan_wordChars (hc : EndsWord c) (read : List Char) {chars : List Char}
    (h : chars.all isWordChar = true) :
    scan (.word read) (chars ++ c :: rest) =
      (scan .between (c :: rest)).map (Token.word (read.reverse ++ chars) :: ·) := by
  induction chars generalizing read with
  | nil =>
      have hstep : scanStep (.word read) c =
          (begin c).map fun begun => (.word read.reverse :: begun.1, begun.2) := by
        simp [scanStep, hc.not_isWordChar]
      rw [List.nil_append, List.append_nil, scan, hstep, scan, scanStep]
      cases begin c with
      | none => rfl
      | some begun => simp [Function.comp_def]
  | cons d chars ih =>
      rw [List.all_cons, Bool.and_eq_true] at h
      rw [List.cons_append, scan_cons_of_silent (t := .word (d :: read)) (by simp [scanStep, h.1]),
        ih _ h.2]
      simp

theorem scans_word {word : List Char} (hne : word ≠ []) (h : word.all isWordChar = true) :
    Scans word [.word word] := by
  intro c rest hc
  cases word with
  | nil => exact absurd rfl hne
  | cons d chars =>
      rw [List.all_cons, Bool.and_eq_true] at h
      have hbegin : scanStep .between d = some ([], .word [d]) := begin_of_isWordChar h.1
      rw [List.cons_append, scan_cons_of_silent hbegin, scan_wordChars hc [d] h.2]
      rfl

private theorem all_isWordChar_toDigits (n : Nat) :
    (Nat.toDigits 10 n).all isWordChar = true := by
  apply List.all_eq_true.2
  intro c hc
  have hdigit := Nat.isDigit_of_mem_toDigits (by decide) (by decide) hc
  simp [isWordChar, Char.isAlphanum, hdigit]

theorem scans_toString (n : Int) : Scans (toString n).toList [.word (toString n).toList] := by
  cases n with
  | ofNat n =>
      rw [Int.ofNat_eq_natCast, toList_toString_natCast]
      exact scans_word (by simp) (all_isWordChar_toDigits n)
  | negSucc n =>
      rw [toList_toString_negSucc]
      apply scans_word (List.cons_ne_nil _ _)
      rw [List.all_cons, all_isWordChar_toDigits]
      rfl

theorem integer?_toString (n : Int) : integer? (toString n).toList = some n := by
  cases n with
  | ofNat n =>
      have hsign : splitSign (Nat.toDigits 10 n) = (false, Nat.toDigits 10 n) := by
        apply splitSign_of_ne
        intro digits hdigits
        have hnumeral := isNumeral_toDigits n
        rw [hdigits, not_isNumeral_minus] at hnumeral
        cases hnumeral
      rw [Int.ofNat_eq_natCast, toList_toString_natCast, integer?, hsign]
      simp only [isNumeral_toDigits, if_true, numeralValue_toDigits]
      rfl
  | negSucc n =>
      rw [toList_toString_negSucc, integer?, splitSign]
      simp only [isNumeral_toDigits, if_true, numeralValue_toDigits]
      rfl

end Words

section Blocks

variable {rest : List Char}

/-- Items with a comma between two of them, between brackets. -/
def blockTokens (opening closing : Char) (items : List (List Token)) : List Token :=
  .mark opening :: ([Token.mark ','].intercalate items ++ [.mark closing])

variable {α : Type} {text : α → String} {tokens : α → List Token}
  (htext : ∀ a, Scans (text a).toList (tokens a)) {indent : String}
  (hindent : indent.toList.all isSpace = true)

include htext hindent

private theorem scan_lines {items : List α} (hne : items ≠ []) :
    scan .between
        ((String.intercalate ",\n" (items.map fun a => indent ++ text a)).toList ++ '\n' :: rest) =
      (scan .between rest).map ([Token.mark ','].intercalate (items.map tokens) ++ ·) := by
  have hcomma (cs : List Char) : scan .between (',' :: '\n' :: cs) =
      (scan .between cs).map (Token.mark ',' :: ·) := by
    rw [scan_mark (c := ',') rfl, scan_cons_of_silent (t := .between) rfl]
  have hseparator : ",\n".toList = [',', '\n'] := rfl
  induction items with
  | nil => exact absurd rfl hne
  | cons a items ih =>
      cases items with
      | nil =>
          simp only [List.map_cons, List.map_nil, String.intercalate_singleton,
            String.toList_append, List.append_assoc, List.intercalate_singleton]
          rw [scan_spaces hindent, htext a _ _ (.inr rfl),
            scan_cons_of_silent (t := .between) rfl]
      | cons b items =>
          have htail := ih (List.cons_ne_nil b items)
          simp only [List.map_cons, String.intercalate_cons_cons, List.intercalate_cons_cons,
            String.toList_append (s := _ ++ _), String.toList_append (s := indent),
            List.append_assoc, hseparator, List.cons_append, List.nil_append] at htail ⊢
          rw [scan_spaces hindent, htext a _ _ (.inl rfl), hcomma, htail, Option.map_map,
            Option.map_map]
          simp [Function.comp_def]

/-- A block is cut into its brackets and the tokens of its items. -/
theorem scan_block {opening closing : String} {o c : Char} (hopening : opening.toList = [o])
    (hclosing : closing.toList = [c]) (ho : scanStep .between o = some ([.mark o], .between))
    (hc : scanStep .between c = some ([.mark c], .between)) (items : List α) :
    scan .between ((block indent opening closing (items.map text)).toList ++ rest) =
      (scan .between rest).map (blockTokens o c (items.map tokens) ++ ·) := by
  have hbreak : "\n".toList = ['\n'] := rfl
  cases items with
  | nil =>
      rw [List.map_nil, block, String.toList_append, hopening, hclosing]
      simp only [List.cons_append, List.nil_append]
      rw [scan_cons_of_step ho, scan_cons_of_step hc, Option.map_map]
      rfl
  | cons a items =>
      have hdeeper : (indent ++ "  ").toList.all isSpace = true := by
        rw [String.toList_append, List.all_append, hindent]
        rfl
      have hblock : block indent opening closing ((a :: items).map text) =
          opening ++ "\n" ++
            String.intercalate ",\n" ((a :: items).map fun a => indent ++ "  " ++ text a) ++
              "\n" ++ indent ++ closing := by
        rw [List.map_cons, block, ← List.map_cons, List.map_map]
        · rfl
        · exact List.cons_ne_nil _ _
      rw [hblock]
      simp only [String.toList_append (s := _ ++ _ ++ _ ++ _ ++ _),
        String.toList_append (s := _ ++ _ ++ _ ++ _), String.toList_append (s := _ ++ _ ++ _),
        String.toList_append (s := opening ++ _), String.toList_append (s := opening), hopening,
        hclosing, hbreak, List.append_assoc, List.cons_append, List.nil_append]
      rw [scan_cons_of_step ho, scan_cons_of_silent (t := .between) rfl,
        scan_lines htext hdeeper (List.cons_ne_nil a items), scan_spaces hindent,
        scan_cons_of_step hc]
      simp [blockTokens, Function.comp_def]

end Blocks

/-- The tokens that a value is written with. -/
def Value.tokens : Value → List Token
  | null => [.word ['n', 'u', 'l', 'l']]
  | bool true => [.word ['t', 'r', 'u', 'e']]
  | bool false => [.word ['f', 'a', 'l', 's', 'e']]
  | int n => [.word (toString n).toList]
  | text s => [.text s]
  | ints ns => blockTokens '[' ']' (ns.map fun n => [.word (toString n).toList])

theorem scans_value (v : Value) : Scans v.render.toList v.tokens := by
  cases v with
  | null => exact scans_word (by decide) (by decide)
  | bool b => cases b <;> exact scans_word (by decide) (by decide)
  | int n => exact scans_toString n
  | text s => exact scans_renderText s
  | ints ns =>
      intro c rest _
      exact scan_block scans_toString (by decide) rfl rfl rfl rfl ns

def entryTokens (e : String × Value) : List Token := .text e.1 :: .mark ':' :: e.2.tokens

theorem scans_entry (e : String × Value) :
    Scans (renderText e.1 ++ ": " ++ e.2.render).toList (entryTokens e) := by
  intro c rest hc
  have hcolon (cs : List Char) : scan .between (':' :: ' ' :: cs) =
      (scan .between cs).map (Token.mark ':' :: ·) := by
    rw [scan_mark (c := ':') rfl, scan_cons_of_silent (t := .between) rfl]
  have hseparator : ": ".toList = [':', ' '] := rfl
  simp only [String.toList_append (s := _ ++ _), String.toList_append (s := renderText e.1),
    List.append_assoc, hseparator, List.cons_append, List.nil_append]
  rw [scan_renderText, hcolon, scans_value e.2 c rest hc]
  simp [entryTokens, Function.comp_def]

/-- Entries in the order in which a report has them. -/
def sorted (entries : Entries) : Entries := entries.mergeSort fun a b => !(b.1 < a.1)

theorem scan_render (entries : Entries) :
    scan .between (render entries).toList =
      some (blockTokens '\x7b' '\x7d' ((sorted entries).map entryTokens)) := by
  have hend : scan .between "\n".toList = some [] := rfl
  have hopening : "\x7b".toList = ['\x7b'] := rfl
  have hclosing : "\x7d".toList = ['\x7d'] := rfl
  rw [sorted, render, String.toList_append,
    scan_block scans_entry (by decide) hopening hclosing rfl rfl, hend, Option.map_some,
    List.append_nil]

section Read

variable {s t : Reading} {token : Token} {tokens : List Token} {entries : Entries} {name : String}

theorem readTokens_cons (h : readStep s token = some (entries, t)) :
    readTokens s (token :: tokens) = (readTokens t tokens).map (entries ++ ·) := by
  rw [readTokens, h]

theorem readTokens_cons_of_silent (h : readStep s token = some ([], t)) :
    readTokens s (token :: tokens) = readTokens t tokens := by
  rw [readTokens_cons h]
  cases readTokens t tokens <;> rfl

theorem wordValue_toString (n : Int) : wordValue (toString n).toList = some (.int n) := by
  rw [wordValue, integer?_toString]

private theorem readTokens_items (read ns : List Int) (hne : ns ≠ []) :
    readTokens (.item name read)
        ([Token.mark ','].intercalate (ns.map fun n => [.word (toString n).toList]) ++
          .mark ']' :: tokens) =
      (readTokens .behind tokens).map ((name, .ints (read.reverse ++ ns)) :: ·) := by
  induction ns generalizing read with
  | nil => exact absurd rfl hne
  | cons n ns ih =>
      have hitem : readStep (.item name read) (.word (toString n).toList) =
          some ([], .items name (n :: read)) := by
        cases read <;> simp only [readStep, integer?_toString, Option.map_some]
      cases ns with
      | nil =>
          simp only [List.map_cons, List.map_nil, List.intercalate_singleton, List.cons_append,
            List.nil_append]
          rw [readTokens_cons_of_silent hitem, readTokens_cons rfl, List.reverse_cons]
          rfl
      | cons m ns =>
          have htail := ih (n :: read) (List.cons_ne_nil m ns)
          simp only [List.map_cons, List.intercalate_cons_cons, List.cons_append, List.nil_append,
            List.append_assoc, List.reverse_cons] at htail ⊢
          rw [readTokens_cons_of_silent hitem, readTokens_cons_of_silent rfl, htail]

/-- Behind its name a value is read from its tokens. -/
theorem readTokens_value (v : Value) :
    readTokens (.value name) (v.tokens ++ tokens) =
      (readTokens .behind tokens).map ((name, v) :: ·) := by
  have hone {v : Value} {token : Token} (hv : v.tokens = [token])
      (h : readStep (.value name) token = some ([(name, v)], .behind)) :
      readTokens (.value name) (v.tokens ++ tokens) =
        (readTokens .behind tokens).map ((name, v) :: ·) := by
    rw [hv]
    exact readTokens_cons h
  cases v with
  | null => exact hone rfl rfl
  | bool b => cases b <;> exact hone rfl rfl
  | int n => exact hone rfl (by rw [readStep, wordValue_toString]; rfl)
  | text s => exact hone rfl rfl
  | ints ns =>
      rw [Value.tokens, blockTokens, List.cons_append, List.append_assoc,
        readTokens_cons_of_silent (t := .item name []) rfl]
      cases ns with
      | nil =>
          have hempty : readStep (.item name []) (.mark ']') =
              some ([(name, .ints [])], .behind) := rfl
          exact readTokens_cons hempty
      | cons n ns => exact readTokens_items [] (n :: ns) (List.cons_ne_nil n ns)

private theorem readTokens_entry (first : Bool) (e : String × Value) :
    readTokens (.name first) (entryTokens e ++ tokens) =
      (readTokens .behind tokens).map (e :: ·) := by
  have hname : readStep (.name first) (.text e.1) = some ([], .colon e.1) := by
    cases first <;> rfl
  rw [entryTokens, List.cons_append, List.cons_append, readTokens_cons_of_silent hname,
    readTokens_cons_of_silent (t := .value e.1) rfl, readTokens_value]

private theorem readTokens_entries (first : Bool) {entries : Entries} (hne : entries ≠ []) :
    readTokens (.name first)
        ([Token.mark ','].intercalate (entries.map entryTokens) ++ [.mark '\x7d']) =
      some entries := by
  induction entries generalizing first with
  | nil => exact absurd rfl hne
  | cons e entries ih =>
      cases entries with
      | nil =>
          rw [List.map_cons, List.map_nil, List.intercalate_singleton, readTokens_entry]
          rfl
      | cons d entries =>
          have htail := ih false (List.cons_ne_nil d entries)
          simp only [List.map_cons, List.intercalate_cons_cons, List.append_assoc] at htail ⊢
          rw [readTokens_entry, List.cons_append, List.nil_append,
            readTokens_cons_of_silent (t := .name false) rfl, htail]
          rfl

/-- The text of a report is read back as its entries in their order. -/
theorem read_render_entries (entries : Entries) :
    read (render entries) = some (sorted entries) := by
  rw [read, scan_render, Option.bind_some, blockTokens,
    readTokens_cons_of_silent (t := .name true) rfl]
  cases hsorted : sorted entries with
  | nil => rfl
  | cons e entries => exact readTokens_entries true (List.cons_ne_nil e entries)

end Read

section Sorting

variable {entries others : Entries}

private theorem lookup_perm (h : entries.Perm others) (hkeys : (entries.map Prod.fst).Nodup)
    (key : String) : entries.lookup key = others.lookup key := by
  induction h with
  | nil => rfl
  | cons e _ ih => rw [List.lookup_cons, List.lookup_cons, ih (List.nodup_cons.1 hkeys).2]
  | swap d e entries =>
      have hne : e.1 ≠ d.1 := fun heq => (List.nodup_cons.1 hkeys).1 (heq ▸ List.mem_cons_self)
      rw [List.lookup_cons, List.lookup_cons, List.lookup_cons, List.lookup_cons]
      by_cases hkey : key = e.1
      · have hother : (key == d.1) = false := beq_eq_false_iff_ne.2 (hkey ▸ hne)
        simp only [hother]
      · simp only [beq_eq_false_iff_ne.2 hkey]
  | trans h _ ih ih' => rw [ih hkeys, ih' ((h.map Prod.fst).nodup_iff.1 hkeys)]

theorem perm_sorted (entries : Entries) : (sorted entries).Perm entries :=
  List.mergeSort_perm entries _

theorem keys_sorted (hkeys : (entries.map Prod.fst).Nodup) :
    ((sorted entries).map Prod.fst).Nodup :=
  ((perm_sorted entries).map Prod.fst).nodup_iff.2 hkeys

/-- The order of a report changes no value. -/
theorem lookup_sorted (hkeys : (entries.map Prod.fst).Nodup) (key : String) :
    (sorted entries).lookup key = entries.lookup key :=
  lookup_perm (perm_sorted entries) (keys_sorted hkeys) key

end Sorting

-- escapes, a surrogate pair, and spaces wherever they may stand
example : read "\x7b \"\\u00e9\\ud83d\\ude00\" :[ 1,-20 ] ,\"ok\":true\x7d" =
    some [("é😀", .ints [1, -20]), ("ok", .bool true)] := by decide

end CnfAudit.Report
