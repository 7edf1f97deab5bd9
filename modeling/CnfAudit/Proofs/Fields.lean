import CnfAudit.Input

namespace CnfAudit.Text

private theorem wordsFrom_blanks {cs : List Char} (hcs : ∀ c ∈ cs, isBlank c = true)
    (word : List Char) : wordsFrom cs word = finishWord word := by
  induction cs generalizing word with
  | nil => rfl
  | cons c cs ih =>
      have hc : isBlank c = true := hcs c (by simp)
      have hrest := ih (fun d hd => hcs d (by simp [hd])) []
      simp only [wordsFrom, hc, if_true, hrest]
      simp [finishWord]

private theorem wordsFrom_append_blanks (cs : List Char) {bs : List Char}
    (hbs : ∀ c ∈ bs, isBlank c = true) (word : List Char) :
    wordsFrom (cs ++ bs) word = wordsFrom cs word := by
  induction cs generalizing word with
  | nil => exact wordsFrom_blanks hbs word
  | cons c cs ih => simp only [List.cons_append, wordsFrom, ih]

private theorem words_dropWhile (cs : List Char) : words (cs.dropWhile isBlank) = words cs := by
  induction cs with
  | nil => rfl
  | cons c cs ih =>
      rw [List.dropWhile_cons]
      split
      · rename_i hc
        rw [ih]
        simp [words, wordsFrom, hc, finishWord]
      · rfl

private theorem dropTrailing_append (cs : List Char) :
    dropTrailing cs ++ (cs.reverse.takeWhile isBlank).reverse = cs := by
  rw [dropTrailing, ← List.reverse_append, List.takeWhile_append_dropWhile, List.reverse_reverse]

private theorem words_dropTrailing (cs : List Char) : words (dropTrailing cs) = words cs := by
  have hblank : ∀ c ∈ (cs.reverse.takeWhile isBlank).reverse, isBlank c = true := by
    intro c hc
    exact List.all_eq_true.1 List.all_takeWhile c (List.mem_reverse.1 hc)
  have happend := wordsFrom_append_blanks (dropTrailing cs) hblank []
  rw [dropTrailing_append] at happend
  exact happend.symm

@[simp] theorem fields_strip (line : String) : fields (strip line) = fields line := by
  simp only [fields, strip, String.toList_ofList, stripChars, words_dropTrailing, words_dropWhile]

private theorem wordsFrom_open (cs : List Char) {word : List Char} (hword : word ≠ []) :
    ∃ more rest, wordsFrom cs word = (word.reverse ++ more) :: rest := by
  induction cs generalizing word with
  | nil =>
      obtain ⟨c, cs, rfl⟩ := List.exists_cons_of_ne_nil hword
      exact ⟨[], [], by simp [wordsFrom, finishWord]⟩
  | cons c cs ih =>
      rw [wordsFrom]
      split
      · obtain ⟨d, ds, rfl⟩ := List.exists_cons_of_ne_nil hword
        exact ⟨[], wordsFrom cs [], by simp [finishWord]⟩
      · obtain ⟨more, rest, h⟩ := ih (List.cons_ne_nil c word)
        exact ⟨c :: more, rest, by simp [h]⟩

private theorem words_cons {c : Char} (hc : isBlank c = false) (cs : List Char) :
    ∃ more rest, words (c :: cs) = (c :: more) :: rest := by
  obtain ⟨more, rest, h⟩ := wordsFrom_open cs (List.cons_ne_nil c [])
  exact ⟨more, rest, by simpa [words, wordsFrom, hc] using h⟩

private theorem stripChars_head {cs : List Char} {c : Char} {rest : List Char}
    (h : stripChars cs = c :: rest) : isBlank c = false := by
  have happend := dropTrailing_append (cs.dropWhile isBlank)
  rw [stripChars] at h
  rw [h] at happend
  have hhead := List.head?_dropWhile_not isBlank cs
  rw [← happend] at hhead
  simpa using hhead

private theorem wordsFrom_of_no_blank {cs : List Char} (h : ∀ c ∈ cs, isBlank c = false)
    (word : List Char) : wordsFrom cs word = finishWord (cs.reverse ++ word) := by
  induction cs generalizing word with
  | nil => rfl
  | cons c cs ih =>
      have hc : isBlank c = false := h c (by simp)
      have hrest := ih (fun d hd => h d (by simp [hd])) (c :: word)
      simp [wordsFrom, hc, hrest]

theorem fields_of_no_blank {cs : List Char} (hne : cs ≠ []) (h : ∀ c ∈ cs, isBlank c = false) :
    fields (String.ofList cs) = [String.ofList cs] := by
  have hfinish : finishWord cs.reverse = [cs] := by
    cases hcs : cs.reverse with
    | nil => exact absurd (List.reverse_eq_nil_iff.1 hcs) hne
    | cons c ds =>
        rw [finishWord, ← hcs, List.reverse_reverse]
        simp
  rw [fields, String.toList_ofList, words, wordsFrom_of_no_blank h, List.append_nil, hfinish]
  rfl

private theorem wordsFrom_append_blank {b : Char} (hb : isBlank b = true)
    (cs rest word : List Char) :
    wordsFrom (cs ++ b :: rest) word = wordsFrom cs word ++ wordsFrom rest [] := by
  induction cs generalizing word with
  | nil => simp only [List.nil_append, wordsFrom, hb, if_true]
  | cons c cs ih =>
      simp only [List.cons_append, wordsFrom, ih]
      split
      · rw [List.append_assoc]
      · rfl

theorem fields_append_space (text rest : String) :
    fields (text ++ " " ++ rest) = fields text ++ fields rest := by
  have hspace : (text ++ " " ++ rest).toList = text.toList ++ ' ' :: rest.toList := by simp
  rw [fields, hspace, words, wordsFrom_append_blank (by decide), List.map_append]
  rfl

theorem fields_intercalate (texts : List String) :
    fields (String.intercalate " " texts) = texts.flatMap fields := by
  induction texts with
  | nil => rfl
  | cons text texts ih =>
      cases texts with
      | nil => simp
      | cons next texts =>
          rw [String.intercalate_cons_cons, fields_append_space, ih]
          rfl

private theorem words_tail {c : Char} {cs : List Char} {rest : List (List Char)}
    (hc : isBlank c = false) (h : words (c :: cs) = [c] :: rest) : words cs = rest := by
  rw [words, wordsFrom, if_neg (by simp [hc])] at h
  cases cs with
  | nil => exact (List.cons.inj h).2
  | cons d ds =>
      rw [wordsFrom] at h
      split at h
      · rename_i hd
        rw [words, wordsFrom, if_pos hd]
        exact (List.cons.inj h).2
      · -- otherwise the word goes on
        obtain ⟨more, others, hopen⟩ := wordsFrom_open ds (List.cons_ne_nil d [c])
        simp [hopen] at h

theorem toNat_of_isDigit {c : Char} (h : c.isDigit = true) : 48 ≤ c.toNat ∧ c.toNat ≤ 57 := by
  simpa [Char.isDigit, UInt32.le_iff_toNat_le] using h

theorem isBlank_of_isDigit {c : Char} (h : c.isDigit = true) : isBlank c = false := by
  have hrange := toNat_of_isDigit h
  rw [← Bool.not_eq_true]
  intro hblank
  simp only [isBlank, Bool.or_eq_true, Bool.and_eq_true, decide_eq_true_eq, beq_iff_eq] at hblank
  omega

end CnfAudit.Text

namespace CnfAudit

open Text

/-- The tag of a stripped line is the first character of its first field. -/
theorem tag?_strip (line : String) : tag? (strip line) = (fields line).head?.bind tag? := by
  rw [← fields_strip line]
  cases h : stripChars line.toList with
  | nil => simp [strip, h, tag?, fields, words, wordsFrom, finishWord]
  | cons c cs =>
      obtain ⟨more, rest, hwords⟩ := words_cons (stripChars_head h) cs
      simp [strip, h, tag?, fields, hwords]

theorem tag?_and_fields_payload {line first : String} {tag : Char} {tokens : List String}
    (h : fields line = first :: tokens) (hfirst : first.toList = [tag]) :
    tag? (strip line) = some tag ∧ fields (payload (strip line)) = tokens := by
  have htag : tag? (strip line) = some tag := by
    rw [tag?_strip, h]
    simp [tag?, hfirst]
  refine ⟨htag, ?_⟩
  rw [← fields_strip line] at h
  cases hchars : stripChars line.toList with
  | nil => simp [strip, hchars, tag?] at htag
  | cons c cs =>
      obtain rfl : c = tag := by simpa [strip, hchars, tag?] using htag
      have hstrip : strip line = String.ofList (c :: cs) := by rw [strip, hchars]
      rw [hstrip, fields, String.toList_ofList] at h
      obtain ⟨word, rest, hwords, rfl, rfl⟩ := List.map_eq_cons_iff.1 h
      rw [String.toList_ofList] at hfirst
      subst hfirst
      rw [hstrip, payload, String.toList_ofList, List.tail_cons, fields, String.toList_ofList,
        words_tail (stripChars_head hchars) hwords]

/-- A line that is blank or a comment. -/
def IsSkipped (line : String) : Prop :=
  tag? (strip line) = none ∨ tag? (strip line) = some 'c'

instance (line : String) : Decidable (IsSkipped line) := inferInstanceAs (Decidable (_ ∨ _))

/-- The stripped lines that are neither blank nor comments. -/
def contentLines (lines : List String) : List String :=
  (lines.filter fun line => ¬IsSkipped line).map strip

theorem contentLines_cons_skipped {line : String} (h : IsSkipped line) (lines : List String) :
    contentLines (line :: lines) = contentLines lines := by
  simp [contentLines, h]

theorem contentLines_cons_of_not {line : String} (h : ¬IsSkipped line) (lines : List String) :
    contentLines (line :: lines) = strip line :: contentLines lines := by
  simp [contentLines, h]

theorem contentLines_eq_map {lines : List String} (h : ∀ line ∈ lines, ¬IsSkipped line) :
    contentLines lines = lines.map strip := by
  rw [contentLines, List.filter_eq_self.2]
  intro line hline
  exact decide_eq_true (h line hline)

/-- The lines that are neither blank nor comments with their numbers; `taken` is the number of the
line before them. -/
def numberedContent (taken : Nat) (lines : List String) : List (String × Nat) :=
  (lines.zipIdx (taken + 1)).filter fun line => ¬IsSkipped line.1

section Numbered

variable {line : String} (taken : Nat) (lines : List String)

theorem numberedContent_cons_skipped (h : IsSkipped line) :
    numberedContent taken (line :: lines) = numberedContent (taken + 1) lines := by
  simp [numberedContent, h]

theorem numberedContent_cons_of_not (h : ¬IsSkipped line) :
    numberedContent taken (line :: lines) =
      (line, taken + 1) :: numberedContent (taken + 1) lines := by
  simp [numberedContent, h]

end Numbered

theorem mem_numberedContent_iff {taken number : Nat} {lines : List String} {line : String} :
    (line, number) ∈ numberedContent taken lines ↔
      ∃ i, number = taken + 1 + i ∧ lines[i]? = some line ∧ ¬IsSkipped line := by
  rw [numberedContent, List.mem_filter, List.mk_mem_zipIdx_iff_le_and_getElem?_sub,
    decide_eq_true_iff]
  constructor
  · rintro ⟨⟨hle, hline⟩, hskip⟩
    exact ⟨number - (taken + 1), by omega, hline, hskip⟩
  · rintro ⟨i, rfl, hline, hskip⟩
    refine ⟨⟨by omega, ?_⟩, hskip⟩
    rwa [Nat.add_sub_cancel_left]

theorem strip_mem_contentLines {taken number : Nat} {lines : List String} {line : String}
    (h : (line, number) ∈ numberedContent taken lines) : strip line ∈ contentLines lines := by
  obtain ⟨i, -, hline, hskip⟩ := mem_numberedContent_iff.1 h
  apply List.mem_map_of_mem
  exact List.mem_filter.2 ⟨List.mem_of_getElem? hline, by simpa using hskip⟩

end CnfAudit
