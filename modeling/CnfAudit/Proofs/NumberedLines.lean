import CnfAudit.Proofs.SkippedLines

/-!
# Numbered lines

The readers see of their lines what `Text.numbered` gives: the texts that are not empty, stripped,
with their numbers.
-/

namespace CnfAudit

open Text ClauseStream Certificate

/-- Two lists of lines behind `n` and behind `m` others have the same texts under the same numbers.
Lines without a text may stand on either side. -/
inductive Alike : Nat → List String → Nat → List String → Prop
  | done {n m : Nat} : Alike n [] m []
  | skipLeft {n m : Nat} {line : String} {lines others : List String} (h : strip line = "")
      (rest : Alike (n + 1) lines m others) : Alike n (line :: lines) m others
  | skipRight {n m : Nat} {other : String} {lines others : List String} (h : strip other = "")
      (rest : Alike n lines (m + 1) others) : Alike n lines m (other :: others)
  | text {n : Nat} {line other : String} {lines others : List String}
      (h : strip line = strip other) (rest : Alike (n + 1) lines (n + 1) others) :
      Alike n (line :: lines) n (other :: others)

theorem isSkipped_of_strip {line : String} (h : strip line = "") : IsSkipped line :=
  .inl (by rw [h]; rfl)

section Numbering

variable {n m : Nat} {line : String} {lines others : List String}

private theorem numberedFrom_cons_blank (h : strip line = "") :
    numberedFrom n (line :: lines) = numberedFrom (n + 1) lines := by
  rw [numberedFrom, h]
  rfl

private theorem numberedFrom_cons_text (h : strip line ≠ "") :
    numberedFrom n (line :: lines) = (n, strip line) :: numberedFrom (n + 1) lines := by
  have hne : (strip line).isEmpty = false := by simpa using h
  simp only [numberedFrom, hne, Bool.false_eq_true, if_false]

theorem alike_of_numberedFrom (h : numberedFrom (n + 1) lines = numberedFrom (m + 1) others) :
    Alike n lines m others := by
  induction others generalizing n m lines with
  | nil =>
      induction lines generalizing n with
      | nil => exact .done
      | cons line lines ih =>
          by_cases hline : strip line = ""
          · rw [numberedFrom_cons_blank hline] at h
            exact .skipLeft hline (ih h)
          · rw [numberedFrom_cons_text hline] at h
            cases h
  | cons other others ihothers =>
      by_cases hother : strip other = ""
      · rw [numberedFrom_cons_blank hother] at h
        exact .skipRight hother (ihothers h)
      · induction lines generalizing n with
        | nil =>
            rw [numberedFrom_cons_text hother] at h
            cases h
        | cons line lines ih =>
            by_cases hline : strip line = ""
            · rw [numberedFrom_cons_blank hline] at h
              exact .skipLeft hline (ih h)
            · rw [numberedFrom_cons_text hline, numberedFrom_cons_text hother] at h
              obtain ⟨hfirst, hrest⟩ := List.cons.inj h
              obtain ⟨hnumber, htext⟩ := Prod.mk.inj hfirst
              obtain rfl : n = m := Nat.succ.inj hnumber
              exact .text htext (ihothers hrest)

end Numbering

section Stripped

variable {line other : String} (h : strip line = strip other)

include h

private theorem isSkipped_iff_of_strip : IsSkipped line ↔ IsSkipped other := by
  rw [IsSkipped, IsSkipped, h]

private theorem linePieces_of_strip (number : Nat) :
    linePieces number line = linePieces number other := by
  have hskip := isSkipped_iff_of_strip h
  have hfields : fields line = fields other := by rw [← fields_strip line, h, fields_strip]
  by_cases hline : IsSkipped line
  · rw [linePieces, linePieces, if_pos hline, if_pos (hskip.1 hline)]
  · rw [linePieces, linePieces, if_neg hline, if_neg (mt hskip.2 hline), h, hfields]

private theorem readLines_of_strip {source : Option String} {numVars : Option Int}
    {ending : Ending} {n : Nat} {lines others : List String}
    (hrest : ∀ status, readLines source numVars ending status (n + 1) lines =
      readLines source numVars ending status (n + 1) others) (status : Option Nat) :
    readLines source numVars ending status n (line :: lines) =
      readLines source numVars ending status n (other :: others) := by
  rcases line_cases line with hskip | htag | htag | ⟨c, htag, hc, hs, hv⟩
  · have hskip' := (isSkipped_iff_of_strip h).1 hskip
    rw [readLines_skipped _ _ _ hskip, readLines_skipped _ _ _ hskip', hrest]
  · have htag' : tag? (strip other) = some 's' := h ▸ htag
    cases status with
    | some first =>
        rw [readLines_second_status _ _ _ htag, readLines_second_status _ _ _ htag', h]
    | none =>
        rw [readLines_first_status _ _ _ htag, readLines_first_status _ _ _ htag', hrest, h]
  · have htag' : tag? (strip other) = some 'v' := h ▸ htag
    rw [readLines_values _ _ _ htag, readLines_values _ _ _ htag', hrest, h]
  · have htag' : tag? (strip other) = some c := h ▸ htag
    rw [readLines_other _ _ _ htag hc hs hv, readLines_other _ _ _ htag' hc hs hv, h]

end Stripped

namespace Alike

variable {n m : Nat} {lines others : List String}

theorem piecesFrom_eq (h : Alike n lines m others) : piecesFrom n lines = piecesFrom m others := by
  induction h with
  | done => rfl
  | skipLeft h _ ih =>
      rw [piecesFrom, linePieces, if_pos (isSkipped_of_strip h), ih]
      rfl
  | skipRight h _ ih =>
      rw [ih, piecesFrom, linePieces, if_pos (isSkipped_of_strip h)]
      rfl
  | text h _ ih =>
      rw [piecesFrom, linePieces_of_strip h, ih]
      rfl

/-- The header is found in the same text, and what stands behind it is alike. -/
theorem exists_seekHeader (source : Option String) (ending : Ending) (h : Alike n lines m others) :
    ∃ result taken rest taken' rest',
      seekHeader source ending n lines = (result, taken, rest) ∧
      seekHeader source ending m others = (result, taken', rest') ∧
      Alike taken rest taken' rest' := by
  induction h with
  | done =>
      cases ending with
      | complete => exact ⟨_, _, _, _, _, rfl, rfl, .done⟩
      | undecodable refusal => exact ⟨_, _, _, _, _, rfl, rfl, .done⟩
  | skipLeft h _ ih => rwa [seekHeader_skipped (isSkipped_of_strip h)]
  | skipRight h _ ih => rwa [seekHeader_skipped (isSkipped_of_strip h)]
  | @text n line other _ _ h rest ih =>
      have hiff := isSkipped_iff_of_strip h
      by_cases hskip : IsSkipped line
      · rwa [seekHeader_skipped hskip, seekHeader_skipped (hiff.1 hskip)]
      · have hskip' : ¬IsSkipped other := mt hiff.2 hskip
        by_cases hheader : tag? (strip line) = some 'p'
        · have hheader' : tag? (strip other) = some 'p' := by rwa [← h]
          rw [seekHeader_header hheader, seekHeader_header hheader', h]
          exact ⟨_, _, _, _, _, rfl, rfl, rest⟩
        · have hheader' : tag? (strip other) ≠ some 'p' := by rwa [← h]
          rw [seekHeader_other hskip hheader, seekHeader_other hskip' hheader', h]
          exact ⟨_, _, _, _, _, rfl, rfl, rest⟩

theorem readLines_eq (source : Option String) (numVars : Option Int) (ending : Ending)
    (h : Alike n lines m others) (status : Option Nat) :
    readLines source numVars ending status n lines =
      readLines source numVars ending status m others := by
  induction h generalizing status with
  | done => rfl
  | skipLeft h _ ih => rw [readLines_skipped _ _ _ (isSkipped_of_strip h), ih]
  | skipRight h _ ih => rw [readLines_skipped _ _ _ (isSkipped_of_strip h), ih]
  | text h _ ih => exact readLines_of_strip h ih status

end Alike

section Readers

variable {lines others : List String} (h : numbered lines = numbered others)

include h

/-- A formula is read from the numbered texts of its lines. -/
theorem Formula.read_eq_of_numbered (source : Option String) (ending : Ending) :
    Formula.read source ⟨lines, ending⟩ = Formula.read source ⟨others, ending⟩ := by
  obtain ⟨result, taken, rest, taken', rest', hseek, hseek', hrest⟩ :=
    (alike_of_numberedFrom h).exists_seekHeader source ending
  cases result with
  | error fault => rw [Formula.read_of_headerFault hseek, Formula.read_of_headerFault hseek']
  | ok header =>
      rw [Formula.read_of_header hseek, Formula.read_of_header hseek', hrest.piecesFrom_eq]

/-- So is a certificate. -/
theorem Certificate.read_eq_of_numbered (source : Option String) (numVars : Option Int)
    (ending : Ending) :
    Certificate.read source numVars ⟨lines, ending⟩ =
      Certificate.read source numVars ⟨others, ending⟩ := by
  have hlines : readLines source numVars ending none 0 lines =
      readLines source numVars ending none 0 others :=
    (alike_of_numberedFrom h).readLines_eq source numVars ending none
  rw [read_eq_feed, read_eq_feed]
  simp only [hlines]

end Readers

end CnfAudit
