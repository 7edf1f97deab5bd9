import CnfAudit.Proofs.CertificatePass
import CnfAudit.Proofs.FormulaText

/-!
# Renumbered lines

The number of a line shows in nothing but the place of a fault, and in the place of the first
status line that the fault of a second one names.
-/

namespace CnfAudit

open Text

/-- The same place under another number. -/
def Place.renumber (f : Nat → Nat) (place : Place) : Place :=
  { place with line := place.line.map fun n => f n.toNat }

/-- The same cause. A line is named only by the cause of a second status line. -/
def Cause.renumber (f : Nat → Nat) : Cause → Cause
  | .repeatedStatus first line => .repeatedStatus (f first) line
  | cause => cause

/-- The same fault, its lines named by their new numbers. -/
def Fault.renumber (f : Nat → Nat) : Fault → Fault
  | .rejected d => .rejected ⟨d.cause.renumber f, d.place.renumber f⟩
  | fault => fault

section Tokens

variable (f : Nat → Nat)

theorem Place.renumber_line (source : Option String) (n : Nat) :
    Place.renumber f ⟨source, some n⟩ = ⟨source, some (f n)⟩ := rfl

private theorem Fault.mentioning_renumber {cause : Cause} (n : Int)
    (h : cause.renumber f = cause) (place : Place) :
    Fault.mentioning n cause (place.renumber f) =
      (Fault.mentioning n cause place).renumber f := by
  unfold Fault.mentioning
  split
  · rw [Fault.renumber, h]
  · rfl

theorem readInteger_renumber (token : String) (place : Place) :
    readInteger token (place.renumber f) =
      (readInteger token place).mapError (Fault.renumber f) := by
  unfold readInteger
  rcases splitSign token.toList with ⟨negative, digits⟩
  simp only
  split
  · rw [readNumeral]
    split <;> rfl
  · rfl

theorem Header.ofCounts_renumber (line vars clauses : String) (place : Place) :
    Header.ofCounts line vars clauses (place.renumber f) =
      (Header.ofCounts line vars clauses place).mapError (Fault.renumber f) := by
  unfold Header.ofCounts
  split
  · rfl
  · rw [readNumeral, readNumeral]
    split
    · rename_i hfault
      split at hfault
      · simp at hfault
      · rw [← Except.error.inj hfault]
        rfl
    · rename_i hfault
      split at hfault
      · simp at hfault
      · rw [← Except.error.inj hfault]
        rfl
    · split <;> rfl

theorem Header.parse_renumber (line : String) (place : Place) :
    Header.parse line (place.renumber f) =
      (Header.parse line place).mapError (Fault.renumber f) := by
  unfold Header.parse
  split
  · exact Header.ofCounts_renumber f line _ _ place
  · rfl

theorem Literal.parse_renumber (token : String) (place : Place) :
    Literal.parse token (place.renumber f) =
      (Literal.parse token place).mapError (Fault.renumber f) := by
  unfold Literal.parse
  rw [readInteger_renumber]
  cases readInteger token place with
  | error fault => rfl
  | ok value =>
      simp only [Except.mapError]
      by_cases hzero : value = 0
      · simp only [Literal.ofInt, if_pos hzero]
        rfl
      · simp only [Literal.ofInt, if_neg hzero, Literal.ofVariable]
        by_cases hrange : 0 < (value.natAbs : Int).toNat ∧ (value.natAbs : Int).toNat ≤ maxVariable
        · simp only [dif_pos hrange]
        · simp only [dif_neg hrange, Fault.placedAt_mentioning]
          rw [Fault.mentioning_renumber]
          rfl

end Tokens

namespace ClauseStream

variable (f : Nat → Nat)

def Piece.renumber : Piece → Piece
  | .token line text => .token (f line) text
  | .header line text => .header (f line) text

/-- The same clauses, and the fault behind them under its new numbers. -/
def renumberOutcome (outcome : List Clause × Option Fault) : List Clause × Option Fault :=
  (outcome.1, outcome.2.map (Fault.renumber f))

theorem linePieces_renumber (number : Nat) (line : String) :
    linePieces (f number) line = (linePieces number line).map (Piece.renumber f) := by
  unfold linePieces
  split
  · rfl
  · split
    · rfl
    · rw [List.map_map]
      rfl

variable (source : Option String) (ending : Ending) (header : Header)

private theorem endFault_renumber (read : Clause) (count : Nat) :
    (endFault source ending header read count).map (Fault.renumber f) =
      endFault source ending header read count := by
  unfold endFault
  cases ending with
  | undecodable refusal => rfl
  | complete =>
      simp only
      split
      · rfl
      · split <;> rfl

/-- Pieces under other numbers are read to the same clauses. -/
theorem readPieces_renumber (pieces : List Piece) (read : Clause) (count : Nat) :
    readPieces source ending header (pieces.map (Piece.renumber f)) read count =
      renumberOutcome f (readPieces source ending header pieces read count) := by
  induction pieces generalizing read count with
  | nil => rw [List.map_nil, readPieces, renumberOutcome, endFault_renumber]
  | cons piece pieces ih =>
      cases piece with
      | header line text => rfl
      | token line text =>
          simp only [List.map_cons, Piece.renumber, readPieces]
          rw [← Place.renumber_line, readInteger_renumber]
          cases readInteger text ⟨source, some line⟩ with
          | error fault => rfl
          | ok value =>
              simp only [Except.mapError]
              split
              · split
                · rw [ih]
                  rfl
                · rfl
              · split
                · exact ih _ _
                · rfl

end ClauseStream

namespace Certificate

variable (f : Nat → Nat)

/-- The same values under other numbers, and the fault behind them. -/
def renumberValues (outcome : List (Nat × Literal) × Option Fault) :
    List (Nat × Literal) × Option Fault :=
  (outcome.1.map fun v => (f v.1, v.2), outcome.2.map (Fault.renumber f))

theorem continued_renumber (first rest : List (Nat × Literal) × Option Fault) :
    continued (renumberValues f first) (renumberValues f rest) =
      renumberValues f (continued first rest) := by
  rcases first with ⟨values, _ | fault⟩
  · simp [continued, renumberValues]
  · rfl

private def renumberScan : ValueScan → ValueScan
  | .fault fault => .fault (fault.renumber f)
  | scan => scan

private theorem scanValue_renumber (numVars : Option Int) (place : Place) (tokens : List String) :
    scanValue numVars (place.renumber f) tokens =
      renumberScan f (scanValue numVars place tokens) := by
  cases tokens with
  | nil => rfl
  | cons token rest =>
      simp only [scanValue]
      rw [readInteger_renumber, Literal.parse_renumber]
      cases readInteger token place with
      | error fault => rfl
      | ok value =>
          simp only [Except.mapError]
          split
          · split <;> rfl
          · split
            · rw [renumberScan, ← Fault.mentioning_renumber]
              rfl
            · cases Literal.parse token place <;> rfl

private theorem lineValues_renumber (numVars : Option Int) (place : Place)
    (tokens : List String) :
    lineValues numVars (place.renumber f) tokens =
      ((lineValues numVars place tokens).1,
        (lineValues numVars place tokens).2.map (Fault.renumber f)) := by
  induction tokens with
  | nil => rfl
  | cons token rest ih =>
      unfold lineValues
      rw [scanValue_renumber, ih]
      cases scanValue numVars place (token :: rest) <;> rfl

theorem numberedValues_renumber (source : Option String) (numVars : Option Int) (line : Nat)
    (tokens : List String) :
    numberedValues source numVars (f line) tokens =
      renumberValues f (numberedValues source numVars line tokens) := by
  simp only [numberedValues, renumberValues, ← Place.renumber_line, lineValues_renumber,
    List.map_map]
  rfl

theorem endFault_renumber (source : Option String) (ending : Ending) (status : Option Nat) :
    (endFault source ending (status.map f)) =
      (endFault source ending status).map (Fault.renumber f) := by
  unfold endFault
  cases ending with
  | undecodable refusal => rfl
  | complete => cases status <;> rfl

/-- Values under other numbers are recorded alike. -/
theorem feed_renumber (source : Option String) (fault : Option Fault)
    (values : List (Nat × Literal)) (a : Assignment) :
    feed (record source) (fault.map (Fault.renumber f)) (values.map fun v => (f v.1, v.2)) a =
      ((feed (record source) fault values a).1,
        (feed (record source) fault values a).2.map (Fault.renumber f)) := by
  induction values generalizing a with
  | nil => rfl
  | cons v values ih =>
      rw [List.map_cons, feed, feed, record, record]
      rcases a.assign_cases v.2 with ⟨-, hassign⟩ | ⟨-, hassign⟩ | ⟨-, hassign⟩
      · simp only [hassign, ih]
      · simp only [hassign, ih]
      · simp only [hassign]
        rfl

end Certificate

end CnfAudit
