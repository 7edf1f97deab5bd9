import CnfAudit.Proofs.FormulaText

/-!
# The body of a text up to its first error

The clauses in front of the first error are said on tokens, without reference to the reader.
-/

namespace CnfAudit

open Text

/-- The values of a function on the elements in front of the first that has none. -/
def leading {α β : Type} (f : α → Option β) (as : List α) : List β :=
  (as.takeWhile fun a => (f a).isSome).filterMap f

section Leading

variable {α β : Type} {f : α → Option β}

@[simp] theorem leading_nil : leading f [] = [] := rfl

theorem leading_cons_some {a : α} {b : β} (h : f a = some b) (as : List α) :
    leading f (a :: as) = b :: leading f as := by
  simp [leading, h]

theorem leading_cons_none {a : α} (h : f a = none) (as : List α) :
    leading f (a :: as) = [] := by
  simp [leading, h]

end Leading

namespace Header

variable (header : Header)

/-- The integer that a token spells, if it is in range. -/
def integer? (token : String) : Option Int :=
  (readInteger token {}).toOption.filter fun v => v.natAbs ≤ header.numVars

/-- The integers behind the header line, up to the first token that is none or is out of range. A
second header line begins with such a token. -/
def soundIntegers (lines : List String) : List Int :=
  leading header.integer? ((contentLines lines).tail.flatMap fields)

/-- The clauses that are complete in front of the first error. A clause that the header does not
allow is an error as well. -/
def soundClauses (lines : List String) : List (List Int) :=
  (runs (header.soundIntegers lines)).take header.numClauses

theorem integer?_eq_some_iff {token : String} {v : Int} :
    header.integer? token = some v ↔ Spells token v ∧ v.natAbs ≤ header.numVars := by
  rw [integer?, ← readInteger_eq_ok_iff {}]
  cases readInteger token {} <;> simp [Except.toOption]

theorem integer?_eq_none_of_tag {token : String} (h : tag? token = some 'p') :
    header.integer? token = none := by
  by_contra hne
  obtain ⟨v, hv⟩ := Option.ne_none_iff_exists'.1 hne
  obtain ⟨c, hc, hkind⟩ := (header.integer?_eq_some_iff.1 hv).1.tag
  obtain rfl : c = 'p' := by simpa [h] using hc.symm
  revert hkind
  decide

end Header

section Runs

variable {xs : List Int}

theorem runs_append_zero (h : 0 ∉ xs) (ys : List Int) : runs (xs ++ 0 :: ys) = xs :: runs ys := by
  rw [runs, List.splitOn_append_cons_self_of_not_mem h, List.dropLast_cons_of_ne_nil, runs]
  exact List.splitOn_ne_nil 0 ys

theorem runs_eq_nil (h : 0 ∉ xs) : runs xs = [] := by
  rw [runs, List.splitOn_eq_singleton h]
  rfl

end Runs

/-- The literals of a clause as integers. -/
def Clause.integers (c : Clause) : List Int := c.map Literal.toInt

theorem zero_notMem_integers (c : Clause) : 0 ∉ c.integers := zero_notMem_map c

namespace ClauseStream

/-- The integer of a piece, if it is a token that spells one in range. -/
def Piece.integer? (header : Header) : Piece → Option Int
  | .token _ text => header.integer? text
  | .header _ _ => none

section Reading

variable {source : Option String} {ending : Ending} {header : Header}

private theorem clauses_readPieces (pieces : List Piece) (read : Clause) (count : Nat) :
    (readPieces source ending header pieces read count).1.map Clause.integers =
      (runs (Clause.integers read.reverse ++ leading (Piece.integer? header) pieces)).take
        (header.numClauses - count) := by
  -- the clause being read stands in front, and the zeros counted before are used up
  induction pieces generalizing read count with
  | nil => simp [readPieces, runs_eq_nil (zero_notMem_integers _)]
  | cons piece pieces ih =>
      have hread := zero_notMem_integers read.reverse
      cases piece with
      | header line text =>
          have hpiece : Piece.integer? header (.header line text) = none := rfl
          simp [readPieces, leading_cons_none hpiece, runs_eq_nil hread]
      | token line text =>
          rw [readPieces]
          cases hinteger : header.integer? text with
          | none =>
              have hpiece : Piece.integer? header (.token line text) = none := hinteger
              rw [leading_cons_none hpiece, List.append_nil, runs_eq_nil hread, List.take_nil]
              split
              · rfl
              · rename_i value hvalue
                have hspells := (readInteger_eq_ok_iff _).1 hvalue
                have hrange : ¬value.natAbs ≤ header.numVars := by
                  intro hle
                  rw [header.integer?_eq_some_iff.2 ⟨hspells, hle⟩] at hinteger
                  simp at hinteger
                have hzero : value ≠ 0 := by
                  rintro rfl
                  exact hrange (Nat.zero_le _)
                rw [dif_neg hzero, dif_neg hrange]
                rfl
          | some value =>
              obtain ⟨hspells, hrange⟩ := header.integer?_eq_some_iff.1 hinteger
              have hpiece : Piece.integer? header (.token line text) = some value := hinteger
              rw [leading_cons_some hpiece, (readInteger_eq_ok_iff _).2 hspells]
              simp only
              by_cases hzero : value = 0
              · subst hzero
                rw [dif_pos rfl, runs_append_zero hread]
                by_cases hcount : count + 1 ≤ header.numClauses
                · have hrest : header.numClauses - count = header.numClauses - (count + 1) + 1 := by
                    omega
                  rw [if_pos hcount, hrest, List.take_succ_cons, prepend, List.map_cons,
                    ih [] (count + 1)]
                  rfl
                · have hrest : header.numClauses - count = 0 := by omega
                  rw [if_neg hcount, hrest]
                  rfl
              · rw [dif_neg hzero, dif_pos hrange, ih _ count]
                simp [Clause.integers]

end Reading

private theorem leading_tokens {header : Header} {number : Nat} {pieces : List Piece}
    {texts : List String}
    (h : leading (Piece.integer? header) pieces = leading header.integer? texts)
    (tokens : List String) :
    leading (Piece.integer? header) (tokens.map (.token number) ++ pieces) =
      leading header.integer? (tokens ++ texts) := by
  induction tokens with
  | nil => exact h
  | cons token tokens ih =>
      rw [List.map_cons, List.cons_append, List.cons_append]
      cases hinteger : header.integer? token with
      | none =>
          have hpiece : Piece.integer? header (.token number token) = none := hinteger
          rw [leading_cons_none hinteger, leading_cons_none hpiece]
      | some v =>
          have hpiece : Piece.integer? header (.token number token) = some v := hinteger
          rw [leading_cons_some hinteger, leading_cons_some hpiece, ih]

private theorem leading_piecesFrom (header : Header) (taken : Nat) (lines : List String) :
    leading (Piece.integer? header) (piecesFrom taken lines) =
      leading header.integer? ((contentLines lines).flatMap fields) := by
  induction lines generalizing taken with
  | nil => rfl
  | cons line lines ih =>
      rw [piecesFrom, linePieces]
      by_cases hskip : IsSkipped line
      · rw [if_pos hskip, List.nil_append, contentLines_cons_skipped hskip]
        exact ih (taken + 1)
      · rw [if_neg hskip, contentLines_cons_of_not hskip, List.flatMap_cons, fields_strip]
        by_cases hheader : tag? (strip line) = some 'p'
        · rw [if_pos hheader]
          rw [tag?_strip] at hheader
          obtain ⟨token, htoken, hp⟩ := Option.bind_eq_some_iff.1 hheader
          obtain ⟨tokens, hfields⟩ := List.head?_eq_some_iff.1 htoken
          have hnone := leading_cons_none (header.integer?_eq_none_of_tag hp)
            (tokens ++ (contentLines lines).flatMap fields)
          rw [hfields]
          exact (leading_cons_none rfl _).trans hnone.symm
        · rw [if_neg hheader]
          exact leading_tokens (ih (taken + 1)) (fields line)

end ClauseStream

/-- A stream that has been opened on a text gives the clauses of the text in front of its first
error. -/
theorem clauses_drain_of_start {source : Option String} {input : LineSource} {s : ClauseStream}
    (h : (ClauseStream.start source input).1 = .ok s) :
    (drain s).clauses.map Clause.integers = s.header.soundClauses input.lines := by
  obtain ⟨taken, rest, hseek⟩ := ClauseStream.start_eq_ok_iff.1 ⟨s, h, rfl⟩
  obtain ⟨first, hlines, -⟩ := ClauseStream.headerLine_of_seekHeader hseek
  rw [s.drain_eq_outcome.1, ClauseStream.outcome_of_start h hseek,
    ClauseStream.clauses_readPieces, ClauseStream.leading_piecesFrom, Header.soundClauses,
    Header.soundIntegers, hlines]
  rfl

end CnfAudit
