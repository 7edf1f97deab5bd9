import CnfAudit.Proofs.Renumbering

/-!
# Lines that are skipped
-/

namespace CnfAudit

open Text

/-- Lines with others put between them. In front of each line stands the gap of its index and behind
the last line one more gap; `k` is the index of the first line. -/
def padFrom (gaps : Nat → List String) (k : Nat) : List String → List String
  | [] => gaps k
  | line :: rest => gaps k ++ line :: padFrom gaps (k + 1) rest

def pad (gaps : Nat → List String) (lines : List String) : List String := padFrom gaps 0 lines

/-- The number that a line has with the gaps, by its number without them. Lines are counted from
one. -/
def position (gaps : Nat → List String) : Nat → Nat
  | 0 => 0
  | k + 1 => position gaps k + (gaps k).length + 1

/-- All lines in the gaps are blank or comments. -/
def OnlySkipped (gaps : Nat → List String) : Prop := ∀ k, ∀ line ∈ gaps k, IsSkipped line

section Positions

variable (gaps : Nat → List String)

private theorem padFrom_append (k : Nat) (before : List String) (line : String)
    (after : List String) :
    ∃ front back, padFrom gaps k (before ++ line :: after) = front ++ line :: back ∧
      position gaps k + front.length + 1 = position gaps (k + before.length + 1) := by
  induction before generalizing k with
  | nil => exact ⟨gaps k, _, rfl, rfl⟩
  | cons first before ih =>
      obtain ⟨front, back, hpad, hlength⟩ := ih (k + 1)
      refine ⟨gaps k ++ first :: front, back, ?_, ?_⟩
      · rw [List.cons_append, padFrom, hpad, List.append_assoc, List.cons_append]
      · have hindex : k + (first :: before).length + 1 = k + 1 + before.length + 1 := by
          rw [List.length_cons]
          omega
        rw [hindex, ← hlength, position, List.length_append, List.length_cons]
        omega

theorem getElem?_pad {lines : List String} {i : Nat} {line : String} (h : lines[i]? = some line) :
    (pad gaps lines)[position gaps (i + 1) - 1]? = some line := by
  obtain ⟨hi, rfl⟩ := List.getElem?_eq_some_iff.1 h
  have hsplit : lines = lines.take i ++ lines[i] :: lines.drop (i + 1) := by
    rw [← List.drop_eq_getElem_cons hi, List.take_append_drop]
  obtain ⟨front, back, hpad, hlength⟩ :=
    padFrom_append gaps 0 (lines.take i) lines[i] (lines.drop (i + 1))
  rw [← hsplit] at hpad
  have hfront : position gaps (i + 1) - 1 = front.length := by
    rw [List.length_take_of_le (Nat.le_of_lt hi), Nat.zero_add] at hlength
    rw [← hlength, position]
    omega
  rw [pad, hpad, hfront]
  simp

end Positions

section Gaps

variable {gap : List String} (h : ∀ line ∈ gap, IsSkipped line) (taken : Nat) (rest : List String)

include h

private theorem passes_gap {β : Type} {read : Nat → List String → β}
    (hread : ∀ {line : String}, IsSkipped line → ∀ (taken : Nat) (rest : List String),
      read taken (line :: rest) = read (taken + 1) rest) :
    read taken (gap ++ rest) = read (taken + gap.length) rest := by
  induction gap generalizing taken with
  | nil => rfl
  | cons line gap ih =>
      rw [List.forall_mem_cons] at h
      have hlength : taken + (line :: gap).length = taken + 1 + gap.length := by
        rw [List.length_cons]
        omega
      rw [List.cons_append, hread h.1, ih h.2, hlength]

private theorem seekHeader_gap (source : Option String) (ending : Ending) :
    ClauseStream.seekHeader source ending taken (gap ++ rest) =
      ClauseStream.seekHeader source ending (taken + gap.length) rest :=
  passes_gap h taken rest fun hskip _ rest => ClauseStream.seekHeader_skipped hskip rest

private theorem piecesFrom_gap :
    ClauseStream.piecesFrom taken (gap ++ rest) =
      ClauseStream.piecesFrom (taken + gap.length) rest := by
  apply passes_gap h taken rest
  intro line hskip taken rest
  rw [ClauseStream.piecesFrom, ClauseStream.linePieces, if_pos hskip, List.nil_append]

private theorem readLines_gap (source : Option String) (numVars : Option Int) (ending : Ending)
    (status : Option Nat) :
    Certificate.readLines source numVars ending status taken (gap ++ rest) =
      Certificate.readLines source numVars ending status (taken + gap.length) rest :=
  passes_gap h taken rest fun hskip taken rest =>
    Certificate.readLines_skipped source numVars ending hskip status taken rest

end Gaps

/-- The formula of some clauses with a header, unless there is a fault behind them. -/
def formulaOf (header : Header) (outcome : List Clause × Option Fault) :
    Except Fault Formula :=
  match outcome.2 with
  | some fault => .error fault
  | none => .ok ⟨header, outcome.1⟩

private theorem formulaOf_renumber (f : Nat → Nat) (header : Header)
    (outcome : List Clause × Option Fault) :
    formulaOf header (ClauseStream.renumberOutcome f outcome) =
      (formulaOf header outcome).mapError (Fault.renumber f) := by
  rcases outcome with ⟨clauses, _ | fault⟩ <;> rfl

section Reading

variable {source : Option String} {lines rest : List String} {ending : Ending} {taken : Nat}

theorem Formula.read_of_headerFault {fault : Fault}
    (h : ClauseStream.seekHeader source ending 0 lines = (.error fault, taken, rest)) :
    Formula.read source ⟨lines, ending⟩ = .error fault := by
  have hstart : (ClauseStream.start source ⟨lines, ending⟩).1 = .error fault := by
    rw [ClauseStream.start, h]
  rw [Formula.read, hstart]

theorem Formula.read_of_header {header : Header}
    (h : ClauseStream.seekHeader source ending 0 lines = (.ok header, taken, rest)) :
    Formula.read source ⟨lines, ending⟩ =
      formulaOf header (ClauseStream.readPieces source ending header
        (ClauseStream.piecesFrom taken rest) [] 0) := by
  have hopen : ∃ s, (ClauseStream.start source ⟨lines, ending⟩).1 = .ok s ∧ s.header = header :=
    ClauseStream.start_eq_ok_iff.2 ⟨taken, rest, h⟩
  obtain ⟨s, hstart, rfl⟩ := hopen
  have houtcome := ClauseStream.outcome_of_start hstart h
  have hdrain := s.drain_eq_outcome
  rw [Formula.read, hstart]
  simp only [hdrain.1, hdrain.2, houtcome]
  rfl

end Reading

variable {gaps : Nat → List String} (h : OnlySkipped gaps)

include h

namespace ClauseStream

private theorem piecesFrom_padFrom (k : Nat) (lines : List String) :
    piecesFrom (position gaps k) (padFrom gaps k lines) =
      (piecesFrom k lines).map (Piece.renumber (position gaps)) := by
  induction lines generalizing k with
  | nil =>
      have hgap := piecesFrom_gap (h k) (position gaps k) []
      rw [List.append_nil] at hgap
      exact hgap
  | cons line rest ih =>
      rw [padFrom, piecesFrom_gap (h k), piecesFrom, piecesFrom, List.map_append,
        ← linePieces_renumber, ← ih (k + 1)]
      rfl

private theorem seekHeader_padFrom (source : Option String) (ending : Ending) (k : Nat)
    (lines : List String) :
    (∃ fault taken taken' rest rest',
      seekHeader source ending k lines = (.error fault, taken, rest) ∧
      seekHeader source ending (position gaps k) (padFrom gaps k lines) =
        (.error (fault.renumber (position gaps)), taken', rest')) ∨
    (∃ header taken rest, seekHeader source ending k lines = (.ok header, taken, rest) ∧
      seekHeader source ending (position gaps k) (padFrom gaps k lines) =
        (.ok header, position gaps taken, padFrom gaps taken rest)) := by
  induction lines generalizing k with
  | nil =>
      have hgap := seekHeader_gap (h k) (position gaps k) [] source ending
      rw [List.append_nil] at hgap
      rw [padFrom, hgap]
      left
      cases ending with
      | complete => exact ⟨_, _, _, _, _, rfl, rfl⟩
      | undecodable refusal => exact ⟨_, _, _, _, _, rfl, rfl⟩
  | cons line rest ih =>
      rw [padFrom, seekHeader_gap (h k)]
      by_cases hskip : IsSkipped line
      · rw [seekHeader_skipped hskip, seekHeader_skipped hskip]
        exact ih (k + 1)
      · by_cases hheader : tag? (strip line) = some 'p'
        · have hparse := Header.parse_renumber (position gaps) (strip line)
            ⟨source, some (k + 1 : Nat)⟩
          rw [seekHeader_header hheader, seekHeader_header hheader]
          rw [Place.renumber_line] at hparse
          have hnumber : position gaps k + (gaps k).length + 1 = position gaps (k + 1) := rfl
          rw [hnumber, hparse]
          cases Header.parse (strip line) ⟨source, some (k + 1 : Nat)⟩ with
          | error fault => exact .inl ⟨fault, _, _, _, _, rfl, rfl⟩
          | ok header => exact .inr ⟨header, _, _, rfl, rfl⟩
        · rw [seekHeader_other hskip hheader, seekHeader_other hskip hheader]
          exact .inl ⟨_, _, _, _, _, rfl, rfl⟩

end ClauseStream

theorem Formula.read_pad (source : Option String) (lines : List String) (ending : Ending) :
    Formula.read source ⟨pad gaps lines, ending⟩ =
      (Formula.read source ⟨lines, ending⟩).mapError (Fault.renumber (position gaps)) := by
  rcases ClauseStream.seekHeader_padFrom h source ending 0 lines with
    ⟨fault, taken, taken', rest, rest', hseek, hseek'⟩ | ⟨header, taken, rest, hseek, hseek'⟩
  · rw [Formula.read_of_headerFault hseek, pad, Formula.read_of_headerFault hseek']
    rfl
  · have hpieces := ClauseStream.piecesFrom_padFrom h taken rest
    rw [Formula.read_of_header hseek, pad, Formula.read_of_header hseek', hpieces,
      ClauseStream.readPieces_renumber, formulaOf_renumber]

namespace Certificate

private theorem readLines_padFrom (source : Option String) (numVars : Option Int)
    (ending : Ending) (status : Option Nat) (k : Nat) (lines : List String) :
    readLines source numVars ending (status.map (position gaps)) (position gaps k)
        (padFrom gaps k lines) =
      renumberValues (position gaps) (readLines source numVars ending status k lines) := by
  induction lines generalizing status k with
  | nil =>
      have hgap := readLines_gap (h k) (position gaps k) [] source numVars ending
        (status.map (position gaps))
      rw [List.append_nil] at hgap
      rw [padFrom, hgap, readLines, readLines, endFault_renumber]
      rfl
  | cons raw rest ih =>
      have hnumber : position gaps k + (gaps k).length + 1 = position gaps (k + 1) := rfl
      rw [padFrom, readLines_gap (h k)]
      rcases line_cases raw with hskip | htag | htag | ⟨c, htag, hc, hs, hv⟩
      · rw [readLines_skipped _ _ _ hskip, readLines_skipped _ _ _ hskip, hnumber, ih]
      · cases status with
        | some first =>
            rw [Option.map_some, readLines_second_status _ _ _ htag,
              readLines_second_status _ _ _ htag, hnumber]
            rfl
        | none =>
            rw [Option.map_none, readLines_first_status _ _ _ htag,
              readLines_first_status _ _ _ htag, hnumber]
            split
            · exact ih (some (k + 1)) (k + 1)
            · rfl
      · rw [readLines_values _ _ _ htag, readLines_values _ _ _ htag, hnumber, ih,
          numberedValues_renumber, continued_renumber]
      · rw [readLines_other _ _ _ htag hc hs hv, readLines_other _ _ _ htag hc hs hv, hnumber]
        rfl

omit h in
theorem read_eq_feed (source : Option String) (numVars : Option Int)
    (input : LineSource) :
    read source numVars input =
      match feed (record source) (readLines source numVars input.ending none 0 input.lines).2
        (readLines source numVars input.ending none 0 input.lines).1 .empty with
      | (_, some fault) => .error fault
      | (a, none) => .ok a := by
  rw [← load_eq_feed, read]
  cases (load source numVars input).fault <;> rfl

theorem read_pad (source : Option String) (numVars : Option Int) (lines : List String)
    (ending : Ending) :
    read source numVars ⟨pad gaps lines, ending⟩ =
      (read source numVars ⟨lines, ending⟩).mapError (Fault.renumber (position gaps)) := by
  have hlines : readLines source numVars ending none 0 (pad gaps lines) =
      renumberValues (position gaps) (readLines source numVars ending none 0 lines) :=
    readLines_padFrom h source numVars ending none 0 lines
  have hfeed := feed_renumber (position gaps) source
    (readLines source numVars ending none 0 lines).2
    (readLines source numVars ending none 0 lines).1 .empty
  rw [read_eq_feed, read_eq_feed]
  simp only [hlines, renumberValues, hfeed]
  rcases feed (record source) (readLines source numVars ending none 0 lines).2
    (readLines source numVars ending none 0 lines).1 .empty with ⟨a, _ | fault⟩
  · rfl
  · rfl

end Certificate

/-- Blank lines and comments are invisible. Wherever they are put between the lines, the formula or
the assignment that is read is the same. A fault is the same too, at the new number of its line, and
if it is a second status line it names the new number of the first one. -/
theorem skipped_lines_invisible (source : Option String) (numVars : Option Int)
    (lines : List String) (ending : Ending) :
    Formula.read source ⟨pad gaps lines, ending⟩ =
      (Formula.read source ⟨lines, ending⟩).mapError (Fault.renumber (position gaps)) ∧
    Certificate.read source numVars ⟨pad gaps lines, ending⟩ =
      (Certificate.read source numVars ⟨lines, ending⟩).mapError
        (Fault.renumber (position gaps)) ∧
    ∀ i line, lines[i]? = some line →
      (pad gaps lines)[position gaps (i + 1) - 1]? = some line :=
  ⟨Formula.read_pad h source lines ending, Certificate.read_pad h source numVars lines ending,
    fun _ _ => getElem?_pad gaps⟩

omit h in
/-- A blank line in front of the first line and a comment in front of the third. The second status
line, on the third line before, names the first one, which was on the first. -/
theorem skipped_lines_invisible_around_status :
    let gaps : Nat → List String := fun k => if k = 0 then [" "] else if k = 2 then ["c x"] else []
    let lines := ["s SATISFIABLE", "v 1 0", "s SATISFIABLE"]
    OnlySkipped gaps ∧
      pad gaps lines = [" ", "s SATISFIABLE", "v 1 0", "c x", "s SATISFIABLE"] ∧
      Certificate.read (some "w") none ⟨lines, .complete⟩ =
        .error (.rejected ⟨.repeatedStatus 1 "s SATISFIABLE", ⟨some "w", some 3⟩⟩) ∧
      Certificate.read (some "w") none ⟨pad gaps lines, .complete⟩ =
        .error (.rejected ⟨.repeatedStatus 2 "s SATISFIABLE", ⟨some "w", some 5⟩⟩) := by
  intro gaps lines
  have hgaps : OnlySkipped gaps := by
    intro k line hline
    simp only [gaps] at hline
    split at hline
    · rw [List.mem_singleton.1 hline]
      decide
    · split at hline
      · rw [List.mem_singleton.1 hline]
        decide
      · simp at hline
  have hread : Certificate.read (some "w") none ⟨lines, .complete⟩ =
      .error (.rejected ⟨.repeatedStatus 1 "s SATISFIABLE", ⟨some "w", some 3⟩⟩) := by
    have hfault : (Certificate.load (some "w") none ⟨lines, .complete⟩).fault =
        some (.rejected ⟨.repeatedStatus 1 "s SATISFIABLE", ⟨some "w", some 3⟩⟩) := by
      decide +kernel
    rw [Certificate.read, hfault]
  refine ⟨hgaps, rfl, hread, ?_⟩
  rw [(skipped_lines_invisible hgaps (some "w") none lines .complete).2.1, hread]
  rfl

end CnfAudit
