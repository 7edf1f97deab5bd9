import CnfAudit.Proofs.Literals
import CnfAudit.Proofs.StreamPieces

/-!
# The text of a formula

`FormulaText` is the grammar of formulas, on lines and tokens and without reference to the reader.
-/

namespace CnfAudit

open Text

/-- The line `p cnf V C`: four fields, the last two of them counts. -/
def HeaderLine (text : String) (numVars numClauses : Nat) : Prop :=
  ∃ vars clauses, fields text = ["p", "cnf", vars, clauses] ∧
    IsCount vars.toList ∧ IsCount clauses.toList ∧
    numeralValue vars.toList = numVars ∧ numeralValue clauses.toList = numClauses

private theorem Header.ofCounts_eq_ok_iff {line vars clauses : String} {place : Place}
    {header : Header} :
    Header.ofCounts line vars clauses place = .ok header ↔
      IsCount vars.toList ∧ IsCount clauses.toList ∧
        numeralValue vars.toList = header.numVars ∧
        numeralValue clauses.toList = header.numClauses := by
  obtain ⟨numVars, numClauses, hle⟩ := header
  unfold Header.ofCounts IsCount readNumeral
  by_cases hvars : isNumeral vars.toList <;> by_cases hclauses : isNumeral clauses.toList <;>
    simp only [hvars, hclauses, Bool.and_true, Bool.and_false, Bool.not_true, Bool.not_false,
      Bool.false_eq_true, if_true, if_false, true_and, false_and, and_false, iff_false]
  · by_cases hv : vars.toList.length ≤ maxDigits
    · by_cases hc : clauses.toList.length ≤ maxDigits
      · by_cases hmax : numeralValue vars.toList ≤ maxVariable
        · simp [hv, hc, hmax]
        · simp only [hv, hc, hmax, if_true, dite_false, reject, true_and, reduceCtorEq, false_iff]
          intro hcounts
          rcases hcounts with ⟨rfl, -⟩
          exact hmax hle
      · simp [hv, hc]
    · simp [hv]
  all_goals simp [reject]

theorem Header.parse_eq_ok_iff {line : String} (place : Place) {header : Header} :
    Header.parse line place = .ok header ↔
      HeaderLine line header.numVars header.numClauses := by
  unfold Header.parse HeaderLine
  split
  · rename_i vars clauses h
    rw [Header.ofCounts_eq_ok_iff]
    constructor
    · intro hcounts
      rcases hcounts with ⟨hv, hc, hvars, hclauses⟩
      exact ⟨vars, clauses, h, hv, hc, hvars, hclauses⟩
    · intro hline
      rcases hline with ⟨vars', clauses', h', hv, hc, hvars, hclauses⟩
      obtain ⟨rfl, rfl⟩ : vars = vars' ∧ clauses = clauses' := by simpa [h] using h'
      exact ⟨hv, hc, hvars, hclauses⟩
  · rename_i h
    simp only [reject, reduceCtorEq, false_iff]
    intro hline
    rcases hline with ⟨vars, clauses, h', -⟩
    exact h vars clauses h'

/-- The lines are the text of a formula with these counts, and its tokens have these values. -/
structure FormulaText (lines : List String) (numVars numClauses : Nat) (values : List Int) :
    Prop where
  layout : ∃ first body, contentLines lines = first :: body ∧
    HeaderLine first numVars numClauses ∧ (∀ text ∈ body, tag? text ≠ some 'p') ∧
    List.Forall₂ Spells (body.flatMap fields) values
  numVars_le : numVars ≤ maxVariable
  inRange : ∀ v ∈ values, v.natAbs ≤ numVars
  terminated : values = [] ∨ values.getLast? = some 0
  counted : values.count 0 = numClauses

/-- The runs of integers in front of each zero. -/
def runs (values : List Int) : List (List Int) := (values.splitOn 0).dropLast

/-- The clauses as integers, each with its zero. -/
def written (cs : List Clause) : List Int := cs.flatMap fun c => c.map Literal.toInt ++ [0]

theorem written_cons (c : Clause) (cs : List Clause) :
    written (c :: cs) = c.map Literal.toInt ++ 0 :: written cs := by
  simp [written]

theorem zero_notMem_map (c : Clause) : (0 : Int) ∉ c.map Literal.toInt := by
  intro h
  obtain ⟨l, -, hl⟩ := List.mem_map.1 h
  exact l.toInt_ne_zero hl

theorem count_written (cs : List Clause) : (written cs).count 0 = cs.length := by
  induction cs with
  | nil => rfl
  | cons c cs ih =>
      rw [written_cons, List.count_append, List.count_eq_zero.2 (zero_notMem_map c),
        List.count_cons_self, ih, List.length_cons]
      omega

theorem runs_written (cs : List Clause) :
    runs (written cs) = cs.map fun c => c.map Literal.toInt := by
  have hsplit : (written cs).splitOn 0 = (cs.map fun c => c.map Literal.toInt) ++ [[]] := by
    induction cs with
    | nil => rfl
    | cons c cs ih =>
        rw [written_cons, List.splitOn_append_cons_self_of_not_mem (zero_notMem_map c), ih]
        rfl
  rw [runs, hsplit, List.dropLast_concat]

theorem written_terminated (cs : List Clause) :
    written cs = [] ∨ (written cs).getLast? = some 0 := by
  rcases List.eq_nil_or_concat cs with rfl | ⟨cs, c, rfl⟩
  · exact .inl rfl
  · right
    simp [written]

private theorem exists_written_append {values : List Int}
    (h : ∀ v ∈ values, v.natAbs ≤ maxVariable) :
    ∃ cs : List Clause, ∃ rest : Clause, values = written cs ++ rest.map Literal.toInt := by
  induction values with
  | nil => exact ⟨[], [], rfl⟩
  | cons v values ih =>
      obtain ⟨cs, rest, rfl⟩ := ih fun w hw => h w (by simp [hw])
      by_cases hv : v = 0
      · exact ⟨[] :: cs, rest, by simp [written_cons, hv]⟩
      · obtain ⟨l, rfl⟩ := Literal.exists_toInt_eq_iff.2 ⟨hv, h v (by simp)⟩
        cases cs with
        | nil => exact ⟨[], l :: rest, by simp [written]⟩
        | cons c cs => exact ⟨(l :: c) :: cs, rest, by simp [written_cons]⟩

private theorem exists_written {values : List Int} (hrange : ∀ v ∈ values, v.natAbs ≤ maxVariable)
    (hend : values = [] ∨ values.getLast? = some 0) : ∃ cs, values = written cs := by
  obtain ⟨cs, rest, rfl⟩ := exists_written_append hrange
  refine ⟨cs, ?_⟩
  rcases List.eq_nil_or_concat rest with rfl | ⟨rest, l, rfl⟩
  · simp
  · have := l.toInt_ne_zero
    simp_all

/-- The clauses whose literals are the runs of the integers are those that the integers write. -/
theorem eq_written_of_runs {values : List Int} {cs : List Clause}
    (hrange : ∀ v ∈ values, v.natAbs ≤ maxVariable)
    (hend : values = [] ∨ values.getLast? = some 0)
    (hruns : runs values = cs.map fun c => c.map Literal.toInt) : values = written cs := by
  obtain ⟨ds, rfl⟩ := exists_written hrange hend
  rw [runs_written] at hruns
  have heq : ds = cs := List.map_injective_iff.2 (fun _ _ => Literal.map_toInt_injective) hruns
  rw [heq]

private theorem written_eq_append_zero {cs : List Clause} {read : Clause} {values : List Int} :
    read.map Literal.toInt ++ 0 :: values = written cs ↔
      ∃ rest, cs = read :: rest ∧ values = written rest := by
  constructor
  · intro h
    cases cs with
    | nil => simp [written] at h
    | cons c rest =>
        rw [written_cons] at h
        have hlist := congrArg (List.splitOn 0) h
        rw [List.splitOn_append_cons_self_of_not_mem (zero_notMem_map read),
          List.splitOn_append_cons_self_of_not_mem (zero_notMem_map c)] at hlist
        obtain rfl := Literal.map_toInt_injective (List.cons.inj hlist).1
        exact ⟨rest, rfl, by simpa using h⟩
  · intro h
    rcases h with ⟨rest, rfl, rfl⟩
    exact (written_cons read rest).symm

private theorem written_eq_map {cs : List Clause} {read : Clause} :
    read.map Literal.toInt = written cs ↔ read = [] ∧ cs = [] := by
  constructor
  · intro h
    cases cs with
    | nil => simpa [written] using h
    | cons c cs =>
        have hzero := zero_notMem_map read
        rw [h, written_cons] at hzero
        simp at hzero
  · intro h
    rcases h with ⟨rfl, rfl⟩
    rfl

namespace ClauseStream

/-- The piece is a token that spells the integer. -/
def Piece.Spells : Piece → Int → Prop
  | .token _ text, v => CnfAudit.Spells text v
  | .header _ _, _ => False

section Reading

variable {source : Option String} {header : Header}

private theorem endFault_eq_none_iff {read : Clause} {count : Nat} :
    endFault source .complete header read count = none ↔
      read = [] ∧ count = header.numClauses := by
  cases read <;> simp [endFault]

private def Completes (header : Header) (read : Clause) (count : Nat) (cs : List Clause)
    (values : List Int) : Prop :=
  (∀ v ∈ values, v.natAbs ≤ header.numVars) ∧
    read.reverse.map Literal.toInt ++ values = written cs ∧
    count + cs.length = header.numClauses

private theorem completes_nil {read : Clause} {count : Nat} {cs : List Clause} :
    Completes header read count cs [] ↔ cs = [] ∧ read = [] ∧ count = header.numClauses := by
  simp only [Completes, List.append_nil, written_eq_map, List.reverse_eq_nil_iff]
  constructor
  · intro h
    rcases h with ⟨-, ⟨rfl, rfl⟩, hcount⟩
    exact ⟨rfl, rfl, by simpa using hcount⟩
  · intro h
    rcases h with ⟨rfl, rfl, rfl⟩
    simp

private theorem completes_zero {read : Clause} {count : Nat} {cs : List Clause}
    {values : List Int} :
    Completes header read count cs (0 :: values) ↔
      count + 1 ≤ header.numClauses ∧
        ∃ rest, cs = read.reverse :: rest ∧ Completes header [] (count + 1) rest values := by
  simp only [Completes, written_eq_append_zero, List.forall_mem_cons]
  constructor
  · intro h
    rcases h with ⟨⟨-, hrange⟩, ⟨rest, rfl, rfl⟩, hcount⟩
    rw [List.length_cons] at hcount
    exact ⟨by omega, rest, rfl, hrange, rfl, by omega⟩
  · intro h
    rcases h with ⟨-, rest, rfl, hrange, rfl, hcount⟩
    refine ⟨⟨Nat.zero_le _, hrange⟩, ⟨rest, rfl, rfl⟩, ?_⟩
    rw [List.length_cons]
    omega

private theorem completes_cons_of_ne {read : Clause} {count : Nat} {cs : List Clause} {value : Int}
    {values : List Int} (h : value ≠ 0 ∧ value.natAbs ≤ maxVariable) :
    Completes header read count cs (value :: values) ↔
      value.natAbs ≤ header.numVars ∧
        Completes header (Literal.ofNonzero value h :: read) count cs values := by
  simp [Completes, and_assoc]

private theorem exists_spelled_cons {line : Nat} {text : String} {pieces : List Piece}
    {place : Place} {value : Int} (hread : readInteger text place = .ok value)
    (P : List Int → Prop) :
    (∃ values, List.Forall₂ Piece.Spells (.token line text :: pieces) values ∧ P values) ↔
      ∃ rest, List.Forall₂ Piece.Spells pieces rest ∧ P (value :: rest) := by
  have hvalue : Spells text value := (readInteger_eq_ok_iff place).1 hread
  constructor
  · intro hspelled
    rcases hspelled with ⟨values, hvalues, hP⟩
    obtain ⟨v, rest, hv, hrest, rfl⟩ := List.forall₂_cons_left_iff.1 hvalues
    obtain rfl : v = value := CnfAudit.Spells.unique hv hvalue
    exact ⟨rest, hrest, hP⟩
  · intro hspelled
    rcases hspelled with ⟨rest, hrest, hP⟩
    exact ⟨value :: rest, .cons hvalue hrest, hP⟩

private theorem readPieces_eq_none_iff {pieces : List Piece} {read : Clause} {count : Nat}
    {cs : List Clause} :
    readPieces source .complete header pieces read count = (cs, none) ↔
      ∃ values, List.Forall₂ Piece.Spells pieces values ∧
        Completes header read count cs values := by
  induction pieces generalizing read count cs with
  | nil =>
      simp [readPieces, endFault_eq_none_iff, completes_nil]
  | cons piece pieces ih =>
      cases piece with
      | header line text => simp [readPieces, List.forall₂_cons_left_iff, Piece.Spells]
      | token line text =>
          rw [readPieces]
          cases hread : readInteger text ⟨source, some line⟩ with
          | error fault =>
              simp only [Prod.mk.injEq, reduceCtorEq, and_false, false_iff]
              intro hspelled
              rcases hspelled with ⟨values, hvalues, -⟩
              obtain ⟨v, rest, hv, -⟩ := List.forall₂_cons_left_iff.1 hvalues
              rw [(readInteger_eq_ok_iff _).2 hv] at hread
              simp at hread
          | ok value =>
              rw [exists_spelled_cons hread]
              -- a zero, a literal in range, or an integer that no clause of the formula can hold
              by_cases hzero : value = 0
              · subst hzero
                simp only [dite_true, completes_zero]
                split
                · rename_i hcount
                  simp only [prepend, Prod.mk.injEq, hcount, true_and]
                  constructor
                  · intro hread
                    rcases hread with ⟨rfl, hfault⟩
                    obtain ⟨vs, hvs, hrest⟩ := ih.1 (Prod.ext rfl hfault)
                    exact ⟨vs, hvs, _, rfl, hrest⟩
                  · intro hspelled
                    rcases hspelled with ⟨vs, hvs, rest, rfl, hrest⟩
                    rw [ih.2 ⟨vs, hvs, hrest⟩]
                    exact ⟨rfl, rfl⟩
                · rename_i hcount
                  simp [hcount]
              · by_cases hrange : value.natAbs ≤ header.numVars
                · have hfits : value ≠ 0 ∧ value.natAbs ≤ maxVariable :=
                    header.fits hzero hrange
                  simp only [hzero, hrange, dite_false, dite_true, ih]
                  apply exists_congr
                  intro vs
                  rw [completes_cons_of_ne hfits, and_iff_right hrange]
                · simp only [hzero, hrange, dite_false, Prod.mk.injEq, reduceCtorEq, and_false,
                    false_iff]
                  intro hspelled
                  rcases hspelled with ⟨rest, -, hrest⟩
                  exact hrange (hrest.1 value (by simp))

end Reading

private theorem forall₂_tokens_append {number : Nat} {pieces : List Piece} {texts : List String}
    {P : Prop}
    (h : ∀ values, List.Forall₂ Piece.Spells pieces values ↔
      P ∧ List.Forall₂ Spells texts values)
    (tokens : List String) (values : List Int) :
    List.Forall₂ Piece.Spells (tokens.map (.token number) ++ pieces) values ↔
      P ∧ List.Forall₂ Spells (tokens ++ texts) values := by
  induction tokens generalizing values with
  | nil => exact h values
  | cons token tokens ih =>
      simp only [List.map_cons, List.cons_append, List.forall₂_cons_left_iff, ih, Piece.Spells]
      constructor
      · intro hall
        rcases hall with ⟨v, rest, hv, ⟨hP, hrest⟩, rfl⟩
        exact ⟨hP, v, rest, hv, hrest, rfl⟩
      · intro hall
        rcases hall with ⟨hP, v, rest, hv, hrest, rfl⟩
        exact ⟨v, rest, hv, ⟨hP, hrest⟩, rfl⟩

private theorem forall₂_piecesFrom_iff {taken : Nat} {lines : List String} {values : List Int} :
    List.Forall₂ Piece.Spells (piecesFrom taken lines) values ↔
      (∀ text ∈ contentLines lines, tag? text ≠ some 'p') ∧
        List.Forall₂ Spells ((contentLines lines).flatMap fields) values := by
  induction lines generalizing taken values with
  | nil => simp [piecesFrom, contentLines]
  | cons line lines ih =>
      rw [piecesFrom]
      by_cases hskip : IsSkipped line
      · rw [linePieces, if_pos hskip, List.nil_append, contentLines_cons_skipped hskip, ih]
      · rw [contentLines_cons_of_not hskip, linePieces, if_neg hskip, List.flatMap_cons,
          fields_strip, List.forall_mem_cons]
        by_cases hheader : tag? (strip line) = some 'p'
        · simp [hheader, Piece.Spells, List.forall₂_cons_left_iff]
        · rw [if_neg hheader, forall₂_tokens_append fun _ => ih]
          simp [hheader]

section Header

variable {source : Option String} {ending : Ending} {taken : Nat} {line : String}

theorem seekHeader_skipped (h : IsSkipped line) (rest : List String) :
    seekHeader source ending taken (line :: rest) =
      seekHeader source ending (taken + 1) rest := by
  rcases h with h | h <;> simp only [seekHeader, h]

theorem seekHeader_header (h : tag? (strip line) = some 'p') (rest : List String) :
    seekHeader source ending taken (line :: rest) =
      (Header.parse (strip line) ⟨source, some (taken + 1 : Nat)⟩, taken + 1, rest) := by
  simp only [seekHeader, h]

theorem seekHeader_other (hskip : ¬IsSkipped line) (h : tag? (strip line) ≠ some 'p')
    (rest : List String) :
    seekHeader source ending taken (line :: rest) =
      (reject (.headerExpected (strip line)) ⟨source, some (taken + 1 : Nat)⟩, taken + 1,
        rest) := by
  rw [seekHeader]
  split
  · rename_i htag
    exact absurd (.inl htag) hskip
  · rename_i htag
    exact absurd (.inr htag) hskip
  · rename_i htag
    exact absurd htag h
  · rfl

theorem headerLine_of_seekHeader {lines rest : List String} {header : Header} {n : Nat}
    (h : seekHeader source ending taken lines = (.ok header, n, rest)) :
    ∃ first, contentLines lines = first :: contentLines rest ∧
      HeaderLine first header.numVars header.numClauses := by
  induction lines generalizing taken with
  | nil => cases ending <;> simp [seekHeader, reject] at h
  | cons line lines ih =>
      by_cases hskip : IsSkipped line
      · rw [seekHeader_skipped hskip] at h
        rw [contentLines_cons_skipped hskip]
        exact ih h
      · rw [contentLines_cons_of_not hskip]
        by_cases hheader : tag? (strip line) = some 'p'
        · rw [seekHeader_header hheader] at h
          simp only [Prod.mk.injEq] at h
          obtain ⟨hparse, -, rfl⟩ := h
          exact ⟨strip line, rfl, (Header.parse_eq_ok_iff _).1 hparse⟩
        · simp [seekHeader_other hskip hheader, reject] at h

theorem numberedContent_of_seekHeader {lines rest : List String} {header : Header} {n : Nat}
    (h : seekHeader source ending taken lines = (.ok header, n, rest)) :
    (numberedContent taken lines).tail = numberedContent n rest := by
  induction lines generalizing taken with
  | nil => cases ending <;> simp [seekHeader, reject] at h
  | cons line lines ih =>
      by_cases hskip : IsSkipped line
      · rw [seekHeader_skipped hskip] at h
        rw [numberedContent_cons_skipped _ _ hskip]
        exact ih h
      · rw [numberedContent_cons_of_not _ _ hskip]
        by_cases hheader : tag? (strip line) = some 'p'
        · rw [seekHeader_header hheader] at h
          simp only [Prod.mk.injEq] at h
          obtain ⟨-, rfl, rfl⟩ := h
          rfl
        · simp [seekHeader_other hskip hheader, reject] at h

private theorem seekHeader_of_headerLine {lines body : List String} {first : String}
    {header : Header} (hlines : contentLines lines = first :: body)
    (hfirst : HeaderLine first header.numVars header.numClauses) :
    ∃ n rest, seekHeader source ending taken lines = (.ok header, n, rest) ∧
      contentLines rest = body := by
  induction lines generalizing taken with
  | nil => simp [contentLines] at hlines
  | cons line lines ih =>
      by_cases hskip : IsSkipped line
      · rw [contentLines_cons_skipped hskip] at hlines
        rw [seekHeader_skipped hskip]
        exact ih hlines
      · rw [contentLines_cons_of_not hskip] at hlines
        obtain ⟨rfl, rfl⟩ := List.cons.inj hlines
        have hparse := (Header.parse_eq_ok_iff ⟨source, some (taken + 1 : Nat)⟩).2 hfirst
        obtain ⟨vars, clauses, hfields, -⟩ := hfirst
        have hheader : tag? (strip line) = some 'p' := by
          rw [tag?_strip, ← fields_strip, hfields]
          rfl
        rw [seekHeader_header hheader, hparse]
        exact ⟨taken + 1, lines, rfl, rfl⟩

end Header

theorem start_eq_ok_iff {source : Option String} {input : LineSource} {header : Header} :
    (∃ s, (start source input).1 = .ok s ∧ s.header = header) ↔
      ∃ taken rest, seekHeader source input.ending 0 input.lines = (.ok header, taken, rest) := by
  unfold start
  split
  · rename_i hseek
    simp [hseek]
  · rename_i hseek
    simp [hseek]

/-- A stream that has just been opened has all that stands behind the header in front of it. -/
theorem outcome_of_start {source : Option String} {input : LineSource} {s : ClauseStream}
    {taken : Nat} {rest : List String} (h : (start source input).1 = .ok s)
    (hseek : seekHeader source input.ending 0 input.lines = (.ok s.header, taken, rest)) :
    s.outcome = readPieces source input.ending s.header (piecesFrom taken rest) [] 0 := by
  unfold start at h
  rw [hseek] at h
  conv_lhs => rw [← Except.ok.inj h]
  simp [outcome]

end ClauseStream

private theorem Formula.read_eq_ok_iff_outcome {source : Option String} {input : LineSource}
    {f : Formula} :
    Formula.read source input = .ok f ↔
      ∃ s, (ClauseStream.start source input).1 = .ok s ∧ s.header = f.header ∧
        s.outcome = (f.clauses, none) := by
  obtain ⟨header, clauses⟩ := f
  unfold Formula.read
  cases h : (ClauseStream.start source input).1 with
  | error fault => simp
  | ok s =>
      obtain ⟨hclauses, hfault⟩ := s.drain_eq_outcome
      simp only [Except.ok.injEq, exists_eq_left', hfault, hclauses, Prod.ext_iff]
      cases s.outcome.2 with
      | none => simp
      | some fault => simp

private theorem readPieces_eq_none_iff_body {source : Option String} {header : Header}
    {taken : Nat} {rest : List String} {cs : List Clause} :
    ClauseStream.readPieces source .complete header (ClauseStream.piecesFrom taken rest) [] 0 =
        (cs, none) ↔
      ∃ values, ((∀ text ∈ contentLines rest, tag? text ≠ some 'p') ∧
          List.Forall₂ Spells ((contentLines rest).flatMap fields) values) ∧
        (∀ v ∈ values, v.natAbs ≤ header.numVars) ∧ (values = [] ∨ values.getLast? = some 0) ∧
        values.count 0 = header.numClauses ∧
        runs values = cs.map fun c => c.map Literal.toInt := by
  rw [ClauseStream.readPieces_eq_none_iff]
  apply exists_congr
  intro values
  rw [ClauseStream.forall₂_piecesFrom_iff]
  apply and_congr_right
  intro _
  constructor
  · intro hcompletes
    rcases hcompletes with ⟨hrange, hwritten, hcount⟩
    obtain rfl : values = written cs := hwritten
    refine ⟨hrange, written_terminated cs, ?_, runs_written cs⟩
    rw [count_written]
    omega
  · intro hbody
    rcases hbody with ⟨hrange, hend, hcount, hruns⟩
    have hwritten := eq_written_of_runs
      (fun v hv => Nat.le_trans (hrange v hv) header.numVars_le) hend hruns
    rw [hwritten, count_written] at hcount
    exact ⟨hrange, hwritten, by omega⟩

/-- A formula is read from a text if and only if the text is one of a formula with its counts, and
the clauses are the runs of the text's integers. -/
theorem Formula.read_eq_ok_iff {source : Option String} {lines : List String} {f : Formula} :
    Formula.read source ⟨lines, .complete⟩ = .ok f ↔
      ∃ values, FormulaText lines f.header.numVars f.header.numClauses values ∧
        runs values = f.clauses.map fun c => c.map Literal.toInt := by
  rw [Formula.read_eq_ok_iff_outcome]
  constructor
  · intro hread
    rcases hread with ⟨s, hstart, hheader, houtcome⟩
    obtain ⟨taken, rest, hseek⟩ := ClauseStream.start_eq_ok_iff.1 ⟨s, hstart, rfl⟩
    rw [ClauseStream.outcome_of_start hstart hseek, readPieces_eq_none_iff_body] at houtcome
    obtain ⟨first, hlines, hfirst⟩ := ClauseStream.headerLine_of_seekHeader hseek
    obtain ⟨values, ⟨hbody, hspelled⟩, hrange, hend, hcount, hruns⟩ := houtcome
    rw [hheader] at hfirst hrange hcount
    exact ⟨values, ⟨⟨first, _, hlines, hfirst, hbody, hspelled⟩, f.header.numVars_le, hrange,
      hend, hcount⟩, hruns⟩
  · rintro ⟨values, ⟨⟨first, body, hlines, hfirst, hbody, hspelled⟩, -, hrange, hend, hcount⟩,
      hruns⟩
    obtain ⟨taken, rest, hseek, rfl⟩ : ∃ taken rest,
        ClauseStream.seekHeader source .complete 0 lines = (.ok f.header, taken, rest) ∧
          contentLines rest = body :=
      ClauseStream.seekHeader_of_headerLine hlines hfirst
    obtain ⟨s, hstart, hheader⟩ : ∃ s,
        (ClauseStream.start source ⟨lines, .complete⟩).1 = .ok s ∧ s.header = f.header :=
      ClauseStream.start_eq_ok_iff.2 ⟨taken, rest, hseek⟩
    refine ⟨s, hstart, hheader, ?_⟩
    rw [← hheader] at hseek hrange hcount
    rw [ClauseStream.outcome_of_start hstart hseek, readPieces_eq_none_iff_body]
    exact ⟨values, ⟨hbody, hspelled⟩, hrange, hend, hcount, hruns⟩

theorem HeaderLine.congr {text other : String} (hfields : fields text = fields other)
    {numVars numClauses : Nat} (h : HeaderLine text numVars numClauses) :
    HeaderLine other numVars numClauses := by
  unfold HeaderLine at h ⊢
  rwa [← hfields]

private theorem HeaderLine.unique {text : String} {numVars numClauses numVars' numClauses' : Nat}
    (h : HeaderLine text numVars numClauses) (h' : HeaderLine text numVars' numClauses') :
    numVars = numVars' ∧ numClauses = numClauses' := by
  obtain ⟨vars, clauses, hfields, -, -, rfl, rfl⟩ := h
  obtain ⟨vars', clauses', hfields', -, -, rfl, rfl⟩ := h'
  obtain ⟨rfl, rfl⟩ : vars = vars' ∧ clauses = clauses' := by simpa [hfields] using hfields'
  exact ⟨rfl, rfl⟩

theorem tag?_strip_ne_of_spells {line : String}
    (h : ∀ token ∈ fields line, ∃ v, Spells token v) : tag? (strip line) ≠ some 'p' := by
  rw [tag?_strip]
  intro htag
  obtain ⟨token, htoken, hp⟩ := Option.bind_eq_some_iff.1 htag
  obtain ⟨v, hv⟩ := h token (List.mem_of_head? htoken)
  obtain ⟨c, hc, hkind⟩ := hv.tag
  obtain rfl : c = 'p' := by simpa [hp] using hc.symm
  revert hkind
  decide

namespace FormulaText

variable {lines : List String} {numVars numClauses numVars' numClauses' : Nat}
  {values values' : List Int}

private theorem unique (h : FormulaText lines numVars numClauses values)
    (h' : FormulaText lines numVars' numClauses' values') :
    numVars = numVars' ∧ numClauses = numClauses' ∧ values = values' := by
  obtain ⟨first, body, hlines, hfirst, -, hspelled⟩ := h.layout
  obtain ⟨first', body', hlines', hfirst', -, hspelled'⟩ := h'.layout
  obtain ⟨rfl, rfl⟩ := List.cons.inj (hlines.symm.trans hlines')
  obtain ⟨hvars, hclauses⟩ := hfirst.unique hfirst'
  exact ⟨hvars, hclauses, forall₂_spells_unique hspelled hspelled'⟩

private theorem congr {other body body' : List String} {first first' : String}
    (h : FormulaText lines numVars numClauses values)
    (hlines : contentLines lines = first :: body) (hother : contentLines other = first' :: body')
    (hfirst : fields first = fields first')
    (htokens : body.flatMap fields = body'.flatMap fields) :
    FormulaText other numVars numClauses values := by
  obtain ⟨first₀, body₀, hlines₀, hheader, -, hspelled⟩ := h.layout
  obtain ⟨rfl, rfl⟩ := List.cons.inj (hlines.symm.trans hlines₀)
  rw [htokens] at hspelled
  refine ⟨⟨first', body', hother, hheader.congr hfirst, ?_, hspelled⟩, h.numVars_le, h.inRange,
    h.terminated, h.counted⟩
  intro text htext
  have hmem : text ∈ contentLines other := by
    rw [hother]
    exact List.mem_cons_of_mem _ htext
  obtain ⟨line, -, rfl⟩ := List.mem_map.1 hmem
  apply tag?_strip_ne_of_spells
  intro token htoken
  rw [← fields_strip] at htoken
  obtain ⟨v, -, hv⟩ := exists_spells_of_mem hspelled (List.mem_flatMap.2 ⟨_, htext, htoken⟩)
  exact ⟨v, hv⟩

end FormulaText

theorem FormulaText.exists_formula {lines : List String} {numVars numClauses : Nat}
    {values : List Int} (h : FormulaText lines numVars numClauses values) :
    ∃ f : Formula, f.header.numVars = numVars ∧ f.header.numClauses = numClauses ∧
      runs values = f.clauses.map fun c => c.map Literal.toInt := by
  obtain ⟨cs, rfl⟩ := exists_written
    (fun v hv => Nat.le_trans (h.inRange v hv) h.numVars_le) h.terminated
  exact ⟨⟨⟨numVars, numClauses, h.numVars_le⟩, cs⟩, rfl, rfl, runs_written cs⟩

/-- Reading accepts exactly the texts of formulas. What is read has the counts of the header, and
its clauses are the integers of the text cut at the zeros, so that there are as many as declared and
every literal is in range. Two texts with the same header fields and the same tokens behind them
are read alike, however the tokens are spread over lines. -/
theorem Formula.read_formulaText (source : Option String) (lines : List String) :
    ((∃ f, Formula.read source ⟨lines, .complete⟩ = .ok f) ↔
      ∃ numVars numClauses values, FormulaText lines numVars numClauses values) ∧
    (∀ f numVars numClauses values, Formula.read source ⟨lines, .complete⟩ = .ok f →
      FormulaText lines numVars numClauses values →
        f.header.numVars = numVars ∧ f.header.numClauses = numClauses ∧
        (f.clauses.map fun c => c.map Literal.toInt) = runs values ∧
        f.clauses.length = numClauses ∧
        ∀ c ∈ f.clauses, ∀ l ∈ c, 1 ≤ l.var ∧ l.var ≤ numVars) ∧
    (∀ source' other first body first' body', contentLines lines = first :: body →
      contentLines other = first' :: body' → fields first = fields first' →
      body.flatMap fields = body'.flatMap fields →
        ∀ f, Formula.read source ⟨lines, .complete⟩ = .ok f ↔
          Formula.read source' ⟨other, .complete⟩ = .ok f) := by
  refine ⟨⟨?_, ?_⟩, ?_, ?_⟩
  · intro h
    rcases h with ⟨f, hread⟩
    obtain ⟨values, htext, -⟩ := Formula.read_eq_ok_iff.1 hread
    exact ⟨_, _, values, htext⟩
  · intro h
    obtain ⟨numVars, numClauses, values, htext⟩ := h
    obtain ⟨f, rfl, rfl, hruns⟩ := htext.exists_formula
    exact ⟨f, Formula.read_eq_ok_iff.2 ⟨values, htext, hruns⟩⟩
  · intro f numVars numClauses values hread htext
    obtain ⟨values', htext', hruns⟩ := Formula.read_eq_ok_iff.1 hread
    obtain ⟨hvars, hclauses, rfl⟩ := htext'.unique htext
    have hwritten := eq_written_of_runs
      (fun v hv => Nat.le_trans (htext.inRange v hv) htext.numVars_le) htext.terminated hruns
    refine ⟨hvars, hclauses, hruns.symm, ?_, ?_⟩
    · rw [← count_written, ← hwritten, htext.counted]
    · intro c hc l hl
      have hmem : l.toInt ∈ values' := by
        rw [hwritten]
        exact List.mem_flatMap.2 ⟨c, hc, by simp [hl]⟩
      have hle := htext.inRange _ hmem
      rw [Literal.natAbs_toInt] at hle
      exact ⟨l.var_pos, hle⟩
  · intro source' other first body first' body' hlines hother hfirst htokens f
    rw [Formula.read_eq_ok_iff, Formula.read_eq_ok_iff]
    apply exists_congr
    intro values
    apply and_congr_left
    intro _
    exact ⟨fun h => h.congr hlines hother hfirst htokens,
      fun h => h.congr hother hlines hfirst.symm htokens.symm⟩

end CnfAudit
