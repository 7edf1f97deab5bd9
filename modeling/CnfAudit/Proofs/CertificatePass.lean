import CnfAudit.Certificate
import CnfAudit.Proofs.Fields
import CnfAudit.Proofs.Recording

/-!
# Passes as lists of values

The lines are read in one recursion that gives all values and the fault behind them, and a pass in
any state gives exactly these.
-/

namespace CnfAudit.Certificate

open Text

/-- Some values and, if there is no fault behind them, what comes next. -/
def continued {α : Type} (first rest : List α × Option Fault) : List α × Option Fault :=
  match first.2 with
  | some fault => (first.1, some fault)
  | none => (first.1 ++ rest.1, rest.2)

/-- The values of a value line. -/
def lineValues (numVars : Option Int) (place : Place) : List String → List Literal × Option Fault
  | [] => ([], none)
  | token :: rest =>
      match scanValue numVars place (token :: rest) with
      | .value l _ => (l :: (lineValues numVars place rest).1, (lineValues numVars place rest).2)
      | .lineEnd => ([], none)
      | .fault fault => ([], some fault)

/-- The values of a line, each with the line's number. -/
def numberedValues (source : Option String) (numVars : Option Int) (line : Nat)
    (tokens : List String) : List (Nat × Literal) × Option Fault :=
  let values := lineValues numVars ⟨source, some line⟩ tokens
  (values.1.map (line, ·), values.2)

private theorem eq_of_scanValue {numVars : Option Int} {place : Place} {token : String}
    {tokens rest : List String} {l : Literal}
    (h : scanValue numVars place (token :: tokens) = .value l rest) : tokens = rest := by
  rw [scanValue] at h
  split at h
  · simp at h
  · split at h
    · split at h <;> simp at h
    · split at h
      · simp at h
      · split at h
        · simp at h
        · exact (ValueScan.value.inj h).2

private theorem continued_numberedValues (source : Option String) (numVars : Option Int)
    (line : Nat) (tokens : List String) (more : List (Nat × Literal) × Option Fault) :
    continued (numberedValues source numVars line tokens) more =
      match scanValue numVars ⟨source, some line⟩ tokens with
      | .value l rest =>
          ((line, l) :: (continued (numberedValues source numVars line rest) more).1,
            (continued (numberedValues source numVars line rest) more).2)
      | .lineEnd => more
      | .fault fault => ([], some fault) := by
  cases tokens with
  | nil => rfl
  | cons token tokens =>
      simp only [numberedValues, lineValues]
      cases hscan : scanValue numVars ⟨source, some line⟩ (token :: tokens) with
      | value l rest =>
          obtain rfl := eq_of_scanValue hscan
          simp only [continued]
          cases (lineValues numVars ⟨source, some line⟩ tokens).2 <;> rfl
      | lineEnd => rfl
      | fault fault => rfl

section Reading

variable (source : Option String) (numVars : Option Int) (ending : Ending)

def endFault (status : Option Nat) : Option Fault :=
  match ending with
  | .undecodable refusal => some (.undecodable refusal)
  | .complete =>
      if status.isNone then some (.rejected ⟨.statusMissing, ⟨source, none⟩⟩) else none

/-- The values of some lines and the fault behind them. `status` is the line of the status, if it
has been met, and `taken` is the number of lines before. -/
def readLines : Option Nat → Nat → List String → List (Nat × Literal) × Option Fault
  | status, _, [] => ([], endFault source ending status)
  | status, taken, raw :: rest =>
      let text := strip raw
      let line := taken + 1
      let place : Place := ⟨source, some line⟩
      if IsSkipped raw then readLines status line rest
      else if tag? text = some 's' then
        match status with
        | some first => ([], some (.rejected ⟨.repeatedStatus first text, place⟩))
        | none =>
            if fields (payload text) = ["SATISFIABLE"] then readLines (some line) line rest
            else ([], some (.rejected ⟨.otherStatus text, place⟩))
      else if tag? text = some 'v' then
        continued (numberedValues source numVars line (fields (payload text)))
          (readLines status line rest)
      else
        ([], (tag? text).map fun tag => .rejected ⟨.unknownTag tag text, place⟩)

variable {raw : String}

theorem readLines_skipped (h : IsSkipped raw) (status : Option Nat) (taken : Nat)
    (rest : List String) :
    readLines source numVars ending status taken (raw :: rest) =
      readLines source numVars ending status (taken + 1) rest := by
  rw [readLines.eq_def]
  simp only [h, if_true]

theorem not_isSkipped_of_tag {c : Char} (h : tag? (strip raw) = some c) (hc : c ≠ 'c') :
    ¬IsSkipped raw := by
  simp [IsSkipped, h, hc]

theorem readLines_second_status (h : tag? (strip raw) = some 's') (first taken : Nat)
    (rest : List String) :
    readLines source numVars ending (some first) taken (raw :: rest) =
      ([], some (.rejected
        ⟨.repeatedStatus first (strip raw), ⟨source, some (taken + 1 : Nat)⟩⟩)) := by
  have hskip := not_isSkipped_of_tag h (by decide)
  rw [readLines.eq_def]
  simp only [hskip, h, if_true, if_false]

theorem readLines_first_status (h : tag? (strip raw) = some 's') (taken : Nat)
    (rest : List String) :
    readLines source numVars ending none taken (raw :: rest) =
      if fields (payload (strip raw)) = ["SATISFIABLE"] then
        readLines source numVars ending (some (taken + 1)) (taken + 1) rest
      else
        ([], some (.rejected ⟨.otherStatus (strip raw), ⟨source, some (taken + 1 : Nat)⟩⟩)) := by
  have hskip := not_isSkipped_of_tag h (by decide)
  rw [readLines.eq_def]
  simp only [hskip, h, if_true, if_false]

theorem readLines_values (h : tag? (strip raw) = some 'v') (status : Option Nat) (taken : Nat)
    (rest : List String) :
    readLines source numVars ending status taken (raw :: rest) =
      continued (numberedValues source numVars (taken + 1) (fields (payload (strip raw))))
        (readLines source numVars ending status (taken + 1) rest) := by
  have hskip := not_isSkipped_of_tag h (by decide)
  have hstatus : some 'v' ≠ some 's' := by decide
  rw [readLines.eq_def]
  simp only [hskip, h, hstatus, if_true, if_false]

theorem readLines_other {c : Char} (h : tag? (strip raw) = some c) (hc : c ≠ 'c')
    (hs : c ≠ 's') (hv : c ≠ 'v') (status : Option Nat) (taken : Nat) (rest : List String) :
    readLines source numVars ending status taken (raw :: rest) =
      ([], some (.rejected
        ⟨.unknownTag c (strip raw), ⟨source, some (taken + 1 : Nat)⟩⟩)) := by
  have hskip := not_isSkipped_of_tag h hc
  rw [readLines.eq_def]
  simp [hskip, h, hs, hv]

end Reading

/-- What a line can be: skipped, a status line, a value line, or nothing of these. -/
theorem line_cases (raw : String) :
    IsSkipped raw ∨ tag? (strip raw) = some 's' ∨ tag? (strip raw) = some 'v' ∨
      ∃ c, tag? (strip raw) = some c ∧ c ≠ 'c' ∧ c ≠ 's' ∧ c ≠ 'v' := by
  cases h : tag? (strip raw) with
  | none => exact .inl (.inl h)
  | some c =>
      by_cases hc : c = 'c'
      · exact .inl (.inr (hc ▸ h))
      · right
        by_cases hs : c = 's'
        · exact .inl (hs ▸ rfl)
        · right
          by_cases hv : c = 'v'
          · exact .inl (hv ▸ rfl)
          · exact .inr ⟨c, rfl, hc, hs, hv⟩

namespace Reader

/-- The values a pass still has, and the fault behind them. -/
def outcome (r : Reader) (p : Pass) : List (Nat × Literal) × Option Fault :=
  match p with
  | .finished => ([], none)
  | .fresh =>
      if r.phase = .preamble then
        readLines r.source r.numVars r.input.ending r.statusLine 0 (r.linesFor p)
      else ([], some .consumed)
  | .reading line tokens _ =>
      continued (numberedValues r.source r.numVars line tokens)
        (readLines r.source r.numVars r.input.ending r.statusLine line (r.linesFor p))

/-- What a step says about the outcome: a value comes before what the pass then still has. -/
def stepOutcome : Step → List (Nat × Literal) × Option Fault
  | ⟨.error fault, _, _⟩ => ([], some fault)
  | ⟨.ok none, _, _⟩ => ([], none)
  | ⟨.ok (some v), r, p⟩ => (v :: (r.outcome p).1, (r.outcome p).2)

private theorem stepOutcome_atEnd (r : Reader) :
    stepOutcome r.atEnd = ([], endFault r.source r.input.ending r.statusLine) := by
  unfold atEnd endFault
  cases r.input.ending with
  | undecodable refusal => rfl
  | complete => cases h : r.statusLine <;> rfl

private theorem ending_take (r : Reader) (rest : List String) :
    (r.take rest).input.ending = r.input.ending := by
  unfold take
  cases r.oneShot <;> rfl

private def afterScan (r : Reader) (line : Nat) (rest : List String) (resume : Step) :
    ValueScan → Step
  | .value l tokens => ⟨.ok (some (line, l)), r, .reading line tokens rest⟩
  | .lineEnd => resume
  | .fault fault => r.fail fault

private theorem stepOutcome_afterScan {r : Reader} {line : Nat} {tokens lines rest : List String}
    (hlines : ∀ tokens, r.linesFor (.reading line tokens rest) = lines) {resume : Step}
    (hresume : stepOutcome resume =
      readLines r.source r.numVars r.input.ending r.statusLine line lines) :
    stepOutcome (r.afterScan line rest resume (scanValue r.numVars (r.place line) tokens)) =
      continued (numberedValues r.source r.numVars line tokens)
        (readLines r.source r.numVars r.input.ending r.statusLine line lines) := by
  rw [continued_numberedValues]
  simp only [place]
  cases scanValue r.numVars ⟨r.source, some line⟩ tokens with
  | value l tokens => simp only [afterScan, stepOutcome, outcome, hlines]
  | lineEnd => exact hresume
  | fault fault => rfl

private theorem pullLines_values {raw : String} (h : tag? (strip raw) = some 'v') (r : Reader)
    (line : Nat) (rest : List String) :
    ∃ t : Reader, t.source = r.source ∧ t.numVars = r.numVars ∧ t.statusLine = r.statusLine ∧
      t.input.ending = r.input.ending ∧
      (∀ tokens, t.linesFor (.reading (line + 1) tokens rest) = rest) ∧
      r.pullLines line (raw :: rest) =
        t.afterScan (line + 1) rest (t.pullLines (line + 1) rest)
          (scanValue t.numVars (t.place (line + 1)) (fields (payload (strip raw)))) := by
  refine ⟨{ r.take rest with phase := .body }, rfl, rfl, rfl, ending_take r rest,
    fun tokens => linesFor_reading_take r (line + 1) tokens rest .body, ?_⟩
  simp only [pullLines, h]
  generalize scanValue _ _ (fields (payload (strip raw))) = scan
  cases scan <;> rfl

private theorem stepOutcome_pullLines (r : Reader) (line : Nat) (lines : List String) :
    stepOutcome (r.pullLines line lines) =
      readLines r.source r.numVars r.input.ending r.statusLine line lines := by
  induction lines generalizing r line with
  | nil => exact stepOutcome_atEnd r
  | cons raw rest ih =>
      rcases line_cases raw with hskip | htag | htag | ⟨c, htag, hc, hs, hv⟩
      · have hpull : r.pullLines line (raw :: rest) = (r.take rest).pullLines (line + 1) rest := by
          rcases hskip with h | h <;> simp only [pullLines, h]
        rw [hpull, ih, ending_take, readLines_skipped _ _ _ hskip]
        rfl
      · have htake : (r.take rest).statusLine = r.statusLine := rfl
        simp only [pullLines, htag, readStatus, htake]
        cases hstatus : r.statusLine with
        | some first =>
            rw [readLines_second_status _ _ _ htag]
            rfl
        | none =>
            rw [readLines_first_status _ _ _ htag]
            by_cases hsat : fields (payload (strip raw)) = ["SATISFIABLE"]
            · simp only [hsat, if_true, ih, ending_take]
              rfl
            · simp only [hsat, if_false]
              rfl
      · obtain ⟨t, hsource, hnumVars, hstatus, hending, hrest, hpull⟩ :=
          pullLines_values htag r line rest
        rw [hpull, readLines_values _ _ _ htag, ← hsource, ← hnumVars, ← hstatus, ← hending]
        exact stepOutcome_afterScan hrest (ih t (line + 1))
      · rw [readLines_other _ _ _ htag hc hs hv]
        have hpull : r.pullLines line (raw :: rest) =
            (r.take rest).fail (.rejected
              ⟨.unknownTag c (strip raw), (r.take rest).place (line + 1)⟩) := by
          simp only [pullLines, htag]
        rw [hpull]
        rfl

/-- A step takes the first value off the outcome, or shows how it ends. -/
theorem stepOutcome_next (r : Reader) (p : Pass) :
    stepOutcome (r.next p) = r.outcome p := by
  cases p with
  | finished => rfl
  | fresh =>
      simp only [next, outcome]
      by_cases hphase : r.phase = .preamble
      · rw [if_pos hphase, if_pos hphase, stepOutcome_pullLines]
      · rw [if_neg hphase, if_neg hphase]
        rfl
  | reading line tokens rest =>
      have hnext : r.next (.reading line tokens rest) =
          r.afterScan line rest (r.pullLines line (r.linesFor (.reading line tokens rest)))
            (scanValue r.numVars (r.place line) tokens) := by
        rw [next]
        generalize scanValue _ _ tokens = scan
        cases scan <;> rfl
      rw [hnext]
      exact stepOutcome_afterScan (fun _ => rfl) (stepOutcome_pullLines r line _)

end Reader

/-- Hands values to `step` until it fails; `fault` stands behind the last of them. -/
def feed {σ : Type} (step : σ → Nat → Literal → Except Fault Unit × σ) (fault : Option Fault) :
    List (Nat × Literal) → σ → σ × Option Fault
  | [], s => (s, fault)
  | (line, l) :: rest, s =>
      match step s line l with
      | (.error fault, s) => (s, some fault)
      | (.ok (), s) => feed step fault rest s

theorem feed_append {σ : Type} (step : σ → Nat → Literal → Except Fault Unit × σ)
    (fault : Option Fault) (first rest : List (Nat × Literal)) (s : σ) :
    feed step fault (first ++ rest) s =
      match feed step none first s with
      | (t, some fault) => (t, some fault)
      | (t, none) => feed step fault rest t := by
  induction first generalizing s with
  | nil => rfl
  | cons v first ih =>
      rw [List.cons_append, feed, feed]
      rcases step s v.1 v.2 with ⟨_ | _, t⟩
      · rfl
      · exact ih t

/-- A fold over a pass sees the values of the pass and nothing else. -/
theorem Reader.fold_eq_feed {σ : Type} (step : σ → Nat → Literal → Except Fault Unit × σ)
    (r : Reader) (p : Pass) (s : σ) :
    ((r.fold step p s).state, (r.fold step p s).fault) =
      feed step (r.outcome p).2 (r.outcome p).1 s := by
  induction r, p, s using Reader.fold.induct step with
  | case1 r p s fault t q hnext =>
      have houtcome : r.outcome p = ([], some fault) := by
        rw [← stepOutcome_next, hnext, stepOutcome]
      rw [houtcome, fold]
      split <;> simp_all [feed]
  | case2 r p s t q hnext =>
      have houtcome : r.outcome p = ([], none) := by rw [← stepOutcome_next, hnext, stepOutcome]
      rw [houtcome, fold]
      split <;> simp_all [feed]
  | case3 r p s line l t q hnext _ fault s' hstep =>
      have houtcome : r.outcome p = ((line, l) :: (t.outcome q).1, (t.outcome q).2) := by
        rw [← stepOutcome_next, hnext, stepOutcome]
      rw [houtcome, fold]
      split <;> simp_all [feed]
  | case4 r p s line l t q hnext _ s' hstep ih =>
      have houtcome : r.outcome p = ((line, l) :: (t.outcome q).1, (t.outcome q).2) := by
        rw [← stepOutcome_next, hnext, stepOutcome]
      rw [houtcome, fold]
      split <;> simp_all [feed]

theorem feed_record_eq_none_iff {source : Option String} {fault : Option Fault}
    {values : List (Nat × Literal)} {a b : Assignment} :
    feed (record source) fault values a = (b, none) ↔
      fault = none ∧ Assignment.assignAll none a (values.map Prod.snd) = .ok b := by
  induction values generalizing a with
  | nil => simp [feed, Assignment.assignAll, and_comm]
  | cons value rest ih =>
      rw [feed, record, List.map_cons, Assignment.assignAll_cons]
      rcases hassign : a.assign value.2 with ⟨_ | _, c⟩
      · simp [reject]
      · simp [ih]

/-- A new reader is in the preamble, so that its first pass has all values. -/
theorem load_eq_feed (source : Option String) (numVars : Option Int) (input : LineSource) :
    ((load source numVars input).state, (load source numVars input).fault) =
      feed (record source) (readLines source numVars input.ending none 0 input.lines).2
        (readLines source numVars input.ending none 0 input.lines).1 .empty :=
  Reader.fold_eq_feed (record source) { source, numVars, input } .fresh .empty

/-- A certificate is read if its lines are in order and their literals can be recorded. -/
theorem read_eq_ok_iff {source : Option String} {numVars : Option Int} {input : LineSource}
    {a : Assignment} :
    read source numVars input = .ok a ↔
      (readLines source numVars input.ending none 0 input.lines).2 = none ∧
        Assignment.assignAll none .empty
          ((readLines source numVars input.ending none 0 input.lines).1.map Prod.snd) = .ok a := by
  rw [← feed_record_eq_none_iff, ← load_eq_feed, read]
  cases (load source numVars input).fault <;> simp

private theorem readLines_undecodable (source : Option String) (numVars : Option Int)
    (refusal : Utf8.Refusal) (status : Option Nat) (taken : Nat) (lines : List String) :
    (readLines source numVars (.undecodable refusal) status taken lines).2 ≠ none := by
  induction lines generalizing status taken with
  | nil => simp [readLines, endFault]
  | cons raw rest ih =>
      rcases line_cases raw with hskip | htag | htag | ⟨c, htag, hc, hs, hv⟩
      · rw [readLines_skipped _ _ _ hskip]
        exact ih status (taken + 1)
      · cases status with
        | some first =>
            rw [readLines_second_status _ _ _ htag]
            simp
        | none =>
            rw [readLines_first_status _ _ _ htag]
            split
            · exact ih _ _
            · simp
      · rw [readLines_values _ _ _ htag, continued]
        have hrest := ih status (taken + 1)
        split
        · simp
        · simpa only using hrest
      · rw [readLines_other _ _ _ htag hc hs hv]
        simp

theorem complete_of_read {source : Option String} {numVars : Option Int} {input : LineSource}
    {a : Assignment} (h : read source numVars input = .ok a) : input.ending = .complete := by
  cases hending : input.ending with
  | complete => rfl
  | undecodable refusal =>
      have hfault := (read_eq_ok_iff.1 h).1
      rw [hending] at hfault
      exact absurd hfault (readLines_undecodable source numVars refusal none 0 input.lines)

end CnfAudit.Certificate
