import CnfAudit.Proofs.Consumers
import CnfAudit.Proofs.FormulaText

/-!
# What a pull does

A pull stops within the lines that it takes, whatever stands behind them, or it takes all lines and
comes to the end of the input.
-/

namespace CnfAudit

open Text

theorem exists_append_of_length_le {α : Type} {first behind front rest : List α}
    (h : first ++ behind = front ++ rest) (hle : first.length ≤ front.length) :
    ∃ more, front = first ++ more ∧ behind = more ++ rest := by
  obtain ⟨more, rfl⟩ : first <+: front :=
    List.prefix_of_prefix_length_le ⟨behind, h⟩ ⟨rest, rfl⟩ hle
  rw [List.append_assoc, List.append_cancel_left_eq] at h
  exact ⟨more, rfl, h⟩

/-- Unless the first phase is the last one already, the second is reached going forward and is short
of the end. -/
def Phase.Leads (a b : Phase) : Prop := a ≠ .done → a.rank ≤ b.rank ∧ b ≠ .done

theorem Phase.Leads.refl (a : Phase) : a.Leads a := fun h => ⟨Nat.le_refl _, h⟩

theorem Phase.Leads.trans {a b c : Phase} (h : a.Leads b) (h' : b.Leads c) : a.Leads c :=
  fun ha => ⟨Nat.le_trans (h ha).1 (h' (h ha).2).1, (h' (h ha).2).2⟩

theorem Phase.leads_body (a : Phase) : a.Leads .body := by
  intro ha
  cases a <;> simp [Phase.rank] at ha ⊢

/-- What a token of a clause is rejected for. -/
def Cause.isOfToken : Cause → Bool
  | .nonInteger _ | .literalOutOfRange .. => true
  | _ => false

/-- What a header line is rejected for. -/
def Cause.isOfHeader : Cause → Bool
  | .malformedHeader _ | .headerCounts _ | .tooManyVariables _ => true
  | _ => false

/-- Whether a pull has found that more clauses follow than the header declares. -/
def isSurplus : Except Fault (Option Clause) → Bool
  | .error (.rejected ⟨.surplusClause _, _⟩) => true
  | _ => false

/-- The zeros that a pull has counted: that of its clause, or the one too many. -/
def zerosCounted : Except Fault (Option Clause) → Nat
  | .ok (some _) => 1
  | .ok none => 0
  | .error fault => if isSurplus (.error fault) then 1 else 0

namespace ClauseStream

/-- The stream with other lines in front of it. -/
def withInput (s : ClauseStream) (input : LineSource) : ClauseStream := { s with input }

/-- A pull has taken some lines and stopped at a clause or at a fault. -/
structure Stops (s : ClauseStream) (front : List String) (p : Pulled ClauseStream) : Prop where
  source : p.2.source = s.source
  header : p.2.header = s.header
  lineNumber : p.2.lineNumber = s.lineNumber + front.length
  phase : s.phase.Leads p.2.phase
  clausesRead : p.2.clausesRead = s.clausesRead + zerosCounted p.1
  allowed : ∀ c, p.1 = .ok (some c) → p.2.clausesRead ≤ s.header.numClauses
  result : (∃ c, p.1 = .ok (some c) ∧ p.2.finished = s.finished) ∨
    ∃ fault, p.1 = .error fault ∧ p.2.finished = true
  place : ∀ d, p.1 = .error (.rejected d) → d.place = p.2.here

/-- A pull has taken all lines and is at the end of the input. -/
structure Exhausts (s u : ClauseStream) (count : Nat) : Prop where
  source : u.source = s.source
  header : u.header = s.header
  lineNumber : u.lineNumber = s.lineNumber + count
  phase : s.phase.Leads u.phase
  clausesRead : u.clausesRead = s.clausesRead
  input : u.input = ⟨[], s.input.ending⟩

section Steps

variable {s : ClauseStream}

/-- A fault at the current line that does not come from counting clauses. -/
private structure IsLocal (s : ClauseStream) (fault : Fault) : Prop where
  place : ∀ d, fault = .rejected d → d.place = s.here
  notSurplus : isSurplus (.error fault) = false

private theorem Stops.fail {fault : Fault} (h : IsLocal s fault) : Stops s [] (s.fail fault) where
  source := rfl
  header := rfl
  lineNumber := rfl
  phase := .refl _
  clausesRead := by simp [ClauseStream.fail, zerosCounted, h.notSurplus]
  allowed := by simp [ClauseStream.fail]
  result := .inr ⟨fault, rfl, rfl⟩
  place d hd := h.place d (Except.error.inj hd)

theorem Stops.deliver (literals : Clause) (rest : List String) :
    Stops s [] (s.deliver literals rest) := by
  unfold ClauseStream.deliver
  simp only
  split
  · rename_i hle
    exact ⟨rfl, rfl, rfl, .refl _, rfl, fun _ _ => hle, .inl ⟨literals, rfl, rfl⟩, by simp⟩
  · refine ⟨rfl, rfl, rfl, .refl _, rfl, by simp [ClauseStream.fail], .inr ⟨_, rfl, rfl⟩, ?_⟩
    intro d hd
    obtain rfl := Fault.rejected.inj (Except.error.inj hd)
    rfl

theorem Stops.cons {t : ClauseStream} {front : List String} {p : Pulled ClauseStream}
    (line : String) (h : Stops t front p) (hsource : t.source = s.source)
    (hheader : t.header = s.header) (hline : t.lineNumber = s.lineNumber + 1)
    (hphase : s.phase.Leads t.phase) (hclauses : t.clausesRead = s.clausesRead)
    (hfinished : t.finished = s.finished) : Stops s (line :: front) p where
  source := h.source.trans hsource
  header := h.header.trans hheader
  lineNumber := by rw [h.lineNumber, hline, List.length_cons]; omega
  phase := hphase.trans h.phase
  clausesRead := by rw [h.clausesRead, hclauses]
  allowed := hheader ▸ h.allowed
  result := hfinished ▸ h.result
  place := h.place

theorem Exhausts.cons {t u : ClauseStream} {count : Nat} (h : Exhausts t u count)
    (hsource : t.source = s.source) (hheader : t.header = s.header)
    (hline : t.lineNumber = s.lineNumber + 1) (hphase : s.phase.Leads t.phase)
    (hclauses : t.clausesRead = s.clausesRead) (hending : t.input.ending = s.input.ending) :
    Exhausts s u (count + 1) where
  source := h.source.trans hsource
  header := h.header.trans hheader
  lineNumber := by rw [h.lineNumber, hline]; omega
  phase := hphase.trans h.phase
  clausesRead := h.clausesRead.trans hclauses
  input := by rw [h.input, hending]

end Steps

theorem faultAt_of_scanTokens {header : Header} {place : Place} {tokens : List String}
    {read : Clause} {fault : Fault} (h : scanTokens header place tokens read = .fault fault) :
    FaultAt place (fun cause => cause.isOfToken = true) tokens fault := by
  induction tokens generalizing read with
  | nil => simp [scanTokens] at h
  | cons token tokens ih =>
      rw [scanTokens] at h
      cases hread : readInteger token place with
      | error other =>
          rw [hread] at h
          obtain rfl : other = fault := TokenScan.fault.inj h
          apply (FaultAt.of_readInteger hread).mono
          · rintro cause rfl
            rfl
          · simp
      | ok value =>
          simp only [hread] at h
          split at h
          · simp at h
          · split at h
            · exact (ih h).mono (fun _ hcause => hcause) (List.subset_cons_self ..)
            · rw [← TokenScan.fault.inj h]
              exact .rejected rfl

private theorem isLocal_of_scanTokens {s : ClauseStream} {tokens : List String} {fault : Fault}
    (h : scanTokens s.header s.here tokens s.unfinished = .fault fault) : IsLocal s fault := by
  have hfault := faultAt_of_scanTokens h
  refine ⟨fun d hd => (hd ▸ hfault).place_eq, ?_⟩
  cases hfault with
  | @rejected cause hcause => cases cause <;> simp [Cause.isOfToken] at hcause <;> rfl
  | overlong => rfl

private theorem deliver_withInput (s : ClauseStream) (input : LineSource) (literals : Clause)
    (rest : List String) :
    (s.withInput input).deliver literals rest =
      ((s.deliver literals rest).1, (s.deliver literals rest).2.withInput input) := by
  by_cases h : s.clausesRead + 1 ≤ s.header.numClauses <;>
    simp [deliver, withInput, fail, here, h]

private def afterScan (s : ClauseStream) (resume : Clause → Pulled ClauseStream) :
    TokenScan → Pulled ClauseStream
  | .clause literals tokens => s.deliver literals tokens
  | .lineEnd literals => resume literals
  | .fault fault => s.fail fault

/-- Taking lines stops when it has taken the first of them, whatever the others are. -/
private structure StopsWithin (s : ClauseStream) (front : List String) (p : Pulled ClauseStream) :
    Prop extends Stops s front p where
  pullLines : ∀ before rest ending, (s.withInput ⟨before, ending⟩).pullLines (front ++ rest) =
    (p.1, p.2.withInput ⟨rest, ending⟩)

private theorem pullLines_cases (s : ClauseStream) (lines : List String) :
    (∃ front rest p, lines = front ++ rest ∧ StopsWithin s front p) ∨
      ∃ u, Exhausts s u lines.length ∧ s.pullLines lines = u.atEnd := by
  induction lines generalizing s with
  | nil =>
      exact .inr ⟨{ s with input := ⟨[], s.input.ending⟩ }, ⟨rfl, rfl, rfl, .refl _, rfl, rfl⟩, rfl⟩
  | cons line lines ih =>
      by_cases hskip : IsSkipped line
      · let t := { s with lineNumber := s.lineNumber + 1, input := ⟨lines, s.input.ending⟩ }
        rcases ih t with ⟨front, rest, p, rfl, hstops⟩ | ⟨u, hu, hpull⟩
        · refine .inl ⟨line :: front, rest, p, rfl,
            hstops.toStops.cons line rfl rfl rfl (.refl _) rfl rfl, ?_⟩
          intro before rest' ending
          rw [List.cons_append, pullLines_skipped hskip]
          exact hstops.pullLines (front ++ rest') rest' ending
        · refine .inr ⟨u, hu.cons rfl rfl rfl (.refl _) rfl rfl, ?_⟩
          rw [pullLines_skipped hskip, hpull]
      · by_cases hheader : tag? (strip line) = some 'p'
        · let t := { s with lineNumber := s.lineNumber + 1, input := ⟨lines, s.input.ending⟩ }
          let fault : Fault := .rejected ⟨.secondHeader (strip line), t.here⟩
          have hlocal : IsLocal t fault := ⟨fun d hd => by rw [← Fault.rejected.inj hd], rfl⟩
          refine .inl ⟨[line], lines, t.fail fault, rfl,
            (Stops.fail hlocal).cons line rfl rfl rfl (.refl _) rfl rfl, ?_⟩
          intro before rest' ending
          exact pullLines_header hheader (s.withInput ⟨before, ending⟩) rest'
        · let t := { s with
            lineNumber := s.lineNumber + 1
            input := ⟨lines, s.input.ending⟩
            phase := .body }
          -- the scan does not depend on the lines behind this one
          have hpull before rest ending :
              (s.withInput ⟨before, ending⟩).pullLines (line :: rest) =
                (t.withInput ⟨rest, ending⟩).afterScan
                  (fun literals =>
                    ({ t with unfinished := literals }.withInput ⟨rest, ending⟩).pullLines rest)
                  (scanTokens t.header t.here (fields line) t.unfinished) :=
            pullLines_tokens hskip hheader _ rest
          cases hscan : scanTokens t.header t.here (fields line) t.unfinished with
          | clause literals tokens =>
              refine .inl ⟨[line], lines, t.deliver literals tokens, rfl,
                (Stops.deliver literals tokens).cons line rfl rfl rfl s.phase.leads_body rfl rfl,
                ?_⟩
              intro before rest' ending
              rw [List.singleton_append, hpull, hscan]
              exact deliver_withInput t _ literals tokens
          | lineEnd literals =>
              rcases ih { t with unfinished := literals } with
                ⟨front, rest, p, rfl, hstops⟩ | ⟨u, hu, hend⟩
              · refine .inl ⟨line :: front, rest, p, rfl,
                  hstops.toStops.cons line rfl rfl rfl s.phase.leads_body rfl rfl, ?_⟩
                intro before rest' ending
                rw [List.cons_append, hpull, hscan]
                exact hstops.pullLines (front ++ rest') rest' ending
              · refine .inr ⟨u, hu.cons rfl rfl rfl s.phase.leads_body rfl rfl, ?_⟩
                have hline := hpull s.input.lines lines s.input.ending
                rw [hscan] at hline
                exact hline.trans hend
          | fault fault =>
              have hlocal : IsLocal t fault := isLocal_of_scanTokens hscan
              refine .inl ⟨[line], lines, t.fail fault, rfl,
                (Stops.fail hlocal).cons line rfl rfl rfl s.phase.leads_body rfl rfl, ?_⟩
              intro before rest' ending
              rw [List.singleton_append, hpull, hscan]
              rfl

/-- What a pull on a stream that is not finished does. It stops when it has taken some lines, and
does so whatever stands behind them, or it comes to the end of the input. -/
theorem next_cases {s : ClauseStream} (h : s.finished = false) :
    (∃ front rest p, s.input.lines = front ++ rest ∧ Stops s front p ∧
      ∀ rest' ending, (s.withInput ⟨front ++ rest', ending⟩).next =
        (p.1, p.2.withInput ⟨rest', ending⟩)) ∨
    ∃ u, Exhausts s u s.input.lines.length ∧ s.next = u.atEnd := by
  have hnext input :
      (s.withInput input).next =
        (s.withInput input).afterScan
          (fun literals =>
            ({ s with tokens := [], unfinished := literals }.withInput input).pullLines
              input.lines)
          (scanTokens s.header s.here s.tokens s.unfinished) := by
    rw [next, if_neg]
    · rfl
    · simp [withInput, h]
  cases hscan : scanTokens s.header s.here s.tokens s.unfinished with
  | clause literals tokens =>
      refine .inl ⟨[], s.input.lines, s.deliver literals tokens, rfl,
        Stops.deliver literals tokens, ?_⟩
      intro rest' ending
      rw [hnext, hscan]
      exact deliver_withInput s _ literals tokens
  | lineEnd literals =>
      rcases pullLines_cases { s with tokens := [], unfinished := literals } s.input.lines with
        ⟨front, rest, p, hlines, hstops⟩ | ⟨u, hu, hend⟩
      · refine .inl ⟨front, rest, p, hlines, ⟨hstops.source, hstops.header, hstops.lineNumber,
          hstops.phase, hstops.clausesRead, hstops.allowed, hstops.result, hstops.place⟩, ?_⟩
        intro rest' ending
        rw [hnext, hscan]
        exact hstops.pullLines (front ++ rest') rest' ending
      · refine .inr ⟨u, ⟨hu.source, hu.header, hu.lineNumber, hu.phase, hu.clausesRead, hu.input⟩,
          ?_⟩
        have hline := hnext s.input
        rw [hscan] at hline
        exact hline.trans hend
  | fault fault =>
      refine .inl ⟨[], s.input.lines, s.fail fault, rfl,
        Stops.fail (isLocal_of_scanTokens hscan), ?_⟩
      intro rest' ending
      rw [hnext, hscan]
      rfl

theorem next_finished {s : ClauseStream} (h : s.finished = true) : s.next = (.ok none, s) := by
  rw [next, if_pos h]

/-- The end of the input leaves a stream finished, at the line where it was, with no clause and with
no line to blame. If the input is complete the stream is done. -/
structure Ends (u : ClauseStream) (p : Pulled ClauseStream) : Prop where
  header : p.2.header = u.header
  lineNumber : p.2.lineNumber = u.lineNumber
  clausesRead : p.2.clausesRead = u.clausesRead + zerosCounted p.1
  input : p.2.input = u.input
  finished : p.2.finished = true
  result : (∃ refusal, p.1 = .error (.undecodable refusal) ∧ p.2.phase = u.phase) ∨
    ((p.1 = .ok none ∨ ∃ d, p.1 = .error (.rejected d) ∧ d.place.line = none) ∧
      p.2.phase = .done)

theorem Ends.place {u : ClauseStream} {p : Pulled ClauseStream} (h : Ends u p) {d : Diagnostic}
    (hd : p.1 = .error (.rejected d)) : d.place.line = none := by
  rcases h.result with ⟨refusal, hresult, -⟩ | ⟨hresult | ⟨e, hresult, he⟩, -⟩
  · simp [hd] at hresult
  · simp [hd] at hresult
  · rw [Fault.rejected.inj (Except.error.inj (hd.symm.trans hresult))]
    exact he

theorem atEnd_ends (u : ClauseStream) : Ends u u.atEnd := by
  unfold atEnd fail
  split
  · exact ⟨rfl, rfl, rfl, rfl, rfl, .inl ⟨_, rfl, rfl⟩⟩
  · simp only
    split
    · exact ⟨rfl, rfl, rfl, rfl, rfl, .inr ⟨.inr ⟨_, rfl, rfl⟩, rfl⟩⟩
    · split
      · exact ⟨rfl, rfl, rfl, rfl, rfl, .inr ⟨.inr ⟨_, rfl, rfl⟩, rfl⟩⟩
      · exact ⟨rfl, rfl, rfl, rfl, rfl, .inr ⟨.inl rfl, rfl⟩⟩

theorem next_of_stops {s : ClauseStream} {front rest : List String} {p : Pulled ClauseStream}
    (hlines : s.input.lines = front ++ rest)
    (h : ∀ rest' ending, (s.withInput ⟨front ++ rest', ending⟩).next =
      (p.1, p.2.withInput ⟨rest', ending⟩)) :
    s.next = (p.1, p.2.withInput ⟨rest, s.input.ending⟩) := by
  rw [← h rest s.input.ending, ← hlines]
  rfl

theorem finished_eq_false_of_clause {s t : ClauseStream} {c : Clause}
    (h : s.next = (.ok (some c), t)) : s.finished = false := by
  cases hs : s.finished with
  | false => rfl
  | true => simp [next_finished hs] at h

/-- A pull that gives a clause gives it whatever stands behind the lines that it has taken. -/
theorem next_of_clause {s t : ClauseStream} {c : Clause} (h : s.next = (.ok (some c), t)) :
    ∃ front rest, s.input.lines = front ++ rest ∧
      t.lineNumber = s.lineNumber + front.length ∧ t.input.lines = rest ∧
      ∀ rest' ending, (s.withInput ⟨front ++ rest', ending⟩).next =
        (.ok (some c), t.withInput ⟨rest', ending⟩) := by
  rcases next_cases (finished_eq_false_of_clause h) with
    ⟨front, rest, p, hlines, hstops, hnext⟩ | ⟨u, -, hend⟩
  · obtain ⟨hresult, rfl⟩ := Prod.mk.inj ((next_of_stops hlines hnext).symm.trans h)
    exact ⟨front, rest, hlines, hstops.lineNumber, rfl, fun _ _ => by rw [hnext, hresult]; rfl⟩
  · have hresult := u.atEnd_ends.result
    simp [hend.symm.trans h] at hresult

section Frame

variable (s : ClauseStream)

@[simp] theorem header_next : s.next.2.header = s.header := by
  cases hs : s.finished with
  | true => rw [next_finished hs]
  | false =>
      rcases next_cases hs with ⟨front, rest, p, hlines, hstops, hnext⟩ | ⟨u, hu, hend⟩
      · rw [next_of_stops hlines hnext]
        exact hstops.header
      · rw [hend, u.atEnd_ends.header, hu.header]

theorem lineNumber_le_next : s.lineNumber ≤ s.next.2.lineNumber := by
  cases hs : s.finished with
  | true => exact Nat.le_of_eq (by rw [next_finished hs])
  | false =>
      rcases next_cases hs with ⟨front, rest, p, hlines, hstops, hnext⟩ | ⟨u, hu, hend⟩
      · rw [next_of_stops hlines hnext]
        have hline := hstops.lineNumber
        simp only [withInput]
        omega
      · rw [hend, u.atEnd_ends.lineNumber, hu.lineNumber]
        omega

theorem finished_of_next (h : delivered s.next = none) : s.next.2.finished = true := by
  cases hs : s.finished with
  | true => rwa [next_finished hs]
  | false =>
      rcases next_cases hs with ⟨front, rest, p, hlines, hstops, hnext⟩ | ⟨u, hu, hend⟩
      · rw [next_of_stops hlines hnext] at h ⊢
        rcases hstops.result with ⟨c, hc, -⟩ | ⟨fault, -, hfinished⟩
        · simp [delivered, hc, Except.toOption] at h
        · exact hfinished
      · rw [hend]
        exact u.atEnd_ends.finished

end Frame

/-- The stream has taken the first of some lines and has the others in front of it. -/
def TakenFrom (s : ClauseStream) (lines : List String) : Prop :=
  s.lineNumber ≤ lines.length ∧ s.input.lines = lines.drop s.lineNumber

private theorem takenFrom_of_append {s t : ClauseStream} {lines front rest : List String}
    (h : s.TakenFrom lines) (hlines : s.input.lines = front ++ rest)
    (hline : t.lineNumber = s.lineNumber + front.length) (hrest : t.input.lines = rest) :
    t.TakenFrom lines := by
  obtain ⟨hle, hdrop⟩ := h
  have hlength := congrArg List.length (hdrop.symm.trans hlines)
  rw [List.length_drop, List.length_append] at hlength
  refine ⟨by omega, ?_⟩
  rw [hrest, hline, ← List.drop_drop, ← hdrop, hlines, List.drop_left]

theorem TakenFrom.next {s : ClauseStream} {lines : List String} (h : s.TakenFrom lines) :
    s.next.2.TakenFrom lines := by
  cases hs : s.finished with
  | true => rwa [next_finished hs]
  | false =>
      rcases next_cases hs with ⟨front, rest, p, hlines, hstops, hnext⟩ | ⟨u, hu, hend⟩
      · rw [next_of_stops hlines hnext]
        exact takenFrom_of_append h hlines hstops.lineNumber rfl
      · rw [hend]
        apply takenFrom_of_append h (List.append_nil _).symm
        · rw [u.atEnd_ends.lineNumber, hu.lineNumber]
        · rw [u.atEnd_ends.input, hu.input]

/-- What is wrong with an input that ends before its header. -/
def headerFault (source : Option String) : Ending → Fault
  | .complete => .rejected ⟨.headerMissing, ⟨source, none⟩⟩
  | .undecodable refusal => .undecodable refusal

theorem faultAt_of_parse {line : String} {place : Place} {fault : Fault}
    (h : Header.parse line place = .error fault) :
    FaultAt place (fun cause => cause.isOfHeader = true) (fields line) fault := by
  rw [Header.parse] at h
  split at h
  · rename_i vars clauses hfields
    rw [hfields]
    rw [Header.ofCounts] at h
    split at h
    · rw [← Except.error.inj h]
      exact .rejected rfl
    · rename_i hnum
      have hnums : isNumeral vars.toList = true ∧ isNumeral clauses.toList = true := by
        simpa using hnum
      split at h
      · rename_i hread
        obtain rfl := Except.error.inj h
        exact (FaultAt.of_readNumeral hnums.1 hread).mono (fun _ hcause => hcause) (by simp)
      · rename_i hread
        obtain rfl := Except.error.inj h
        exact (FaultAt.of_readNumeral hnums.2 hread).mono (fun _ hcause => hcause) (by simp)
      · split at h
        · simp at h
        · rw [← Except.error.inj h]
          exact .rejected rfl
  · rw [← Except.error.inj h]
    exact .rejected rfl

private theorem seekHeader_cases (source : Option String) (taken : Nat) (lines : List String) :
    (∃ front rest, ∃ result : Except Fault Header, lines = front ++ rest ∧
      (∀ d, result = .error (.rejected d) →
        d.place.line = some ((taken + front.length : Nat) : Int)) ∧
      ∀ rest' ending, seekHeader source ending taken (front ++ rest') =
        (result, taken + front.length, rest')) ∨
    ∀ ending, seekHeader source ending taken lines =
      (.error (headerFault source ending), taken + lines.length, []) := by
  induction lines generalizing taken with
  | nil =>
      right
      intro ending
      cases ending <;> rfl
  | cons line lines ih =>
      have hlength (front : List String) :
          taken + (line :: front).length = taken + 1 + front.length := by
        rw [List.length_cons]
        omega
      by_cases hskip : IsSkipped line
      · rcases ih (taken + 1) with ⟨front, rest, result, rfl, hplace, hseek⟩ | hseek
        · refine .inl ⟨line :: front, rest, result, rfl, ?_, ?_⟩
          · rwa [hlength]
          · intro rest' ending
            rw [List.cons_append, seekHeader_skipped hskip, hlength, hseek]
        · right
          intro ending
          rw [seekHeader_skipped hskip, hlength, hseek]
      · left
        by_cases hheader : tag? (strip line) = some 'p'
        · refine ⟨[line], lines, _, rfl, ?_, fun rest' ending => seekHeader_header hheader rest'⟩
          intro d hd
          rw [(faultAt_of_parse hd).place_eq]
          rfl
        · refine ⟨[line], lines, _, rfl, ?_,
            fun rest' ending => seekHeader_other hskip hheader rest'⟩
          intro d hd
          rw [← Fault.rejected.inj (Except.error.inj hd)]
          rfl

/-- What opening a stream does. It stops at a line, with the header or a fault, and does so whatever
stands behind that line, or it comes to the end of the input. -/
theorem start_cases (source : Option String) (lines : List String) :
    (∃ front rest, ∃ result : Except Fault Header, lines = front ++ rest ∧
      (∀ d, result = .error (.rejected d) → d.place.line = some (front.length : Int)) ∧
      ∀ rest' ending, start source ⟨front ++ rest', ending⟩ =
        (result.map fun header =>
          { source, header, lineNumber := front.length, input := ⟨rest', ending⟩ },
          front.length)) ∨
    ∀ ending, start source ⟨lines, ending⟩ =
      (.error (headerFault source ending), lines.length) := by
  rcases seekHeader_cases source 0 lines with ⟨front, rest, result, rfl, hplace, hseek⟩ | hseek
  · simp only [Nat.zero_add] at hplace hseek
    refine .inl ⟨front, rest, result, rfl, hplace, ?_⟩
    intro rest' ending
    rw [start, hseek]
    cases result <;> rfl
  · right
    intro ending
    rw [start, hseek, Nat.zero_add]

theorem takenFrom_of_start {source : Option String} {input : LineSource} {s : ClauseStream}
    (h : (start source input).1 = .ok s) : s.TakenFrom input.lines := by
  obtain ⟨lines, ending⟩ := input
  rcases start_cases source lines with ⟨front, rest, result, rfl, -, hstart⟩ | hstart
  · rw [hstart] at h
    cases result with
    | error fault => simp [Except.map] at h
    | ok header =>
        rw [← Except.ok.inj h]
        exact ⟨by simp, (List.drop_left ..).symm⟩
  · simp [hstart] at h

end ClauseStream

end CnfAudit
