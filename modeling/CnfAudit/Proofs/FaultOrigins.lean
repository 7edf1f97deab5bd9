import CnfAudit.Proofs.CertificateText
import CnfAudit.Proofs.Pulls

/-!
# Where faults come from

A fault of a reader has its origin in a line that is neither blank nor a comment, or in the end of
the input.
-/

namespace CnfAudit

open Text

/-- What a reader takes as tokens on a line, and what it rejects a line and the end of an input
for. -/
structure Rejections where
  tokens : String → List String
  atLine : Cause → Prop
  atEnd : Cause → Prop
  /-- When the wording of a rejection may have an integer in it that cannot be written. -/
  unwritable : Prop := False

/-- The fault comes from the reader's treatment of the lines with content, or of the end. -/
inductive Origin (k : Rejections) (source : Option String) (ending : Ending)
    (content : List (String × Nat)) : Fault → Prop
  | line {text : String} {number : Nat} {fault : Fault} (hmem : (text, number) ∈ content)
      (h : FaultAt ⟨source, some number⟩ k.atLine (k.tokens text) fault) :
      Origin k source ending content fault
  | atEnd {cause : Cause} (hending : ending = .complete) (h : k.atEnd cause) :
      Origin k source ending content (.rejected ⟨cause, ⟨source, none⟩⟩)
  | unwritable (h : k.unwritable) : Origin k source ending content .unwritable
  | undecodable {refusal : Utf8.Refusal} (hending : ending = .undecodable refusal) :
      Origin k source ending content (.undecodable refusal)

namespace Origin

variable {k : Rejections} {source : Option String} {ending : Ending}
  {content : List (String × Nat)} {fault : Fault}

theorem mono {more : List (String × Nat)} (h : Origin k source ending content fault)
    (hsub : content ⊆ more) : Origin k source ending more fault := by
  cases h with
  | line hmem h => exact .line (hsub hmem) h
  | atEnd hending h => exact .atEnd hending h
  | unwritable h => exact .unwritable h
  | undecodable hending => exact .undecodable hending

theorem rejected {text : String} {number : Nat} {cause : Cause}
    (hmem : (text, number) ∈ content) (h : k.atLine cause) :
    Origin k source ending content (.rejected ⟨cause, ⟨source, some number⟩⟩) :=
  .line hmem (.rejected h)

end Origin

/-- What a line of a formula is rejected for. -/
def Cause.isOfFormulaLine : Cause → Bool
  | .headerExpected _ | .secondHeader _ | .surplusClause _ => true
  | cause => cause.isOfToken || cause.isOfHeader

theorem Cause.isOfFormulaLine_of_isOfHeader {cause : Cause} (h : cause.isOfHeader = true) :
    cause.isOfFormulaLine = true := by
  unfold isOfFormulaLine
  split
  · rfl
  · rfl
  · rfl
  · rw [h, Bool.or_true]

/-- What the end of a formula is rejected for. Clauses can only be missing there, since one too many
is found at its zero. -/
def Cause.isOfFormulaEnd : Cause → Bool
  | .headerMissing | .unterminatedClause => true
  | .clauseCount declared found => found < declared
  | _ => false

def formulaRejections : Rejections where
  tokens := fields
  atLine cause := cause.isOfFormulaLine = true
  atEnd cause := cause.isOfFormulaEnd = true

namespace ClauseStream

section Formula

variable {source : Option String} {ending : Ending} {fault : Fault}

theorem origin_of_seekHeader {taken : Nat} {lines : List String}
    (h : (seekHeader source ending taken lines).1 = .error fault) :
    Origin formulaRejections source ending (numberedContent taken lines) fault := by
  induction lines generalizing taken with
  | nil =>
      cases ending with
      | complete =>
          rw [← Except.error.inj h]
          exact .atEnd rfl rfl
      | undecodable refusal =>
          rw [← Except.error.inj h]
          exact .undecodable rfl
  | cons line lines ih =>
      by_cases hskip : IsSkipped line
      · rw [seekHeader_skipped hskip] at h
        rw [numberedContent_cons_skipped _ _ hskip]
        exact ih h
      · rw [numberedContent_cons_of_not _ _ hskip]
        apply Origin.line List.mem_cons_self
        by_cases hheader : tag? (strip line) = some 'p'
        · rw [seekHeader_header hheader] at h
          simp only at h
          have hfault := faultAt_of_parse h
          rw [fields_strip] at hfault
          exact hfault.mono (fun _ => Cause.isOfFormulaLine_of_isOfHeader) (List.Subset.refl _)
        · rw [seekHeader_other hskip hheader] at h
          rw [← Except.error.inj h]
          exact .rejected rfl

/-- The piece stands on a line with content. -/
def Piece.On (content : List (String × Nat)) : Piece → Prop
  | .token number text => ∃ line, (line, number) ∈ content ∧ text ∈ fields line
  | .header number _ => ∃ line, (line, number) ∈ content

theorem Piece.On.mono {content more : List (String × Nat)} {piece : Piece}
    (h : piece.On content) (hsub : content ⊆ more) : piece.On more := by
  cases piece with
  | token number text =>
      obtain ⟨line, hmem, htext⟩ := h
      exact ⟨line, hsub hmem, htext⟩
  | header number text =>
      obtain ⟨line, hmem⟩ := h
      exact ⟨line, hsub hmem⟩

theorem on_of_mem_piecesFrom {taken : Nat} {lines : List String} {piece : Piece}
    (h : piece ∈ piecesFrom taken lines) : piece.On (numberedContent taken lines) := by
  induction lines generalizing taken with
  | nil => simp [piecesFrom] at h
  | cons line lines ih =>
      rw [piecesFrom, linePieces, List.mem_append] at h
      by_cases hskip : IsSkipped line
      · rw [numberedContent_cons_skipped _ _ hskip]
        rw [if_pos hskip] at h
        exact ih (h.resolve_left (by simp))
      · rw [numberedContent_cons_of_not _ _ hskip]
        rw [if_neg hskip] at h
        rcases h with h | h
        · split at h
          · rw [List.mem_singleton.1 h]
            exact ⟨line, List.mem_cons_self⟩
          · obtain ⟨text, htext, rfl⟩ := List.mem_map.1 h
            exact ⟨line, List.mem_cons_self, htext⟩
        · exact (ih h).mono (List.subset_cons_self ..)

variable {header : Header} {content : List (String × Nat)}

private theorem origin_of_endFault {read : Clause} {count : Nat}
    (hcount : count ≤ header.numClauses)
    (h : endFault source ending header read count = some fault) :
    Origin formulaRejections source ending content fault := by
  unfold endFault at h
  cases ending with
  | undecodable refusal =>
      rw [← Option.some.inj h]
      exact .undecodable rfl
  | complete =>
      simp only at h
      split at h
      · rw [← Option.some.inj h]
        exact .atEnd rfl rfl
      · split at h
        · rename_i hne
          rw [← Option.some.inj h]
          have hlt : count < header.numClauses := Nat.lt_of_le_of_ne hcount hne
          exact .atEnd rfl (decide_eq_true hlt)
        · simp at h

/-- Reading pieces counts no further than the header allows, so that at the end no clause can be too
many. -/
theorem origin_of_readPieces {pieces : List Piece} {read : Clause} {count : Nat}
    (hpieces : ∀ piece ∈ pieces, piece.On content) (hcount : count ≤ header.numClauses)
    (h : (readPieces source ending header pieces read count).2 = some fault) :
    Origin formulaRejections source ending content fault := by
  induction pieces generalizing read count with
  | nil => exact origin_of_endFault hcount h
  | cons piece pieces ih =>
      have hpiece := hpieces piece List.mem_cons_self
      have hrest : ∀ piece ∈ pieces, piece.On content := fun piece hmem =>
        hpieces piece (List.mem_cons_of_mem _ hmem)
      cases piece with
      | header number text =>
          obtain ⟨line, hmem⟩ := hpiece
          rw [← Option.some.inj h]
          exact .rejected hmem rfl
      | token number text =>
          obtain ⟨line, hmem, htext⟩ := hpiece
          rw [readPieces] at h
          split at h
          · rename_i other hread
            obtain rfl : other = fault := Option.some.inj h
            apply Origin.line hmem
            apply (FaultAt.of_readInteger hread).mono
            · rintro cause rfl
              rfl
            · intro token htoken
              rw [List.mem_singleton.1 htoken]
              exact htext
          · split at h
            · split at h
              · rename_i hle
                exact ih hrest hle h
              · rw [← Option.some.inj h]
                exact .rejected hmem rfl
            · split at h
              · exact ih hrest hcount h
              · rw [← Option.some.inj h]
                exact .rejected hmem rfl

end Formula

variable {source : Option String} {input : LineSource} {fault : Fault}

theorem origin_of_start (h : (start source input).1 = .error fault) :
    Origin formulaRejections source input.ending (numberedContent 0 input.lines) fault := by
  rw [start] at h
  apply origin_of_seekHeader
  split at h
  · rename_i hseek
    obtain rfl := Except.error.inj h
    rw [hseek]
  · simp at h

theorem origin_of_drain {s : ClauseStream} (hstart : (start source input).1 = .ok s)
    (h : (drain s).fault = some fault) :
    Origin formulaRejections source input.ending (numberedContent 0 input.lines) fault := by
  obtain ⟨taken, rest, hseek⟩ := start_eq_ok_iff.1 ⟨s, hstart, rfl⟩
  rw [s.drain_eq_outcome.2, outcome_of_start hstart hseek] at h
  have horigin := origin_of_readPieces (fun _ => on_of_mem_piecesFrom) (Nat.zero_le _) h
  apply horigin.mono
  rw [← numberedContent_of_seekHeader hseek]
  exact (List.tail_sublist _).subset

end ClauseStream

theorem Formula.origin_of_read {source : Option String} {input : LineSource} {fault : Fault}
    (h : Formula.read source input = .error fault) :
    Origin formulaRejections source input.ending (numberedContent 0 input.lines) fault := by
  rw [Formula.read] at h
  split at h
  · rename_i hstart
    obtain rfl := Except.error.inj h
    exact ClauseStream.origin_of_start hstart
  · rename_i s hstart
    apply ClauseStream.origin_of_drain hstart
    simp only at h
    split at h
    · rename_i hfault
      rw [hfault, Except.error.inj h]
    · simp at h

/-- What a line of a certificate is rejected for, as long as its values fit into literals. -/
def Cause.isOfCertificateLine : Cause → Bool
  | .nonInteger _ | .valuesAfterZero _ | .valueOutOfRange .. | .otherStatus _
  | .repeatedStatus .. | .unknownTag .. | .contradiction _ => true
  | _ => false

/-- What a line of a certificate is rejected for. A value that no literal can hold is met only where
the number of variables does not rule it out before. -/
def CertificateCause (numVars : Option Int) (cause : Cause) : Prop :=
  cause.isOfCertificateLine = true ∨
    ((∃ v, cause = .variableOutside v) ∧ ∀ n ∈ numVars, (maxVariable : Int) < n)

/-- There is a bound, and it is negative. -/
def HasNegative (numVars : Option Int) : Prop := ∃ n ∈ numVars, n < 0

/-- The tokens of a value line. -/
def valueTokens (line : String) : List String :=
  if tag? (strip line) = some 'v' then fields (payload (strip line)) else []

def certificateRejections (numVars : Option Int) : Rejections where
  tokens := valueTokens
  atLine := CertificateCause numVars
  atEnd cause := cause = .statusMissing
  unwritable := HasNegative numVars

namespace Certificate

section Values

variable {numVars : Option Int} {place : Place} {tokens : List String} {fault : Fault}

private theorem variableOutside_of_parse {token : String} {value : Int} (hzero : value ≠ 0)
    (hread : readInteger token place = .ok value)
    (h : Literal.parse token place = .error fault) :
    fault = .rejected ⟨.variableOutside value.natAbs, place⟩ ∧ maxVariable < value.natAbs := by
  have hwritable := (isWritable_natAbs value).trans
    ((readInteger_eq_ok_iff place).1 hread).isWritable
  rw [Literal.parse, hread] at h
  simp only [Literal.ofInt, if_neg hzero, Literal.ofVariable, Int.toNat_natCast] at h
  by_cases hrange : 0 < value.natAbs ∧ value.natAbs ≤ maxVariable
  · simp [hrange, Except.mapError] at h
  · rw [dif_neg hrange, Except.mapError, Fault.placedAt_mentioning,
      Fault.mentioning_of_writable hwritable] at h
    exact ⟨(Except.error.inj h).symm, by omega⟩

private theorem neg_of_exceeded {token : String} {value n : Int}
    (hread : readInteger token place = .ok value)
    (h : Assignment.exceeded numVars value.natAbs = some n) (hn : isWritable n = false) :
    HasNegative numVars := by
  have hvalue := isWritable_iff.1 ((readInteger_eq_ok_iff place).1 hread).isWritable
  obtain ⟨hmem, hlt⟩ := exceeded_eq_some_iff.1 h
  refine ⟨n, hmem, Int.not_le.1 fun hnonneg => ?_⟩
  rw [isWritable_iff.2 (Nat.lt_trans (by omega) hvalue)] at hn
  exact absurd hn (by decide)

theorem faultAt_of_scanValue (h : scanValue numVars place tokens = .fault fault) :
    FaultAt place (CertificateCause numVars) tokens fault ∨
      (fault = .unwritable ∧ HasNegative numVars) := by
  cases tokens with
  | nil => simp [scanValue] at h
  | cons token tokens =>
      rw [scanValue] at h
      split at h
      · rename_i other hread
        obtain rfl : other = fault := ValueScan.fault.inj h
        left
        apply (FaultAt.of_readInteger hread).mono
        · rintro cause rfl
          exact .inl rfl
        · simp
      · rename_i value hread
        split at h
        · split at h
          · simp at h
          · rw [← ValueScan.fault.inj h]
            exact .inl (.rejected (.inl rfl))
        · rename_i hzero
          split at h
          · rename_i n hexceeded
            rw [← ValueScan.fault.inj h, Fault.mentioning]
            split
            · exact .inl (.rejected (.inl rfl))
            · rename_i hn
              exact .inr ⟨rfl, neg_of_exceeded hread hexceeded (Bool.eq_false_iff.2 hn)⟩
          · rename_i hexceeded
            split at h
            · rename_i other hparse
              obtain rfl : other = fault := ValueScan.fault.inj h
              obtain ⟨rfl, hlt⟩ := variableOutside_of_parse hzero hread hparse
              refine .inl (.rejected (.inr ⟨⟨_, rfl⟩, ?_⟩))
              intro n hn
              have hle := exceeded_eq_none_iff.1 hexceeded n hn
              omega
            · simp at h

theorem faultAt_of_lineValues (h : (lineValues numVars place tokens).2 = some fault) :
    FaultAt place (CertificateCause numVars) tokens fault ∨
      (fault = .unwritable ∧ HasNegative numVars) := by
  induction tokens with
  | nil => simp [lineValues] at h
  | cons token tokens ih =>
      rw [lineValues] at h
      split at h
      · exact (ih h).imp_left fun hfault =>
          hfault.mono (fun _ hcause => hcause) (List.subset_cons_self ..)
      · simp at h
      · rename_i other hscan
        obtain rfl : other = fault := Option.some.inj h
        exact faultAt_of_scanValue hscan

end Values

/-- Some values and the fault behind them come from these lines. -/
structure Stems (source : Option String) (numVars : Option Int) (ending : Ending)
    (content : List (String × Nat)) (outcome : List (Nat × Literal) × Option Fault) : Prop where
  values : ∀ v ∈ outcome.1, ∃ text, (text, v.1) ∈ content
  fault : ∀ fault, outcome.2 = some fault →
    Origin (certificateRejections numVars) source ending content fault

namespace Stems

variable {source : Option String} {numVars : Option Int} {ending : Ending}
  {content : List (String × Nat)} {outcome rest : List (Nat × Literal) × Option Fault}

private theorem mono {more : List (String × Nat)}
    (h : Stems source numVars ending content outcome) (hsub : content ⊆ more) :
    Stems source numVars ending more outcome where
  values v hv := by
    obtain ⟨text, hmem⟩ := h.values v hv
    exact ⟨text, hsub hmem⟩
  fault fault hfault := (h.fault fault hfault).mono hsub

private theorem rejected {text : String} {number : Nat} {cause : Cause}
    (hmem : (text, number) ∈ content) (h : CertificateCause numVars cause) :
    Stems source numVars ending content
      ([], some (.rejected ⟨cause, ⟨source, some number⟩⟩)) where
  values := by simp
  fault fault hfault := by
    rw [← Option.some.inj hfault]
    exact .rejected hmem h

private theorem continued (h : Stems source numVars ending content outcome)
    (hrest : Stems source numVars ending content rest) :
    Stems source numVars ending content (continued outcome rest) := by
  rcases outcome with ⟨values, _ | fault⟩
  · refine ⟨?_, hrest.fault⟩
    intro v hv
    rcases List.mem_append.1 hv with hv | hv
    · exact h.values v hv
    · exact hrest.values v hv
  · exact h

private theorem numberedValues {text : String} {number : Nat} {tokens : List String}
    (hmem : (text, number) ∈ content) (htokens : valueTokens text = tokens) :
    Stems source numVars ending content (numberedValues source numVars number tokens) where
  values v hv := by
    obtain ⟨l, -, rfl⟩ := List.mem_map.1 hv
    exact ⟨text, hmem⟩
  fault fault hfault := by
    rcases faultAt_of_lineValues hfault with hat | ⟨rfl, hnegative⟩
    · apply Origin.line hmem
      apply hat.mono
      · exact fun _ hcause => hcause
      · simp [certificateRejections, htokens]
    · exact .unwritable hnegative

private theorem endFault (status : Option Nat) :
    Stems source numVars ending content ([], endFault source ending status) where
  values := by simp
  fault fault hfault := by
    unfold Certificate.endFault at hfault
    simp only at hfault
    split at hfault
    · rw [← Option.some.inj hfault]
      exact .undecodable rfl
    · split at hfault
      · rw [← Option.some.inj hfault]
        exact .atEnd rfl rfl
      · simp at hfault

theorem readLines (status : Option Nat) (taken : Nat) (lines : List String) :
    Stems source numVars ending (numberedContent taken lines)
      (readLines source numVars ending status taken lines) := by
  induction lines generalizing status taken with
  | nil => exact .endFault status
  | cons raw lines ih =>
      have hnot {c : Char} (htag : tag? (strip raw) = some c) (hc : c ≠ 'c') :
          numberedContent taken (raw :: lines) =
            (raw, taken + 1) :: numberedContent (taken + 1) lines :=
        numberedContent_cons_of_not _ _ (not_isSkipped_of_tag htag hc)
      rcases line_cases raw with hskip | htag | htag | ⟨c, htag, hc, hs, hv⟩
      · rw [readLines_skipped _ _ _ hskip, numberedContent_cons_skipped _ _ hskip]
        exact ih status (taken + 1)
      · rw [hnot htag (by decide)]
        cases status with
        | some first =>
            rw [readLines_second_status _ _ _ htag]
            exact .rejected List.mem_cons_self (.inl rfl)
        | none =>
            rw [readLines_first_status _ _ _ htag]
            split
            · exact (ih _ (taken + 1)).mono (List.subset_cons_self ..)
            · exact .rejected List.mem_cons_self (.inl rfl)
      · rw [hnot htag (by decide), readLines_values _ _ _ htag]
        apply Stems.continued
        · exact .numberedValues List.mem_cons_self (by rw [valueTokens, if_pos htag])
        · exact (ih status (taken + 1)).mono (List.subset_cons_self ..)
      · rw [hnot htag hc, readLines_other _ _ _ htag hc hs hv]
        exact .rejected List.mem_cons_self (.inl rfl)

theorem feed {fault : Option Fault} {values : List (Nat × Literal)}
    (h : Stems source numVars ending content (values, fault)) {a : Assignment} {found : Fault}
    (hfound : (feed (record source) fault values a).2 = some found) :
    Origin (certificateRejections numVars) source ending content found := by
  induction values generalizing a with
  | nil => exact h.fault found hfound
  | cons v values ih =>
      rw [Certificate.feed, record] at hfound
      rcases a.assign_cases v.2 with ⟨-, hassign⟩ | ⟨-, hassign⟩ | ⟨-, hassign⟩
      · simp only [hassign] at hfound
        exact ih ⟨fun w hw => h.values w (List.mem_cons_of_mem _ hw), h.fault⟩ hfound
      · simp only [hassign] at hfound
        exact ih ⟨fun w hw => h.values w (List.mem_cons_of_mem _ hw), h.fault⟩ hfound
      · simp only [hassign, reject] at hfound
        obtain ⟨text, hmem⟩ := h.values v List.mem_cons_self
        rw [← Option.some.inj hfound]
        exact .rejected hmem (.inl rfl)

end Stems

theorem read_eq_error_iff {source : Option String} {numVars : Option Int}
    {input : LineSource} {fault : Fault} :
    read source numVars input = .error fault ↔
      (feed (record source) (readLines source numVars input.ending none 0 input.lines).2
        (readLines source numVars input.ending none 0 input.lines).1 .empty).2 = some fault := by
  rw [← load_eq_feed, read]
  cases (load source numVars input).fault <;> simp

theorem origin_of_read {source : Option String} {numVars : Option Int} {input : LineSource}
    {fault : Fault} (h : read source numVars input = .error fault) :
    Origin (certificateRejections numVars) source input.ending (numberedContent 0 input.lines)
      fault :=
  (Stems.readLines none 0 input.lines).feed (read_eq_error_iff.1 h)

end Certificate

/-- The fault is a diagnostic, unless one of the tokens has too many digits. -/
def Diagnosed (tokens : List String) (fault : Fault) : Prop :=
  (∃ d, fault = .rejected d) ∨
    ∃ token ∈ tokens, ∃ count, Overlong token count ∧ fault = .tooManyDigits count

theorem Origin.diagnosed {k : Rejections} {source : Option String}
    {content : List (String × Nat)} {tokens : List String} {fault : Fault}
    (h : Origin k source .complete content fault) (hwritable : ¬k.unwritable)
    (htokens : ∀ line ∈ content, k.tokens line.1 ⊆ tokens) : Diagnosed tokens fault := by
  cases h with
  | line hmem h =>
      cases h with
      | rejected => exact .inl ⟨_, rfl⟩
      | overlong htoken hlong => exact .inr ⟨_, htokens _ hmem htoken, _, hlong, rfl⟩
  | atEnd => exact .inl ⟨_, rfl⟩
  | unwritable h => exact absurd h hwritable
  | undecodable hending => simp at hending

section Tokens

variable {lines : List String} {line : String × Nat}

private theorem fields_subset (h : line ∈ numberedContent 0 lines) :
    fields line.1 ⊆ (contentLines lines).flatMap fields := by
  intro token htoken
  rw [← fields_strip] at htoken
  exact List.mem_flatMap.2 ⟨strip line.1, strip_mem_contentLines h, htoken⟩

private theorem valueTokens_subset (numVars : Option Int) (h : line ∈ numberedContent 0 lines) :
    (certificateRejections numVars).tokens line.1 ⊆ (taggedFields 'v' lines).flatten := by
  intro token htoken
  simp only [certificateRejections, valueTokens] at htoken
  split at htoken
  · rename_i htag
    apply List.mem_flatten.2
    refine ⟨_, List.mem_map_of_mem ?_, htoken⟩
    exact List.mem_filter.2 ⟨strip_mem_contentLines h, decide_eq_true htag⟩
  · simp at htoken

end Tokens

/-- Reading the lines of a formula or of a certificate, at once or clause by clause, finds nothing
wrong but what a diagnostic says, unless a token has more digits than are read. -/
theorem faults_diagnosed (source : Option String) (lines : List String) {numVars : Option Int}
    (hbound : ∀ n ∈ numVars, 0 ≤ n) :
    (∀ fault, Formula.read source ⟨lines, .complete⟩ = .error fault →
      Diagnosed ((contentLines lines).flatMap fields) fault) ∧
    (∀ fault, (ClauseStream.start source ⟨lines, .complete⟩).1 = .error fault →
      Diagnosed ((contentLines lines).flatMap fields) fault) ∧
    (∀ s fault, (ClauseStream.start source ⟨lines, .complete⟩).1 = .ok s →
      (drain s).fault = some fault → Diagnosed ((contentLines lines).flatMap fields) fault) ∧
    (∀ fault, Certificate.read source numVars ⟨lines, .complete⟩ = .error fault →
      Diagnosed (taggedFields 'v' lines).flatten fault) := by
  refine ⟨?_, ?_, ?_, ?_⟩
  · intro fault h
    exact (Formula.origin_of_read h).diagnosed id fun _ => fields_subset
  · intro fault h
    exact (ClauseStream.origin_of_start h).diagnosed id fun _ => fields_subset
  · intro s fault hstart h
    exact (ClauseStream.origin_of_drain hstart h).diagnosed id fun _ => fields_subset
  · intro fault h
    apply (Certificate.origin_of_read h).diagnosed
    · exact fun ⟨n, hn, hnegative⟩ => absurd (hbound n hn) (Int.not_le.2 hnegative)
    · exact fun _ => valueTokens_subset numVars

/-- A value above the bound is diagnosed. -/
theorem faults_diagnosed_above_bound :
    let lines := ["s SATISFIABLE", "v 3 0"]
    let numVars : Option Int := some 2
    (∀ n ∈ numVars, 0 ≤ n) ∧
      ∃ fault, Certificate.read none numVars ⟨lines, .complete⟩ = .error fault ∧
        Diagnosed (taggedFields 'v' lines).flatten fault := by
  intro lines numVars
  have hbound : ∀ n ∈ numVars, 0 ≤ n := by decide
  have hfails : (Certificate.read none numVars ⟨lines, .complete⟩).toOption.isNone = true := by
    decide +kernel
  refine ⟨hbound, ?_⟩
  cases hread : Certificate.read none numVars ⟨lines, .complete⟩ with
  | ok a => simp [hread, Except.toOption] at hfails
  | error fault => exact ⟨fault, rfl, (faults_diagnosed none lines hbound).2.2.2 fault hread⟩

theorem Formula.read_of_overlong {source : Option String} {input : LineSource}
    {s : ClauseStream} (hstart : (ClauseStream.start source input).1 = .ok s) {line : String}
    {rest : List String} (hlines : s.input.lines = line :: rest) {token : String}
    {tokens : List String} (hfields : fields line = token :: tokens) {count : Nat}
    (hlong : Overlong token count) :
    Formula.read source input = .error (.tooManyDigits count) := by
  obtain ⟨taken, behind, hseek⟩ := ClauseStream.start_eq_ok_iff.1 ⟨s, hstart, rfl⟩
  have hbehind : behind = line :: rest := by
    rw [← hlines]
    rw [ClauseStream.start, hseek] at hstart
    rw [← Except.ok.inj hstart]
  obtain ⟨c, hc, hkind⟩ := hlong.tag
  have htag : tag? (strip line) = some c := by
    rw [tag?_strip, hfields]
    exact hc
  have hskip : ¬IsSkipped line := by
    apply Certificate.not_isSkipped_of_tag htag
    rintro rfl
    revert hkind
    decide
  have hheader : tag? (strip line) ≠ some 'p' := by
    rw [htag]
    rintro ⟨⟩
    revert hkind
    decide
  have hread : ∀ place, readInteger token place = .error (.tooManyDigits count) := fun place =>
    readInteger_eq_error_iff.2 (.inr ⟨count, hlong, rfl⟩)
  have hfault : (drain s).fault = some (.tooManyDigits count) := by
    rw [s.drain_eq_outcome.2, ClauseStream.outcome_of_start hstart hseek, hbehind,
      ClauseStream.piecesFrom, ClauseStream.linePieces, if_neg hskip, if_neg hheader, hfields]
    simp [ClauseStream.readPieces, hread]
  rw [Formula.read, hstart]
  simp only [hfault]

/-- One digit more than are read, in a text that is in order otherwise. -/
theorem overlong_token_not_diagnosed :
    let token := String.ofList (List.replicate 4301 '1')
    Formula.read none ⟨["p cnf 1 1", token], .complete⟩ = .error (.tooManyDigits 4301) ∧
      ∀ d, Formula.read none ⟨["p cnf 1 1", token], .complete⟩ ≠ .error (.rejected d) := by
  intro token
  have hfields : fields token = [token] := by
    apply fields_of_no_blank
    · exact List.cons_ne_nil _ _
    · intro c hc
      rw [List.eq_of_mem_replicate hc]
      decide
  have hlong : Overlong token 4301 := by
    have hsign : splitSign (List.replicate 4301 '1') = (false, List.replicate 4301 '1') := rfl
    rw [Overlong, String.toList_ofList, hsign]
    refine ⟨?_, List.length_replicate, by decide⟩
    rw [isNumeral, List.all_replicate]
    rfl
  have hopen : ∃ s : ClauseStream,
      (ClauseStream.start none ⟨["p cnf 1 1", token], .complete⟩).1 = .ok s ∧
        s.input.lines = [token] := ⟨_, rfl, rfl⟩
  obtain ⟨s, hstart, hlines⟩ := hopen
  have hread := Formula.read_of_overlong hstart hlines hfields hlong
  rw [hread]
  exact ⟨rfl, by simp⟩

end CnfAudit
