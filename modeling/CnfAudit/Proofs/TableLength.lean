import CnfAudit.Proofs.CertificateText
import CnfAudit.Proofs.FirstPolarity

/-!
# The length of the table

A table grows only for a literal on a variable beyond its end, so that the greatest variable
recorded keeps up with the table.
-/

namespace CnfAudit

open Text

namespace Assignment

/-- The table reaches beyond the greatest variable recorded, and if it is longer than it was at
first, then at most twice as long as that variable is great. -/
structure Fitting (slots : Nat) (a : Assignment) : Prop where
  maxVar_lt : a.maxVar < a.table.size
  size_le : a.table.size ≤ max slots (2 * a.maxVar)

theorem fitting_blank {slots : Nat} (h : 0 < slots) : (blank slots).Fitting slots := by
  have hsize : (blank slots).table.size = slots := Array.size_replicate
  have hmax : (blank slots).maxVar = 0 := rfl
  constructor <;> omega

/-- Growth alone decides the length: writing a value keeps it, and a refused literal finds its slot
in the table. -/
theorem size_assign (a : Assignment) (l : Literal) :
    (a.assign l).2.table.size = (a.grow l.var).table.size := by
  rw [assign]
  split
  · exact Array.size_setIfInBounds
  · split <;> rfl

/-- The step lemma: what makes the table grow also raises the greatest variable. -/
theorem Fitting.assign {slots : Nat} {a : Assignment} (h : a.Fitting slots) (l : Literal) :
    (a.assign l).2.Fitting slots := by
  have hlt := h.maxVar_lt
  have hle := h.size_le
  have hvar := l.var_pos
  rcases a.assign_cases l with ⟨-, hassign⟩ | ⟨-, hassign⟩ | ⟨-, hassign⟩
  · have hmax : (a.assign l).2.maxVar = max a.maxVar l.var := by
      rw [hassign]
      rfl
    have hsize : (a.assign l).2.table.size = grownSize a.table.size l.var := by
      rw [size_assign, size_grow]
    rw [grownSize] at hsize
    -- a table that grows was no longer than the variable, which is then the greatest one
    split at hsize <;> constructor <;> omega
  · rwa [hassign]
  · rwa [hassign]

/-- The run lemma. -/
theorem Fitting.recordEach {slots : Nat} {a : Assignment} (h : a.Fitting slots)
    (ls : List Literal) : (a.recordEach ls).Fitting slots := by
  induction ls generalizing a with
  | nil => exact h
  | cons l ls ih => exact ih (h.assign l)

theorem Reachable.range_of_get {a : Assignment} (h : a.Reachable) {v : Int}
    (hv : a.get v ≠ none) : 1 ≤ v ∧ v ≤ a.maxVar := by
  have hnonneg : 0 ≤ v := by
    by_contra hneg
    exact hv (a.get_of_neg (Int.not_le.1 hneg))
  obtain ⟨n, rfl⟩ := Int.eq_ofNat_of_zero_le hnonneg
  have hmax : n ≤ a.maxVar := h.le_maxVar hv
  obtain ⟨value, hvalue⟩ := Option.ne_none_iff_exists'.1 hv
  rw [get_natCast, Option.join_eq_some_iff] at hvalue
  have hpos := (a.isVariable n value hvalue).1
  omega

/-- Only variables up to this number have a value, and the table is at most twice as long as the
number is great. -/
structure Confined (n : Nat) (a : Assignment) : Prop where
  range : ∀ v : Int, a.get v ≠ none → 1 ≤ v ∧ v ≤ n
  size_le : a.table.size ≤ max 1 (2 * n)

/-- An assignment as it stands between two values of a certificate for this many variables. -/
structure Settled (n : Nat) (a : Assignment) : Prop where
  reachable : a.Reachable
  fitting : a.Fitting 1
  maxVar_le : a.maxVar ≤ n

namespace Settled

variable {n : Nat} {a : Assignment} {l : Literal}

theorem empty (n : Nat) : Assignment.empty.Settled n :=
  ⟨.blank 1, fitting_blank Nat.one_pos, Nat.zero_le n⟩

theorem assign (h : a.Settled n) (hl : l.var ≤ n) : (a.assign l).2.Settled n where
  reachable := h.reachable.assign l
  fitting := h.fitting.assign l
  maxVar_le := by
    rw [h.reachable.maxVar_after_assign]
    exact Nat.max_le.2 ⟨h.maxVar_le, hl⟩

theorem confined (h : a.Settled n) : a.Confined n where
  range v hv := by
    have hrange := h.reachable.range_of_get hv
    have hmax := h.maxVar_le
    omega
  size_le := by
    have hsize := h.fitting.size_le
    have hmax := h.maxVar_le
    omega

theorem confined_grow (h : a.Settled n) (hl : l.var ≤ n) : (a.grow l.var).Confined n where
  range v hv := by
    rw [get_grow] at hv
    exact h.confined.range v hv
  size_le := by
    rw [← size_assign]
    exact (h.assign hl).confined.size_le

end Settled

end Assignment

namespace Certificate

section Bound

variable {numVars : Option Int}

theorem inBound_of_mem_lineValues {place : Place} {tokens : List String} {l : Literal}
    (h : l ∈ (lineValues numVars place tokens).1) : InBound numVars l.toInt := by
  induction tokens with
  | nil => simp [lineValues] at h
  | cons token tokens ih =>
      rw [lineValues] at h
      rcases scanValue_cases numVars place token tokens with
        ⟨k, hscan, -, hbound⟩ | ⟨hscan, -⟩ | ⟨fault, hscan, -⟩
      · simp only [hscan] at h
        rcases List.mem_cons.1 h with rfl | hrest
        · exact hbound
        · exact ih hrest
      · simp [hscan] at h
      · simp [hscan] at h

theorem mem_of_mem_continued {α : Type} {first rest : List α × Option Fault} {x : α}
    (h : x ∈ (continued first rest).1) : x ∈ first.1 ∨ x ∈ rest.1 := by
  rw [continued] at h
  split at h
  · exact .inl h
  · exact List.mem_append.1 h

/-- Every value that is read is in range, also those in front of a fault. -/
theorem inBound_of_mem_readLines {source : Option String} {ending : Ending} {status : Option Nat}
    {taken : Nat} {lines : List String} {v : Nat × Literal}
    (h : v ∈ (readLines source numVars ending status taken lines).1) :
    InBound numVars v.2.toInt := by
  induction lines generalizing status taken with
  | nil => simp [readLines] at h
  | cons raw rest ih =>
      rcases line_cases raw with hskip | htag | htag | ⟨c, htag, hc, hs, hv⟩
      · rw [readLines_skipped _ _ _ hskip] at h
        exact ih h
      · cases status with
        | some first => simp [readLines_second_status _ _ _ htag] at h
        | none =>
            rw [readLines_first_status _ _ _ htag] at h
            split at h
            · exact ih h
            · simp at h
      · rw [readLines_values _ _ _ htag] at h
        rcases mem_of_mem_continued h with hline | hrest
        · simp only [numberedValues, List.mem_map] at hline
          obtain ⟨l, hl, rfl⟩ := hline
          exact inBound_of_mem_lineValues hl
        · exact ih hrest
      · simp [readLines_other _ _ _ htag hc hs hv] at h

end Bound

theorem feed_preserves {σ : Type} {step : σ → Nat → Literal → Except Fault Unit × σ}
    {motive : σ → Prop} {values : List (Nat × Literal)}
    (hstep : ∀ s, motive s → ∀ v ∈ values, motive (step s v.1 v.2).2) (fault : Option Fault)
    {s : σ} (hs : motive s) : motive (feed step fault values s).1 := by
  induction values generalizing s with
  | nil => exact hs
  | cons v rest ih =>
      have hnext := hstep s hs v List.mem_cons_self
      rw [feed]
      rcases hresult : step s v.1 v.2 with ⟨_ | _, t⟩
      · rwa [hresult] at hnext
      · rw [hresult] at hnext
        exact ih (fun s hs v hv => hstep s hs v (List.mem_cons_of_mem _ hv)) hnext

/-- An assignment with those that it came from, the latest first. -/
structure History where
  current : Assignment
  past : List Assignment

/-- Records a value and keeps the assignment before it, and the one in between, whose table is long
enough for the value and does not have it yet. -/
def recordKeeping (source : Option String) (history : History) (line : Nat) (l : Literal) :
    Except Fault Unit × History :=
  let recorded := record source history.current line l
  (recorded.1,
    ⟨recorded.2, history.current.grow l.var :: history.current :: history.past⟩)

/-- All assignments that reading a certificate goes through, the last one first. -/
def moments (source : Option String) (numVars : Option Int) (input : LineSource) :
    List Assignment :=
  let history :=
    (Reader.fold (recordKeeping source) { source, numVars, input } .fresh ⟨.empty, []⟩).state
  history.current :: history.past

section Moments

variable {source : Option String}

theorem record_snd (a : Assignment) (line : Nat) (l : Literal) :
    (record source a line l).2 = (a.assign l).2 := by
  rw [record]
  rcases a.assign l with ⟨_ | _, b⟩ <;> rfl

theorem current_feed_recordKeeping (fault : Option Fault) (values : List (Nat × Literal))
    (history : History) :
    (feed (recordKeeping source) fault values history).1.current =
      (feed (record source) fault values history.current).1 := by
  induction values generalizing history with
  | nil => rfl
  | cons v rest ih =>
      rw [feed, feed, recordKeeping]
      rcases record source history.current v.1 v.2 with ⟨_ | _, b⟩
      · rfl
      · exact ih _

theorem state_fold_eq_feed {σ : Type} (step : σ → Nat → Literal → Except Fault Unit × σ)
    (numVars : Option Int) (input : LineSource) (s : σ) :
    (Reader.fold step { source, numVars, input } .fresh s).state =
      (feed step (readLines source numVars input.ending none 0 input.lines).2
        (readLines source numVars input.ending none 0 input.lines).1 s).1 :=
  congrArg Prod.fst (Reader.fold_eq_feed step { source, numVars, input } .fresh s)

/-- The last moment is the assignment that the reading leaves, with or without a fault. -/
theorem head?_moments (numVars : Option Int) (input : LineSource) :
    (moments source numVars input).head? = some (load source numVars input).state := by
  rw [moments, load, List.head?_cons, state_fold_eq_feed, state_fold_eq_feed,
    current_feed_recordKeeping]

/-- The assignment is settled and every one before it is confined. -/
structure History.Bounded (n : Nat) (history : History) : Prop where
  current : history.current.Settled n
  past : ∀ a ∈ history.past, a.Confined n

theorem History.Bounded.record {n : Nat} {history : History} (h : history.Bounded n) (line : Nat)
    {l : Literal} (hl : l.var ≤ n) : (recordKeeping source history line l).2.Bounded n where
  current := by
    show (Certificate.record source history.current line l).2.Settled n
    rw [record_snd]
    exact h.current.assign hl
  past := by
    refine List.forall_mem_cons.2 ⟨h.current.confined_grow hl, ?_⟩
    exact List.forall_mem_cons.2 ⟨h.current.confined, h.past⟩

theorem confined_of_mem_moments {n : Nat} {input : LineSource} {a : Assignment}
    (h : a ∈ moments source (some n) input) : a.Confined n := by
  have hbounded : (Reader.fold (recordKeeping source) { source, numVars := some n, input } .fresh
      ⟨.empty, []⟩).state.Bounded n := by
    rw [state_fold_eq_feed]
    apply feed_preserves _ _ ⟨.empty n, by simp⟩
    intro history hhistory v hv
    have hbound := (inBound_of_mem_readLines hv).2 n rfl
    rw [Literal.natAbs_toInt] at hbound
    exact hhistory.record v.1 (Int.ofNat_le.1 hbound)
  rcases List.mem_cons.1 h with rfl | hpast
  · exact hbounded.current.confined
  · exact hbounded.past a hpast

end Moments

/-- No text decides how long a table is. However literals are recorded, refused ones included, the
table reaches beyond the greatest variable recorded and is no longer than it was at first or than
twice that variable, and a literal that is recorded finds its slot in the table that has grown for
it. While a certificate is read for some number of variables, and behind a fault as well, only
variables up to that number have a value, and the table is at most twice as long as that number is
great, however large the values of the text are. -/
theorem table_length_bounded {numVars : Int} (hnonneg : 0 ≤ numVars) {start : Assignment}
    (hstart : Assignment.sized numVars = .ok start) (ls : List Literal)
    (source : Option String) (n : Nat) (input : LineSource) :
    let a := start.recordEach ls
    (a.maxVar < a.table.size ∧ (a.table.size : Int) ≤ max (numVars + 1) (2 * a.maxVar) ∧
      ∀ l : Literal, l.var < (a.grow l.var).table.size ∧
        (a.assign l).2.table.size = (a.grow l.var).table.size) ∧
    (moments source (some n) input).head? = some (load source (some n) input).state ∧
    ∀ b ∈ moments source (some n) input,
      (∀ v : Int, b.get v ≠ none → 1 ≤ v ∧ v ≤ n) ∧ b.table.size ≤ max 1 (2 * n) := by
  intro a
  have hfitting : a.Fitting (numVars + 1).toNat := by
    have hblank := (Assignment.eq_blank_of_sized hstart).1
    have hslots : 0 < (numVars + 1).toNat := by omega
    show (start.recordEach ls).Fitting _
    rw [hblank]
    exact (Assignment.fitting_blank hslots).recordEach ls
  have hsize := hfitting.size_le
  refine ⟨⟨hfitting.maxVar_lt, by omega, ?_⟩, head?_moments (some n) input, ?_⟩
  · intro l
    exact ⟨a.lt_size_grow l.var, a.size_assign l⟩
  · intro b hb
    have hconfined := confined_of_mem_moments hb
    exact ⟨hconfined.range, hconfined.size_le⟩

/-- Two variables are recorded, with a longer table for each, before a huge value is rejected. On an
assignment of its own the third variable is recorded, and its negation is refused. -/
theorem table_length_bounded_before_huge_value :
    let three : Literal := .ofVar 3 true (by decide)
    let a := (Assignment.blank 1).recordEach [three, -three]
    let n : Nat := 3
    let input : LineSource := ⟨["s SATISFIABLE", "v 2 -3 99999999999 0"], .complete⟩
    Assignment.sized 0 = .ok (.blank 1) ∧ a.maxVar < a.table.size ∧
      (a.table.size : Int) ≤ max ((0 : Int) + 1) (2 * a.maxVar) ∧
      (load none (some n) input).fault =
        some (.rejected ⟨.valueOutOfRange 99999999999 n, ⟨none, some 2⟩⟩) ∧
      (moments none (some n) input).map (·.table.size) = [6, 6, 3, 3, 1] ∧
      ∀ b ∈ moments none (some n) input,
        (∀ v : Int, b.get v ≠ none → 1 ≤ v ∧ v ≤ n) ∧ b.table.size ≤ max 1 (2 * n) := by
  intro three a n input
  have hsized : Assignment.sized 0 = .ok (.blank 1) := rfl
  obtain ⟨⟨hlt, hle, -⟩, -, hmoments⟩ :=
    table_length_bounded (Int.le_refl 0) hsized [three, -three] none n input
  exact ⟨hsized, hlt, hle, by decide +kernel, by decide +kernel, hmoments⟩

end Certificate

end CnfAudit
