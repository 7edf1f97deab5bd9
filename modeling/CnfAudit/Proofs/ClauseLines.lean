import CnfAudit.Proofs.ClauseOrder

/-!
# The line on which a clause ends
-/

namespace CnfAudit

open Text

/-- The number of the line, once for each zero among its tokens. -/
def zerosOn (number : Nat) (tokens : List String) : List Nat :=
  (tokens.filter isZero).map fun _ => number

/-- The numbers of the lines of the zeros in some lines, one for each zero. -/
def zerosIn (content : List (String × Nat)) : List Nat :=
  content.flatMap fun line => zerosOn line.2 (fields line.1)

/-- The numbers of the lines of the zeros behind the header line, one for each zero. -/
def zeroLines (lines : List String) : List Nat := zerosIn (numberedContent 0 lines).tail

namespace ClauseStream

/-- The numbers of the lines of the zeros that a stream has in front of it. -/
def zerosAhead (s : ClauseStream) : List Nat :=
  zerosOn s.lineNumber s.tokens ++ zerosIn (numberedContent s.lineNumber s.input.lines)

section Scan

variable {header : Header} {place : Place} {tokens : List String} {read : Clause}

private theorem zerosOn_of_scanTokens (number : Nat) :
    (∀ literals rest, scanTokens header place tokens read = .clause literals rest →
      zerosOn number tokens = number :: zerosOn number rest) ∧
    (∀ literals, scanTokens header place tokens read = .lineEnd literals →
      zerosOn number tokens = []) := by
  induction tokens generalizing read with
  | nil => simp [scanTokens, zerosOn]
  | cons token tokens ih =>
      rw [scanTokens]
      split
      · simp
      · rename_i value hvalue
        have hspells := (readInteger_eq_ok_iff place).1 hvalue
        split
        · rename_i hzero
          have htoken : isZero token = true := isZero_iff.2 (hzero ▸ hspells)
          simp [zerosOn, htoken]
        · rename_i hzero
          have htoken : ¬isZero token = true := fun h => hzero (hspells.unique (isZero_iff.1 h))
          have hskip : zerosOn number (token :: tokens) = zerosOn number tokens := by
            rw [zerosOn, List.filter_cons_of_neg htoken]
            rfl
          rw [hskip]
          split
          · exact ih
          · simp

end Scan

section Pull

variable {s t : ClauseStream} {c : Clause}

private theorem zerosAhead_of_deliver {literals : Clause} {rest : List String}
    (h : s.deliver literals rest = (.ok (some c), t)) :
    t.lineNumber = s.lineNumber ∧
      zerosAhead t =
        zerosOn s.lineNumber rest ++ zerosIn (numberedContent s.lineNumber s.input.lines) := by
  rw [deliver] at h
  simp only at h
  split at h
  · obtain ⟨-, rfl⟩ := Prod.mk.inj h
    exact ⟨rfl, rfl⟩
  · simp [fail] at h

private theorem zerosIn_of_pullLines {lines : List String}
    (h : s.pullLines lines = (.ok (some c), t)) :
    zerosIn (numberedContent s.lineNumber lines) = t.lineNumber :: zerosAhead t := by
  induction lines generalizing s with
  | nil =>
      have hresult := (atEnd_ends { s with input := ⟨[], s.input.ending⟩ }).result
      rw [pullLines] at h
      simp [h] at hresult
  | cons line lines ih =>
      by_cases hskip : IsSkipped line
      · rw [pullLines_skipped hskip] at h
        rw [numberedContent_cons_skipped _ _ hskip]
        exact ih h
      · rw [numberedContent_cons_of_not _ _ hskip, zerosIn, List.flatMap_cons]
        by_cases hheader : tag? (strip line) = some 'p'
        · simp [pullLines_header hheader, fail] at h
        · rw [pullLines_tokens hskip hheader] at h
          simp only at h
          split at h
          · rename_i hscan
            obtain ⟨hline, hzeros⟩ := zerosAhead_of_deliver h
            rw [(zerosOn_of_scanTokens _).1 _ _ hscan, hline, hzeros]
            rfl
          · rename_i hscan
            rw [(zerosOn_of_scanTokens _).2 _ hscan]
            exact ih h
          · simp [fail] at h

/-- A pull that gives a clause stops on the line of the first zero, and leaves the others. -/
theorem zerosAhead_of_next (h : s.next = (.ok (some c), t)) :
    s.zerosAhead = t.lineNumber :: t.zerosAhead := by
  rw [next] at h
  split at h
  · simp at h
  · rw [zerosAhead]
    split at h
    · rename_i hscan
      obtain ⟨hline, hzeros⟩ := zerosAhead_of_deliver h
      rw [(zerosOn_of_scanTokens _).1 _ _ hscan, hline, hzeros]
      rfl
    · rename_i hscan
      have hzeros := zerosIn_of_pullLines h
      rw [(zerosOn_of_scanTokens _).2 _ hscan]
      exact hzeros
    · simp [fail] at h

end Pull

theorem zerosAhead_of_start {source : Option String} {input : LineSource} {s : ClauseStream}
    (h : (start source input).1 = .ok s) : s.zerosAhead = zeroLines input.lines := by
  obtain ⟨taken, rest, hseek⟩ := start_eq_ok_iff.1 ⟨s, h, rfl⟩
  rw [start, hseek] at h
  rw [zeroLines, numberedContent_of_seekHeader hseek, ← Except.ok.inj h]
  rfl

end ClauseStream

namespace Recorded

/-- The pulls that gave a clause. -/
def clausePulls (r : Recorded ClauseStream) : List (Pulled ClauseStream) :=
  r.pulls.filter fun p => (delivered p).isSome

/-- Every clause was pulled when the line of its zero was the last one taken. The invariant of a
record: the zeros that are left to the stream are those behind the clauses pulled. -/
structure OnZeroLines (lines : List String) (r : Recorded ClauseStream) : Prop where
  pulled : ∀ (m : Nat) (p : Pulled ClauseStream), r.clausePulls[m]? = some p →
    (zeroLines lines)[m]? = some p.2.lineNumber ∧ p.2.TakenFrom lines
  ahead : r.source.finished = false →
    r.source.zerosAhead = (zeroLines lines).drop r.clausePulls.length
  taken : r.source.TakenFrom lines

namespace OnZeroLines

variable {lines : List String} {r : Recorded ClauseStream}

theorem close (h : r.OnZeroLines lines) : r.close.OnZeroLines lines where
  pulled := h.pulled
  ahead hopen := by simp [Recorded.close, ClauseStream.close] at hopen
  taken := h.taken

private theorem clausePulls_pull (r : Recorded ClauseStream) :
    (ClauseSource.pull r).2.clausePulls =
      r.clausePulls ++ [r.source.next].filter fun p => (delivered p).isSome :=
  List.filter_append ..

theorem pull (h : r.OnZeroLines lines) : (ClauseSource.pull r).2.OnZeroLines lines := by
  have htaken : r.source.next.2.TakenFrom lines := h.taken.next
  cases hdelivered : delivered r.source.next with
  | none =>
      have hpulls : (ClauseSource.pull r).2.clausePulls = r.clausePulls := by
        rw [clausePulls_pull]
        simp [hdelivered]
      have hfinished := r.source.finished_of_next hdelivered
      refine ⟨?_, ?_, htaken⟩
      · rw [hpulls]
        exact h.pulled
      · intro (hopen : r.source.next.2.finished = false)
        rw [hfinished] at hopen
        simp at hopen
  | some c =>
      have hpulls : (ClauseSource.pull r).2.clausePulls = r.clausePulls ++ [r.source.next] := by
        rw [clausePulls_pull]
        simp [hdelivered]
      have hnext : r.source.next = (.ok (some c), r.source.next.2) :=
        Prod.ext (delivered_eq_some_iff.1 hdelivered) rfl
      have hahead := h.ahead (ClauseStream.finished_eq_false_of_clause hnext)
      have hzeros := hahead.symm.trans (ClauseStream.zerosAhead_of_next hnext)
      refine ⟨?_, ?_, htaken⟩
      · intro m p hp
        rw [hpulls] at hp
        rcases Nat.lt_or_ge m r.clausePulls.length with hlt | hge
        · rw [List.getElem?_append_left hlt] at hp
          exact h.pulled m p hp
        · rw [List.getElem?_append_right hge, List.getElem?_singleton] at hp
          split at hp
          · rename_i hm
            obtain rfl : m = r.clausePulls.length := by omega
            obtain rfl := Option.some.inj hp
            refine ⟨?_, htaken⟩
            rw [← Nat.add_zero r.clausePulls.length, ← List.getElem?_drop, hzeros]
            rfl
          · simp at hp
      · intro _
        rw [hpulls, List.length_append, List.length_singleton, ← List.drop_drop, hzeros]
        rfl

end OnZeroLines

end Recorded

/-- Whatever a consumer asks for, the clause with some number is pulled when the line of the zero
with that number has been taken and no other behind it. -/
theorem ClauseStream.onZeroLines_obeyAll {source : Option String} {input : LineSource}
    {s : ClauseStream} (h : (start source input).1 = .ok s) (commands : List Command) :
    (s.recorded.obeyAll commands).OnZeroLines input.lines := by
  apply Recorded.obeyAll_preserves
  · exact fun _ => .pull
  · exact fun _ => .close
  · exact ⟨by simp [Recorded.clausePulls, recorded], fun _ => zerosAhead_of_start h,
      takenFrom_of_start h⟩

end CnfAudit
