import CnfAudit.Proofs.StreamStates
import CnfAudit.Proofs.Verified

/-!
# Checks behind a fault

A stream that has found a fault in its text keeps no memory of it.
-/

namespace CnfAudit

/-- A check that rejects the assignment it is given blames nothing in the text. -/
def Fault.isOfAssignment : Fault → Bool
  | .rejected ⟨.assignsBeyond .., _⟩ => true
  | _ => false

namespace ClauseStream

/-- One of the commands is answered with this fault. -/
def Raises (s : ClauseStream) (commands : List Command) (fault : Fault) : Prop :=
  ∃ before command after, commands = before ++ command :: after ∧
    ((s.obeyAll before).obey command).1.fault? = some fault

section Finished

variable {s : ClauseStream}

theorem finished_obey (h : s.finished = true) (command : Command) :
    (s.obey command).2.finished = true := by
  apply Command.perform_preserves (P := fun t : ClauseStream => t.finished = true)
  · intro t ht
    have hnext : ClauseSource.pull t = (.ok none, t) := next_finished ht
    rw [hnext]
    exact ht
  · intro t _
    rfl
  · exact h

theorem finished_obeyAll_of_finished (h : s.finished = true) (commands : List Command) :
    (s.obeyAll commands).finished = true := by
  induction commands generalizing s with
  | nil => exact h
  | cons command commands ih => exact ih (finished_obey h command)

private theorem simulates_nil :
    Simulates (fun (s : ClauseStream) (cs : List Clause) => s.finished = true ∧ cs = [])
      fun _ => True where
  back _ _ := trivial
  answer := by
    intro s cs h _
    have hnext : ClauseSource.pull s = (.ok none, s) := next_finished h.1
    rw [hnext, h.2]
    rfl
  step := by
    intro s cs h _
    have hnext : ClauseSource.pull s = (.ok none, s) := next_finished h.1
    rw [hnext, h.2]
    exact ⟨h.1, rfl⟩

/-- No consumer can tell a finished stream from a list without clauses. -/
theorem obey_of_finished (h : s.finished = true) (command : Command) :
    (s.obey command).1 = (command.perform id s.header ([] : List Clause)).1 := by
  apply And.left
  apply simulates_nil.performed ⟨h, rfl⟩
  · intro _
    exact ⟨rfl, rfl⟩
  · trivial

private theorem finished_of_pull {p : Pulled ClauseStream} (hpull : ClauseSource.pull s = p)
    (h : delivered p = none) : p.2.finished = true := by
  have hnext : s.next = p := hpull
  rw [← hnext] at h ⊢
  exact s.finished_of_next h

theorem finished_drain (s : ClauseStream) : (drain s).source.finished = true := by
  induction s using ClauseSource.induction with
  | failed s fault t hpull =>
      rw [drain_of_fault hpull]
      exact finished_of_pull hpull rfl
  | ended s t hpull =>
      rw [drain_of_end hpull]
      exact finished_of_pull hpull rfl
  | pulled s c t hpull ih =>
      rw [drain_of_clause hpull]
      exact ih

private theorem finished_searchFrom {a : Assignment} {n : Nat} {fault : Fault}
    (h : (searchFrom ⟨a, false⟩ n s).1 = .error fault) :
    (searchFrom ⟨a, false⟩ n s).2.finished = true := by
  induction s using ClauseSource.induction generalizing n with
  | failed s other t hpull =>
      rw [searchFrom_of_fault a n hpull]
      exact finished_of_pull hpull rfl
  | ended s t hpull => simp [searchFrom_of_end a n hpull] at h
  | pulled s c t hpull ih =>
      rw [searchFrom_of_clause a n hpull] at h ⊢
      split at h
      · rename_i hc
        rw [if_pos hc]
        exact ih h
      · simp at h

/-- The step: a command that is answered with a fault of the text leaves the stream finished. -/
theorem finished_of_fault {command : Command} {fault : Fault}
    (h : (s.obey command).1.fault? = some fault) (htext : fault.isOfAssignment = false) :
    (s.obey command).2.finished = true := by
  cases command with
  | next =>
      apply s.finished_of_next
      have hfault : (Answer.pulled s.next.1).fault? = some fault := h
      rw [delivered]
      cases hresult : s.next.1 with
      | error other => rfl
      | ok result => simp [hresult, Answer.fault?] at hfault
  | rest => exact finished_drain s
  | close => simp [obey, Command.perform, Answer.fault?] at h
  | check a strictUnassigned =>
      let settings := s.header.checkSettings strictUnassigned
      have hfault : (Answer.checked (checkClauses s a settings).1).fault? = some fault := h
      show (checkClauses s a settings).2.finished = true
      rcases Int.lt_or_le settings.numVars a.maxVar with hbeyond | hwithin
      · rw [checkClauses_beyond a s hbeyond] at hfault
        have hbound : fault = .rejected ⟨.assignsBeyond a.maxVar s.header.numVars, {}⟩ := by
          rw [← s.header.mentioning_numVars]
          exact (Option.some.inj hfault).symm
        simp [hbound, Fault.isOfAssignment] at htext
      · rw [checkClauses_within a s hwithin] at hfault ⊢
        cases hfound : (searchFrom ⟨a, false⟩ 0 s).1 with
        | error other => exact finished_searchFrom hfound
        | ok found => simp [hfound, Except.map, Answer.fault?] at hfault

/-- The run: behind a fault of the text a stream is finished, whatever follows. -/
theorem Raises.finished {commands : List Command} {fault : Fault} (h : s.Raises commands fault)
    (htext : fault.isOfAssignment = false) (more : List Command) :
    (s.obeyAll (commands ++ more)).finished = true := by
  obtain ⟨before, command, after, hcommands, hfault⟩ := h
  rw [hcommands, List.append_assoc, obeyAll, List.foldl_append]
  exact finished_obeyAll_of_finished (finished_of_fault hfault htext) (after ++ more)

end Finished

end ClauseStream

private theorem checkClauses_nil_within {a : Assignment} {settings : CheckSettings}
    (h : (a.maxVar : Int) ≤ settings.numVars) :
    checkClauses ([] : List Clause) a settings = (.ok (.ofSearch a settings 0 none), []) := by
  rw [checkClauses_within a [] h, searchFrom_of_end a 0 ClauseSource.pull_nil]
  rfl

/-- A check of no clauses has a verdict unless the assignment is out of range, and the verdict is
positive unless variables without a value are refused and there are some. -/
theorem checkClauses_nil (a : Assignment) (settings : CheckSettings) :
    (∀ v, (checkClauses ([] : List Clause) a settings).1 = .ok v →
      v.clausesChecked = 0 ∧ v.firstUnsatIndex = none) ∧
    ((∃ v, (checkClauses ([] : List Clause) a settings).1 = .ok v ∧ v.ok = true) ↔
      (a.maxVar : Int) ≤ settings.numVars ∧
        (settings.strictUnassigned = some true → a.unassignedCount settings.numVars = 0)) := by
  rcases Int.lt_or_le settings.numVars a.maxVar with hbeyond | hwithin
  · simp [checkClauses_beyond a [] hbeyond, Int.not_le.2 hbeyond]
  · rw [checkClauses_nil_within hwithin, and_iff_right hwithin]
    refine ⟨?_, ?_⟩
    · intro v hv
      rw [← Except.ok.inj hv]
      exact ⟨rfl, rfl⟩
    · simp only [Except.ok.injEq, exists_eq_left', Verdict.ofSearch_ok_iff, true_and]

/-- A fault of the text is forgotten. Behind it every command is answered as for a list without
clauses. A check has a positive verdict as soon as no variable of the assignment is out of range
and, where that is asked for, none is left open; the only trace of the fault is that the verdict has
checked no clause. -/
theorem fault_forgotten {s : ClauseStream} {commands : List Command} {fault : Fault}
    (hraised : s.Raises commands fault) (htext : fault.isOfAssignment = false)
    (more : List Command) :
    let t := s.obeyAll (commands ++ more)
    (∀ command, (t.obey command).1 = (command.perform id s.header ([] : List Clause)).1) ∧
    ∀ a strictUnassigned,
      (∀ v, (t.obey (.check a strictUnassigned)).1 = .checked (.ok v) →
        v.clausesChecked = 0 ∧ v.firstUnsatIndex = none) ∧
      ((∃ v, (t.obey (.check a strictUnassigned)).1 = .checked (.ok v) ∧ v.ok = true) ↔
        a.maxVar ≤ s.header.numVars ∧
          (strictUnassigned = some true → a.unassignedCount s.header.numVars = 0)) := by
  intro t
  have hanswer : ∀ command,
      (t.obey command).1 = (command.perform id s.header ([] : List Clause)).1 := by
    intro command
    rw [← s.header_obeyAll (commands ++ more)]
    exact ClauseStream.obey_of_finished (hraised.finished htext more) command
  refine ⟨hanswer, ?_⟩
  intro a strictUnassigned
  have hnil := checkClauses_nil a (s.header.checkSettings strictUnassigned)
  rw [hanswer]
  simp only [Command.perform, Answer.checked.injEq]
  exact ⟨hnil.1, by rw [hnil.2]; simp [Header.checkSettings]⟩

private theorem raises_outOfRange :
    ∃ s, (ClauseStream.start (some "<cnf>") ⟨["p cnf 1 1", "1 2 0"], .complete⟩).1 = .ok s ∧
      s.header = ⟨1, 1, by decide⟩ ∧
      s.Raises [.next] (.rejected ⟨.literalOutOfRange 2 1, ⟨some "<cnf>", some 2⟩⟩) :=
  ⟨_, rfl, rfl, [], .next, [], rfl, by decide +kernel⟩

/-- Also with another command between the fault and the check. -/
theorem fault_forgotten_outOfRange :
    ∃ s, (ClauseStream.start (some "<cnf>") ⟨["p cnf 1 1", "1 2 0"], .complete⟩).1 = .ok s ∧
      s.Raises [.next] (.rejected ⟨.literalOutOfRange 2 1, ⟨some "<cnf>", some 2⟩⟩) ∧
      ∃ v, ((s.obeyAll [.next, .rest]).obey (.check .empty none)).1 = .checked (.ok v) ∧
        v.ok = true := by
  obtain ⟨s, hstart, -, hraised⟩ := raises_outOfRange
  refine ⟨s, hstart, hraised, ?_⟩
  apply ((fault_forgotten hraised rfl [.rest]).2 .empty none).2.2
  exact ⟨Nat.zero_le _, by simp⟩

/-- A check behind a fault can be positive. The only clause of the text has been rejected, its
literal in range is denied, and no variable is left open. -/
theorem positive_check_behind_fault :
    let denial := (Assignment.empty.assign (.ofVar 1 false (by decide))).2
    ∃ s v, (ClauseStream.start (some "<cnf>") ⟨["p cnf 1 1", "1 2 0"], .complete⟩).1 = .ok s ∧
      s.Raises [.next] (.rejected ⟨.literalOutOfRange 2 1, ⟨some "<cnf>", some 2⟩⟩) ∧
      ((s.obeyAll [.next]).obey (.check denial (some true))).1 = .checked (.ok v) ∧
      v.ok = true ∧ v.numClauses = some 1 ∧ v.clausesChecked = 0 := by
  intro denial
  obtain ⟨s, hstart, hheader, hraised⟩ := raises_outOfRange
  have hcheck := ClauseStream.obey_of_finished (hraised.finished rfl [])
    (.check denial (some true))
  rw [s.header_obeyAll, hheader, Command.perform, checkClauses_nil_within (by decide)] at hcheck
  exact ⟨s, _, hstart, hraised, hcheck, by decide +kernel, rfl, rfl⟩

end CnfAudit
