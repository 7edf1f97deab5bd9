import CnfAudit.Proofs.ClauseOrder

/-!
# The states of a stream
-/

namespace CnfAudit

theorem Phase.rank_le_done (a : Phase) : a.rank ≤ Phase.done.rank := by
  cases a <;> decide

theorem Phase.eq_done_of_rank_le {a : Phase} (h : Phase.done.rank ≤ a.rank) : a = .done := by
  cases a <;> simp [Phase.rank] at h ⊢

/-- What is wrong according to an answer. -/
def Answer.fault? : Answer → Option Fault
  | .pulled (.error fault) => some fault
  | .pulled (.ok _) => none
  | .drained _ fault => fault
  | .closed => none
  | .checked (.error fault) => some fault
  | .checked (.ok _) => none

/-- Every zero that is counted is that of a clause pulled or the one too many. -/
theorem zerosCounted_eq {σ : Type} (p : Pulled σ) :
    zerosCounted p.1 = ([p].filterMap delivered).length + if isSurplus p.1 then 1 else 0 := by
  rcases p with ⟨fault | _ | c, t⟩
  · exact (Nat.zero_add _).symm
  · rfl
  · rfl

namespace ClauseStream

/-- A pull has come to the end of the input: no line is left, and it gives the end or a fault that
blames no line. -/
def MeetsEnd (p : Pulled ClauseStream) : Prop :=
  p.2.input.lines = [] ∧
    (p.1 = .ok none ∨ ∃ d, p.1 = .error (.rejected d) ∧ d.place.line = none)

/-- What a pull does to the phase and to the count of a stream that is neither finished nor done. -/
structure Moves (s : ClauseStream) (p : Pulled ClauseStream) : Prop where
  rank : s.phase.rank ≤ p.2.phase.rank
  done_iff : p.2.phase = .done ↔ MeetsEnd p
  clausesRead : p.2.clausesRead = s.clausesRead + zerosCounted p.1
  allowed : ∀ c, p.1 = .ok (some c) → p.2.clausesRead ≤ s.header.numClauses

section Pull

variable {s : ClauseStream}

private theorem Stops.not_meetsEnd {front : List String} {p : Pulled ClauseStream}
    (h : Stops s front p) (input : LineSource) : ¬MeetsEnd (p.1, p.2.withInput input) := by
  rintro ⟨-, hresult⟩
  rcases h.result with ⟨c, hc, -⟩ | ⟨fault, hfault, -⟩
  · simp [hc] at hresult
  · rcases hresult with hnone | ⟨d, hd, hline⟩
    · simp [hfault] at hnone
    · rw [h.place d hd] at hline
      simp [here] at hline

private theorem Ends.phase_eq_done_iff {u : ClauseStream} {p : Pulled ClauseStream}
    (h : Ends u p) (hphase : u.phase ≠ .done) (hlines : u.input.lines = []) :
    p.2.phase = .done ↔ MeetsEnd p := by
  rcases h.result with ⟨refusal, hresult, hsame⟩ | ⟨hresult, hdone⟩
  · have hnot : ¬MeetsEnd p := by
      rintro ⟨-, hend⟩
      simp [hresult] at hend
    rw [hsame]
    exact ⟨fun hdone => absurd hdone hphase, fun hend => absurd hend hnot⟩
  · have hempty : p.2.input.lines = [] := by rw [h.input, hlines]
    exact ⟨fun _ => ⟨hempty, hresult⟩, fun _ => hdone⟩

theorem moves_next (hs : s.finished = false) (hphase : s.phase ≠ .done) : Moves s s.next := by
  rcases next_cases hs with ⟨front, rest, p, hlines, hstops, hnext⟩ | ⟨u, hu, hend⟩
  · rw [next_of_stops hlines hnext]
    have hforward := hstops.phase hphase
    have hnot := hstops.not_meetsEnd ⟨rest, s.input.ending⟩
    exact ⟨hforward.1, ⟨fun hdone => absurd hdone hforward.2, fun hend => absurd hend hnot⟩,
      hstops.clausesRead, hstops.allowed⟩
  · rw [hend]
    have hends := u.atEnd_ends
    have hforward := hu.phase hphase
    have hlines : u.input.lines = [] := by rw [hu.input]
    refine ⟨?_, hends.phase_eq_done_iff hforward.2 hlines, ?_, ?_⟩
    · apply Nat.le_trans hforward.1
      rcases hends.result with ⟨refusal, -, hsame⟩ | ⟨-, hdone⟩
      · exact Nat.le_of_eq (by rw [hsame])
      · rw [hdone]
        exact u.phase.rank_le_done
    · rw [hends.clausesRead, hu.clausesRead]
    · intro c hc
      have hresult := hends.result
      simp [hc] at hresult

theorem finished_eq_false_of_delivered (hs : s.finished = false)
    (hdelivered : delivered s.next ≠ none) : s.next.2.finished = false := by
  rcases next_cases hs with ⟨front, rest, p, hlines, hstops, hnext⟩ | ⟨u, hu, hend⟩
  · rw [next_of_stops hlines hnext] at hdelivered ⊢
    rcases hstops.result with ⟨c, -, hfinished⟩ | ⟨fault, hfault, -⟩
    · exact hfinished.trans hs
    · simp [delivered, hfault, Except.toOption] at hdelivered
  · rw [hend] at hdelivered
    rcases u.atEnd_ends.result with ⟨refusal, hresult, -⟩ | ⟨hresult | ⟨d, hresult, -⟩, -⟩ <;>
      simp [delivered, hresult, Except.toOption] at hdelivered

/-- A stream that is done is finished. -/
def Consistent (s : ClauseStream) : Prop := s.finished = false → s.phase ≠ .done

theorem Consistent.next (h : s.Consistent) : s.next.2.Consistent := by
  intro hopen
  cases hs : s.finished with
  | true => simp [next_finished hs, hs] at hopen
  | false =>
      intro hdone
      have hend := (moves_next hs (h hs)).done_iff.1 hdone
      have hnone : delivered s.next = none := by
        rcases hend.2 with hresult | ⟨d, hresult, -⟩ <;>
          simp [delivered, hresult, Except.toOption]
      simp [s.finished_of_next hnone] at hopen

theorem Consistent.rank_le_next (h : s.Consistent) : s.phase.rank ≤ s.next.2.phase.rank := by
  cases hs : s.finished with
  | true => exact Nat.le_of_eq (by rw [next_finished hs])
  | false => exact (moves_next hs (h hs)).rank

end Pull

private theorem fault_of_finished {s : ClauseStream} (hs : s.finished = true) {command : Command}
    {fault : Fault} (h : (s.obey command).1.fault? = some fault) :
    ∃ a strictUnassigned, command = .check a strictUnassigned ∧
      fault = .rejected ⟨.assignsBeyond a.maxVar s.header.numVars, {}⟩ := by
  have hpull : ClauseSource.pull s = (.ok none, s) := next_finished hs
  cases command with
  | next => simp [obey, Command.perform, hpull, Answer.fault?] at h
  | rest => simp [obey, Command.perform, drain_of_end hpull, Answer.fault?] at h
  | close => simp [obey, Command.perform, Answer.fault?] at h
  | check a strictUnassigned =>
      refine ⟨a, strictUnassigned, rfl, ?_⟩
      let settings := s.header.checkSettings strictUnassigned
      rcases Int.lt_or_le settings.numVars a.maxVar with hbeyond | hwithin
      · rw [obey, Command.perform, checkClauses_beyond a s hbeyond] at h
        rw [← s.header.mentioning_numVars]
        exact (Option.some.inj h).symm
      · rw [obey, Command.perform, checkClauses_within a s hwithin,
          searchFrom_of_end a 0 hpull] at h
        simp [Except.map, Answer.fault?] at h

private theorem series_phase_eq_done_iff {s t : ClauseStream} {ps : List (Pulled ClauseStream)}
    (hs : s.finished = false) (hphase : s.phase ≠ .done) (h : Series s ps t) :
    t.phase = .done ↔
      ∃ p, ps.find? (fun p => (delivered p).isNone) = some p ∧ MeetsEnd p := by
  induction ps generalizing s with
  | nil =>
      obtain rfl : s = t := h
      simp [hphase]
  | cons p ps ih =>
      obtain ⟨hpull, hrest⟩ := h
      obtain rfl : s.next = p := hpull
      cases hdelivered : delivered s.next with
      | none =>
          have hfinished := s.finished_of_next hdelivered
          obtain ⟨rfl, -⟩ := series_finished hfinished hrest
          rw [List.find?_cons_of_pos (by simp [hdelivered])]
          simp [(moves_next hs hphase).done_iff]
      | some c =>
          have hconsistent : s.Consistent := fun _ => hphase
          have hopen := finished_eq_false_of_delivered hs (by simp [hdelivered])
          rw [List.find?_cons_of_neg (by simp [hdelivered])]
          exact ih hopen (hconsistent.next hopen) hrest

end ClauseStream

namespace Recorded

/-- The first pull that has given no clause. -/
def stop? (r : Recorded ClauseStream) : Option (Pulled ClauseStream) :=
  r.pulls.find? fun p => (delivered p).isNone

/-- Whether a pull has found a clause too many. -/
def surplusMet (r : Recorded ClauseStream) : Bool := r.pulls.any fun p => isSurplus p.1

/-- What a command does to a stream that gives nothing any more. It pulls no clause and takes no
line, it finds nothing wrong with the text, and it does not count. Only closing changes the
phase. -/
structure Idle (r : Recorded ClauseStream) (command : Command) : Prop where
  clauses : (r.obey command).2.clauses = r.clauses
  lineNumber : (r.obey command).2.source.lineNumber = r.source.lineNumber
  input : (r.obey command).2.source.input = r.source.input
  clausesRead : (r.obey command).2.source.clausesRead = r.source.clausesRead
  phase : command ≠ .close → (r.obey command).2.source.phase = r.source.phase
  fault : ∀ fault, (r.obey command).1.fault? = some fault →
    ∃ a strictUnassigned, command = .check a strictUnassigned ∧
      fault = .rejected ⟨.assignsBeyond a.maxVar r.source.header.numVars, {}⟩

section Finished

variable {r : Recorded ClauseStream}

theorem idle_of_finished (h : r.source.finished = true) (command : Command) :
    r.Idle command := by
  obtain ⟨-, hclauses, hkept⟩ := obey_finished h command
  have hfault : ∀ fault, (r.obey command).1.fault? = some fault →
      ∃ a strictUnassigned, command = .check a strictUnassigned ∧
        fault = .rejected ⟨.assignsBeyond a.maxVar r.source.header.numVars, {}⟩ := by
    intro fault hf
    rw [(r.obey_source command).1] at hf
    exact ClauseStream.fault_of_finished h hf
  by_cases hclose : command = .close
  · subst hclose
    exact ⟨hclauses, rfl, rfl, rfl, fun hne => absurd rfl hne, hfault⟩
  · have hsame := hkept hclose
    exact ⟨hclauses, by rw [hsame], by rw [hsame], by rw [hsame], fun _ => by rw [hsame], hfault⟩

theorem obeyAll_finished (h : r.source.finished = true) (commands : List Command) :
    (r.obeyAll commands).source.finished = true := by
  induction commands generalizing r with
  | nil => exact h
  | cons command commands ih => exact ih (obey_finished h command).1

end Finished

/-- The phase of a consistent stream only moves forward. -/
theorem rank_le_obeyAll {r : Recorded ClauseStream} (h : r.source.Consistent)
    (commands : List Command) :
    (r.obeyAll commands).source.Consistent ∧
      r.source.phase.rank ≤ (r.obeyAll commands).source.phase.rank := by
  let Forward (u : Recorded ClauseStream) : Prop :=
    u.source.Consistent ∧ r.source.phase.rank ≤ u.source.phase.rank
  have hpull : ∀ u, Forward u → Forward (ClauseSource.pull u).2 := fun u hu =>
    ⟨hu.1.next, Nat.le_trans hu.2 hu.1.rank_le_next⟩
  have hclose : ∀ u, Forward u → Forward u.close := fun u _ =>
    ⟨fun hopen => by simp [close, ClauseStream.close] at hopen, r.source.phase.rank_le_done⟩
  exact obeyAll_preserves hpull hclose (show Forward r from ⟨h, Nat.le_refl _⟩) commands

/-- The invariant of a record: the stream has counted the clauses that were pulled, and the one too
many if there was one. -/
structure Counted (numClauses : Nat) (r : Recorded ClauseStream) : Prop where
  header : r.source.header.numClauses = numClauses
  consistent : r.source.Consistent
  ongoing : r.source.finished = false → ∀ p ∈ r.pulls, delivered p ≠ none
  clausesRead : r.source.clausesRead = r.clauses.length + if r.surplusMet then 1 else 0
  pulled : r.clauses.length ≤ numClauses

namespace Counted

variable {numClauses : Nat} {r : Recorded ClauseStream}

theorem close (h : r.Counted numClauses) : r.close.Counted numClauses where
  header := h.header
  consistent hopen := by simp [Recorded.close, ClauseStream.close] at hopen
  ongoing hopen := by simp [Recorded.close, ClauseStream.close] at hopen
  clausesRead := h.clausesRead
  pulled := h.pulled

private theorem surplusMet_eq_false (h : r.Counted numClauses)
    (hopen : r.source.finished = false) : r.surplusMet = false := by
  rw [surplusMet, List.any_eq_false]
  intro p hp hsurplus
  apply h.ongoing hopen p hp
  rcases p with ⟨fault | result, t⟩
  · rfl
  · simp [isSurplus] at hsurplus

private theorem pull_finished (h : r.Counted numClauses) (hs : r.source.finished = true) :
    (ClauseSource.pull r).2.Counted numClauses := by
  rw [pull_of_source (ClauseStream.next_finished hs)]
  have hclauses : Recorded.clauses ⟨r.source, r.pulls ++ [(.ok none, r.source)]⟩ = r.clauses := by
    simp [Recorded.clauses, delivered, Except.toOption]
  have hsurplus : surplusMet ⟨r.source, r.pulls ++ [(.ok none, r.source)]⟩ = r.surplusMet := by
    simp [surplusMet, isSurplus]
  refine ⟨h.header, h.consistent, ?_, ?_, ?_⟩
  · intro hopen
    simp [hs] at hopen
  · rw [hclauses, hsurplus]
    exact h.clausesRead
  · rw [hclauses]
    exact h.pulled

theorem pull (h : r.Counted numClauses) : (ClauseSource.pull r).2.Counted numClauses := by
  cases hs : r.source.finished with
  | true => exact h.pull_finished hs
  | false =>
      have hmoves := ClauseStream.moves_next hs (h.consistent hs)
      have hmet := h.surplusMet_eq_false hs
      have hclauses : (ClauseSource.pull r).2.clauses =
          r.clauses ++ [r.source.next].filterMap delivered := List.filterMap_append ..
      have hsurplus : (ClauseSource.pull r).2.surplusMet = isSurplus r.source.next.1 := by
        show (r.pulls ++ [r.source.next]).any _ = _
        rw [List.any_append, show r.pulls.any _ = false from hmet]
        simp
      have hcount : r.source.clausesRead = r.clauses.length := by
        rw [h.clausesRead, hmet]
        simp
      have hread : r.source.next.2.clausesRead =
          (ClauseSource.pull r).2.clauses.length +
            if (ClauseSource.pull r).2.surplusMet then 1 else 0 := by
        rw [hmoves.clausesRead, hcount, zerosCounted_eq, hclauses, hsurplus, List.length_append,
          Nat.add_assoc]
      refine ⟨r.source.header_next.symm ▸ h.header, h.consistent.next, ?_, hread, ?_⟩
      · intro (hopen : r.source.next.2.finished = false) p hp hnone
        rcases List.mem_append.1 hp with hp | hp
        · exact h.ongoing hs p hp hnone
        · rw [List.mem_singleton.1 hp] at hnone
          simp [r.source.finished_of_next hnone] at hopen
      · cases hdelivered : delivered r.source.next with
        | none =>
            rw [hclauses, List.filterMap_cons_none hdelivered, List.filterMap_nil,
              List.append_nil]
            exact h.pulled
        | some c =>
            have hle := hmoves.allowed c (delivered_eq_some_iff.1 hdelivered)
            rw [hread, h.header] at hle
            exact Nat.le_trans (Nat.le_add_right ..) hle

end Counted

end Recorded

namespace ClauseStream

theorem state_of_start {source : Option String} {input : LineSource} {s : ClauseStream}
    (h : (start source input).1 = .ok s) :
    s.phase = .header ∧ s.clausesRead = 0 ∧ s.finished = false := by
  rw [start] at h
  split at h
  · simp at h
  · rw [← Except.ok.inj h]
    exact ⟨rfl, rfl, rfl⟩

section Run

variable {source : Option String} {input : LineSource} {s : ClauseStream}

theorem counted_obeyAll (h : (start source input).1 = .ok s) (commands : List Command) :
    (s.recorded.obeyAll commands).Counted s.header.numClauses := by
  obtain ⟨hphase, hcount, hopen⟩ := state_of_start h
  apply Recorded.obeyAll_preserves
  · exact fun _ => .pull
  · exact fun _ => .close
  · exact ⟨rfl, fun _ => by simp [recorded, hphase], by simp [recorded], hcount, Nat.zero_le _⟩

private theorem phase_of_close {r : Recorded ClauseStream} (h : r.source.Consistent)
    {commands : List Command} (hclose : .close ∈ commands) :
    (r.obeyAll commands).source.phase = .done := by
  obtain ⟨before, after, rfl⟩ := List.append_of_mem hclose
  have hclosed : (r.obeyAll (before ++ [.close])).source.Consistent :=
    (Recorded.rank_le_obeyAll h _).1
  have hrank := (Recorded.rank_le_obeyAll hclosed after).2
  apply Phase.eq_done_of_rank_le
  rw [Recorded.obeyAll_concat] at hrank
  rw [Recorded.obeyAll, List.foldl_append]
  exact hrank

/-- A stream is done if it has been closed or if the first pull without a clause has met the end of
the input, and in no other case. -/
theorem phase_obeyAll_eq_done_iff (h : (start source input).1 = .ok s)
    (commands : List Command) :
    (s.recorded.obeyAll commands).source.phase = .done ↔
      .close ∈ commands ∨
        ∃ p, (s.recorded.obeyAll commands).stop? = some p ∧ MeetsEnd p := by
  obtain ⟨hphase, -, hopen⟩ := state_of_start h
  have hbegin : s.phase ≠ .done := by simp [hphase]
  rcases s.recorded.obeyAll_cases commands with
    ⟨hnot, -, ps, hpulls, hseries⟩ | ⟨hclose, -⟩
  · obtain rfl : (s.recorded.obeyAll commands).pulls = ps := hpulls
    rw [series_phase_eq_done_iff hopen hbegin hseries]
    exact ⟨.inr, fun hdone => hdone.resolve_left hnot⟩
  · have hdone := phase_of_close (r := s.recorded) (fun _ => hbegin) hclose
    exact ⟨fun _ => .inl hclose, fun _ => hdone⟩

theorem finished_obeyAll (h : (start source input).1 = .ok s) {commands : List Command}
    (hstop : .close ∈ commands ∨
      ∃ p ∈ (s.recorded.obeyAll commands).pulls, delivered p = none) :
    (s.recorded.obeyAll commands).source.finished = true := by
  rcases hstop with hclose | ⟨p, hp, hnone⟩
  · rcases s.recorded.obeyAll_cases commands with ⟨hnot, -⟩ | ⟨-, hfinished, -⟩
    · exact absurd hclose hnot
    · exact hfinished
  · rw [← Bool.not_eq_false]
    intro hopen
    exact (counted_obeyAll h commands).ongoing hopen p hp hnone

end Run

end ClauseStream

/-- A stream goes through its phases in order, and it comes to the last one only by being closed or
at the end of the input. It counts the clauses that are pulled, with one more if a clause too many
has been met, and it hands out no more clauses than the header declares. Once a pull has given no
clause, or the stream has been closed, every command leaves it as it is, except that closing it sets
the phase. -/
theorem stream_states {source : Option String} {input : LineSource} {s : ClauseStream}
    (hstart : (ClauseStream.start source input).1 = .ok s) (commands : List Command) :
    let r := s.recorded.obeyAll commands
    r.source = s.obeyAll commands ∧
    s.phase = .header ∧
    (∀ more, r.source.phase.rank ≤ (r.obeyAll more).source.phase.rank) ∧
    (r.source.phase = .done ↔
      .close ∈ commands ∨ ∃ p, r.stop? = some p ∧ ClauseStream.MeetsEnd p) ∧
    (r.source.clausesRead = r.clauses.length + if r.surplusMet then 1 else 0) ∧
    r.source.clausesRead ≤ s.header.numClauses + 1 ∧
    r.clauses.length ≤ s.header.numClauses ∧
    ((.close ∈ commands ∨ ∃ p ∈ r.pulls, delivered p = none) →
      ∀ more command, (r.obeyAll more).Idle command) := by
  intro r
  have hcounted : r.Counted s.header.numClauses := ClauseStream.counted_obeyAll hstart commands
  refine ⟨Recorded.obeyAll_source _ _, (ClauseStream.state_of_start hstart).1, ?_,
    ClauseStream.phase_obeyAll_eq_done_iff hstart commands, hcounted.clausesRead, ?_,
    hcounted.pulled, ?_⟩
  · intro more
    exact (Recorded.rank_le_obeyAll hcounted.consistent more).2
  · have hread := hcounted.clausesRead
    have hpulled := hcounted.pulled
    split at hread <;> omega
  · intro hstop more command
    have hfinished := ClauseStream.finished_obeyAll hstart hstop
    exact Recorded.idle_of_finished (Recorded.obeyAll_finished hfinished more) command

/-- The second zero is one too many: it is counted, its clause is not handed out, and nothing more
is. -/
theorem stream_states_at_surplus :
    ∃ s, (ClauseStream.start none ⟨["p cnf 2 1", "1 0 -2", "0 2 0"], .complete⟩).1 = .ok s ∧
      let r := s.recorded.obeyAll [.next, .next]
      r.source.clausesRead = r.clauses.length + 1 ∧ r.clauses.length ≤ 1 ∧
        ∀ more command, (r.obeyAll more).Idle command := by
  have hopen : ∃ s : ClauseStream,
      (ClauseStream.start none ⟨["p cnf 2 1", "1 0 -2", "0 2 0"], .complete⟩).1 = .ok s ∧
        s.header.numClauses = 1 ∧ (s.recorded.obeyAll [.next, .next]).surplusMet = true ∧
        ∃ p ∈ (s.recorded.obeyAll [.next, .next]).pulls, (delivered p).isNone = true :=
    ⟨_, rfl, by decide +kernel, by decide +kernel, by decide +kernel⟩
  obtain ⟨s, hstart, hheader, hmet, p, hp, hnone⟩ := hopen
  obtain ⟨-, -, -, -, hread, -, hpulled, hidle⟩ := stream_states hstart [.next, .next]
  rw [hmet] at hread
  rw [hheader] at hpulled
  exact ⟨s, hstart, hread, hpulled, hidle (.inr ⟨p, hp, Option.isNone_iff_eq_none.1 hnone⟩)⟩

end CnfAudit
