import CnfAudit.Proofs.ClauseLines
import CnfAudit.Proofs.FaultLines

/-!
# Reading ahead

Two runs are compared pull by pull. Whether the end of the input has been asked for is tested with
an input that fails at its end.
-/

namespace CnfAudit

/-- What a consumer sees when a command has been carried out. -/
structure Sight where
  answer : Answer
  phase : Phase
  clausesRead : Nat
  linesTaken : Nat

namespace ClauseStream

/-- What a stream shows beside the answer that it has given. -/
def sight (s : ClauseStream) (answer : Answer) : Sight :=
  ⟨answer, s.phase, s.clausesRead, s.lineNumber⟩

/-- What the commands show one after the other. -/
def sights (s : ClauseStream) : List Command → List Sight
  | [] => []
  | command :: commands =>
      (s.obey command).2.sight (s.obey command).1 :: (s.obey command).2.sights commands

end ClauseStream

/-- All that a consumer sees of a stream: the header or what is wrong with it, what each command
shows, and the number of lines taken in the end. -/
structure Session where
  opened : Except Fault Header
  sights : List Sight
  linesTaken : Nat

/-- Opens a stream and carries out the commands on it. -/
def session (source : Option String) (input : LineSource) (commands : List Command) : Session :=
  match ClauseStream.start source input with
  | (.error fault, taken) => ⟨.error fault, [], taken⟩
  | (.ok s, _) => ⟨.ok s.header, s.sights commands, (s.obeyAll commands).lineNumber⟩

/-- What an input says that fails as soon as its end is asked for. -/
def failingEnd : Text.Utf8.Refusal := ⟨[0xff], 0, .start⟩

/-- Opening a stream on the lines and carrying out the commands asks for what is behind the last
line. An input that fails there shows it. -/
def AsksForEnd (source : Option String) (lines : List String) (commands : List Command) : Prop :=
  match (ClauseStream.start source ⟨lines, .undecodable failingEnd⟩).1 with
  | .error fault => fault = .undecodable failingEnd
  | .ok s => ∃ p ∈ (s.recorded.obeyAll commands).pulls, p.1 = .error (.undecodable failingEnd)

namespace Recorded

/-- No line behind the first `k` has been taken, and no pull has met the failing end. -/
def StaysWithin (k : Nat) (r : Recorded ClauseStream) : Prop :=
  r.source.lineNumber ≤ k ∧ ∀ p ∈ r.pulls, p.1 ≠ .error (.undecodable failingEnd)

/-- The recorded stream has a failing end. The other one differs from it only in what stands behind
the first `k` lines. -/
def AgreesUpTo (k : Nat) (rest rest' : List String) (ending : Ending) (r : Recorded ClauseStream)
    (t : ClauseStream) : Prop :=
  ∃ front, r.source.input = ⟨front ++ rest, .undecodable failingEnd⟩ ∧
    r.source.lineNumber + front.length = k ∧ t = r.source.withInput ⟨front ++ rest', ending⟩

private theorem staysWithin_of_obeyAll {k : Nat} {r : Recorded ClauseStream}
    {commands : List Command} (h : (r.obeyAll commands).StaysWithin k) : r.StaysWithin k := by
  let Extends (u : Recorded ClauseStream) : Prop :=
    r.source.lineNumber ≤ u.source.lineNumber ∧ ∀ p ∈ r.pulls, p ∈ u.pulls
  have hextends : Extends (r.obeyAll commands) := by
    apply obeyAll_preserves
    · intro u hu
      exact ⟨Nat.le_trans hu.1 u.source.lineNumber_le_next,
        fun p hp => List.mem_append_left _ (hu.2 p hp)⟩
    · exact fun _ hu => hu
    · exact ⟨Nat.le_refl _, fun _ hp => hp⟩
  exact ⟨Nat.le_trans hextends.1 h.1, fun p hp => h.2 p (hextends.2 p hp)⟩

section Agreement

variable {k : Nat} {rest rest' : List String} {ending : Ending} {r : Recorded ClauseStream}
  {t : ClauseStream}

private theorem AgreesUpTo.pull (h : AgreesUpTo k rest rest' ending r t)
    (hwithin : (ClauseSource.pull r).2.StaysWithin k) :
    (ClauseSource.pull r).1 = t.next.1 ∧
      AgreesUpTo k rest rest' ending (ClauseSource.pull r).2 t.next.2 := by
  obtain ⟨front, hinput, hcount, rfl⟩ := h
  cases hs : r.source.finished with
  | true =>
      have hfinished : (r.source.withInput ⟨front ++ rest', ending⟩).finished = true := hs
      rw [pull_of_source (ClauseStream.next_finished hs), ClauseStream.next_finished hfinished]
      exact ⟨rfl, front, hinput, hcount, rfl⟩
  | false =>
      have hlines : r.source.input.lines = front ++ rest := by rw [hinput]
      have hending : r.source.input.ending = .undecodable failingEnd := by rw [hinput]
      rcases ClauseStream.next_cases hs with
        ⟨first, behind, p, hsplit, hstops, hnext⟩ | ⟨u, hu, hend⟩
      · have hpull := pull_of_source (r := r) (ClauseStream.next_of_stops hsplit hnext)
        rw [hpull] at hwithin ⊢
        have hline : p.2.lineNumber ≤ k := hwithin.1
        rw [hstops.lineNumber] at hline
        obtain ⟨more, rfl, rfl⟩ :=
          exists_append_of_length_le (hsplit.symm.trans hlines) (by omega)
        rw [List.append_assoc, hnext]
        refine ⟨rfl, more, by rw [hending]; rfl, ?_, rfl⟩
        have hlength := hstops.lineNumber
        rw [List.length_append] at hcount
        show p.2.lineNumber + more.length = k
        omega
      · -- the end fails, and the record shows it
        have hfail : r.source.next = u.fail (.undecodable failingEnd) := by
          rw [hend, ClauseStream.atEnd, hu.input, hending]
        rw [pull_of_source hfail] at hwithin
        exact absurd rfl (hwithin.2 _ (List.mem_append_right _ List.mem_cons_self))

private theorem simulates_agreesUpTo :
    Simulates (AgreesUpTo k rest rest' ending) (StaysWithin k) where
  back r h := ⟨Nat.le_trans r.source.lineNumber_le_next h.1,
    fun p hp => h.2 p (List.mem_append_left _ hp)⟩
  answer h hwithin := (h.pull hwithin).1
  step h hwithin := (h.pull hwithin).2

private theorem AgreesUpTo.close (h : AgreesUpTo k rest rest' ending r t) :
    AgreesUpTo k rest rest' ending r.close t.close := by
  obtain ⟨front, hinput, hcount, rfl⟩ := h
  exact ⟨front, hinput, hcount, rfl⟩

private theorem AgreesUpTo.obey (h : AgreesUpTo k rest rest' ending r t) {command : Command}
    (hwithin : (r.obey command).2.StaysWithin k) :
    (r.obey command).1 = (t.obey command).1 ∧
      AgreesUpTo k rest rest' ending (r.obey command).2 (t.obey command).2 := by
  have hheader : t.header = r.source.header := by
    obtain ⟨front, -, -, rfl⟩ := h
    rfl
  rw [ClauseStream.obey, hheader]
  exact simulates_agreesUpTo.performed h (fun _ => h.close) hwithin

private theorem AgreesUpTo.obeyAll (h : AgreesUpTo k rest rest' ending r t)
    {commands : List Command} (hwithin : (r.obeyAll commands).StaysWithin k) :
    r.source.sights commands = t.sights commands ∧
      AgreesUpTo k rest rest' ending (r.obeyAll commands) (t.obeyAll commands) := by
  induction commands generalizing r t with
  | nil => exact ⟨rfl, h⟩
  | cons command commands ih =>
      have hfirst : (r.obey command).2.StaysWithin k := staysWithin_of_obeyAll hwithin
      obtain ⟨hanswer, hagrees⟩ := h.obey hfirst
      obtain ⟨hsights, hrest⟩ := ih hagrees hwithin
      obtain ⟨hsame, hsource⟩ := r.obey_source command
      have hsight : (t.obey command).2.sight (t.obey command).1 =
          (r.source.obey command).2.sight (r.source.obey command).1 := by
        obtain ⟨front, -, -, hstream⟩ := hagrees
        rw [hstream, ← hanswer, ← hsource, ← hsame]
        rfl
      refine ⟨?_, hrest⟩
      rw [ClauseStream.sights, ClauseStream.sights, ← hsights, hsource, hsight]

end Agreement

end Recorded

section Session

variable {source : Option String} {commands : List Command}

private theorem session_of_start {input : LineSource} {s : ClauseStream}
    (h : (ClauseStream.start source input).1 = .ok s) :
    session source input commands =
      ⟨.ok s.header, s.sights commands, (s.obeyAll commands).lineNumber⟩ := by
  rw [session]
  rcases hstart : ClauseStream.start source input with ⟨_ | t, taken⟩
  · simp [hstart] at h
  · obtain rfl : t = s := by simpa [hstart] using h
    rfl

private theorem session_eq_of_failing {front rest : List String}
    (htaken : (session source ⟨front ++ rest, .undecodable failingEnd⟩ commands).linesTaken ≤
      front.length)
    (hend : ¬AsksForEnd source (front ++ rest) commands) (rest' : List String) (ending : Ending) :
    session source ⟨front ++ rest', ending⟩ commands =
      session source ⟨front ++ rest, .undecodable failingEnd⟩ commands := by
  rcases ClauseStream.start_cases source (front ++ rest) with
    ⟨first, behind, result, hsplit, -, hstart⟩ | hstart
  · rw [AsksForEnd, hsplit, hstart] at hend
    rw [session, hsplit, hstart] at htaken
    cases result with
    | error fault =>
        have hle : first.length ≤ front.length := htaken
        obtain ⟨more, rfl, -⟩ := exists_append_of_length_le hsplit.symm hle
        rw [session, session, hsplit, List.append_assoc, hstart, hstart]
        rfl
    | ok header =>
        let s : ClauseStream :=
          { source, header, lineNumber := first.length, input := ⟨behind, .undecodable failingEnd⟩ }
        have hwithin : (s.recorded.obeyAll commands).StaysWithin front.length := by
          refine ⟨?_, ?_⟩
          · rw [Recorded.obeyAll_source]
            exact htaken
          · intro p hp hfail
            exact hend ⟨p, hp, hfail⟩
        have hle : first.length ≤ front.length := (Recorded.staysWithin_of_obeyAll hwithin).1
        obtain ⟨more, rfl, rfl⟩ := exists_append_of_length_le hsplit.symm hle
        have hagrees : Recorded.AgreesUpTo (first ++ more).length rest rest' ending s.recorded
            (s.withInput ⟨more ++ rest', ending⟩) :=
          ⟨more, rfl, (List.length_append ..).symm, rfl⟩
        obtain ⟨hsights, last, -, -, hlast⟩ := hagrees.obeyAll hwithin
        rw [Recorded.obeyAll_source] at hlast
        have hopen rest ending :
            (ClauseStream.start source ⟨first ++ more ++ rest, ending⟩).1 =
              .ok (s.withInput ⟨more ++ rest, ending⟩) := by
          rw [List.append_assoc, hstart]
          rfl
        rw [session_of_start (hopen rest' ending),
          session_of_start (hopen rest (.undecodable failingEnd)), ← hsights, hlast]
        rfl
  · rw [AsksForEnd, hstart] at hend
    exact absurd rfl hend

private theorem linesTaken_le (lines : List String) (ending : Ending) :
    (session source ⟨lines, ending⟩ commands).linesTaken ≤ lines.length := by
  cases hopen : (ClauseStream.start source ⟨lines, ending⟩).1 with
  | ok s =>
      have htaken := (ClauseStream.onZeroLines_obeyAll hopen commands).taken.1
      rw [Recorded.obeyAll_source] at htaken
      rw [session_of_start hopen]
      exact htaken
  | error fault =>
      rcases ClauseStream.start_cases source lines with
        ⟨first, behind, result, rfl, -, hstart⟩ | hstart
      · cases result with
        | error fault =>
            rw [session, hstart, List.length_append]
            exact Nat.le_add_right ..
        | ok header => simp [hstart, Except.map] at hopen
      · simp [session, hstart]

private theorem session_eq_of_linesTaken {front rest : List String} {ending : Ending}
    (htaken : (session source ⟨front ++ rest, ending⟩ commands).linesTaken = front.length)
    (hend : ¬AsksForEnd source (front ++ rest) commands) (rest' : List String)
    (ending' : Ending) :
    session source ⟨front ++ rest', ending'⟩ commands =
      session source ⟨front ++ rest, ending⟩ commands := by
  -- first only the end is replaced, by one that fails
  have hfailing : session source ⟨front ++ rest, ending⟩ commands =
      session source ⟨front ++ rest, .undecodable failingEnd⟩ commands := by
    have hall :
        (session source ⟨front ++ rest ++ [], .undecodable failingEnd⟩ commands).linesTaken ≤
          (front ++ rest).length := by
      rw [List.append_nil]
      exact linesTaken_le ..
    have hsame := session_eq_of_failing hall (by rwa [List.append_nil]) [] ending
    rwa [List.append_nil] at hsame
  rw [hfailing] at htaken ⊢
  exact session_eq_of_failing (Nat.le_of_eq htaken) hend rest' ending'

end Session

/-- Nothing is read ahead. When a clause is pulled, the line of its zero is the last one taken. If a
session has taken some lines and has not asked for the end, it sees the same on every input that
begins with these lines. A fault that a formula or a certificate has at a line is the same whatever
stands behind that line. -/
theorem nothing_read_ahead (source : Option String) (lines : List String) (ending : Ending)
    (commands : List Command) :
    (∀ s, (ClauseStream.start source ⟨lines, ending⟩).1 = .ok s →
      ∀ (m : Nat) (p : Pulled ClauseStream),
        (s.recorded.obeyAll commands).clausePulls[m]? = some p →
          (zeroLines lines)[m]? = some p.2.lineNumber ∧
            p.2.input.lines = lines.drop p.2.lineNumber) ∧
    (∀ front rest, lines = front ++ rest →
      (session source ⟨lines, ending⟩ commands).linesTaken = front.length →
      ¬AsksForEnd source lines commands →
        ∀ rest' ending', session source ⟨front ++ rest', ending'⟩ commands =
          session source ⟨lines, ending⟩ commands) ∧
    (∀ front rest d, lines = front ++ rest → d.place.line = some (front.length : Int) →
      Formula.read source ⟨lines, ending⟩ = .error (.rejected d) →
        ∀ rest' ending', Formula.read source ⟨front ++ rest', ending'⟩ = .error (.rejected d)) ∧
    (∀ numVars front rest d, lines = front ++ rest → d.place.line = some (front.length : Int) →
      Certificate.read source numVars ⟨lines, ending⟩ = .error (.rejected d) →
        ∀ rest' ending',
          Certificate.read source numVars ⟨front ++ rest', ending'⟩ = .error (.rejected d)) := by
  refine ⟨?_, ?_, ?_, ?_⟩
  · intro s hstart m p hp
    obtain ⟨hline, htaken⟩ := (ClauseStream.onZeroLines_obeyAll hstart commands).pulled m p hp
    exact ⟨hline, htaken.2⟩
  · rintro front rest rfl htaken hend rest' ending'
    exact session_eq_of_linesTaken htaken hend rest' ending'
  · rintro front rest d rfl hd h rest' ending'
    exact Formula.read_fault_within h hd rest' ending'
  · rintro numVars front rest d rfl hd h rest' ending'
    exact Certificate.read_fault_within h hd rest' ending'

/-- The first clause ends on the second line, so that nothing behind that line shows yet. -/
theorem session_within_second_line :
    session none ⟨["p cnf 2 2", "1 0 -2", "x"], .undecodable failingEnd⟩ [.next] =
      session none ⟨["p cnf 2 2", "1 0 -2", "0 2 0"], .complete⟩ [.next] := by
  have hend : ¬AsksForEnd none ["p cnf 2 2", "1 0 -2", "0 2 0"] [.next] := by
    rintro ⟨p, hp, hfail⟩
    obtain rfl := List.mem_singleton.1 hp
    have hresult := congrArg (fun result => result.toOption.isSome) hfail
    revert hresult
    decide +kernel
  have htaken : (session none ⟨["p cnf 2 2", "1 0 -2", "0 2 0"], .complete⟩ [.next]).linesTaken =
      2 := by decide +kernel
  exact (nothing_read_ahead none ["p cnf 2 2", "1 0 -2", "0 2 0"] .complete [.next]).2.1
    ["p cnf 2 2", "1 0 -2"] ["0 2 0"] rfl htaken hend ["x"] (.undecodable failingEnd)

end CnfAudit
