import CnfAudit.Proofs.BodyText
import CnfAudit.Proofs.Pulls
import CnfAudit.Proofs.Recording
import Mathlib.Data.List.Induction

/-!
# The order of the clauses

All commands but closing are series of pulls, and a series of pulls takes a part off the front of
what draining would give.
-/

namespace CnfAudit

section Search

variable {σ : Type} [ClauseSource σ]

theorem delivered_pull (s : σ) : delivered (ClauseSource.pull s) = (drain s).clauses.head? := by
  rcases h : ClauseSource.pull s with ⟨_ | _ | c, t⟩
  · rw [drain_of_fault h]
    rfl
  · rw [drain_of_end h]
    rfl
  · rw [drain_of_clause h]
    rfl

private theorem pulls_of_pull {r u : Recorded σ} {result : Except Fault (Option Clause)}
    (h : ClauseSource.pull r = (result, u)) : u.pulls = r.pulls ++ [(result, u.source)] := by
  obtain ⟨rfl, rfl⟩ := Prod.mk.inj h
  rfl

private theorem pulls_of_searchFrom {a : Assignment} {r u : Recorded σ} {n checked : Nat}
    {unsat : Option Clause} (h : searchFrom ⟨a, false⟩ n r = (.ok (checked, unsat), u)) :
    ∃ ps, u.pulls = r.pulls ++ ps ∧ checked = n + (ps.filterMap delivered).length ∧
      ∀ c ∈ unsat, ∃ qs t, ps = qs ++ [(.ok (some c), t)] := by
  induction r using ClauseSource.induction generalizing n with
  | failed r fault t hpull => simp [searchFrom_of_fault a n hpull] at h
  | ended r t hpull =>
      rw [searchFrom_of_end a n hpull] at h
      obtain ⟨hfound, rfl⟩ := Prod.mk.inj h
      obtain ⟨rfl, rfl⟩ := Prod.mk.inj (Except.ok.inj hfound)
      exact ⟨_, pulls_of_pull hpull, rfl, by simp⟩
  | pulled r c t hpull ih =>
      rw [searchFrom_of_clause a n hpull] at h
      have hpulls := pulls_of_pull hpull
      split at h
      · obtain ⟨ps, hps, rfl, hlast⟩ := ih h
        refine ⟨(.ok (some c), t.source) :: ps, ?_, ?_, ?_⟩
        · rw [hps, hpulls, List.append_assoc]
          rfl
        · simp only [List.filterMap_cons, delivered, Except.toOption, Option.join_some,
            List.length_cons]
          omega
        · intro d hd
          obtain ⟨qs, u, rfl⟩ := hlast d hd
          exact ⟨_ :: qs, u, rfl⟩
      · obtain ⟨hfound, rfl⟩ := Prod.mk.inj h
        obtain ⟨rfl, rfl⟩ := Prod.mk.inj (Except.ok.inj hfound)
        refine ⟨_, hpulls, rfl, ?_⟩
        rintro d hd
        obtain rfl : c = d := by simpa using hd
        exact ⟨[], t.source, rfl⟩

/-- A check that returns a verdict pulls as many clauses as the verdict says. If it names a clause,
that one was pulled last. -/
theorem pulls_of_checkClauses {a : Assignment} {settings : CheckSettings}
    {r u : Recorded σ} {v : Verdict} (h : checkClauses r a settings = (.ok v, u)) :
    ∃ ps, u.pulls = r.pulls ++ ps ∧ v.clausesChecked = (ps.filterMap delivered).length ∧
      (v.firstUnsatIndex ≠ none → ∃ c qs t, v.firstUnsatClause = some c ∧
        ps = qs ++ [(.ok (some c), t)]) := by
  rcases Int.lt_or_le settings.numVars a.maxVar with hbeyond | hwithin
  · simp [checkClauses_beyond a r hbeyond] at h
  · rw [checkClauses_within a r hwithin] at h
    obtain ⟨hresult, hsource⟩ := Prod.mk.inj h
    cases hfound : (searchFrom ⟨a, false⟩ 0 r).1 with
    | error fault => simp [hfound, Except.map] at hresult
    | ok found =>
        obtain ⟨ps, hps, hchecked, hlast⟩ := pulls_of_searchFrom (Prod.ext hfound hsource)
        rw [hfound] at hresult
        obtain rfl := Except.ok.inj hresult
        refine ⟨ps, hps, by rw [← Nat.zero_add (List.length _), ← hchecked]; rfl, ?_⟩
        intro hunsat
        cases hclause : found.2 with
        | none => simp [Verdict.ofSearch, hclause] at hunsat
        | some c =>
            obtain ⟨qs, t, hqs⟩ := hlast c hclause
            exact ⟨c, qs, t, hclause, hqs⟩

end Search

namespace ClauseStream

variable {s t : ClauseStream} {ps : List (Pulled ClauseStream)}

theorem series_finished (hs : s.finished = true) (h : Series s ps t) :
    t = s ∧ ∀ p ∈ ps, p = (.ok none, s) := by
  induction ps with
  | nil => exact ⟨h.symm, by simp⟩
  | cons p ps ih =>
      obtain ⟨hpull, hrest⟩ := h
      obtain rfl : p = (.ok none, s) := hpull.symm.trans (next_finished hs)
      obtain ⟨rfl, hall⟩ := ih hrest
      exact ⟨rfl, List.forall_mem_cons.2 ⟨rfl, hall⟩⟩

private theorem series_ended {p : Pulled ClauseStream} (hpull : s.next = p)
    (hp : delivered p = none) (h : Series p.2 ps t) :
    t.finished = true ∧ (p :: ps).filterMap delivered = [] := by
  have hfinished : p.2.finished = true := by
    rw [← hpull] at hp ⊢
    exact s.finished_of_next hp
  obtain ⟨rfl, hall⟩ := series_finished hfinished h
  refine ⟨hfinished, List.filterMap_eq_nil_iff.2 (List.forall_mem_cons.2 ⟨hp, ?_⟩)⟩
  intro q hq
  rw [hall q hq]
  rfl

/-- A series of pulls takes clauses off the front of what draining would give. Either all of them
gave clauses, and what is left is the rest; or the stream has come to its end or to the fault behind
its last clause. -/
theorem series_cases (h : Series s ps t) :
    (ps.filterMap delivered ++ (drain t).clauses = (drain s).clauses ∧
      ∀ p ∈ ps, delivered p ≠ none) ∨
    (t.finished = true ∧ ps.filterMap delivered = (drain s).clauses ∧
      ∀ fault, (drain s).fault = some fault → ∃ p ∈ ps, p.1 = .error fault) := by
  induction ps generalizing s with
  | nil =>
      obtain rfl : s = t := h
      exact .inl ⟨rfl, by simp⟩
  | cons p ps ih =>
      obtain ⟨hpull, hrest⟩ := h
      rcases p with ⟨fault | _ | c, u⟩
      · obtain ⟨hfinished, hclauses⟩ := series_ended hpull rfl hrest
        rw [drain_of_fault hpull]
        refine .inr ⟨hfinished, hclauses, ?_⟩
        intro other hother
        obtain rfl := Option.some.inj hother
        exact ⟨_, List.mem_cons_self, rfl⟩
      · obtain ⟨hfinished, hclauses⟩ := series_ended hpull rfl hrest
        rw [drain_of_end hpull]
        exact .inr ⟨hfinished, hclauses, by simp⟩
      · have hclause : delivered ((.ok (some c), u) : Pulled ClauseStream) = some c := rfl
        rw [drain_of_clause hpull, List.filterMap_cons_some hclause]
        rcases ih hrest with ⟨hclauses, hall⟩ | ⟨hfinished, hclauses, hfault⟩
        · refine .inl ⟨by rw [List.cons_append, hclauses], List.forall_mem_cons.2 ⟨?_, hall⟩⟩
          simp [hclause]
        · refine .inr ⟨hfinished, by rw [hclauses], ?_⟩
          intro fault hf
          obtain ⟨p, hp, herror⟩ := hfault fault hf
          exact ⟨p, List.mem_cons_of_mem _ hp, herror⟩

theorem clauses_series_prefix (h : Series s ps t) :
    ps.filterMap delivered <+: (drain s).clauses := by
  rcases series_cases h with ⟨hclauses, -⟩ | ⟨-, hclauses, -⟩
  · exact ⟨_, hclauses⟩
  · exact ⟨[], by rw [hclauses, List.append_nil]⟩

end ClauseStream

namespace Recorded

theorem obeyAll_concat (r : Recorded ClauseStream) (commands : List Command)
    (command : Command) :
    r.obeyAll (commands ++ [command]) = ((r.obeyAll commands).obey command).2 := by
  simp [obeyAll]

/-- A finished stream stays finished, no command pulls a clause from it, and none but closing
changes it. -/
theorem obey_finished {r : Recorded ClauseStream} (h : r.source.finished = true)
    (command : Command) :
    (r.obey command).2.source.finished = true ∧ (r.obey command).2.clauses = r.clauses ∧
      (command ≠ .close → (r.obey command).2.source = r.source) := by
  by_cases hclose : command = .close
  · subst hclose
    exact ⟨rfl, rfl, fun hne => absurd rfl hne⟩
  · obtain ⟨-, hsource, ps, hpulls, hseries⟩ := r.obey_of_ne_close hclose
    obtain ⟨hsame, hall⟩ := ClauseStream.series_finished h hseries
    have hkept : (r.obey command).2.source = r.source := hsource.trans hsame
    have hnone : ps.filterMap delivered = [] := by
      rw [List.filterMap_eq_nil_iff]
      intro p hp
      rw [hall p hp]
      rfl
    refine ⟨by rwa [hkept], ?_, fun _ => hkept⟩
    rw [clauses, hpulls, List.filterMap_append, hnone, List.append_nil, clauses]

/-- What commands put into the record. Unless the stream is closed it is one series of pulls. If it
is, no clause is pulled behind the series that was made before. -/
theorem obeyAll_cases (r : Recorded ClauseStream) (commands : List Command) :
    (.close ∉ commands ∧ Continues r (r.obeyAll commands) (r.obeyAll commands).source) ∨
    (.close ∈ commands ∧ (r.obeyAll commands).source.finished = true ∧
      ∃ ps t, Series r.source ps t ∧
        (r.obeyAll commands).clauses = r.clauses ++ ps.filterMap delivered) := by
  induction commands using List.reverseRecOn with
  | nil => exact .inl ⟨by simp, r.continues_self⟩
  | append_singleton commands command ih =>
      rw [obeyAll_concat]
      rcases ih with ⟨hopen, -, ps, hpulls, hseries⟩ | ⟨hclosed, hfinished, ps, t, hseries, hps⟩
      · by_cases hclose : command = .close
        · subst hclose
          refine .inr ⟨by simp, rfl, ps, _, hseries, ?_⟩
          show (r.obeyAll commands).pulls.filterMap delivered = _
          rw [hpulls, List.filterMap_append]
          rfl
        · obtain ⟨-, hsource, qs, hqs, hmore⟩ := (r.obeyAll commands).obey_of_ne_close hclose
          refine .inl ⟨by simp [hopen, Ne.symm hclose], rfl, ps ++ qs, ?_, ?_⟩
          · rw [hqs, hpulls, List.append_assoc]
          · rw [hsource]
            exact hseries.append hmore
      · obtain ⟨hstill, hclauses, -⟩ := obey_finished hfinished command
        exact .inr ⟨by simp [hclosed], hstill, ps, t, hseries, hclauses.trans hps⟩

end Recorded

namespace ClauseStream

theorem header_obey (s : ClauseStream) (command : Command) :
    (s.obey command).2.header = s.header := by
  have hpull : ∀ t : ClauseStream, t.header = s.header →
      (ClauseSource.pull t).2.header = s.header := fun t ht => t.header_next.trans ht
  have hclose : ∀ t : ClauseStream, t.header = s.header → t.close.header = s.header :=
    fun _ ht => ht
  exact Command.perform_preserves hpull hclose s.header rfl command

theorem header_obeyAll (s : ClauseStream) (commands : List Command) :
    (s.obeyAll commands).header = s.header := by
  induction commands generalizing s with
  | nil => rfl
  | cons command commands ih => exact (ih _).trans (s.header_obey command)

/-- The stream with nothing pulled yet. -/
def recorded (s : ClauseStream) : Recorded ClauseStream := ⟨s, []⟩

section Recorded

variable (s : ClauseStream) (commands : List Command)

theorem clauses_obeyAll_prefix :
    (s.recorded.obeyAll commands).clauses <+: (drain s).clauses := by
  rcases s.recorded.obeyAll_cases commands with
    ⟨-, -, ps, hpulls, hseries⟩ | ⟨-, -, ps, t, hseries, hclauses⟩
  · rw [Recorded.clauses, hpulls]
    exact clauses_series_prefix hseries
  · rw [hclauses]
    exact clauses_series_prefix hseries

/-- A stream that has come to its end, without being closed and without a fault, has given all its
clauses. -/
theorem clauses_of_end (hopen : .close ∉ commands)
    (hend : ∃ t, (.ok none, t) ∈ (s.recorded.obeyAll commands).pulls)
    (hfaults : ∀ p ∈ (s.recorded.obeyAll commands).pulls, ∀ fault, p.1 ≠ .error fault) :
    (s.recorded.obeyAll commands).clauses = (drain s).clauses ∧ (drain s).fault = none := by
  rcases s.recorded.obeyAll_cases commands with
    ⟨-, -, ps, hpulls, hseries⟩ | ⟨hclosed, -⟩
  · obtain rfl : (s.recorded.obeyAll commands).pulls = ps := hpulls
    rcases series_cases hseries with ⟨-, hall⟩ | ⟨-, hclauses, hfault⟩
    · obtain ⟨t, ht⟩ := hend
      exact absurd rfl (hall _ ht)
    · refine ⟨hclauses, Option.eq_none_iff_forall_ne_some.2 ?_⟩
      intro fault hf
      obtain ⟨p, hp, herror⟩ := hfault fault hf
      exact hfaults p hp fault herror
  · exact absurd hclosed hopen

variable {s commands}

/-- A check that returns a verdict pulls the clauses it counts. Behind a check that has stopped at a
clause the stream goes on with the one behind it. -/
theorem clauses_of_check {a : Assignment} {strictUnassigned : Option Bool} {v : Verdict}
    {u : Recorded ClauseStream}
    (h : (s.recorded.obeyAll commands).obey (.check a strictUnassigned) = (.checked (.ok v), u)) :
    ∃ cs, u.clauses = (s.recorded.obeyAll commands).clauses ++ cs ∧
      cs.length = v.clausesChecked ∧
      (v.firstUnsatIndex ≠ none → v.firstUnsatClause = cs.getLast? ∧
        delivered u.source.next = (drain s).clauses[u.clauses.length]?) := by
  obtain ⟨hanswer, hu⟩ := Prod.mk.inj h
  obtain ⟨ps, hpulls, hchecked, hlast⟩ :=
    pulls_of_checkClauses (Prod.ext (Answer.checked.inj hanswer) hu)
  have hclauses : u.clauses =
      (s.recorded.obeyAll commands).clauses ++ ps.filterMap delivered := by
    rw [Recorded.clauses, hpulls, List.filterMap_append, Recorded.clauses]
  refine ⟨_, hclauses, hchecked.symm, fun hindex => ?_⟩
  obtain ⟨c, qs, t, hunsat, rfl⟩ := hlast hindex
  have hcs : (qs ++ [(Except.ok (some c), t)]).filterMap delivered =
      qs.filterMap delivered ++ [c] := by
    rw [List.filterMap_append]
    rfl
  refine ⟨by rw [hunsat, hcs, List.getLast?_concat], ?_⟩
  have hnext : delivered u.source.next = (drain u.source).clauses.head? :=
    delivered_pull u.source
  have hafter : s.recorded.obeyAll (commands ++ [.check a strictUnassigned]) = u := by
    rw [Recorded.obeyAll_concat, h]
  rcases s.recorded.obeyAll_cases (commands ++ [.check a strictUnassigned]) with
    ⟨-, -, ps, hps, (hseries : Series s ps _)⟩ | ⟨hclosed, -⟩
  · rw [hafter] at hps hseries
    have hall : u.clauses = ps.filterMap delivered := congrArg (List.filterMap delivered) hps
    rcases series_cases hseries with ⟨hsplit, -⟩ | ⟨hfinished, hsplit, -⟩
    · rw [hnext, ← hsplit, hall, List.getElem?_append_right (Nat.le_refl _), Nat.sub_self,
        List.head?_eq_getElem?]
    · rw [next_finished hfinished, hall, hsplit, List.getElem?_eq_none (Nat.le_refl _)]
      rfl
  · -- a stream that was closed before gives no clause to stop at
    have hclosed : .close ∈ commands := by simpa using hclosed
    rcases s.recorded.obeyAll_cases commands with ⟨hopen, -⟩ | ⟨-, hfinished, -⟩
    · exact absurd hclosed hopen
    · have hsame := (Recorded.obey_finished hfinished (.check a strictUnassigned)).2.1
      rw [h, hclauses, hcs] at hsame
      simp at hsame

end Recorded

end ClauseStream

/-- The clauses that are pulled from a stream, whatever a consumer asks for, are those of the text
in front of its first error, in order, each once and none left out. A check that returns a verdict
pulls the clauses that it counts; if it stops at a clause, the next pull gives the one behind it. A
check of an assignment out of range pulls nothing and leaves the stream as it was. A stream that is
read to its end, without being closed and without a fault, has given the formula. -/
theorem clauses_pulled_in_order {source : Option String} {input : LineSource} {s : ClauseStream}
    (hstart : (ClauseStream.start source input).1 = .ok s) (commands : List Command) :
    let r := s.recorded.obeyAll commands
    r.source = s.obeyAll commands ∧
    r.clauses.map Clause.integers <+: s.header.soundClauses input.lines ∧
    (∀ a strictUnassigned v u,
      r.obey (.check a strictUnassigned) = (.checked (.ok v), u) →
        ∃ cs, u.clauses = r.clauses ++ cs ∧ cs.length = v.clausesChecked ∧
          (v.firstUnsatIndex ≠ none → v.firstUnsatClause = cs.getLast? ∧
            (delivered u.source.next).map Clause.integers =
              (s.header.soundClauses input.lines)[u.clauses.length]?)) ∧
    (∀ a strictUnassigned, a.Reachable → (∃ x : Nat, s.header.numVars < x ∧ a.get x ≠ none) →
      r.obey (.check a strictUnassigned) =
        (.checked (reject (.assignsBeyond a.maxVar s.header.numVars) {}), r)) ∧
    (.close ∉ commands → (∃ t, (.ok none, t) ∈ r.pulls) →
      (∀ p ∈ r.pulls, ∀ fault, p.1 ≠ .error fault) →
        Formula.read source input = .ok ⟨s.header, r.clauses⟩) := by
  intro r
  have htext := clauses_drain_of_start hstart
  refine ⟨Recorded.obeyAll_source _ _, ?_, ?_, ?_, ?_⟩
  · rw [← htext]
    exact (s.clauses_obeyAll_prefix commands).map Clause.integers
  · intro a strictUnassigned v u h
    obtain ⟨cs, hclauses, hlength, hunsat⟩ := ClauseStream.clauses_of_check h
    refine ⟨cs, hclauses, hlength, fun hindex => ?_⟩
    obtain ⟨hlast, hnext⟩ := hunsat hindex
    exact ⟨hlast, by rw [hnext, ← htext, List.getElem?_map]⟩
  · intro a strictUnassigned ha hbeyond
    have hheader : r.source.header = s.header := by
      rw [Recorded.obeyAll_source]
      exact s.header_obeyAll commands
    have hlt := Int.ofNat_lt.2 ((ha.lt_maxVar_iff _).2 hbeyond)
    rw [← hheader] at hlt ⊢
    have hcheck : checkClauses r a (r.source.header.checkSettings strictUnassigned) =
        (reject (.assignsBeyond a.maxVar r.source.header.numVars) {}, r) := by
      rw [reject, ← r.source.header.mentioning_numVars]
      exact checkClauses_beyond a r hlt
    rw [Recorded.obey, Command.perform, hcheck]
  · intro hopen hend hfaults
    obtain ⟨hclauses, hfault⟩ := s.clauses_of_end commands hopen hend hfaults
    rw [Formula.read, hstart, hclauses]
    simp only [hfault]

/-- A text with a clause too many, on the line on which the second clause ends. -/
theorem clauses_pulled_before_surplus :
    ∃ s, (ClauseStream.start none ⟨["p cnf 2 2", "1 0 -2", "0 2 0"], .complete⟩).1 = .ok s ∧
      (s.recorded.obeyAll [.next, .rest, .next]).clauses.map Clause.integers <+: [[1], [-2]] := by
  have hopen : ∃ s : ClauseStream,
      (ClauseStream.start none ⟨["p cnf 2 2", "1 0 -2", "0 2 0"], .complete⟩).1 = .ok s ∧
        s.header = ⟨2, 2, by decide⟩ := ⟨_, rfl, rfl⟩
  have hsound : Header.soundClauses ⟨2, 2, by decide⟩ ["p cnf 2 2", "1 0 -2", "0 2 0"] =
      [[1], [-2]] := by decide +kernel
  obtain ⟨s, hstart, hheader⟩ := hopen
  have hprefix := (clauses_pulled_in_order hstart [.next, .rest, .next]).2.1
  rw [hheader, hsound] at hprefix
  exact ⟨s, hstart, hprefix⟩

end CnfAudit
