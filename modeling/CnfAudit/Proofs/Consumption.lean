import CnfAudit.Proofs.Interleaving

/-!
# How often an input is consumed

A reader leaves the preamble with a value line, with a status line in order, or at the end of the
input. From then on no iterator may begin.
-/

namespace CnfAudit

/-- The faults that may leave a reader in the preamble. -/
def Fault.KeepsPreamble : Fault → Prop
  | .rejected ⟨.otherStatus _, _⟩ => True
  | .rejected ⟨.unknownTag _ _, _⟩ => True
  | .undecodable _ => True
  | _ => False

namespace Certificate

open Text

/-- The line leads out of the preamble: it is a value line or a status line in order. -/
def Opens (raw : String) : Prop :=
  tag? (strip raw) = some 'v' ∨
    (tag? (strip raw) = some 's' ∧ fields (payload (strip raw)) = ["SATISFIABLE"])

theorem not_opens_of_skipped {raw : String} (h : IsSkipped raw) : ¬Opens raw := by
  rcases h with h | h <;> simp [Opens, h]

/-- The fault of a step, if it failed. -/
def Step.fault? (step : Step) : Option Fault :=
  match step.result with
  | .error fault => some fault
  | .ok _ => none

namespace Reader

/-- The reader comes to another state by taking these lines and with these faults: it has counted
the lines, one that leads out of the preamble has done so, without such a line only the end of the
input can have changed the phase, and where lines were taken and it is still in the preamble there
was a fault that may leave it there. -/
structure Takes (r : Reader) (front : List String) (faults : List Fault) (t : Reader) : Prop where
  count : t.linesTaken = r.linesTaken + front.length
  left : r.phase ≠ .preamble → t.phase ≠ .preamble
  opened : (∃ line ∈ front, Opens line) → t.phase ≠ .preamble
  still : (∀ line ∈ front, ¬Opens line) → t.phase = r.phase ∨ t.phase = .done
  stopped : t.phase = .preamble → front ≠ [] → ∃ fault ∈ faults, fault.KeepsPreamble

theorem Takes.refl (r : Reader) (faults : List Fault) : Takes r [] faults r :=
  ⟨rfl, id, by simp, fun _ => .inl rfl, fun _ h => absurd rfl h⟩

theorem Takes.trans {r t u : Reader} {front more : List String} {faults others : List Fault}
    (h : Takes r front faults t) (h' : Takes t more others u) :
    Takes r (front ++ more) (faults ++ others) u where
  count := by
    rw [h'.count, h.count, List.length_append, Nat.add_assoc]
  left hr := h'.left (h.left hr)
  opened := by
    rintro ⟨line, hline, hopens⟩
    rcases List.mem_append.1 hline with hline | hline
    · exact h'.left (h.opened ⟨line, hline, hopens⟩)
    · exact h'.opened ⟨line, hline, hopens⟩
  still := by
    intro hnone
    rw [List.forall_mem_append] at hnone
    rcases h'.still hnone.2 with hu | hu
    · rw [hu]
      exact h.still hnone.1
    · exact .inr hu
  stopped := by
    intro hu hlines
    have ht : t.phase = .preamble := by
      by_contra hleft
      exact h'.left hleft hu
    by_cases hfront : front = []
    · have hmore : more ≠ [] := by simpa [hfront] using hlines
      obtain ⟨fault, hfault, hkeeps⟩ := h'.stopped hu hmore
      exact ⟨fault, List.mem_append_right _ hfault, hkeeps⟩
    · obtain ⟨fault, hfault, hkeeps⟩ := h.stopped ht hfront
      exact ⟨fault, List.mem_append_left _ hfault, hkeeps⟩

/-- What a step takes of the lines in front of it, and what is then in front of a pass that has
given a value. -/
structure StepTakes (r : Reader) (lines front back : List String) (step : Step) : Prop where
  split : lines = front ++ back
  takes : Takes r front step.fault?.toList step.reader
  behind : ∀ v, step.result = .ok (some v) → step.reader.linesFor step.pass = back

section Steps

variable {r : Reader}

theorem stepTakes_fail (r : Reader) (fault : Fault) (lines : List String) :
    StepTakes r lines [] lines (r.fail fault) :=
  ⟨rfl, .refl r _, by simp [fail]⟩

private theorem stepTakes_atEnd (r : Reader) : StepTakes r [] [] [] r.atEnd := by
  rw [atEnd]
  split
  · exact r.stepTakes_fail _ _
  · simp only
    split
    · exact ⟨rfl, ⟨rfl, by simp [fail], by simp, fun _ => .inr rfl, fun _ h => absurd rfl h⟩,
        by simp [fail]⟩
    · exact ⟨rfl, ⟨rfl, by simp, by simp, fun _ => .inr rfl, fun _ h => absurd rfl h⟩, by simp⟩

/-- The reader has taken one line, and has left the preamble if the line leads out of it. -/
private structure TakesLine (r : Reader) (raw : String) (t : Reader) : Prop where
  count : t.linesTaken = r.linesTaken + 1
  opened : Opens raw → t.phase ≠ .preamble
  same : ¬Opens raw → t.phase = r.phase
  status : t.phase = .preamble → t.statusLine = none

private theorem takesLine_body (r : Reader) {raw : String} (h : tag? (strip raw) = some 'v')
    (rest : List String) : TakesLine r raw { r.take rest with phase := .body } :=
  ⟨rfl, by simp, fun hclosed => absurd (.inl h) hclosed, by simp⟩

private theorem takesLine_take {raw : String} (hraw : Opens raw → r.phase ≠ .preamble)
    (hstatus : r.phase = .preamble → r.statusLine = none) (rest : List String) :
    TakesLine r raw (r.take rest) :=
  ⟨rfl, hraw, fun _ => rfl, hstatus⟩

private theorem pullLines_cons_cases (hstatus : r.phase = .preamble → r.statusLine = none)
    (line : Nat) (raw : String) (rest : List String) :
    ∃ t, TakesLine r raw t ∧
      (r.pullLines line (raw :: rest) = t.pullLines (line + 1) rest ∨
      (∃ v tokens, r.pullLines line (raw :: rest) =
          ⟨.ok (some v), t, .reading (line + 1) tokens rest⟩ ∧
        t.phase ≠ .preamble ∧ t.linesFor (.reading (line + 1) tokens rest) = rest) ∨
      ∃ fault, r.pullLines line (raw :: rest) = t.fail fault ∧
        (t.phase = .preamble → fault.KeepsPreamble)) := by
  rcases line_cases raw with hskip | htag | htag | ⟨c, htag, hc, hs, hv⟩
  · refine ⟨r.take rest, takesLine_take (fun h => absurd h (not_opens_of_skipped hskip)) hstatus _,
      .inl ?_⟩
    rcases hskip with h | h <;> simp only [pullLines, h]
  · simp only [pullLines, htag, readStatus]
    cases hfirst : (r.take rest).statusLine with
    | some first =>
        have hleft : r.phase ≠ .preamble := by
          intro hphase
          have hnone : (r.take rest).statusLine = none := hstatus hphase
          simp [hnone] at hfirst
        exact ⟨r.take rest, takesLine_take (fun _ => hleft) hstatus _,
          .inr (.inr ⟨_, rfl, fun hphase => absurd hphase hleft⟩)⟩
    | none =>
        by_cases hsat : fields (payload (strip raw)) = ["SATISFIABLE"]
        · have hheader : (if r.phase = .preamble then .header else r.phase) ≠ Phase.preamble := by
            split <;> simp [*]
          simp only [hsat, if_true]
          exact ⟨_, ⟨rfl, fun _ => hheader, fun hclosed => absurd (.inr ⟨htag, hsat⟩) hclosed,
            fun h => absurd h hheader⟩, .inl rfl⟩
        · have hclosed : ¬Opens raw := by simp [Opens, htag, hsat]
          simp only [hsat, if_false]
          exact ⟨r.take rest, takesLine_take (fun h => absurd h hclosed) hstatus _,
            .inr (.inr ⟨_, rfl, fun _ => trivial⟩)⟩
  · have hbody := r.takesLine_body htag rest
    refine ⟨_, hbody, ?_⟩
    simp only [pullLines, htag]
    cases scanValue (r.take rest).numVars _ (fields (payload (strip raw))) with
    | value l tokens =>
        exact .inr (.inl ⟨_, tokens, rfl, by simp,
          linesFor_reading_take r (line + 1) tokens rest .body⟩)
    | lineEnd => exact .inl rfl
    | fault fault => exact .inr (.inr ⟨fault, rfl, by simp⟩)
  · have hclosed : ¬Opens raw := by simp [Opens, htag, hs, hv]
    refine ⟨r.take rest, takesLine_take (fun h => absurd h hclosed) hstatus _,
      .inr (.inr ⟨.rejected ⟨.unknownTag c (strip raw), (r.take rest).place (line + 1)⟩, ?_,
        fun _ => trivial⟩)⟩
    simp only [pullLines, htag]

private theorem keepsPreamble_atEnd (h : r.atEnd.reader.phase = .preamble) :
    ∃ fault ∈ r.atEnd.fault?.toList, fault.KeepsPreamble := by
  rw [atEnd] at h ⊢
  split at h
  · rename_i refusal _
    exact ⟨.undecodable refusal, by simp [fail, Step.fault?], trivial⟩
  · simp only at h
    split at h <;> simp [fail] at h

private theorem keepsPreamble_pullLines (hstatus : r.phase = .preamble → r.statusLine = none)
    (line : Nat) (lines : List String)
    (h : (r.pullLines line lines).reader.phase = .preamble) :
    ∃ fault ∈ (r.pullLines line lines).fault?.toList, fault.KeepsPreamble := by
  induction lines generalizing r line with
  | nil => exact keepsPreamble_atEnd h
  | cons raw rest ih =>
      obtain ⟨t, htaken, heq | ⟨v, tokens, heq, hleft, -⟩ | ⟨fault, heq, hkeeps⟩⟩ :=
        pullLines_cons_cases hstatus line raw rest
      · rw [heq] at h ⊢
        exact ih htaken.status (line + 1) h
      · rw [heq] at h
        exact absurd h hleft
      · rw [heq] at h ⊢
        exact ⟨fault, by simp [fail, Step.fault?], hkeeps h⟩

private theorem stepTakes_cons {raw : String} {rest front back : List String} {t : Reader}
    {step : Step} (hraw : TakesLine r raw t) (h : StepTakes t rest front back step)
    (hstopped : step.reader.phase = .preamble →
      ∃ fault ∈ step.fault?.toList, fault.KeepsPreamble) :
    StepTakes r (raw :: rest) (raw :: front) back step where
  split := by rw [h.split, List.cons_append]
  takes := by
    refine ⟨?_, ?_, ?_, ?_, fun hphase _ => hstopped hphase⟩
    · rw [h.takes.count, hraw.count, List.length_cons]
      omega
    · intro hleft
      apply h.takes.left
      by_cases hopens : Opens raw
      · exact hraw.opened hopens
      · rwa [hraw.same hopens]
    · rintro ⟨line, hline, hopens⟩
      rcases List.mem_cons.1 hline with rfl | hline
      · exact h.takes.left (hraw.opened hopens)
      · exact h.takes.opened ⟨line, hline, hopens⟩
    · intro hnone
      rw [List.forall_mem_cons] at hnone
      rw [← hraw.same hnone.1]
      exact h.takes.still hnone.2
  behind := h.behind

private theorem stepTakes_pullLines (hstatus : r.phase = .preamble → r.statusLine = none)
    (line : Nat) (lines : List String) :
    ∃ front back, StepTakes r lines front back (r.pullLines line lines) := by
  induction lines generalizing r line with
  | nil => exact ⟨[], [], r.stepTakes_atEnd⟩
  | cons raw rest ih =>
      have hstopped := keepsPreamble_pullLines hstatus line (raw :: rest)
      obtain ⟨t, htaken, heq | ⟨v, tokens, heq, -, hbehind⟩ | ⟨fault, heq, -⟩⟩ :=
        pullLines_cons_cases hstatus line raw rest <;> rw [heq] at hstopped ⊢
      · obtain ⟨front, back, h⟩ := ih htaken.status (line + 1)
        exact ⟨raw :: front, back, stepTakes_cons htaken h hstopped⟩
      · have h : StepTakes t rest [] rest ⟨.ok (some v), t, .reading (line + 1) tokens rest⟩ :=
          ⟨rfl, .refl t _, fun _ _ => hbehind⟩
        exact ⟨[raw], rest, stepTakes_cons htaken h hstopped⟩
      · exact ⟨[raw], rest, stepTakes_cons htaken (t.stepTakes_fail fault rest) hstopped⟩

theorem stepTakes_next (hstatus : r.phase = .preamble → r.statusLine = none) (p : Pass) :
    ∃ front back, StepTakes r (r.linesFor p) front back (r.next p) := by
  cases p with
  | finished => exact ⟨[], [], rfl, .refl r _, by simp [next]⟩
  | fresh =>
      rw [next]
      split
      · exact stepTakes_pullLines hstatus 0 _
      · exact ⟨[], _, r.stepTakes_fail _ _⟩
  | reading line tokens rest =>
      rw [next]
      split
      · exact ⟨[], _, rfl, .refl r _, fun _ _ => rfl⟩
      · exact stepTakes_pullLines hstatus line _
      · exact ⟨[], _, r.stepTakes_fail _ _⟩

private theorem phase_of_value {p q : Pass} {t : Reader} {v : Nat × Literal}
    (hactive : p.IsActive → r.phase = .body) (h : r.next p = ⟨.ok (some v), t, q⟩) :
    t.phase = .body := by
  have hvalue := (advances_next hactive).value v
  rw [h] at hvalue
  exact (hvalue rfl).1

theorem takes_drain (hstatus : r.phase = .preamble → r.statusLine = none) (p : Pass)
    (hactive : p.IsActive → r.phase = .body) :
    ∃ front back, r.linesFor p = front ++ back ∧
      Takes r front (r.drain p).fault.toList (r.drain p).reader := by
  induction r, p using induction with
  | failed r p fault t q hnext =>
      obtain ⟨front, back, h⟩ := stepTakes_next hstatus p
      rw [hnext] at h
      rw [drain_of_fault hnext]
      exact ⟨front, back, h.split, h.takes⟩
  | ended r p t q hnext =>
      obtain ⟨front, back, h⟩ := stepTakes_next hstatus p
      rw [hnext] at h
      rw [drain_of_end hnext]
      exact ⟨front, back, h.split, h.takes⟩
  | given r p v t q hnext ih =>
      obtain ⟨front, back, h⟩ := stepTakes_next hstatus p
      have hbody := phase_of_value hactive hnext
      rw [hnext] at h
      obtain ⟨more, behind, hsplit, htakes⟩ :=
        ih (fun hphase => by rw [hbody] at hphase; cases hphase) fun _ => hbody
      rw [drain_of_value hnext]
      refine ⟨front ++ more, behind, ?_, h.takes.trans htakes⟩
      rw [h.split, List.append_assoc, ← hsplit, h.behind v rfl]

theorem outcome_of_fault {p : Pass} {fault : Fault} (h : (r.next p).fault? = some fault) :
    r.outcome p = ([], some fault) := by
  rw [← stepOutcome_next]
  rcases hnext : r.next p with ⟨_ | _, t, q⟩ <;> rw [hnext] at h <;> cases h
  rfl

theorem next_of_outcome {p : Pass} {fault : Fault} (h : r.outcome p = ([], some fault)) :
    ∃ t q, r.next p = ⟨.error fault, t, q⟩ := by
  rw [← stepOutcome_next] at h
  rcases hnext : r.next p with ⟨_ | _ | v, t, q⟩ <;> rw [hnext] at h <;> cases h
  exact ⟨t, q, rfl⟩

theorem fault?_of_drain {p : Pass} {fault : Fault} (hactive : p.IsActive → r.phase = .body)
    (h : (r.drain p).fault = some fault) (hphase : (r.drain p).reader.phase = .preamble) :
    (r.next p).fault? = some fault := by
  rcases hnext : r.next p with ⟨_ | _ | v, t, q⟩
  · rw [drain_of_fault hnext] at h
    exact h
  · rw [drain_of_end hnext] at h
    cases h
  · have hbody := phase_of_value hactive hnext
    rw [drain_of_value hnext] at hphase
    obtain ⟨_, _, -, htakes⟩ :=
      takes_drain (r := t) (fun ht => by rw [hbody] at ht; cases ht) q fun _ => hbody
    exact absurd hphase (htakes.left (by simp [hbody]))

end Steps

end Reader

namespace Shared

/-- The fault that a move raises, if it raises one. -/
def faultOf (s : Shared) : Move → Option Fault
  | .next i => s.passes[i]?.bind fun p => (s.reader.next p).fault?
  | .rest i => s.passes[i]?.bind fun p => (s.reader.drain p).fault
  | .iter => none
  | .close _ => none

/-- The lines in front of the iterator that moves. -/
def linesAhead (s : Shared) : Move → List String
  | .next i | .rest i => (s.passes[i]?.map s.reader.linesFor).getD []
  | .iter | .close _ => []

/-- The lines that a move takes, which are as many of those in front of it as are counted. -/
def linesOf (s : Shared) (m : Move) : List String :=
  (s.linesAhead m).take ((s.move m).reader.linesTaken - s.reader.linesTaken)

/-- What the moves of a run come to, in order. -/
def along {α : Type} (f : Shared → Move → List α) : Shared → List Move → List α
  | _, [] => []
  | s, m :: moves => f s m ++ along f (s.move m) moves

/-- The lines that the iterators take in a run. -/
def takenLines : Shared → List Move → List String := along linesOf

/-- The faults that the iterators raise in a run. -/
def raised : Shared → List Move → List Fault := along fun s m => (s.faultOf m).toList

section Taking

variable {first : Reader} {s : Shared}

private theorem takes_linesOf {m : Move} {faults : List Fault} (front back : List String)
    (hsplit : s.linesAhead m = front ++ back)
    (h : s.reader.Takes front faults (s.move m).reader) :
    s.reader.Takes (s.linesOf m) faults (s.move m).reader := by
  have hlines : s.linesOf m = front := by
    rw [linesOf, hsplit, h.count, Nat.add_sub_cancel_left, List.take_left]
  rwa [hlines]

private theorem takes_of_no_pass {m : Move} (hlines : s.linesAhead m = []) (hmove : s.move m = s)
    (faults : List Fault) : s.reader.Takes (s.linesOf m) faults (s.move m).reader := by
  refine takes_linesOf [] [] hlines ?_
  rw [hmove]
  exact .refl _ _

/-- A move takes lines that stand in front of its iterator. -/
theorem takes_move (h : s.Invariant first) (m : Move) :
    s.reader.Takes (s.linesOf m) (s.faultOf m).toList (s.move m).reader := by
  have hstatus (hphase : s.reader.phase = .preamble) := (h.preamble hphase).1
  cases m with
  | iter => exact takes_linesOf [] [] rfl (.refl _ _)
  | close i => exact takes_linesOf [] [] rfl (.refl _ _)
  | next i =>
      cases hp : s.passes[i]? with
      | none => exact takes_of_no_pass (by simp [linesAhead, hp]) (by simp [move, hp]) _
      | some p =>
          obtain ⟨front, back, htakes⟩ := Reader.stepTakes_next hstatus p
          refine takes_linesOf front back ?_ ?_
          · rw [linesAhead, hp]
            exact htakes.split
          · rw [move_next_of_pass hp, faultOf, hp]
            exact htakes.takes
  | rest i =>
      cases hp : s.passes[i]? with
      | none => exact takes_of_no_pass (by simp [linesAhead, hp]) (by simp [move, hp]) _
      | some p =>
          obtain ⟨front, back, hsplit, htakes⟩ :=
            Reader.takes_drain hstatus p fun hactive => (h.active i p hp hactive).1
          refine takes_linesOf front back ?_ ?_
          · rw [linesAhead, hp]
            exact hsplit
          · rw [move_rest_of_pass hp, faultOf, hp]
            exact htakes

theorem takes_run (h : s.Invariant first) (hbegin : first.phase = .preamble) (moves : List Move) :
    s.reader.Takes (s.takenLines moves) (s.raised moves) (s.run moves).reader := by
  induction moves generalizing s with
  | nil => exact .refl _ _
  | cons m moves ih =>
      have hnext : (s.move m).Invariant first := (h.run hbegin [m]).1
      exact (takes_move h m).trans (ih hnext)

end Taking

section Refusal

variable {first : Reader} {s : Shared} {i : Nat}

/-- The iterator is refused when it is advanced: it raises that the input has been consumed, and
nothing changes but that it is finished. -/
def Refused (s : Shared) (i : Nat) : Prop :=
  ∀ m ∈ [Move.next i, .rest i],
    s.faultOf m = some .consumed ∧ s.move m = { s with passes := s.passes.set i .finished }

/-- The iterator raises when it is advanced, and gives no value. -/
def Fails (s : Shared) (i : Nat) : Prop :=
  ∀ m ∈ [Move.next i, .rest i], (s.faultOf m).isSome ∧ (s.move m).given = s.given

private theorem moves_of_fault {p q : Pass} {fault : Fault} {t : Reader}
    (hp : s.passes[i]? = some p) (hnext : s.reader.next p = ⟨.error fault, t, q⟩) :
    ∀ m ∈ [Move.next i, .rest i], s.faultOf m = some fault ∧ s.move m = s.put i [] t q := by
  have hfirst : s.move (.next i) = s.put i [] t q := by
    rw [move_next_of_pass hp, hnext]
    rfl
  have hrest : s.move (.rest i) = s.put i [] t q := by
    rw [move_rest_of_pass hp, Reader.drain_of_fault hnext]
  intro m hm
  rcases List.mem_pair.1 hm with rfl | rfl
  · exact ⟨by rw [faultOf, hp, Option.bind_some, hnext]; rfl, hfirst⟩
  · exact ⟨by rw [faultOf, hp, Option.bind_some, Reader.drain_of_fault hnext], hrest⟩

/-- Outside the preamble an iterator that has not been advanced is refused. -/
theorem refused_of_left (hfresh : s.passes[i]? = some .fresh)
    (hleft : s.reader.phase ≠ .preamble) : s.Refused i := by
  have hnext : s.reader.next .fresh = ⟨.error .consumed, s.reader, .finished⟩ := if_neg hleft
  intro m hm
  obtain ⟨hfault, hmove⟩ := moves_of_fault hfresh hnext m hm
  exact ⟨hfault, hmove.trans (by simp [put])⟩

theorem Refused.fails (h : s.Refused i) : s.Fails i := by
  intro m hm
  obtain ⟨hfault, hmove⟩ := h m hm
  exact ⟨by simp [hfault], by rw [hmove]⟩

private theorem fails_of_outcome (hfresh : s.passes[i]? = some .fresh) {fault : Fault}
    (h : s.reader.outcome .fresh = ([], some fault)) : s.Fails i := by
  obtain ⟨t, q, hnext⟩ := Reader.next_of_outcome h
  intro m hm
  obtain ⟨hfault, hmove⟩ := moves_of_fault hfresh hnext m hm
  exact ⟨by simp [hfault], by simp [hmove, put]⟩

private theorem outcome_of_move (h : s.Invariant first) {m : Move} {fault : Fault}
    (hfault : s.faultOf m = some fault) (hphase : (s.move m).reader.phase = .preamble) :
    s.reader.phase = .preamble ∧ s.reader.outcome .fresh = ([], some fault) := by
  have hpreamble : s.reader.phase = .preamble := by
    by_contra hleft
    exact (takes_move h m).left hleft hphase
  refine ⟨hpreamble, ?_⟩
  -- an active iterator would hold the reader in the body, a finished one raises nothing
  have hpass {i : Nat} {p : Pass} (hp : s.passes[i]? = some p)
      (hfault : (s.reader.next p).fault? = some fault) :
      s.reader.outcome .fresh = ([], some fault) := by
    cases p with
    | finished => cases hfault
    | fresh => exact Reader.outcome_of_fault hfault
    | reading line tokens rest =>
        have hbody := (h.active i _ hp trivial).1
        rw [hpreamble] at hbody
        cases hbody
  cases m with
  | iter => cases hfault
  | close i => cases hfault
  | next i =>
      obtain ⟨p, hp, hnext⟩ := Option.bind_eq_some_iff.1 hfault
      exact hpass hp hnext
  | rest i =>
      obtain ⟨p, hp, hdrain⟩ := Option.bind_eq_some_iff.1 hfault
      rw [move_rest_of_pass hp] at hphase
      exact hpass hp
        (Reader.fault?_of_drain (fun hactive => (h.active i p hp hactive).1) hdrain hphase)

private theorem outcome_of_raised (h : s.Invariant first) (hbegin : first.phase = .preamble)
    (hshared : first.oneShot = false) {moves : List Move} (hraised : s.raised moves ≠ [])
    (hphase : (s.run moves).reader.phase = .preamble) :
    ∃ fault, first.outcome .fresh = ([], some fault) := by
  induction moves generalizing s with
  | nil => exact absurd rfl hraised
  | cons m moves ih =>
      have hnext : (s.move m).Invariant first := (h.run hbegin [m]).1
      cases hfault : s.faultOf m with
      | none =>
          refine ih hnext ?_ hphase
          simpa [raised, along, hfault] using hraised
      | some fault =>
          have hmoved := (hnext.run hbegin moves).2.preamble_of_le hphase
          obtain ⟨hpreamble, houtcome⟩ := outcome_of_move h hfault hmoved
          rw [h.outcome_fresh hshared hbegin hpreamble] at houtcome
          exact ⟨fault, houtcome⟩

end Refusal

end Shared

/-- Once a line has been taken, every iterator that is advanced for the first time is refused and
takes no line, if a line that was taken leads out of the preamble or if no fault was raised that may
leave the reader there; without such a line the reader is in the preamble until it comes to the end
of its input, and an iterator may begin. If every iterator begins anew, none gives a value or comes
to its end behind a fault. -/
theorem input_consumed_once (source : Option String) (numVars : Option Int) (input : LineSource)
    (oneShot : Bool) (moves more : List Move) (i : Nat) :
    let s₀ : Shared := ⟨{ source, numVars, input, oneShot }, [], []⟩
    let s := s₀.run moves
    let u := s.run more
    s.reader.linesTaken = (s₀.takenLines moves).length ∧
    (0 < s.reader.linesTaken → u.passes[i]? = some .fresh →
      ((∃ line ∈ s₀.takenLines moves, Opens line) ∨
        ∀ fault ∈ s₀.raised moves, ¬fault.KeepsPreamble) → u.Refused i) ∧
    ((∀ line ∈ s₀.takenLines moves, ¬Opens line) →
      s.reader.phase = .preamble ∨ s.reader.phase = .done) ∧
    (oneShot = false → s₀.raised moves ≠ [] → u.passes[i]? = some .fresh → u.Fails i) := by
  intro s₀ s u
  have hbegin : s₀.reader.phase = .preamble := rfl
  have hstart : s₀.Invariant s₀.reader := Shared.invariant_begin rfl
  have hs : s.Invariant s₀.reader := (hstart.run hbegin moves).1
  have hlater := (hs.run hbegin more).2
  have htakes := Shared.takes_run hstart hbegin moves
  have hcount : s.reader.linesTaken = (s₀.takenLines moves).length :=
    htakes.count.trans (Nat.zero_add _)
  refine ⟨hcount, ?_, htakes.still, ?_⟩
  · intro htaken hfresh hcause
    refine Shared.refused_of_left hfresh fun hphase => ?_
    have hpreamble : s.reader.phase = .preamble := hlater.preamble_of_le hphase
    rcases hcause with hopens | hquiet
    · exact htakes.opened hopens hpreamble
    · have hlines : s₀.takenLines moves ≠ [] := by
        rw [hcount] at htaken
        exact List.ne_nil_of_length_pos htaken
      obtain ⟨fault, hfault, hkeeps⟩ := htakes.stopped hpreamble hlines
      exact hquiet fault hfault hkeeps
  · intro hshared hraised hfresh
    by_cases hphase : u.reader.phase = .preamble
    · obtain ⟨fault, houtcome⟩ := Shared.outcome_of_raised hstart hbegin hshared hraised
        (hlater.preamble_of_le hphase)
      have hu := (hs.run hbegin more).1
      exact Shared.fails_of_outcome hfresh
        ((hu.outcome_fresh hshared hbegin hphase).trans houtcome)
    · exact (Shared.refused_of_left hfresh hphase).fails

/-- A status line that is rejected does not consume a shared input: the second iterator goes on
behind it, gives a value and comes to its end. -/
theorem rejected_status_not_consumed :
    let first : Reader :=
      { source := some "<certificate>", numVars := none,
        input := ⟨["s UNSATISFIABLE", "s SATISFIABLE", "v 1 0"], .complete⟩, oneShot := true }
    let moves : List Move := [.iter, .next 0, .iter]
    let s := Shared.run ⟨first, [], []⟩ moves
    Shared.takenLines ⟨first, [], []⟩ moves = ["s UNSATISFIABLE"] ∧
    Shared.raised ⟨first, [], []⟩ moves =
      [.rejected ⟨.otherStatus "s UNSATISFIABLE", ⟨some "<certificate>", some 1⟩⟩] ∧
    s.passes[1]? = some .fresh ∧ ¬s.Refused 1 ∧ s.faultOf (.rest 1) = none ∧
    ((s.move (.rest 1)).given.map fun y => (y.1, y.2.1, y.2.2.toInt)) = [(1, 2, 1)] := by
  intro first moves s
  have hended : s.faultOf (.rest 1) = none := by decide +kernel
  have hrefused : ¬s.Refused 1 := by
    intro h
    have hfault := (h (.rest 1) (by simp)).1
    rw [hended] at hfault
    cases hfault
  exact ⟨by decide +kernel, by decide +kernel, rfl, hrefused, hended, by decide +kernel⟩

end Certificate

end CnfAudit
