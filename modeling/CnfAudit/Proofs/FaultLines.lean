import CnfAudit.Proofs.FaultOrigins

/-!
# Faults at a line
-/

namespace CnfAudit

namespace ClauseStream

variable {s : ClauseStream} {d : Diagnostic} {k : Nat}

private theorem next_stops_of_line (h : s.next.1 = .error (.rejected d))
    (hd : d.place.line = some (k : Int)) :
    ∃ front rest, s.input.lines = front ++ rest ∧ s.lineNumber + front.length = k ∧
      ∀ rest' ending,
        (s.withInput ⟨front ++ rest', ending⟩).next.1 = .error (.rejected d) := by
  cases hs : s.finished with
  | true => simp [next_finished hs] at h
  | false =>
      rcases next_cases hs with ⟨front, rest, p, hlines, hstops, hnext⟩ | ⟨u, -, hend⟩
      · rw [next_of_stops hlines hnext] at h
        have hline := hstops.lineNumber
        rw [hstops.place d h] at hd
        have hk : p.2.lineNumber = k := Int.ofNat.inj (Option.some.inj hd)
        refine ⟨front, rest, hlines, by omega, ?_⟩
        intro rest' ending
        rw [hnext]
        exact h
      · rw [hend] at h
        simp [u.atEnd_ends.place h] at hd

private theorem lineNumber_le_of_fault (h : (drain s).fault = some (.rejected d))
    (hd : d.place.line = some (k : Int)) : s.lineNumber ≤ k := by
  induction s using ClauseSource.induction with
  | failed s fault t hpull =>
      rw [drain_of_fault hpull] at h
      obtain rfl := Option.some.inj h
      have hresult : s.next.1 = .error (.rejected d) := congrArg Prod.fst hpull
      obtain ⟨front, rest, -, hk, -⟩ := next_stops_of_line hresult hd
      omega
  | ended s t hpull => simp [drain_of_end hpull] at h
  | pulled s c t hpull ih =>
      rw [drain_of_clause hpull] at h
      have hle := s.lineNumber_le_next
      rw [show s.next = _ from hpull] at hle
      exact Nat.le_trans hle (ih h)

private theorem drain_fault_within {front rest : List String}
    (hlines : s.input.lines = front ++ rest) (hk : s.lineNumber + front.length = k)
    (h : (drain s).fault = some (.rejected d)) (hd : d.place.line = some (k : Int))
    (rest' : List String) (ending : Ending) :
    (drain (s.withInput ⟨front ++ rest', ending⟩)).fault = some (.rejected d) := by
  induction s using ClauseSource.induction generalizing front with
  | failed s fault t hpull =>
      rw [drain_of_fault hpull] at h
      obtain rfl := Option.some.inj h
      have hresult : s.next.1 = .error (.rejected d) := congrArg Prod.fst hpull
      obtain ⟨first, behind, hsplit, hline, hnext⟩ := next_stops_of_line hresult hd
      obtain ⟨rfl, -⟩ := List.append_inj (hsplit.symm.trans hlines) (by omega)
      have hpull' : ClauseSource.pull (s.withInput ⟨first ++ rest', ending⟩) =
          (.error (.rejected d), _) := Prod.ext (hnext rest' ending) rfl
      rw [drain_of_fault hpull']
  | ended s t hpull => simp [drain_of_end hpull] at h
  | pulled s c t hpull ih =>
      rw [drain_of_clause hpull] at h
      obtain ⟨first, behind, hsplit, hline, hbehind, hnext⟩ := next_of_clause hpull
      have hle := lineNumber_le_of_fault h hd
      obtain ⟨more, rfl, rfl⟩ :=
        exists_append_of_length_le (hsplit.symm.trans hlines) (by omega)
      have hcount : t.lineNumber + more.length = k := by
        rw [List.length_append] at hk
        omega
      have hpull' : ClauseSource.pull (s.withInput ⟨first ++ (more ++ rest'), ending⟩) =
          (.ok (some c), t.withInput ⟨more ++ rest', ending⟩) := hnext (more ++ rest') ending
      rw [List.append_assoc, drain_of_clause hpull']
      exact ih hbehind hcount h

end ClauseStream

private theorem Formula.read_eq_error_iff {source : Option String} {input : LineSource}
    {s : ClauseStream} (h : (ClauseStream.start source input).1 = .ok s) {fault : Fault} :
    Formula.read source input = .error fault ↔ (drain s).fault = some fault := by
  rw [Formula.read, h]
  cases hfault : (drain s).fault <;> simp [hfault]

/-- A fault that reading a formula finds at a line is found whatever stands behind that line. -/
theorem Formula.read_fault_within {source : Option String} {front rest : List String}
    {ending : Ending} {d : Diagnostic}
    (h : Formula.read source ⟨front ++ rest, ending⟩ = .error (.rejected d))
    (hd : d.place.line = some (front.length : Int)) (rest' : List String) (ending' : Ending) :
    Formula.read source ⟨front ++ rest', ending'⟩ = .error (.rejected d) := by
  rcases ClauseStream.start_cases source (front ++ rest) with
    ⟨first, behind, result, hsplit, hplace, hstart⟩ | hstart
  · rw [hsplit] at h
    cases result with
    | error fault =>
        rw [Formula.read, hstart] at h
        obtain rfl : fault = .rejected d := Except.error.inj h
        have hlength : (first.length : Int) = front.length :=
          Option.some.inj ((hplace d rfl).symm.trans hd)
        obtain ⟨rfl, -⟩ := List.append_inj hsplit (by omega)
        rw [Formula.read, hstart]
        rfl
    | ok header =>
        let s : ClauseStream :=
          { source, header, lineNumber := first.length, input := ⟨behind, ending⟩ }
        have hopen : (ClauseStream.start source ⟨first ++ behind, ending⟩).1 = .ok s := by
          rw [hstart]
          rfl
        have hfault := (Formula.read_eq_error_iff hopen).1 h
        have hle : first.length ≤ front.length := ClauseStream.lineNumber_le_of_fault hfault hd
        obtain ⟨more, rfl, hmore⟩ := exists_append_of_length_le hsplit.symm hle
        have hcount : s.lineNumber + more.length = (first ++ more).length :=
          (List.length_append ..).symm
        have hopen' : (ClauseStream.start source ⟨first ++ (more ++ rest'), ending'⟩).1 =
            .ok (s.withInput ⟨more ++ rest', ending'⟩) := by
          rw [hstart]
          rfl
        rw [List.append_assoc]
        apply (Formula.read_eq_error_iff hopen').2
        exact ClauseStream.drain_fault_within hmore hcount hfault hd rest' ending'
  · rw [Formula.read, hstart] at h
    obtain hfault : ClauseStream.headerFault source ending = .rejected d := Except.error.inj h
    cases ending with
    | complete =>
        rw [← Fault.rejected.inj hfault] at hd
        simp at hd
    | undecodable refusal => simp [ClauseStream.headerFault] at hfault

namespace Certificate

open Text

private theorem continued_assoc {α : Type} (a b c : List α × Option Fault) :
    continued (continued a b) c = continued a (continued b c) := by
  rcases a with ⟨as, _ | _⟩ <;> rcases b with ⟨bs, _ | _⟩ <;> simp [continued]

section Lines

variable (source : Option String) (numVars : Option Int)

private theorem readLines_append (status : Option Nat) (taken : Nat) (front : List String) :
    ∃ values status', ∀ ending rest,
      readLines source numVars ending status taken (front ++ rest) =
        continued values
          (readLines source numVars ending status' (taken + front.length) rest) := by
  induction front generalizing status taken with
  | nil => exact ⟨([], none), status, fun _ _ => rfl⟩
  | cons raw front ih =>
      have hlength : taken + (raw :: front).length = taken + 1 + front.length := by
        rw [List.length_cons]
        omega
      rw [hlength]
      rcases line_cases raw with hskip | htag | htag | ⟨c, htag, hc, hs, hv⟩
      · obtain ⟨values, status', hrest⟩ := ih status (taken + 1)
        refine ⟨values, status', ?_⟩
        intro ending rest
        rw [List.cons_append, readLines_skipped _ _ _ hskip, hrest]
      · cases status with
        | some first =>
            exact ⟨([], some _), none, fun ending rest =>
              readLines_second_status source numVars ending htag first taken (front ++ rest)⟩
        | none =>
            by_cases hsat : fields (payload (strip raw)) = ["SATISFIABLE"]
            · obtain ⟨values, status', hrest⟩ := ih (some (taken + 1)) (taken + 1)
              refine ⟨values, status', ?_⟩
              intro ending rest
              rw [List.cons_append, readLines_first_status _ _ _ htag, if_pos hsat, hrest]
            · exact ⟨([], some _), none, fun ending rest =>
                (readLines_first_status source numVars ending htag taken (front ++ rest)).trans
                  (if_neg hsat)⟩
      · obtain ⟨values, status', hrest⟩ := ih status (taken + 1)
        refine ⟨continued (numberedValues source numVars (taken + 1)
          (fields (payload (strip raw)))) values, status', ?_⟩
        intro ending rest
        rw [List.cons_append, readLines_values _ _ _ htag, hrest, continued_assoc]
      · exact ⟨([], some _), none, fun ending rest =>
          readLines_other source numVars ending htag hc hs hv status taken (front ++ rest)⟩

end Lines

private theorem lt_of_origin {k : Rejections} {source : Option String} {ending : Ending}
    {taken n : Nat} {lines : List String} {d : Diagnostic}
    (h : Origin k source ending (numberedContent taken lines) (.rejected d))
    (hd : d.place.line = some (n : Int)) : taken < n := by
  cases h with
  | line hmem h =>
      rw [h.place_eq] at hd
      obtain rfl := Int.ofNat.inj (Option.some.inj hd)
      obtain ⟨i, rfl, -⟩ := mem_numberedContent_iff.1 hmem
      omega
  | atEnd => simp at hd

theorem read_fault_within {source : Option String} {numVars : Option Int}
    {front rest : List String} {ending : Ending} {d : Diagnostic}
    (h : read source numVars ⟨front ++ rest, ending⟩ = .error (.rejected d))
    (hd : d.place.line = some (front.length : Int)) (rest' : List String) (ending' : Ending) :
    read source numVars ⟨front ++ rest', ending'⟩ = .error (.rejected d) := by
  obtain ⟨⟨values, fault⟩, status, hlines⟩ := readLines_append source numVars none 0 front
  rw [read_eq_error_iff] at h ⊢
  simp only [hlines] at h ⊢
  cases fault with
  | some fault => exact h
  | none =>
      simp only [continued, feed_append] at h ⊢
      rcases hfirst : feed (record source) none values .empty with ⟨a, _ | fault⟩
      · simp only [hfirst] at h
        have hbehind := lt_of_origin ((Stems.readLines status (0 + front.length) rest).feed h) hd
        omega
      · simpa only [hfirst] using h

end Certificate

end CnfAudit
