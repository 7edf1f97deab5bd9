import CnfAudit.Proofs.CertificatePass

/-!
# What a step of a pass does
-/

namespace CnfAudit.Certificate

/-- The pass has given a value and can go on. -/
def Pass.IsActive : Pass → Prop
  | .reading _ _ _ => True
  | .fresh => False
  | .finished => False

namespace Reader

/-- Induction along the steps of a pass: a step fails, ends, or gives a value and a pass for which
the statement is known. -/
@[elab_as_elim]
theorem induction {motive : Reader → Pass → Prop}
    (failed : ∀ r p fault t q, r.next p = ⟨.error fault, t, q⟩ → motive r p)
    (ended : ∀ r p t q, r.next p = ⟨.ok none, t, q⟩ → motive r p)
    (given : ∀ r p v t q, r.next p = ⟨.ok (some v), t, q⟩ → motive t q → motive r p)
    (r : Reader) (p : Pass) : motive r p :=
  match h : r.next p with
  | ⟨.error fault, t, q⟩ => failed r p fault t q h
  | ⟨.ok none, t, q⟩ => ended r p t q h
  | ⟨.ok (some v), t, q⟩ =>
      have := next_remaining h
      given r p v t q h (induction failed ended given t q)
termination_by r.remaining p

/-- The reader is the other one further on. -/
structure Later (r t : Reader) : Prop where
  source : t.source = r.source
  numVars : t.numVars = r.numVars
  oneShot : t.oneShot = r.oneShot
  input : r.oneShot = false → t.input = r.input
  rank : r.phase.rank ≤ t.phase.rank
  status : ∀ n, r.statusLine = some n → t.statusLine = some n
  preamble : t.phase = .preamble → t.statusLine = r.statusLine

theorem Later.refl (r : Reader) : Later r r :=
  ⟨rfl, rfl, rfl, fun _ => rfl, Nat.le_refl _, fun _ h => h, fun _ => rfl⟩

theorem Later.preamble_of_le {r t : Reader} (h : Later r t) (ht : t.phase = .preamble) :
    r.phase = .preamble := by
  have hrank := h.rank
  rw [ht] at hrank
  cases hphase : r.phase <;> simp [hphase, Phase.rank] at hrank ⊢

theorem Later.trans {r t u : Reader} (h : Later r t) (h' : Later t u) : Later r u where
  source := h'.source.trans h.source
  numVars := h'.numVars.trans h.numVars
  oneShot := h'.oneShot.trans h.oneShot
  input hr := (h'.input (h.oneShot.trans hr)).trans (h.input hr)
  rank := Nat.le_trans h.rank h'.rank
  status n hn := h'.status n (h.status n hn)
  preamble hu := (h'.preamble hu).trans (h.preamble (h'.preamble_of_le hu))

theorem later_take (r : Reader) (rest : List String) : Later r (r.take rest) where
  source := rfl
  numVars := rfl
  oneShot := rfl
  input h := by simp [take, h]
  rank := Nat.le_refl _
  status _ h := h
  preamble _ := rfl

theorem later_body {r : Reader} (h : r.phase ≠ .done) : Later r { r with phase := .body } where
  source := rfl
  numVars := rfl
  oneShot := rfl
  input _ := rfl
  rank := by cases hphase : r.phase <;> simp [hphase, Phase.rank] at h ⊢
  status _ h := h
  preamble h := by simp at h

theorem later_done (r : Reader) : Later r { r with phase := .done } where
  source := rfl
  numVars := rfl
  oneShot := rfl
  input _ := rfl
  rank := by cases r.phase <;> simp [Phase.rank]
  status _ h := h
  preamble h := by simp at h

theorem later_readStatus {r t : Reader} {text : String} {line : Nat}
    (h : r.readStatus text line = .ok t) :
    Later r t ∧ (r.phase ≠ .done → t.phase ≠ .done) := by
  rw [readStatus] at h
  split at h
  · simp [reject] at h
  · rename_i hstatus
    split at h
    · rw [← Except.ok.inj h]
      refine ⟨⟨rfl, rfl, rfl, fun _ => rfl, ?_, by simp [hstatus], ?_⟩, ?_⟩
      · cases hphase : r.phase <;> simp [Phase.rank]
      · cases hphase : r.phase <;> simp
      · cases hphase : r.phase <;> simp
    · simp [reject] at h

/-- What a step leaves: a reader further on, in the body if there is a value, and a pass that can go
on only in this case. -/
structure Advances (r : Reader) (step : Step) : Prop where
  later : Later r step.reader
  value : ∀ v, step.result = .ok (some v) → step.reader.phase = .body ∧ step.pass.IsActive
  ended : (∀ v, step.result ≠ .ok (some v)) → step.pass = .finished

theorem Advances.of_later {r t : Reader} {step : Step} (h : Later r t) (h' : Advances t step) :
    Advances r step :=
  ⟨h.trans h'.later, h'.value, h'.ended⟩

theorem advances_fail (r : Reader) (fault : Fault) : Advances r (r.fail fault) :=
  ⟨.refl r, by simp [fail], fun _ => rfl⟩

theorem advances_atEnd (r : Reader) : Advances r r.atEnd := by
  rw [atEnd]
  split
  · exact r.advances_fail _
  · simp only
    split
    · exact .of_later r.later_done (advances_fail _ _)
    · exact ⟨r.later_done, by simp, fun _ => rfl⟩

theorem advances_pullLines {r : Reader} (h : r.phase ≠ .done) (line : Nat)
    (lines : List String) : Advances r (r.pullLines line lines) := by
  induction lines generalizing r line with
  | nil => exact r.advances_atEnd
  | cons raw rest ih =>
      have htake := r.later_take rest
      have hopen : (r.take rest).phase ≠ .done := h
      unfold pullLines
      simp only
      split
      · exact .of_later htake (ih hopen _)
      · exact .of_later htake (ih hopen _)
      · split
        · exact .of_later htake (advances_fail _ _)
        · rename_i t hstatus
          obtain ⟨hlater, hphase⟩ := later_readStatus hstatus
          exact .of_later (htake.trans hlater) (ih (hphase hopen) _)
      · have hbody := htake.trans (later_body hopen)
        split
        · exact ⟨hbody, fun _ _ => ⟨rfl, trivial⟩, fun h => absurd rfl (h _)⟩
        · exact .of_later hbody (ih (by simp) _)
        · exact .of_later hbody (advances_fail _ _)
      · exact .of_later htake (advances_fail _ _)

/-- What a step does, if an active pass holds the reader in the body. -/
theorem advances_next {r : Reader} {p : Pass} (h : p.IsActive → r.phase = .body) :
    Advances r (r.next p) := by
  cases p with
  | finished => exact ⟨.refl r, by simp [next], fun _ => rfl⟩
  | fresh =>
      rw [next]
      split
      · rename_i hphase
        exact advances_pullLines (by simp [hphase]) 0 _
      · exact r.advances_fail _
  | reading line tokens rest =>
      have hbody := h trivial
      rw [next]
      split
      · exact ⟨.refl r, fun _ _ => ⟨hbody, trivial⟩, fun h => absurd rfl (h _)⟩
      · exact advances_pullLines (by simp [hbody]) line _
      · exact r.advances_fail _

section Drain

variable {r t : Reader} {p q : Pass}

private theorem fold_collect_of_fault {fault : Fault} (h : r.next p = ⟨.error fault, t, q⟩)
    (taken : List (Nat × Literal)) : r.fold collect p taken = ⟨taken, some fault, t, q⟩ := by
  rw [fold]
  split <;> simp_all

private theorem fold_collect_of_end (h : r.next p = ⟨.ok none, t, q⟩)
    (taken : List (Nat × Literal)) : r.fold collect p taken = ⟨taken, none, t, q⟩ := by
  rw [fold]
  split <;> simp_all

private theorem fold_collect_of_value {v : Nat × Literal} (h : r.next p = ⟨.ok (some v), t, q⟩)
    (taken : List (Nat × Literal)) : r.fold collect p taken = t.fold collect q (v :: taken) := by
  rw [fold]
  split <;> simp_all [collect]

private theorem fold_collect_eq (r : Reader) (p : Pass) (taken : List (Nat × Literal)) :
    r.fold collect p taken =
      { r.fold collect p [] with state := (r.fold collect p []).state ++ taken } := by
  induction r, p using induction generalizing taken with
  | failed r p fault t q h => simp [fold_collect_of_fault h]
  | ended r p t q h => simp [fold_collect_of_end h]
  | given r p v t q h ih =>
      rw [fold_collect_of_value h, fold_collect_of_value h, ih, ih [v]]
      simp

theorem drain_of_fault {fault : Fault} (h : r.next p = ⟨.error fault, t, q⟩) :
    r.drain p = ⟨[], some fault, t, q⟩ := by
  rw [drain, fold_collect_of_fault h]
  rfl

theorem drain_of_end (h : r.next p = ⟨.ok none, t, q⟩) : r.drain p = ⟨[], none, t, q⟩ := by
  rw [drain, fold_collect_of_end h]
  rfl

theorem drain_of_value {v : Nat × Literal} (h : r.next p = ⟨.ok (some v), t, q⟩) :
    r.drain p = { t.drain q with state := v :: (t.drain q).state } := by
  rw [drain, fold_collect_of_value h, fold_collect_eq, drain]
  simp

theorem outcome_of_value {v : Nat × Literal} (h : (r.next p).result = .ok (some v)) :
    (r.outcome p).1 = v :: ((r.next p).reader.outcome (r.next p).pass).1 := by
  rw [← stepOutcome_next]
  rcases hstep : r.next p with ⟨result, t, q⟩
  rw [hstep] at h
  obtain rfl : result = .ok (some v) := h
  rfl

/-- Draining a pass gives the values of its outcome and ends as the outcome does. -/
theorem drain_eq_outcome (r : Reader) (p : Pass) :
    ((r.drain p).state, (r.drain p).fault) = r.outcome p := by
  induction r, p using induction with
  | failed r p fault t q h =>
      rw [drain_of_fault h, ← stepOutcome_next, h]
      rfl
  | ended r p t q h =>
      rw [drain_of_end h, ← stepOutcome_next, h]
      rfl
  | given r p v t q h ih =>
      rw [drain_of_value h, ← stepOutcome_next, h, stepOutcome, ← ih]

theorem state_drain (r : Reader) (p : Pass) : (r.drain p).state = (r.outcome p).1 :=
  congrArg Prod.fst (r.drain_eq_outcome p)

end Drain

end Reader

end CnfAudit.Certificate
