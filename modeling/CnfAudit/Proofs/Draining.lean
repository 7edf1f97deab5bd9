import CnfAudit.Verdict

/-!
# Draining a source of clauses

What a walk over a source can show is fixed by its clauses in order and the fault behind them.
-/

namespace CnfAudit

section Drain

variable {σ : Type} [ClauseSource σ] {s t : σ} {c : Clause} {fault : Fault}

/-- Induction along the pulls of a source: a pull fails, ends, or gives a clause and a source for
which the statement is known. -/
@[elab_as_elim]
theorem ClauseSource.induction {motive : σ → Prop}
    (failed : ∀ s fault t, pull s = (.error fault, t) → motive s)
    (ended : ∀ s t, pull s = (.ok none, t) → motive s)
    (pulled : ∀ s c t, pull s = (.ok (some c), t) → motive t → motive s) (s : σ) : motive s :=
  drainOnto.induct (fun _ s => motive s) (fun _ => failed) (fun _ => ended)
    (fun _ s c t h _ ih => pulled s c t h ih) [] s

private theorem drainOnto_of_fault (taken : List Clause)
    (h : ClauseSource.pull s = (.error fault, t)) :
    drainOnto taken s = ⟨taken.reverse, some fault, t⟩ := by
  rw [drainOnto]
  split <;> simp_all

private theorem drainOnto_of_end (taken : List Clause)
    (h : ClauseSource.pull s = (.ok none, t)) : drainOnto taken s = ⟨taken.reverse, none, t⟩ := by
  rw [drainOnto]
  split <;> simp_all

private theorem drainOnto_of_clause (taken : List Clause)
    (h : ClauseSource.pull s = (.ok (some c), t)) :
    drainOnto taken s = drainOnto (c :: taken) t := by
  rw [drainOnto]
  split <;> simp_all

private theorem drainOnto_eq (taken : List Clause) (s : σ) :
    drainOnto taken s =
      ⟨taken.reverse ++ (drain s).clauses, (drain s).fault, (drain s).source⟩ := by
  induction s using ClauseSource.induction generalizing taken with
  | failed s fault t h =>
      rw [drain, drainOnto_of_fault taken h, drainOnto_of_fault [] h]
      simp
  | ended s t h =>
      rw [drain, drainOnto_of_end taken h, drainOnto_of_end [] h]
      simp
  | pulled s c t h ih =>
      rw [drain, drainOnto_of_clause taken h, drainOnto_of_clause [] h, ih, ih [c]]
      simp

theorem drain_of_fault (h : ClauseSource.pull s = (.error fault, t)) :
    drain s = ⟨[], some fault, t⟩ :=
  drainOnto_of_fault [] h

theorem drain_of_end (h : ClauseSource.pull s = (.ok none, t)) : drain s = ⟨[], none, t⟩ :=
  drainOnto_of_end [] h

theorem drain_of_clause (h : ClauseSource.pull s = (.ok (some c), t)) :
    drain s = ⟨c :: (drain t).clauses, (drain t).fault, (drain t).source⟩ := by
  rw [drain, drainOnto_of_clause [] h, drainOnto_eq]
  rfl

private theorem pull_of_drain_cons {cs : List Clause} (h : (drain s).clauses = c :: cs) :
    ∃ t, ClauseSource.pull s = (.ok (some c), t) ∧ (drain t).clauses = cs ∧
      (drain t).fault = (drain s).fault := by
  rcases hpull : ClauseSource.pull s with ⟨_ | _ | d, t⟩
  · simp [drain_of_fault hpull] at h
  · simp [drain_of_end hpull] at h
  · rw [drain_of_clause hpull] at h ⊢
    obtain ⟨rfl, rfl⟩ := List.cons.inj h
    exact ⟨t, rfl, rfl, rfl⟩

theorem drain_list (cs : List Clause) : drain cs = ⟨cs, none, []⟩ := by
  induction cs with
  | nil => exact drain_of_end ClauseSource.pull_nil
  | cons c cs ih => rw [drain_of_clause (ClauseSource.pull_cons c cs), ih]

end Drain

namespace Assignment

/-- Whether some literal of the clause is satisfied. -/
def satisfiesClause (a : Assignment) (c : Clause) : Bool := c.any a.satisfies

end Assignment

namespace ClauseWatch

theorem close_observeClause (a : Assignment) (c : Clause) :
    ((⟨a, false⟩ : ClauseWatch).observeClause c).close = (a.satisfiesClause c, ⟨a, false⟩) := by
  induction c with
  | nil => rfl
  | cons l ls ih =>
      cases h : a.satisfies l with
      | true => simp [observeClause, observe, close, Assignment.satisfiesClause, h]
      | false =>
          simpa [observeClause, observe, Assignment.satisfiesClause, h] using ih

end ClauseWatch

section Search

variable {σ : Type} [ClauseSource σ] (a : Assignment)

theorem searchFrom_of_fault {s t : σ} {fault : Fault} (n : Nat)
    (h : ClauseSource.pull s = (.error fault, t)) :
    searchFrom ⟨a, false⟩ n s = (.error fault, t) := by
  rw [searchFrom]
  split <;> simp_all

theorem searchFrom_of_end {s t : σ} (n : Nat) (h : ClauseSource.pull s = (.ok none, t)) :
    searchFrom ⟨a, false⟩ n s = (.ok (n, none), t) := by
  rw [searchFrom]
  split <;> simp_all

theorem searchFrom_of_clause {s t : σ} {c : Clause} (n : Nat)
    (h : ClauseSource.pull s = (.ok (some c), t)) :
    searchFrom ⟨a, false⟩ n s =
      if a.satisfiesClause c then searchFrom ⟨a, false⟩ (n + 1) t
      else (.ok (n + 1, some c), t) := by
  rw [searchFrom]
  split
  · simp_all
  · simp_all
  · rename_i d u hd
    obtain ⟨rfl, rfl⟩ : d = c ∧ u = t := by simpa [h, eq_comm] using hd
    rw [ClauseWatch.close_observeClause]
    cases a.satisfiesClause d <;> rfl

/-- A check stops at the first clause without a satisfied literal, whatever comes behind it. -/
theorem searchFrom_unsatisfied {before after : List Clause} {c : Clause} {s : σ} (n : Nat)
    (hdrain : (drain s).clauses = before ++ c :: after)
    (hbefore : ∀ d ∈ before, a.satisfiesClause d = true) (hc : a.satisfiesClause c = false) :
    (searchFrom ⟨a, false⟩ n s).1 = .ok (n + before.length + 1, some c) := by
  induction before generalizing s n with
  | nil =>
      obtain ⟨t, hpull, -, -⟩ := pull_of_drain_cons hdrain
      simp [searchFrom_of_clause a n hpull, hc]
  | cons d before ih =>
      obtain ⟨t, hpull, hrest, -⟩ := pull_of_drain_cons hdrain
      rw [searchFrom_of_clause a n hpull, hbefore d (by simp), if_pos rfl,
        ih (n + 1) hrest fun e he => hbefore e (by simp [he])]
      simp only [List.length_cons]
      congr 3
      omega

/-- If every clause has a satisfied literal, a check comes to the end or to the fault there. -/
theorem searchFrom_satisfied {s : σ} (n : Nat)
    (hall : ∀ c ∈ (drain s).clauses, a.satisfiesClause c = true) :
    (searchFrom ⟨a, false⟩ n s).1 =
      match (drain s).fault with
      | some fault => .error fault
      | none => .ok (n + (drain s).clauses.length, none) := by
  induction s using ClauseSource.induction generalizing n with
  | failed s fault t h => rw [searchFrom_of_fault a n h, drain_of_fault h]
  | ended s t h => simp [searchFrom_of_end a n h, drain_of_end h]
  | pulled s c t h ih =>
      rw [drain_of_clause h] at hall ⊢
      rw [searchFrom_of_clause a n h, hall c (by simp), if_pos rfl,
        ih (n + 1) fun d hd => hall d (by simp [hd])]
      cases (drain t).fault with
      | some fault => rfl
      | none => simp only [List.length_cons, Nat.add_assoc, Nat.add_comm 1]

theorem satisfied_or_first_unsatisfied (cs : List Clause) :
    (∀ c ∈ cs, a.satisfiesClause c = true) ∨
      ∃ before c after, cs = before ++ c :: after ∧
        (∀ d ∈ before, a.satisfiesClause d = true) ∧ a.satisfiesClause c = false := by
  cases h : cs.find? fun c => !a.satisfiesClause c with
  | none =>
      left
      intro c hc
      simpa using List.find?_eq_none.1 h c hc
  | some c =>
      right
      obtain ⟨hc, before, after, rfl, hbefore⟩ := List.find?_eq_some_iff_append.1 h
      exact ⟨before, c, after, rfl, fun d hd => by simpa using hbefore d hd, by simpa using hc⟩

/-- A source and the list of its clauses are searched alike, but for the fault that only the source
has, and that shows only if no clause is found. -/
theorem searchFrom_drained (s : σ) :
    (∃ checked c, (searchFrom ⟨a, false⟩ 0 s).1 = .ok (checked, some c) ∧
      (searchFrom ⟨a, false⟩ 0 (drain s).clauses).1 = .ok (checked, some c)) ∨
    ((searchFrom ⟨a, false⟩ 0 (drain s).clauses).1 = .ok ((drain s).clauses.length, none) ∧
      (searchFrom ⟨a, false⟩ 0 s).1 =
        match (drain s).fault with
        | some fault => .error fault
        | none => .ok ((drain s).clauses.length, none)) := by
  have hlist := drain_list (drain s).clauses
  rcases satisfied_or_first_unsatisfied a (drain s).clauses with
    hall | ⟨before, c, after, hsplit, hbefore, hc⟩
  · right
    constructor
    · rw [searchFrom_satisfied a 0 (by rw [hlist]; exact hall), hlist, Nat.zero_add]
    · rw [searchFrom_satisfied a 0 hall, Nat.zero_add]
  · left
    have hdrain : (drain (drain s).clauses).clauses = before ++ c :: after := by
      rw [hlist]
      exact hsplit
    exact ⟨_, c, searchFrom_unsatisfied a 0 hsplit hbefore hc,
      searchFrom_unsatisfied a 0 hdrain hbefore hc⟩

/-- An assignment out of range is rejected before anything is pulled. -/
theorem checkClauses_beyond (s : σ) {settings : CheckSettings} (h : settings.numVars < a.maxVar) :
    checkClauses s a settings =
      (.error (.mentioning settings.numVars (.assignsBeyond a.maxVar settings.numVars) {}), s) := by
  rw [checkClauses, Assignment.checkRange, if_pos h]

/-- A check of an assignment in range is a search, also in what it leaves of the source. -/
theorem checkClauses_within (s : σ) {settings : CheckSettings}
    (h : (a.maxVar : Int) ≤ settings.numVars) :
    checkClauses s a settings =
      ((searchFrom ⟨a, false⟩ 0 s).1.map fun found => .ofSearch a settings found.1 found.2,
        (searchFrom ⟨a, false⟩ 0 s).2) := by
  have hrange : a.checkRange settings.numVars = .ok () := if_neg (Int.not_lt.2 h)
  rw [checkClauses, hrange]
  simp only
  rcases searchFrom (⟨a, false⟩ : ClauseWatch) 0 s with ⟨_ | _, rest⟩ <;> rfl

end Search

end CnfAudit
