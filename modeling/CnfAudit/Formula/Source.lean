import CnfAudit.Literal

/-!
# Sources of clauses

Clauses are pulled one at a time from a list, or from a text that is read on demand.
-/

namespace CnfAudit

abbrev Pulled (σ : Type) := Except Fault (Option Clause) × σ

class ClauseSource (σ : Type) where
  pull : σ → Pulled σ
  weight : σ → Nat
  weight_lt : ∀ {s t : σ} {c : Clause}, pull s = (.ok (some c), t) → weight t < weight s

namespace ClauseSource

def pullList : List Clause → Pulled (List Clause)
  | [] => (.ok none, [])
  | c :: cs => (.ok (some c), cs)

private theorem pullList_length {s t : List Clause} {c : Clause}
    (h : pullList s = (.ok (some c), t)) : t.length < s.length := by
  cases s with
  | nil => simp [pullList] at h
  | cons d cs =>
      simp only [pullList, Prod.mk.injEq, Except.ok.injEq, Option.some.injEq] at h
      simp [h.2]

instance : ClauseSource (List Clause) where
  pull := pullList
  weight := List.length
  weight_lt := pullList_length

@[simp] theorem pull_nil : pull ([] : List Clause) = (.ok none, []) := rfl

@[simp] theorem pull_cons (c : Clause) (cs : List Clause) :
    pull (c :: cs) = (.ok (some c), cs) := rfl

end ClauseSource

/-- What came of taking all that a source still has: the clauses in order, the fault that cut them
short if there was one, and the source that is left. -/
structure Drained (σ : Type) where
  clauses : List Clause
  fault : Option Fault
  source : σ

/-- Takes all clauses; `taken` holds those taken before, last first. -/
def drainOnto {σ : Type} [ClauseSource σ] (taken : List Clause) (s : σ) : Drained σ :=
  match h : ClauseSource.pull s with
  | (.error fault, t) => ⟨taken.reverse, some fault, t⟩
  | (.ok none, t) => ⟨taken.reverse, none, t⟩
  | (.ok (some c), t) =>
      have := ClauseSource.weight_lt h
      drainOnto (c :: taken) t
termination_by ClauseSource.weight s

def drain {σ : Type} [ClauseSource σ] (s : σ) : Drained σ := drainOnto [] s

end CnfAudit
