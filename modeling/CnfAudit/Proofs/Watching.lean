import CnfAudit.Proofs.Extensions
import Mathlib.Data.List.Induction

/-!
# Watching an assignment that grows
-/

namespace CnfAudit

namespace ClauseWatch

/-- What can happen to a watch. -/
inductive Event
  | observe (l : Literal)
  | close
  /-- A literal is recorded in the assignment being watched, or is refused. -/
  | assign (l : Literal)
deriving DecidableEq

/-- The watch behind an event. -/
def after (w : ClauseWatch) : Event → ClauseWatch
  | .observe l => (w.observe l).2
  | .close => w.close.2
  | .assign l => (w.assign l).2

def run (w : ClauseWatch) (events : List Event) : ClauseWatch := events.foldl after w

theorem run_concat (w : ClauseWatch) (events : List Event) (e : Event) :
    w.run (events ++ [e]) = (w.run events).after e := by
  rw [run, List.foldl_append, List.foldl_cons, List.foldl_nil, run]

/-- The literals that were to be recorded. -/
def assigned (events : List Event) : List Literal :=
  events.filterMap fun
    | .assign l => some l
    | _ => none

theorem assignment_run (w : ClauseWatch) (events : List Event) :
    (w.run events).assignment = w.assignment.recordEach (assigned events) := by
  induction events generalizing w with
  | nil => rfl
  | cons e events ih =>
      cases e with
      | observe l => exact ih (w.after (.observe l))
      | close => exact ih (w.after .close)
      | assign l => exact ih (w.after (.assign l))

/-- The literal was observed behind these of the events, and no clause has been closed since. -/
def ObservedAfter (events before : List Event) (l : Literal) : Prop :=
  ∃ since, events = before ++ .observe l :: since ∧ .close ∉ since

theorem not_observedAfter_nil (before : List Event) (l : Literal) : ¬ObservedAfter [] before l := by
  intro h
  obtain ⟨since, hsplit, -⟩ := h
  simp at hsplit

/-- Which literals count behind one more event: those that counted, unless it closes the clause, and
the one that it observes. -/
theorem observedAfter_concat {events before : List Event} {e : Event} {l : Literal} :
    ObservedAfter (events ++ [e]) before l ↔
      (before = events ∧ e = .observe l) ∨ (e ≠ .close ∧ ObservedAfter events before l) := by
  constructor
  · intro h
    obtain ⟨since, hsplit, hopen⟩ := h
    rcases List.eq_nil_or_concat' since with rfl | ⟨rest, last, rfl⟩
    · obtain ⟨hevents, he⟩ := List.append_inj' hsplit rfl
      exact .inl ⟨hevents.symm, List.singleton_inj.1 he⟩
    · rw [← List.cons_append, ← List.append_assoc] at hsplit
      obtain ⟨hevents, he⟩ := List.append_inj' hsplit rfl
      rw [List.mem_append, List.mem_singleton, not_or] at hopen
      rw [List.singleton_inj.1 he]
      exact .inr ⟨Ne.symm hopen.2, rest, hevents, hopen.1⟩
  · intro h
    rcases h with ⟨rfl, rfl⟩ | ⟨hne, since, rfl, hopen⟩
    · exact ⟨[], rfl, List.not_mem_nil⟩
    · refine ⟨since ++ [e], by simp, ?_⟩
      rw [List.mem_append, List.mem_singleton, not_or]
      exact ⟨hopen, Ne.symm hne⟩

section History

variable (a : Assignment)

/-- Some literal of the current clause was satisfied when it was observed. -/
def WasSatisfied (events : List Event) : Prop :=
  ∃ before l, ObservedAfter events before l ∧
    (a.recordEach (assigned before)).satisfies l = true

variable {a} {events : List Event}

theorem wasSatisfied_observe {l : Literal} :
    WasSatisfied a (events ++ [.observe l]) ↔
      WasSatisfied a events ∨ (a.recordEach (assigned events)).satisfies l = true := by
  simp only [WasSatisfied, observedAfter_concat]
  constructor
  · intro h
    obtain ⟨before, k, ⟨rfl, hk⟩ | ⟨-, hobserved⟩, hsatisfied⟩ := h
    · obtain rfl := Event.observe.inj hk
      exact .inr hsatisfied
    · exact .inl ⟨before, k, hobserved, hsatisfied⟩
  · intro h
    rcases h with ⟨before, k, hobserved, hsatisfied⟩ | hsatisfied
    · exact ⟨before, k, .inr ⟨by simp, hobserved⟩, hsatisfied⟩
    · exact ⟨events, l, .inl ⟨rfl, rfl⟩, hsatisfied⟩

theorem not_wasSatisfied_close : ¬WasSatisfied a (events ++ [.close]) := by
  simp [WasSatisfied, observedAfter_concat]

theorem wasSatisfied_assign {l : Literal} :
    WasSatisfied a (events ++ [.assign l]) ↔ WasSatisfied a events := by
  simp [WasSatisfied, observedAfter_concat]

/-- The flag says whether some literal of the current clause was satisfied when it was observed. -/
theorem satisfied_run_iff :
    ((⟨a, false⟩ : ClauseWatch).run events).satisfied = true ↔ WasSatisfied a events := by
  induction events using List.reverseRecOn with
  | nil => simp [run, WasSatisfied, not_observedAfter_nil]
  | append_singleton events e ih =>
      rw [run_concat]
      cases e with
      | observe l =>
          rw [wasSatisfied_observe, ← ih, ← assignment_run ⟨a, false⟩]
          exact Bool.or_eq_true_iff
      | close =>
          rw [iff_false_intro not_wasSatisfied_close]
          exact iff_false_intro Bool.false_ne_true
      | assign l =>
          rw [wasSatisfied_assign, ← ih]
          rfl

/-- What was satisfied when it was observed still is. -/
theorem WasSatisfied.still (h : WasSatisfied a events) :
    ∃ before l, ObservedAfter events before l ∧
      (a.recordEach (assigned events)).satisfies l = true := by
  obtain ⟨before, l, ⟨since, rfl, hopen⟩, hsatisfied⟩ := h
  refine ⟨before, l, ⟨since, rfl, hopen⟩, ?_⟩
  rw [assigned, List.filterMap_append, Assignment.recordEach, List.foldl_append]
  exact (Assignment.ExtendedBy.recordEach _ _).satisfies hsatisfied

end History

/-- A watch never goes stale while its assignment is extended. However observing, closing and
recording follow on each other, refused literals included, the watched assignment is the one that
the recorded literals lead to; the flag is set exactly if some literal observed since the last close
was satisfied by the assignment as it stood then; and some literal observed since the last close is
then satisfied by the assignment as it stands now. To observe gives the new flag, and to close gives
the flag that it resets. -/
theorem watch_never_stale (a : Assignment) (events : List Event) :
    let w := (⟨a, false⟩ : ClauseWatch).run events
    w.assignment = a.recordEach (assigned events) ∧
    (w.satisfied = true ↔ ∃ before l, ObservedAfter events before l ∧
      (a.recordEach (assigned before)).satisfies l = true) ∧
    (w.satisfied = true → ∃ before l, ObservedAfter events before l ∧
      w.assignment.satisfies l = true) ∧
    (∀ l, (w.observe l).1 = (w.observe l).2.satisfied) ∧
    w.close.1 = w.satisfied ∧ w.close.2.satisfied = false := by
  intro w
  have hassignment : w.assignment = a.recordEach (assigned events) := assignment_run _ events
  refine ⟨hassignment, satisfied_run_iff, ?_, fun _ => rfl, rfl, rfl⟩
  intro hflag
  rw [hassignment]
  exact (satisfied_run_iff.1 hflag).still

-- a literal that is satisfied only after it was observed does not set the flag
example :
    let one : Literal := .ofVar 1 true (by decide)
    let w := (⟨.empty, false⟩ : ClauseWatch).run [.observe one, .assign one]
    w.satisfied = false ∧ w.assignment.satisfies one = true := by
  decide +kernel

end ClauseWatch

end CnfAudit
