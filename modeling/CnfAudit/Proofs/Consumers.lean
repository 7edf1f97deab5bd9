import CnfAudit.Proofs.Draining

/-!
# Consumers of a stream

A source can be recorded, with every pull that is made on it, and no consumer can tell.
-/

namespace CnfAudit

section Simulation

variable {σ τ : Type} [ClauseSource σ] [ClauseSource τ]

/-- Related sources answer a pull alike and stay related, as long as the pull leaves the first one
in good order. A source is in good order before a pull if it is behind it. -/
structure Simulates (R : σ → τ → Prop) (Good : σ → Prop) : Prop where
  back : ∀ s, Good (ClauseSource.pull s).2 → Good s
  answer : ∀ {s t}, R s t → Good (ClauseSource.pull s).2 →
    (ClauseSource.pull s).1 = (ClauseSource.pull t).1
  step : ∀ {s t}, R s t → Good (ClauseSource.pull s).2 →
    R (ClauseSource.pull s).2 (ClauseSource.pull t).2

namespace Simulates

variable {R : σ → τ → Prop} {Good : σ → Prop} (h : Simulates R Good)

include h

private theorem pulled {s s' : σ} {t : τ} {r : Except Fault (Option Clause)} (hst : R s t)
    (hpull : ClauseSource.pull s = (r, s')) (hgood : Good s') :
    ∃ t', ClauseSource.pull t = (r, t') ∧ R s' t' := by
  have hgood' : Good (ClauseSource.pull s).2 := by rwa [hpull]
  have hanswer := h.answer hst hgood'
  have hstep := h.step hst hgood'
  rw [hpull] at hanswer hstep
  exact ⟨(ClauseSource.pull t).2, Prod.ext hanswer.symm rfl, hstep⟩

private theorem good_of_pull {s s' : σ} {r : Except Fault (Option Clause)}
    (hpull : ClauseSource.pull s = (r, s')) (hgood : Good s') : Good s :=
  h.back s (by rwa [hpull])

private theorem good_of_drain {s : σ} (hgood : Good (drain s).source) : Good s := by
  induction s using ClauseSource.induction with
  | failed s fault t hpull =>
      rw [drain_of_fault hpull] at hgood
      exact h.good_of_pull hpull hgood
  | ended s t hpull =>
      rw [drain_of_end hpull] at hgood
      exact h.good_of_pull hpull hgood
  | pulled s c t hpull ih =>
      rw [drain_of_clause hpull] at hgood
      exact h.good_of_pull hpull (ih hgood)

theorem drained {s : σ} {t : τ} (hst : R s t) (hgood : Good (drain s).source) :
    (drain s).clauses = (drain t).clauses ∧ (drain s).fault = (drain t).fault ∧
      R (drain s).source (drain t).source := by
  induction s using ClauseSource.induction generalizing t with
  | failed s fault s' hpull =>
      rw [drain_of_fault hpull] at hgood
      obtain ⟨t', hpull', hrel⟩ := h.pulled hst hpull hgood
      rw [drain_of_fault hpull, drain_of_fault hpull']
      exact ⟨rfl, rfl, hrel⟩
  | ended s s' hpull =>
      rw [drain_of_end hpull] at hgood
      obtain ⟨t', hpull', hrel⟩ := h.pulled hst hpull hgood
      rw [drain_of_end hpull, drain_of_end hpull']
      exact ⟨rfl, rfl, hrel⟩
  | pulled s c s' hpull ih =>
      rw [drain_of_clause hpull] at hgood
      obtain ⟨t', hpull', hrel⟩ := h.pulled hst hpull (h.good_of_drain hgood)
      obtain ⟨hclauses, hfault, hrest⟩ := ih hrel hgood
      rw [drain_of_clause hpull, drain_of_clause hpull']
      exact ⟨congrArg (c :: ·) hclauses, hfault, hrest⟩

variable {a : Assignment}

private theorem good_of_searchFrom {n : Nat} {s : σ}
    (hgood : Good (searchFrom ⟨a, false⟩ n s).2) : Good s := by
  induction s using ClauseSource.induction generalizing n with
  | failed s fault t hpull =>
      rw [searchFrom_of_fault a n hpull] at hgood
      exact h.good_of_pull hpull hgood
  | ended s t hpull =>
      rw [searchFrom_of_end a n hpull] at hgood
      exact h.good_of_pull hpull hgood
  | pulled s c t hpull ih =>
      rw [searchFrom_of_clause a n hpull] at hgood
      apply h.good_of_pull hpull
      split at hgood
      · exact ih hgood
      · exact hgood

theorem searched {n : Nat} {s : σ} {t : τ} (hst : R s t)
    (hgood : Good (searchFrom ⟨a, false⟩ n s).2) :
    (searchFrom ⟨a, false⟩ n s).1 = (searchFrom ⟨a, false⟩ n t).1 ∧
      R (searchFrom ⟨a, false⟩ n s).2 (searchFrom ⟨a, false⟩ n t).2 := by
  induction s using ClauseSource.induction generalizing n t with
  | failed s fault s' hpull =>
      rw [searchFrom_of_fault a n hpull] at hgood
      obtain ⟨t', hpull', hrel⟩ := h.pulled hst hpull hgood
      rw [searchFrom_of_fault a n hpull, searchFrom_of_fault a n hpull']
      exact ⟨rfl, hrel⟩
  | ended s s' hpull =>
      rw [searchFrom_of_end a n hpull] at hgood
      obtain ⟨t', hpull', hrel⟩ := h.pulled hst hpull hgood
      rw [searchFrom_of_end a n hpull, searchFrom_of_end a n hpull']
      exact ⟨rfl, hrel⟩
  | pulled s c s' hpull ih =>
      rw [searchFrom_of_clause a n hpull] at hgood ⊢
      by_cases hc : a.satisfiesClause c = true
      · rw [if_pos hc] at hgood ⊢
        obtain ⟨t', hpull', hrel⟩ := h.pulled hst hpull (h.good_of_searchFrom hgood)
        rw [searchFrom_of_clause a n hpull', if_pos hc]
        exact ih hrel hgood
      · rw [if_neg hc] at hgood ⊢
        obtain ⟨t', hpull', hrel⟩ := h.pulled hst hpull hgood
        rw [searchFrom_of_clause a n hpull', if_neg hc]
        exact ⟨rfl, hrel⟩

theorem checked {settings : CheckSettings} {s : σ} {t : τ} (hst : R s t)
    (hgood : Good (checkClauses s a settings).2) :
    (checkClauses s a settings).1 = (checkClauses t a settings).1 ∧
      R (checkClauses s a settings).2 (checkClauses t a settings).2 := by
  rcases Int.lt_or_le settings.numVars a.maxVar with hbeyond | hwithin
  · rw [checkClauses_beyond a s hbeyond, checkClauses_beyond a t hbeyond]
    exact ⟨rfl, hst⟩
  · rw [checkClauses_within a s hwithin] at hgood ⊢
    obtain ⟨hfound, hrest⟩ := h.searched hst hgood
    rw [checkClauses_within a t hwithin, hfound]
    exact ⟨rfl, hrest⟩

end Simulates

end Simulation

/-- What a consumer asks a stream for. -/
inductive Command
  | next
  | rest
  | close
  | check (a : Assignment) (strictUnassigned : Option Bool)

/-- What a consumer gets. -/
inductive Answer
  | pulled (result : Except Fault (Option Clause))
  | drained (clauses : List Clause) (fault : Option Fault)
  | closed
  | checked (result : Except Fault Verdict)

/-- What a check of a stream with this header is told. -/
def Header.checkSettings (header : Header) (strictUnassigned : Option Bool) : CheckSettings where
  numVars := header.numVars
  numClauses := some header.numClauses
  mode := some Mode.stream.name
  strictUnassigned := strictUnassigned

/-- Carries out a command on a source that reads a formula with this header. -/
def Command.perform {σ : Type} [ClauseSource σ] (close : σ → σ) (header : Header) (s : σ) :
    Command → Answer × σ
  | .next => (.pulled (ClauseSource.pull s).1, (ClauseSource.pull s).2)
  | .rest => (.drained (drain s).clauses (drain s).fault, (drain s).source)
  | .close => (.closed, close s)
  | .check a strictUnassigned =>
      (.checked (checkClauses s a (header.checkSettings strictUnassigned)).1,
        (checkClauses s a (header.checkSettings strictUnassigned)).2)

/-- Related sources carry out a command alike. A command to close them is the only one that is not
made of pulls. -/
theorem Simulates.performed {σ τ : Type} [ClauseSource σ] [ClauseSource τ] {R : σ → τ → Prop}
    {Good : σ → Prop} (h : Simulates R Good) {close : σ → σ} {close' : τ → τ} {header : Header}
    {s : σ} {t : τ} (hst : R s t) {command : Command}
    (hclose : command = .close → R (close s) (close' t))
    (hgood : Good (command.perform close header s).2) :
    (command.perform close header s).1 = (command.perform close' header t).1 ∧
      R (command.perform close header s).2 (command.perform close' header t).2 := by
  cases command with
  | next => exact ⟨congrArg Answer.pulled (h.answer hst hgood), h.step hst hgood⟩
  | rest =>
      obtain ⟨hclauses, hfault, hrest⟩ := h.drained hst hgood
      exact ⟨by rw [Command.perform, Command.perform, hclauses, hfault], hrest⟩
  | close => exact ⟨rfl, hclose rfl⟩
  | check a strictUnassigned =>
      obtain ⟨hresult, hrest⟩ := h.checked hst hgood
      exact ⟨congrArg Answer.checked hresult, hrest⟩

theorem Command.perform_preserves {σ : Type} [ClauseSource σ] {P : σ → Prop} {close : σ → σ}
    (hpull : ∀ s, P s → P (ClauseSource.pull s).2) (hclose : ∀ s, P s → P (close s))
    (header : Header) {s : σ} (hs : P s) (command : Command) :
    P (command.perform close header s).2 := by
  have hsame : Simulates (fun s t : σ => s = t ∧ P s) fun _ => True :=
    { back := fun _ _ => trivial
      answer := fun h _ => by rw [h.1]
      step := fun h _ => ⟨by rw [h.1], hpull _ h.2⟩ }
  exact (hsame.performed ⟨rfl, hs⟩ (fun _ => ⟨rfl, hclose s hs⟩) trivial).2.2

section Series

variable {σ : Type}

/-- The clause that a pull gave, if it gave one. -/
def delivered (p : Pulled σ) : Option Clause := p.1.toOption.join

theorem delivered_eq_some_iff {p : Pulled σ} {c : Clause} :
    delivered p = some c ↔ p.1 = .ok (some c) := by
  rcases p with ⟨_ | _ | _, t⟩ <;> simp [delivered, Except.toOption]

variable [ClauseSource σ]

/-- The pulls, made one after the other, lead from the one source to the other. -/
def Series : σ → List (Pulled σ) → σ → Prop
  | s, [], t => s = t
  | s, p :: ps, t => ClauseSource.pull s = p ∧ Series p.2 ps t

theorem Series.append {s t u : σ} {ps qs : List (Pulled σ)} (hps : Series s ps t)
    (hqs : Series t qs u) : Series s (ps ++ qs) u := by
  induction ps generalizing s with
  | nil =>
      obtain rfl : s = t := hps
      exact hqs
  | cons p ps ih => exact ⟨hps.1, ih hps.2⟩

end Series

/-- A source and the pulls that have been made on it, in order. -/
structure Recorded (σ : Type) where
  source : σ
  pulls : List (Pulled σ) := []

namespace Recorded

section

variable {σ : Type}

/-- The clauses that have been pulled. -/
def clauses (r : Recorded σ) : List Clause := r.pulls.filterMap delivered

variable [ClauseSource σ]

def pull (r : Recorded σ) : Pulled (Recorded σ) :=
  let p := ClauseSource.pull r.source
  (p.1, ⟨p.2, r.pulls ++ [p]⟩)

private theorem weight_pull {r t : Recorded σ} {c : Clause} (h : r.pull = (.ok (some c), t)) :
    ClauseSource.weight t.source < ClauseSource.weight r.source := by
  rw [pull, Prod.mk.injEq] at h
  obtain ⟨hresult, rfl⟩ := h
  exact ClauseSource.weight_lt (Prod.ext hresult rfl)

instance : ClauseSource (Recorded σ) where
  pull := pull
  weight r := ClauseSource.weight r.source
  weight_lt := weight_pull

theorem pull_of_source {r : Recorded σ} {p : Pulled σ} (h : ClauseSource.pull r.source = p) :
    ClauseSource.pull r = (p.1, ⟨p.2, r.pulls ++ [p]⟩) := by
  rw [← h]
  rfl

/-- The record goes on from an earlier one with a series of pulls that leads to the source. -/
def Continues (r₀ r : Recorded σ) (s : σ) : Prop :=
  r.source = s ∧ ∃ ps, r.pulls = r₀.pulls ++ ps ∧ Series r₀.source ps s

theorem continues_self (r : Recorded σ) : Continues r r r.source :=
  ⟨rfl, [], (List.append_nil _).symm, rfl⟩

/-- A recorded source answers as the source does, and each pull goes into the record. -/
theorem simulates (r₀ : Recorded σ) : Simulates (Continues r₀) fun _ => True where
  back _ _ := trivial
  answer h _ := by rw [← h.1]; rfl
  step := by
    rintro r _ ⟨rfl, ps, hps, hseries⟩ _
    refine ⟨rfl, ps ++ [ClauseSource.pull r.source], ?_, hseries.append ⟨rfl, rfl⟩⟩
    rw [← List.append_assoc, ← hps]
    rfl

end

def close (r : Recorded ClauseStream) : Recorded ClauseStream :=
  { r with source := r.source.close }

end Recorded

namespace ClauseStream

/-- The answer to a command, and the stream behind it. -/
def obey (s : ClauseStream) (command : Command) : Answer × ClauseStream :=
  command.perform close s.header s

/-- The stream behind a series of commands. -/
def obeyAll (s : ClauseStream) (commands : List Command) : ClauseStream :=
  commands.foldl (fun s command => (s.obey command).2) s

end ClauseStream

namespace Recorded

def obey (r : Recorded ClauseStream) (command : Command) : Answer × Recorded ClauseStream :=
  command.perform close r.source.header r

def obeyAll (r : Recorded ClauseStream) (commands : List Command) : Recorded ClauseStream :=
  commands.foldl (fun r command => (r.obey command).2) r

/-- What every pull and closing preserve, every series of commands preserves. -/
theorem obeyAll_preserves {P : Recorded ClauseStream → Prop}
    (hpull : ∀ r, P r → P (ClauseSource.pull r).2) (hclose : ∀ r, P r → P r.close)
    {r : Recorded ClauseStream} (hr : P r) (commands : List Command) : P (r.obeyAll commands) := by
  induction commands generalizing r with
  | nil => exact hr
  | cons command commands ih =>
      exact ih (Command.perform_preserves hpull hclose r.source.header hr command)

theorem obey_of_ne_close (r : Recorded ClauseStream) {command : Command}
    (h : command ≠ .close) :
    (r.obey command).1 = (r.source.obey command).1 ∧
      Continues r (r.obey command).2 (r.source.obey command).2 :=
  r.simulates.performed r.continues_self (fun hclose => absurd hclose h) trivial

/-- The record changes neither the answers nor the stream. -/
theorem obey_source (r : Recorded ClauseStream) (command : Command) :
    (r.obey command).1 = (r.source.obey command).1 ∧
      (r.obey command).2.source = (r.source.obey command).2 := by
  by_cases hclose : command = .close
  · subst hclose
    exact ⟨rfl, rfl⟩
  · obtain ⟨hanswer, hcontinues⟩ := r.obey_of_ne_close hclose
    exact ⟨hanswer, hcontinues.1⟩

theorem obeyAll_source (r : Recorded ClauseStream) (commands : List Command) :
    (r.obeyAll commands).source = r.source.obeyAll commands := by
  induction commands generalizing r with
  | nil => rfl
  | cons command commands ih =>
      have hstep := (r.obey_source command).2
      exact (ih (r.obey command).2).trans (by rw [hstep]; rfl)

end Recorded

end CnfAudit
