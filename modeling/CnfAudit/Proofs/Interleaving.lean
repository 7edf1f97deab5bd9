import CnfAudit.Proofs.ReaderSteps

/-!
# Interleaved iterators

An iterator that has given a value and can go on holds the reader in the body, and no other one
begins while the reader is there.
-/

namespace CnfAudit.Certificate

/-- A reader, the passes of the iterators that have been made on it, and the values that they have
given so far, each with the number of its iterator. -/
structure Shared where
  reader : Reader
  passes : List Pass := []
  given : List (Nat × Nat × Literal) := []

/-- What can be done with the iterators of a reader. -/
inductive Move
  | iter
  | next (i : Nat)
  | rest (i : Nat)
  | close (i : Nat)

namespace Shared

/-- An iterator has gone on: it has given some values and is at another place. -/
def put (s : Shared) (i : Nat) (values : List (Nat × Literal)) (r : Reader) (p : Pass) : Shared :=
  ⟨r, s.passes.set i p, s.given ++ values.map (i, ·)⟩

/-- The value of a step, if there is one. -/
def valueOf (result : Except Fault (Option (Nat × Literal))) : List (Nat × Literal) :=
  result.toOption.join.toList

/-- Makes a move; an iterator that has not been made does not move. -/
def move (s : Shared) : Move → Shared
  | .iter => { s with passes := s.passes ++ [.fresh] }
  | .next i =>
      match s.passes[i]? with
      | none => s
      | some p =>
          let step := s.reader.next p
          s.put i (valueOf step.result) step.reader step.pass
  | .rest i =>
      match s.passes[i]? with
      | none => s
      | some p =>
          let drained := s.reader.drain p
          s.put i drained.state drained.reader drained.pass
  | .close i => { s with passes := s.passes.set i .finished }

def run (s : Shared) (moves : List Move) : Shared := moves.foldl move s

section Moves

variable {s : Shared} {i : Nat} {p : Pass}

theorem move_next_of_pass (h : s.passes[i]? = some p) :
    s.move (.next i) = s.put i (valueOf (s.reader.next p).result) (s.reader.next p).reader
      (s.reader.next p).pass := by
  simp only [move, h]

theorem move_rest_of_pass (h : s.passes[i]? = some p) :
    s.move (.rest i) = s.put i (s.reader.drain p).state (s.reader.drain p).reader
      (s.reader.drain p).pass := by
  simp only [move, h]

theorem getElem?_put (h : s.passes[i]? = some p) (values : List (Nat × Literal)) (r : Reader)
    (q : Pass) : (s.put i values r q).passes[i]? = some q := by
  obtain ⟨hi, -⟩ := List.getElem?_eq_some_iff.1 h
  exact List.getElem?_set_self hi

theorem put_put (values more : List (Nat × Literal)) (r t : Reader) (q u : Pass) :
    (s.put i values r q).put i more t u = s.put i (values ++ more) t u := by
  simp [put]

theorem move_rest_eq_run (h : s.passes[i]? = some p) :
    ∃ n, s.move (.rest i) = s.run (List.replicate n (.next i)) := by
  rw [move_rest_of_pass h]
  generalize hr : s.reader = r at *
  induction r, p using Reader.induction generalizing s with
  | failed r p fault t q hnext =>
      refine ⟨1, ?_⟩
      rw [Reader.drain_of_fault hnext]
      show _ = s.move (.next i)
      rw [move_next_of_pass h, hr, hnext]
      rfl
  | ended r p t q hnext =>
      refine ⟨1, ?_⟩
      rw [Reader.drain_of_end hnext]
      show _ = s.move (.next i)
      rw [move_next_of_pass h, hr, hnext]
      rfl
  | given r p v t q hnext ih =>
      obtain ⟨n, hn⟩ := ih (getElem?_put h [v] t q) rfl
      refine ⟨n + 1, ?_⟩
      have hfirst : s.move (.next i) = s.put i [v] t q := by
        rw [move_next_of_pass h, hr, hnext]
        rfl
      have hsteps : s.run (List.replicate (n + 1) (.next i)) =
          (s.put i [v] t q).run (List.replicate n (.next i)) := by
        rw [List.replicate_succ, ← hfirst]
        rfl
      rw [hsteps, ← hn, put_put, Reader.drain_of_value hnext]
      rfl

end Moves

section Preservation

variable {P : Shared → Prop} (hiter : ∀ s, P s → P (s.move .iter))
  (hnext : ∀ s i, P s → P (s.move (.next i))) (hclose : ∀ s i, P s → P (s.move (.close i)))

include hnext in
private theorem run_next_preserves {s : Shared} (hs : P s) (i n : Nat) :
    P (s.run (List.replicate n (.next i))) := by
  induction n generalizing s with
  | zero => exact hs
  | succ n ih => exact ih (hnext s i hs)

include hiter hnext hclose

/-- What making an iterator, one step and closing preserve, every run preserves. -/
theorem run_preserves {s : Shared} (hs : P s) (moves : List Move) : P (s.run moves) := by
  induction moves generalizing s with
  | nil => exact hs
  | cons m moves ih =>
      apply ih
      cases m with
      | iter => exact hiter s hs
      | next i => exact hnext s i hs
      | close i => exact hclose s i hs
      | rest i =>
          cases hpass : s.passes[i]? with
          | none =>
              rw [move, hpass]
              exact hs
          | some p =>
              obtain ⟨n, hn⟩ := move_rest_eq_run hpass
              rw [hn]
              exact run_next_preserves hnext hs i n

end Preservation

/-- The invariant of the iterators on a reader that began as `first`. An active pass holds the
reader in the body, and it is the one that has given values; the values that it still has follow on
those. -/
structure Invariant (first : Reader) (s : Shared) : Prop where
  later : first.Later s.reader
  preamble : s.reader.phase = .preamble → s.reader.statusLine = none ∧ s.given = []
  active : ∀ (i : Nat) (p : Pass), s.passes[i]? = some p → p.IsActive →
    s.reader.phase = .body ∧ ∃ v, (i, v) ∈ s.given
  one : ∀ y ∈ s.given, ∀ z ∈ s.given, y.1 = z.1
  values : first.oneShot = false → s.given.map Prod.snd <+: (first.outcome .fresh).1
  ahead : first.oneShot = false → ∀ (i : Nat) (p : Pass), s.passes[i]? = some p → p.IsActive →
    s.given.map Prod.snd ++ (s.reader.outcome p).1 = (first.outcome .fresh).1

namespace Invariant

variable {first : Reader} {s : Shared} {i j : Nat} {p q : Pass}

private theorem eq_of_active (h : s.Invariant first) (hp : s.passes[i]? = some p)
    (hq : s.passes[j]? = some q) (hactive : p.IsActive) (hactive' : q.IsActive) : i = j := by
  obtain ⟨-, v, hv⟩ := h.active i p hp hactive
  obtain ⟨-, w, hw⟩ := h.active j q hq hactive'
  exact h.one _ hv _ hw

private theorem reader_next_of_other (h : s.Invariant first) (hp : s.passes[i]? = some p)
    (hq : s.passes[j]? = some q) (hactive : q.IsActive) (hne : j ≠ i) :
    (s.reader.next p).reader = s.reader := by
  have hbody := (h.active j q hq hactive).1
  cases p with
  | finished => rfl
  | fresh =>
      rw [Reader.next, if_neg (by simp [hbody])]
      rfl
  | reading line tokens rest => exact absurd (h.eq_of_active hq hp hactive trivial) hne

private theorem active_or_preamble {v : Nat × Literal}
    (hv : (s.reader.next p).result = .ok (some v)) :
    p.IsActive ∨ (p = .fresh ∧ s.reader.phase = .preamble) := by
  cases p with
  | finished => simp [Reader.next] at hv
  | fresh =>
      by_cases hphase : s.reader.phase = .preamble
      · exact .inr ⟨rfl, hphase⟩
      · simp [Reader.next, hphase, Reader.fail] at hv
  | reading line tokens rest => exact .inl trivial

private theorem owner (h : s.Invariant first) (hp : s.passes[i]? = some p) {v : Nat × Literal}
    (hv : (s.reader.next p).result = .ok (some v)) : ∀ y ∈ s.given, y.1 = i := by
  intro y hy
  rcases active_or_preamble hv with hactive | ⟨-, hphase⟩
  · obtain ⟨-, w, hw⟩ := h.active i p hp hactive
    exact h.one y hy _ hw
  · simp [(h.preamble hphase).2] at hy

theorem outcome_fresh (h : s.Invariant first) (hshared : first.oneShot = false)
    (hbegin : first.phase = .preamble) (hphase : s.reader.phase = .preamble) :
    s.reader.outcome .fresh = first.outcome .fresh := by
  have hstatus := h.later.preamble hphase
  have hinput := h.later.input hshared
  simp only [Reader.outcome, hphase, hbegin, if_true, Reader.linesFor, h.later.source,
    h.later.numVars, hinput, hstatus]

private theorem follows (h : s.Invariant first) (hshared : first.oneShot = false)
    (hbegin : first.phase = .preamble) (hp : s.passes[i]? = some p) {v : Nat × Literal}
    (hv : (s.reader.next p).result = .ok (some v)) :
    s.given.map Prod.snd ++ (s.reader.outcome p).1 = (first.outcome .fresh).1 := by
  rcases active_or_preamble hv with hactive | ⟨rfl, hphase⟩
  · exact h.ahead hshared i p hp hactive
  · rw [h.outcome_fresh hshared hbegin hphase, (h.preamble hphase).2]
    rfl

private theorem pass_of_set (h : (s.passes.set i p)[j]? = some q) :
    (i = j ∧ q = p) ∨ (i ≠ j ∧ s.passes[j]? = some q) := by
  rw [List.getElem?_set] at h
  split at h
  · rename_i hij
    split at h
    · exact .inl ⟨hij, (Option.some.inj h).symm⟩
    · simp at h
  · rename_i hij
    exact .inr ⟨hij, h⟩

private theorem next_value (h : s.Invariant first) (hbegin : first.phase = .preamble)
    (hp : s.passes[i]? = some p) {v : Nat × Literal}
    (hv : (s.reader.next p).result = .ok (some v)) :
    (s.put i [v] (s.reader.next p).reader (s.reader.next p).pass).Invariant first := by
  have hadvances := Reader.advances_next fun hactive => (h.active i p hp hactive).1
  have howner := h.owner hp hv
  have hbody := (hadvances.value v hv).1
  have hmine : ∀ y ∈ s.given ++ [(i, v)], y.1 = i := by
    intro y hy
    rcases List.mem_append.1 hy with hy | hy
    · exact howner y hy
    · rw [List.mem_singleton.1 hy]
  have hahead (hshared : first.oneShot = false) :
      (s.given ++ [(i, v)]).map Prod.snd ++
          ((s.reader.next p).reader.outcome (s.reader.next p).pass).1 =
        (first.outcome .fresh).1 := by
    rw [← h.follows hshared hbegin hp hv, Reader.outcome_of_value hv, List.map_append,
      List.append_assoc]
    rfl
  -- any other active pass would have given the values before
  have hothers (j : Nat) (q : Pass)
      (hq : (s.passes.set i (s.reader.next p).pass)[j]? = some q) (hactive : q.IsActive) :
      i = j ∧ q = (s.reader.next p).pass := by
    rcases pass_of_set hq with hmoved | ⟨hne, hold⟩
    · exact hmoved
    · obtain ⟨-, w, hw⟩ := h.active j q hold hactive
      exact absurd (howner _ hw).symm hne
  refine ⟨h.later.trans hadvances.later, ?_, ?_, ?_, ?_, ?_⟩
  · intro hphase
    rw [show (s.reader.next p).reader.phase = .preamble from hphase] at hbody
    simp at hbody
  · intro j q hq hactive
    obtain ⟨rfl, -⟩ := hothers j q hq hactive
    exact ⟨hbody, v, List.mem_append_right _ List.mem_cons_self⟩
  · intro y hy z hz
    rw [hmine y hy, hmine z hz]
  · intro hshared
    exact ⟨_, hahead hshared⟩
  · intro hshared j q hq hactive
    obtain ⟨rfl, rfl⟩ := hothers j q hq hactive
    exact hahead hshared

private theorem next_none (h : s.Invariant first) (hp : s.passes[i]? = some p)
    (hnone : ∀ v, (s.reader.next p).result ≠ .ok (some v)) :
    (s.put i [] (s.reader.next p).reader (s.reader.next p).pass).Invariant first := by
  have hadvances := Reader.advances_next fun hactive => (h.active i p hp hactive).1
  have hgiven : (s.put i [] (s.reader.next p).reader (s.reader.next p).pass).given = s.given :=
    List.append_nil _
  have hothers (j : Nat) (q : Pass)
      (hq : (s.passes.set i (s.reader.next p).pass)[j]? = some q) (hactive : q.IsActive) :
      s.passes[j]? = some q ∧ (s.reader.next p).reader = s.reader := by
    rcases pass_of_set hq with ⟨-, rfl⟩ | ⟨hne, hold⟩
    · rw [hadvances.ended hnone] at hactive
      exact hactive.elim
    · exact ⟨hold, h.reader_next_of_other hp hold hactive (Ne.symm hne)⟩
  refine ⟨h.later.trans hadvances.later, ?_, ?_, ?_, ?_, ?_⟩
  · intro hphase
    have hold := h.preamble (hadvances.later.preamble_of_le hphase)
    exact ⟨(hadvances.later.preamble hphase).trans hold.1, hgiven.trans hold.2⟩
  · intro j q hq hactive
    obtain ⟨hold, hreader⟩ := hothers j q hq hactive
    rw [hgiven]
    show (s.reader.next p).reader.phase = .body ∧ _
    rw [hreader]
    exact h.active j q hold hactive
  · rw [hgiven]
    exact h.one
  · rw [hgiven]
    exact h.values
  · intro hshared j q hq hactive
    obtain ⟨hold, hreader⟩ := hothers j q hq hactive
    rw [hgiven]
    show _ ++ ((s.reader.next p).reader.outcome q).1 = _
    rw [hreader]
    exact h.ahead hshared j q hold hactive

theorem next (h : s.Invariant first) (hbegin : first.phase = .preamble) (i : Nat) :
    (s.move (.next i)).Invariant first := by
  cases hp : s.passes[i]? with
  | none =>
      rw [move, hp]
      exact h
  | some p =>
      rw [move_next_of_pass hp]
      by_cases hvalue : ∃ v, (s.reader.next p).result = .ok (some v)
      · obtain ⟨v, hv⟩ := hvalue
        have hone : valueOf (s.reader.next p).result = [v] := by
          rw [hv]
          rfl
        rw [hone]
        exact h.next_value hbegin hp hv
      · have hnone : valueOf (s.reader.next p).result = [] := by
          rcases hresult : (s.reader.next p).result with _ | _ | v
          · rfl
          · rfl
          · exact absurd ⟨v, hresult⟩ hvalue
        rw [hnone]
        exact h.next_none hp fun v hv => hvalue ⟨v, hv⟩

private theorem of_passes (h : s.Invariant first) {passes : List Pass}
    (hold : ∀ (j : Nat) (q : Pass), passes[j]? = some q → q.IsActive →
      s.passes[j]? = some q) :
    Invariant first { s with passes } where
  later := h.later
  preamble := h.preamble
  active j q hq hactive := h.active j q (hold j q hq hactive) hactive
  one := h.one
  values := h.values
  ahead hshared j q hq hactive := h.ahead hshared j q (hold j q hq hactive) hactive

theorem iter (h : s.Invariant first) : (s.move .iter).Invariant first := by
  apply h.of_passes
  intro j q hq hactive
  rw [List.getElem?_append] at hq
  split at hq
  · exact hq
  · rw [List.getElem?_singleton] at hq
    split at hq
    · rw [← Option.some.inj hq] at hactive
      exact hactive.elim
    · simp at hq

theorem close (h : s.Invariant first) (i : Nat) : (s.move (.close i)).Invariant first := by
  apply h.of_passes
  intro j q hq hactive
  rcases pass_of_set hq with ⟨-, rfl⟩ | ⟨-, hold⟩
  · exact hactive.elim
  · exact hold

theorem later_next (h : s.Invariant first) (i : Nat) :
    s.reader.Later (s.move (.next i)).reader := by
  cases hp : s.passes[i]? with
  | none =>
      rw [move, hp]
      exact .refl _
  | some p =>
      rw [move_next_of_pass hp]
      exact (Reader.advances_next fun hactive => (h.active i p hp hactive).1).later

/-- The invariant holds of every run, and the reader goes on. -/
theorem run (h : s.Invariant first) (hbegin : first.phase = .preamble) (moves : List Move) :
    (s.run moves).Invariant first ∧ s.reader.Later (s.run moves).reader := by
  apply run_preserves (P := fun t : Shared => t.Invariant first ∧ s.reader.Later t.reader)
  · exact fun t ht => ⟨ht.1.iter, ht.2⟩
  · exact fun t i ht => ⟨ht.1.next hbegin i, ht.2.trans (ht.1.later_next i)⟩
  · exact fun t i ht => ⟨ht.1.close i, ht.2⟩
  · exact ⟨h, .refl _⟩

end Invariant

theorem invariant_begin {first : Reader} (hstatus : first.statusLine = none) :
    (⟨first, [], []⟩ : Shared).Invariant first where
  later := .refl first
  preamble _ := ⟨hstatus, rfl⟩
  active := by simp
  one := by simp
  values _ := List.nil_prefix
  ahead := by simp

end Shared

/-- However the iterators of a reader are interleaved, at most one of them gives values. The phase
never goes back, a status line that has been met stays the same, and there is none in the preamble.
If every iterator begins anew, the values that are given are the first of those that a new reader
would give, with the same line numbers. -/
theorem iterators_interleaved (source : Option String) (numVars : Option Int) (input : LineSource)
    (oneShot : Bool) (moves more : List Move) :
    let first : Reader := { source, numVars, input, oneShot }
    let s := Shared.run ⟨first, [], []⟩ moves
    (∀ y ∈ s.given, ∀ z ∈ s.given, y.1 = z.1) ∧
    s.reader.phase.rank ≤ (s.run more).reader.phase.rank ∧
    (∀ n, s.reader.statusLine = some n → (s.run more).reader.statusLine = some n) ∧
    (s.reader.phase = .preamble → s.reader.statusLine = none) ∧
    (oneShot = false → s.given.map Prod.snd <+: (first.drain .fresh).state) := by
  intro first s
  have hbegin : first.phase = .preamble := rfl
  have hinvariant : s.Invariant first := ((Shared.invariant_begin rfl).run hbegin moves).1
  have hlater := (hinvariant.run hbegin more).2
  refine ⟨hinvariant.one, hlater.rank, hlater.status, fun h => (hinvariant.preamble h).1, ?_⟩
  intro hshared
  rw [Reader.state_drain]
  exact hinvariant.values hshared

-- the second iterator is refused at its first step, and the first one goes on
example :
    let first : Reader :=
      { source := none, numVars := none, input := ⟨["v 1 -2", "s SATISFIABLE"], .complete⟩ }
    ((Shared.run ⟨first, [], []⟩ [.iter, .iter, .next 0, .rest 1, .rest 0]).given.map fun y =>
      (y.1, y.2.1, y.2.2.toInt)) = [(0, 1, 1), (0, 1, -2)] := by decide +kernel

end CnfAudit.Certificate
