import CnfAudit.Assignment.Unassigned
import CnfAudit.Proofs.FirstPolarity
import Mathlib.Data.List.Range

/-!
# Variables without a value

They are found in the table and behind its end, and the length of the table has no part in what is
reported.
-/

namespace CnfAudit

namespace Assignment

/-- The variables up to `n` that have no value, in ascending order. -/
def openVars (a : Assignment) (n : Nat) : List Nat :=
  (List.range' 1 n).filter fun i => (a.get i).isNone

section OpenVars

variable {a : Assignment} (hsize : 0 < a.table.size) (n : Nat)

include hsize

private theorem range'_eq_append_beyondTable :
    List.range' 1 n = List.range' 1 (min (n + 1) a.table.size - 1) ++ a.beyondTable (n + 1) := by
  rw [beyondTable]
  rcases Nat.le_total (n + 1) a.table.size with hle | hle
  · have hnone : ((n : Int) + 1 - a.table.size).toNat = 0 := by omega
    rw [Nat.min_eq_left hle, hnone]
    simp
  · have hcount : ((n : Int) + 1 - a.table.size).toNat = n + 1 - a.table.size := by omega
    have hfirst : a.table.size = 1 + (a.table.size - 1) := by omega
    rw [Nat.min_eq_right hle, hcount]
    conv_rhs => rw [hfirst]
    rw [Nat.add_sub_cancel_left, List.range'_append_1]
    congr 1
    omega

private theorem openSlots_append_beyondTable :
    a.openSlots n ++ a.beyondTable (n + 1) = a.openVars n := by
  have hstop : stopIndex a.table.size ((n : Int) + 1) = min (n + 1) a.table.size := by
    rw [stopIndex, if_neg (by omega)]
    congr 1
  have hbeyond : (a.beyondTable (n + 1)).filter (fun i : Nat => (a.get i).isNone) =
      a.beyondTable (n + 1) := by
    rw [List.filter_eq_self]
    intro i hi
    rw [beyondTable, List.mem_range'_1] at hi
    simp [get_natCast, Array.getElem?_eq_none hi.1]
  rw [openVars, range'_eq_append_beyondTable hsize, List.filter_append, hbeyond, openSlots, hstop]
  simp only [get_natCast]

theorem unassignedCount_eq : a.unassignedCount n = (a.openVars n).length := by
  rw [← openSlots_append_beyondTable hsize, unassignedCount, List.length_append, beyondTable,
    List.length_range']

theorem unassignedVars_eq (limit : Nat) :
    a.unassignedVars n (some limit) = (a.openVars n).take limit := by
  rw [← openSlots_append_beyondTable hsize, unassignedVars]
  split
  · rename_i hle
    have hstop : stopIndex (a.openSlots n).length limit = limit := by
      rw [stopIndex, if_neg (by omega)]
      omega
    rw [hstop, List.take_append_of_le_length (by omega)]
  · rename_i hgt
    have htake : (a.beyondTable (n + 1)).take (limit - (a.openSlots n).length) =
        a.beyondTable (min (n + 1) (a.table.size + limit - (a.openSlots n).length)) := by
      apply List.ext_getElem
      · simp only [beyondTable, List.length_take, List.length_range']
        omega
      · simp [beyondTable]
    rw [List.take_append, List.take_of_length_le (by omega), htake]

theorem unassignedVars_none_eq : a.unassignedVars n none = a.openVars n := by
  rw [← openSlots_append_beyondTable hsize, unassignedVars]

end OpenVars

end Assignment

/-- The variables up to `n` that are listed with neither sign, in ascending order. -/
def unlisted (n : Nat) (values : List Int) : List Nat :=
  (List.range' 1 n).filter fun x : Nat => (x : Int) ∉ values ∧ -(x : Int) ∉ values

theorem length_unlisted_add_card {n : Nat} {values : List Int}
    (h : ∀ v ∈ values, v ≠ 0 ∧ v.natAbs ≤ n) :
    (unlisted n values).length + (values.map Int.natAbs).toFinset.card = n := by
  let isUnlisted (x : Nat) : Bool := (x : Int) ∉ values ∧ -(x : Int) ∉ values
  have hsplit : (List.range' 1 n).length =
      (unlisted n values).length + ((List.range' 1 n).filter (!isUnlisted ·)).length :=
    List.length_eq_length_filter_add isUnlisted
  have hlisted : ((List.range' 1 n).filter (!isUnlisted ·)).toFinset =
      (values.map Int.natAbs).toFinset := by
    ext x
    simp only [List.mem_toFinset, List.mem_filter, List.mem_range'_1, List.mem_map,
      Int.natAbs_eq_iff, isUnlisted]
    constructor
    · rintro ⟨-, hx⟩
      rcases (by simpa [not_and_or] using hx : (x : Int) ∈ values ∨ -(x : Int) ∈ values) with
        hx | hx
      · exact ⟨x, hx, .inl rfl⟩
      · exact ⟨-x, hx, .inr rfl⟩
    · rintro ⟨v, hv, hx⟩
      have hrange := h v hv
      refine ⟨by omega, ?_⟩
      rcases hx with rfl | rfl
      · simp [hv]
      · simp [hv]
  have hnodup : ((List.range' 1 n).filter (!isUnlisted ·)).Nodup :=
    List.Nodup.filter _ (List.nodup_range' ..)
  rw [List.length_range', ← List.toFinset_card_of_nodup hnodup, hlisted] at hsplit
  exact hsplit.symm

namespace Assignment

variable {a : Assignment} {n : Nat}

private theorem openVars_eq_unlisted_of_get {values : List Int}
    (h : ∀ x : Nat, a.get x = none ↔ (x : Int) ∉ values ∧ -(x : Int) ∉ values) (n : Nat) :
    a.openVars n = unlisted n values := by
  apply List.filter_congr
  intro x _
  rw [Bool.eq_iff_iff, Option.isNone_iff_eq_none, h, decide_eq_true_iff]

/-- An assignment leaves open what the recorded literals do not list. -/
theorem openVars_eq_unlisted {ls : List Literal} (h : assignAll none empty ls = .ok a) (n : Nat) :
    a.openVars n = unlisted n (ls.map Literal.toInt) :=
  openVars_eq_unlisted_of_get (get_eq_none_iff h) n

private theorem openVars_eq_unlisted_literals (a : Assignment) (n : Nat) :
    a.openVars n = unlisted n (a.literals.map Literal.toInt) := by
  apply openVars_eq_unlisted_of_get
  intro x
  simp only [List.mem_map, Literal.toInt_eq_natCast, Literal.toInt_eq_neg,
    ← get_eq_some_iff_literal]
  rcases a.get x with _ | _ | _ <;> simp

/-- The variables left open and those with a value make up all of them, if none is out of range. -/
theorem Reachable.length_openVars_add_size (ha : a.Reachable) (h : a.maxVar ≤ n) :
    (a.openVars n).length + a.size = n := by
  have hrange : ∀ v ∈ a.literals.map Literal.toInt, v ≠ 0 ∧ v.natAbs ≤ n := by
    intro v hv
    obtain ⟨l, hl, rfl⟩ := List.mem_map.1 hv
    have hvalue := a.mem_literals.1 hl
    have hle : l.var ≤ a.maxVar := ha.le_maxVar (by simp [hvalue])
    rw [Literal.natAbs_toInt]
    exact ⟨l.toInt_ne_zero, Nat.le_trans hle h⟩
  have hvars : (a.literals.map Literal.toInt).map Int.natAbs = a.literals.map Literal.var := by
    simp only [List.map_map, Function.comp_def, Literal.natAbs_toInt]
  have hsum := length_unlisted_add_card hrange
  rwa [hvars, card_vars_literals, ← openVars_eq_unlisted_literals] at hsum

theorem mem_openVars {v : Nat} : v ∈ a.openVars n ↔ 1 ≤ v ∧ v ≤ n ∧ a.get v = none := by
  rw [openVars, List.mem_filter, List.mem_range'_1, Option.isNone_iff_eq_none, Nat.lt_one_add_iff,
    and_assoc]

theorem openVars_ascending (a : Assignment) (n : Nat) : (a.openVars n).Pairwise (· < ·) :=
  (List.pairwise_lt_range' ..).filter _

/-- The variables left open are reported exactly, however long the table is: the list has them in
ascending order and has nothing else, a limit cuts it off, its length is what is counted, and unless
a variable is out of range the count and the number of variables with a value make up all of
them. -/
theorem open_variables_reported (ha : a.Built) (n : Nat) :
    (a.unassignedVars n none).Pairwise (· < ·) ∧
    (∀ v : Nat, v ∈ a.unassignedVars n none ↔ 1 ≤ v ∧ v ≤ n ∧ a.get v = none) ∧
    (∀ k : Nat, a.unassignedVars n (some k) = (a.unassignedVars n none).take k) ∧
    a.unassignedCount n = (a.unassignedVars n none).length ∧
    (a.checkRange n = .ok () → a.unassignedCount n + a.size = n) := by
  have hsize := ha.size_pos
  rw [unassignedVars_none_eq hsize, unassignedCount_eq hsize]
  refine ⟨a.openVars_ascending n, fun _ => mem_openVars, unassignedVars_eq hsize n, rfl, ?_⟩
  intro hrange
  apply ha.reachable.length_openVars_add_size
  rw [checkRange] at hrange
  split at hrange
  · simp at hrange
  · omega

/-- The third variable asserted, which a refused call does not change, and the first one denied. The
table ends behind the third. -/
theorem open_variables_reported_behind_table :
    let a := (blank 1).recordEach [.ofVar 3 true (by decide), .ofVar 3 false (by decide),
      .ofVar 1 false (by decide)]
    a.table.size = 4 ∧ a.unassignedVars 5 none = [2, 4, 5] ∧
      a.unassignedVars 5 (some 2) = [2, 4] ∧ a.unassignedCount 5 + a.size = 5 := by
  intro a
  have ha : a.Built := ⟨0, _, _, by decide, rfl, rfl⟩
  obtain ⟨-, -, hlimit, -, hsum⟩ := open_variables_reported ha 5
  have hall : a.unassignedVars 5 none = [2, 4, 5] := by decide +kernel
  refine ⟨by decide +kernel, hall, ?_, hsum (by decide +kernel)⟩
  exact (hlimit 2).trans (congrArg (List.take 2) hall)

end Assignment

end CnfAudit
