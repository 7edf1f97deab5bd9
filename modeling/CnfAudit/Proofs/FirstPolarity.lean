import CnfAudit.Proofs.Recording
import Mathlib.Data.Finset.Card
import Mathlib.Data.Finset.Dedup

/-!
# The first polarity wins

The invariant is on single lookups and survives the growth of the table; everything else that an
assignment can be asked is read off the lookups.
-/

namespace CnfAudit

/-- The first literal on a variable. -/
def firstOn (ls : List Literal) (v : Int) : Option Literal := ls.find? fun l => (l.var : Int) = v

section FirstOn

variable {l : Literal} {ls : List Literal} {v : Int}

theorem firstOn_cons_of_eq (h : v = l.var) (ls : List Literal) :
    firstOn (l :: ls) v = some l := by
  simp [firstOn, h]

theorem firstOn_cons_of_ne (h : v ≠ l.var) (ls : List Literal) :
    firstOn (l :: ls) v = firstOn ls v := by
  simp [firstOn, h.symm]

theorem mem_of_firstOn (h : firstOn ls v = some l) : l ∈ ls ∧ (l.var : Int) = v := by
  have hvar := List.find?_some h
  exact ⟨List.mem_of_find?_eq_some h, by simpa using hvar⟩

theorem exists_firstOn_iff : (∃ l, firstOn ls v = some l) ↔ ∃ l ∈ ls, (l.var : Int) = v := by
  rw [firstOn, ← Option.isSome_iff_exists, List.find?_isSome]
  simp

end FirstOn

namespace Assignment

/-- The assignment that is left when each of the literals has been recorded, or has been refused. -/
def recordEach (a : Assignment) (ls : List Literal) : Assignment :=
  ls.foldl (fun a l => (a.assign l).2) a

@[simp] theorem recordEach_nil (a : Assignment) : a.recordEach [] = a := rfl

@[simp] theorem recordEach_cons (a : Assignment) (l : Literal) (ls : List Literal) :
    a.recordEach (l :: ls) = (a.assign l).2.recordEach ls := rfl

/-- After a call, refused or not, a variable has the value it had; one that had none may have got
that of the literal. -/
theorem get_after_assign (a : Assignment) (l : Literal) (v : Int) :
    (a.assign l).2.get v = (a.get v).or (if v = l.var then some l.isPositive else none) := by
  by_cases hv : v = l.var
  · subst hv
    rcases a.assign_cases l with ⟨hget, hassign⟩ | ⟨hget, hassign⟩ | ⟨hget, hassign⟩
    · have hset := get_set (lt_size_grow a l.var) (l.var : Int)
      simp only [hassign, hset, hget, if_true, Option.none_or]
    · simp [hassign, hget]
    · simp [hassign, hget]
  · rcases a.assign_cases l with ⟨-, hassign⟩ | ⟨-, hassign⟩ | ⟨-, hassign⟩
    · have hset := get_set (lt_size_grow a l.var) v
      simp only [hassign, hset, hv, if_false, get_grow, Option.or_none]
    · simp [hassign, hv]
    · simp [hassign, hv]

/-- The run lemma: a variable keeps its value, or has that of the first literal on it. -/
theorem get_recordEach (a : Assignment) (ls : List Literal) (v : Int) :
    (a.recordEach ls).get v = (a.get v).or ((firstOn ls v).map Literal.isPositive) := by
  induction ls generalizing a with
  | nil => simp [firstOn]
  | cons l ls ih =>
      rw [recordEach_cons, ih, get_after_assign, Option.or_assoc]
      by_cases hv : v = l.var
      · rw [if_pos hv, firstOn_cons_of_eq hv]
        rfl
      · rw [if_neg hv, firstOn_cons_of_ne hv]
        rfl

/-- A literal is refused if and only if the variable has the other value, and then the assignment is
the one before. -/
theorem assign_eq_error_iff {a : Assignment} {l : Literal} {cause : Cause} :
    (a.assign l).1 = .error cause ↔
      cause = .contradiction l.toInt ∧ a.get l.var = some !l.isPositive := by
  rcases a.assign_cases l with ⟨hget, hassign⟩ | ⟨hget, hassign⟩ | ⟨hget, hassign⟩
  · simp [hassign, hget]
  · simp [hassign, hget]
  · simp [hassign, hget, eq_comm]

theorem assign_eq_self_of_error {a : Assignment} {l : Literal} {cause : Cause}
    (h : (a.assign l).1 = .error cause) : (a.assign l).2 = a := by
  rcases a.assign_cases l with ⟨-, hassign⟩ | ⟨-, hassign⟩ | ⟨-, hassign⟩
  · simp [hassign] at h
  · rw [hassign]
  · rw [hassign]

theorem Reachable.maxVar_after_assign {a : Assignment} (h : a.Reachable) (l : Literal) :
    (a.assign l).2.maxVar = max a.maxVar l.var := by
  rcases a.assign_cases l with ⟨-, hassign⟩ | ⟨hget, hassign⟩ | ⟨hget, hassign⟩
  · rw [hassign]
    rfl
  · have hle : l.var ≤ a.maxVar := h.le_maxVar (by simp [hget])
    rw [hassign, Nat.max_eq_left hle]
  · have hle : l.var ≤ a.maxVar := h.le_maxVar (by simp [hget])
    rw [hassign, Nat.max_eq_left hle]

theorem Reachable.maxVar_recordEach {a : Assignment} (h : a.Reachable) (ls : List Literal) :
    (a.recordEach ls).maxVar = (ls.map Literal.var).foldl max a.maxVar := by
  induction ls generalizing a with
  | nil => rfl
  | cons l ls ih =>
      rw [recordEach_cons, ih (h.assign l), h.maxVar_after_assign, List.map_cons, List.foldl_cons]

theorem eq_blank_of_sized {a : Assignment} {numVars : Int} (h : sized numVars = .ok a) :
    a = blank (numVars + 1).toNat ∧ -1 ≤ numVars := by
  rw [sized] at h
  split at h
  · simp at h
  · split at h
    · simp at h
    · exact ⟨(Except.ok.inj h).symm, by omega⟩

theorem sized_eq_ok {numVars : Int} (h : 0 ≤ numVars) (hlt : numVars + 1 < tableLengths) :
    sized numVars = .ok (blank (numVars + 1).toNat) := by
  rw [sized, if_neg, if_neg (by omega)]
  simp only [Bool.or_eq_true, decide_eq_true_eq]
  omega

/-- An assignment as it is used: begun with slots for the variables up to some number, and changed
by recording literals only, refused ones included. -/
def Built (a : Assignment) : Prop :=
  ∃ (numVars : Int) (start : Assignment) (ls : List Literal),
    0 ≤ numVars ∧ sized numVars = .ok start ∧ a = start.recordEach ls

theorem Reachable.recordEach {a : Assignment} (h : a.Reachable) (ls : List Literal) :
    (a.recordEach ls).Reachable := by
  induction ls generalizing a with
  | nil => exact h
  | cons l ls ih => exact ih (h.assign l)

theorem size_le_recordEach (a : Assignment) (ls : List Literal) :
    a.table.size ≤ (a.recordEach ls).table.size := by
  induction ls generalizing a with
  | nil => exact Nat.le_refl _
  | cons l ls ih =>
      apply Nat.le_trans _ (ih (a.assign l).2)
      rcases a.assign_cases l with ⟨-, hassign⟩ | ⟨-, hassign⟩ | ⟨-, hassign⟩
      · exact size_le_assign (Prod.ext (by rw [hassign]) rfl)
      · rw [hassign]
      · rw [hassign]

theorem Built.reachable {a : Assignment} (h : a.Built) : a.Reachable := by
  obtain ⟨numVars, start, ls, -, hstart, rfl⟩ := h
  rw [(eq_blank_of_sized hstart).1]
  exact (Reachable.blank _).recordEach ls

theorem Built.size_pos {a : Assignment} (h : a.Built) : 0 < a.table.size := by
  obtain ⟨numVars, start, ls, hnonneg, hstart, rfl⟩ := h
  apply Nat.lt_of_lt_of_le _ (start.size_le_recordEach ls)
  rw [(eq_blank_of_sized hstart).1, blank, Array.size_replicate]
  omega

section Literals

variable (a : Assignment)

theorem literalAt_of_slot {i : Nat} {b : Bool} (h : a.table[i]? = some (some b)) :
    a.literalAt i = some (.ofVar i b (a.isVariable i b h)) := by
  rw [literalAt]
  split
  · rename_i c hslot
    obtain rfl : b = c := by simpa [h] using hslot
    rfl
  · rename_i hslot
    exact absurd h (hslot b)

theorem literalAt_of_open {i : Nat} (h : a.table[i]?.join = none) : a.literalAt i = none := by
  rw [literalAt]
  split
  · rename_i b hslot
    simp [hslot] at h
  · rfl

theorem literalAt_eq_some_iff {i : Nat} {l : Literal} :
    a.literalAt i = some l ↔ l.var = i ∧ a.get i = some l.isPositive := by
  rw [get_natCast]
  cases hvalue : a.table[i]?.join with
  | none => simp [a.literalAt_of_open hvalue]
  | some b =>
      rw [a.literalAt_of_slot (Option.join_eq_some_iff.1 hvalue), Option.some.injEq,
        Option.some.injEq]
      constructor
      · rintro rfl
        simp
      · rintro ⟨rfl, rfl⟩
        exact Literal.ext_var (by simp) (by simp)

/-- The literals of an assignment are those that it satisfies. -/
theorem mem_literals {l : Literal} : l ∈ a.literals ↔ a.get l.var = some l.isPositive := by
  rw [literals, List.mem_filterMap]
  constructor
  · rintro ⟨i, -, hliteral⟩
    obtain ⟨rfl, hvalue⟩ := a.literalAt_eq_some_iff.1 hliteral
    exact hvalue
  · intro hvalue
    refine ⟨l.var, List.mem_range.2 ?_, a.literalAt_eq_some_iff.2 ⟨rfl, hvalue⟩⟩
    by_contra hbeyond
    rw [get_natCast, Array.getElem?_eq_none (Nat.le_of_not_lt hbeyond)] at hvalue
    simp at hvalue

theorem get_eq_some_iff_literal {a : Assignment} (n : Nat) (value : Bool) :
    a.get n = some value ↔ ∃ l ∈ a.literals, l.var = n ∧ l.isPositive = value := by
  constructor
  · intro h
    rw [get_natCast] at h
    have hvariable := a.isVariable n value (Option.join_eq_some_iff.1 h)
    refine ⟨.ofVar n value hvariable, ?_, by simp, by simp⟩
    rw [mem_literals, get_natCast]
    simpa using h
  · intro h
    obtain ⟨l, hl, rfl, rfl⟩ := h
    exact a.mem_literals.1 hl

theorem literals_ascending : a.literals.Pairwise fun k l => k.var < l.var := by
  apply List.Pairwise.filterMap a.literalAt _ List.pairwise_lt_range
  intro i j hlt k hk l hl
  obtain ⟨hi, -⟩ := a.literalAt_eq_some_iff.1 hk
  obtain ⟨hj, -⟩ := a.literalAt_eq_some_iff.1 hl
  rwa [hi, hj]

theorem length_literals : a.literals.length = a.size := by
  have htable : a.table.toList = (List.range a.table.size).map fun i => a.table[i]?.join := by
    apply List.ext_getElem
    · simp
    · intro i hi hi'
      simp [Array.getElem?_eq_getElem (by simpa using hi)]
  have hslot (i : Nat) : (a.literalAt i).isSome = a.table[i]?.join.isSome := by
    cases hvalue : a.table[i]?.join with
    | none => simp [a.literalAt_of_open hvalue]
    | some b => simp [a.literalAt_of_slot (Option.join_eq_some_iff.1 hvalue)]
  rw [literals, size, ← Array.countP_toList, htable, List.length_filterMap_eq_countP,
    List.countP_map]
  exact List.countP_congr fun i _ => by simp [hslot]

theorem card_vars_literals : (a.literals.map Literal.var).toFinset.card = a.size := by
  have hnodup : (a.literals.map Literal.var).Nodup :=
    List.pairwise_map.2 (a.literals_ascending.imp Nat.ne_of_lt)
  rw [List.toFinset_card_of_nodup hnodup, List.length_map, length_literals]

end Literals

/-- The assignment is the partial map in which the first of the literals on a variable wins. -/
structure FirstWins (a : Assignment) (ls : List Literal) : Prop where
  get : ∀ v : Int, a.get v = (firstOn ls v).map Literal.isPositive
  contains : ∀ v : Int, a.contains v = true ↔ a.get v ≠ none
  refused : ∀ l cause, (a.assign l).1 = .error cause ↔
    cause = .contradiction l.toInt ∧
      ∃ first, firstOn ls l.var = some first ∧ first.isPositive = !l.isPositive
  unchanged : ∀ l cause, (a.assign l).1 = .error cause → (a.assign l).2 = a
  size : a.size = (ls.map Literal.var).toFinset.card
  maxVar : a.maxVar = (ls.map Literal.var).max?.getD 0
  mem_literals : ∀ l, l ∈ a.literals ↔ firstOn ls l.var = some l
  ascending : a.literals.Pairwise fun k l => k.var < l.var

section Blank

variable (slots : Nat) (ls : List Literal)

theorem get_recordEach_blank (v : Int) :
    ((blank slots).recordEach ls).get v = (firstOn ls v).map Literal.isPositive := by
  rw [get_recordEach, get_blank, Option.none_or]

theorem mem_literals_recordEach (l : Literal) :
    l ∈ ((blank slots).recordEach ls).literals ↔ firstOn ls l.var = some l := by
  rw [mem_literals, get_recordEach_blank, Option.map_eq_some_iff]
  constructor
  · rintro ⟨k, hk, hpositive⟩
    have hvar : (k.var : Int) = l.var := (mem_of_firstOn hk).2
    rw [hk, Literal.ext_var (by omega) hpositive]
  · intro hl
    exact ⟨l, hl, rfl⟩

/-- The variables of the literals of an assignment are those that have been recorded. -/
theorem size_recordEach : ((blank slots).recordEach ls).size =
    (ls.map Literal.var).toFinset.card := by
  have hvars : (((blank slots).recordEach ls).literals.map Literal.var).toFinset =
      (ls.map Literal.var).toFinset := by
    ext x
    simp only [List.mem_toFinset, List.mem_map, mem_literals_recordEach]
    constructor
    · rintro ⟨l, hl, rfl⟩
      exact ⟨l, (mem_of_firstOn hl).1, rfl⟩
    · rintro ⟨l, hl, rfl⟩
      obtain ⟨k, hk⟩ := exists_firstOn_iff.2 ⟨l, hl, rfl⟩
      have hvar : (k.var : Int) = l.var := (mem_of_firstOn hk).2
      exact ⟨k, by rwa [hvar], Int.ofNat.inj hvar⟩
  rw [← card_vars_literals, hvars]

theorem maxVar_recordEach :
    ((blank slots).recordEach ls).maxVar = (ls.map Literal.var).max?.getD 0 := by
  rw [(Reachable.blank slots).maxVar_recordEach]
  cases ls with
  | nil => rfl
  | cons l ls =>
      rw [List.map_cons, List.max?_cons', List.foldl_cons]
      show List.foldl max (max 0 l.var) _ = _
      rw [Nat.zero_max]
      rfl

theorem firstWins_recordEach : ((blank slots).recordEach ls).FirstWins ls where
  get := get_recordEach_blank slots ls
  contains v := by rw [contains, Option.isSome_iff_ne_none]
  refused l cause := by
    rw [assign_eq_error_iff, get_recordEach_blank, Option.map_eq_some_iff]
  unchanged _ _ := assign_eq_self_of_error
  size := size_recordEach slots ls
  maxVar := maxVar_recordEach slots ls
  mem_literals := mem_literals_recordEach slots ls
  ascending := literals_ascending _

end Blank

/-- However literals are recorded on a new assignment, refused calls included, the first polarity of
a variable wins: it decides the lookups, which calls are refused, the number of variables with a
value, the greatest of them and the literals listed. A refused call changes nothing. The size that
is asked for has no influence, as long as the table can be addressed. -/
theorem first_polarity_wins {numVars : Int} (h : -1 ≤ numVars) (ls : List Literal) :
    (sized numVars = .error .unaddressable ∧ (tableLengths : Int) ≤ numVars + 1) ∨
      ∃ start, sized numVars = .ok start ∧ (start.recordEach ls).FirstWins ls := by
  by_cases hlarge : (tableLengths : Int) ≤ numVars + 1
  · left
    simp [sized, hlarge]
  · right
    have hsized : sized numVars = .ok (blank (numVars + 1).toNat) := by
      have hsmall : ¬numVars + 1 < -(tableLengths : Int) := by
        simp only [tableLengths]
        omega
      have hpos : ¬numVars + 1 < 0 := by omega
      simp [sized, hlarge, hsmall, hpos]
    exact ⟨_, hsized, firstWins_recordEach _ ls⟩

/-- The third variable, then its negation, which is refused, then the first one denied, on a table
without a slot. -/
theorem first_polarity_wins_without_slots :
    ∃ start, sized (-1) = .ok start ∧
      (start.recordEach [.ofVar 3 true (by decide), .ofVar 3 false (by decide),
        .ofVar 1 false (by decide)]).get 3 = some true ∧
      (start.recordEach [.ofVar 3 true (by decide), .ofVar 3 false (by decide),
        .ofVar 1 false (by decide)]).size = 2 := by
  rcases first_polarity_wins (by decide : (-1 : Int) ≤ -1) [.ofVar 3 true (by decide),
    .ofVar 3 false (by decide), .ofVar 1 false (by decide)] with ⟨-, h⟩ | ⟨start, hstart, hwins⟩
  · exact absurd h (by decide)
  · refine ⟨start, hstart, (hwins.get 3).trans ?_, hwins.size.trans ?_⟩
    · decide
    · decide

end Assignment

end CnfAudit
