import CnfAudit.Assignment
import CnfAudit.Proofs.Literals

namespace CnfAudit.Assignment

theorem get_natCast (a : Assignment) (n : Nat) : a.get n = a.table[n]?.join := by
  rw [get, if_neg (by omega), Int.toNat_natCast]

theorem get_of_neg (a : Assignment) {v : Int} (h : v < 0) : a.get v = none := by
  simp [get, h]

private theorem get_congr {a b : Assignment} (h : ∀ n : Nat, b.table[n]?.join = a.table[n]?.join)
    (v : Int) : b.get v = a.get v := by
  unfold get
  rw [h]

theorem size_grow (a : Assignment) (v : Nat) :
    (a.grow v).table.size = grownSize a.table.size v := by
  simp only [grow, Array.size_append, Array.size_replicate]
  unfold grownSize
  split <;> omega

theorem lt_size_grow (a : Assignment) (v : Nat) : v < (a.grow v).table.size := by
  rw [size_grow, grownSize]
  split <;> omega

@[simp] theorem get_grow (a : Assignment) (v : Nat) (w : Int) : (a.grow v).get w = a.get w := by
  apply get_congr
  intro n
  simp only [grow, Array.getElem?_append]
  split
  · rfl
  · rename_i h
    rw [Array.getElem?_eq_none (Nat.le_of_not_lt h), Array.getElem?_replicate]
    split <;> rfl

private theorem grow_of_get {a : Assignment} {v : Nat} {b : Bool} (h : a.get v = some b) :
    a.grow v = a := by
  have hlt : v < a.table.size := by
    rw [get_natCast] at h
    by_contra hge
    simp [Array.getElem?_eq_none (Nat.le_of_not_lt hge)] at h
  simp [grow, grownSize, hlt]

theorem get_set {a : Assignment} {l : Literal} (h : l.var < a.table.size) (v : Int) :
    (a.set l).get v = if v = l.var then some l.isPositive else a.get v := by
  by_cases hneg : v < 0
  · rw [get_of_neg _ hneg, get_of_neg _ hneg, if_neg (by omega)]
  · obtain ⟨n, rfl⟩ := Int.eq_ofNat_of_zero_le (Int.not_lt.1 hneg)
    rw [get_natCast, get_natCast, set, Array.getElem?_setIfInBounds]
    by_cases hn : l.var = n
    · subst hn
      simp [h]
    · rw [if_neg hn, if_neg (by omega)]

/-- What recording a literal can do, with the values that lead to it. -/
theorem assign_cases (a : Assignment) (l : Literal) :
    (a.get l.var = none ∧ a.assign l = (.ok (), (a.grow l.var).set l)) ∨
      (a.get l.var = some l.isPositive ∧ a.assign l = (.ok (), a)) ∨
      (a.get l.var = some !l.isPositive ∧ a.assign l = (.error (.contradiction l.toInt), a)) := by
  have hget := a.get_grow l.var l.var
  rw [get_natCast] at hget
  cases h : a.get l.var with
  | none =>
      left
      simp [assign, hget, h]
  | some b =>
      have hgrow := grow_of_get h
      rw [hgrow, h] at hget
      right
      by_cases hb : b = l.isPositive
      · left
        simp [assign, hgrow, hget, hb]
      · right
        have hnot : b = !l.isPositive := by cases b <;> cases hl : l.isPositive <;> simp_all
        simp [assign, hgrow, hget, hnot]

theorem assign_ok_iff {a : Assignment} {l : Literal} :
    (∃ b, a.assign l = (.ok (), b)) ↔ a.get l.var ≠ some !l.isPositive := by
  rcases a.assign_cases l with ⟨hget, h⟩ | ⟨hget, h⟩ | ⟨hget, h⟩ <;> simp [hget, h]

theorem get_assign {a b : Assignment} {l : Literal} (h : a.assign l = (.ok (), b)) (v : Int)
    (value : Bool) :
    b.get v = some value ↔ a.get v = some value ∨ (v = l.var ∧ l.isPositive = value) := by
  rcases a.assign_cases l with ⟨hget, hassign⟩ | ⟨hget, hassign⟩ | ⟨hget, hassign⟩
  · rw [hassign, Prod.mk.injEq] at h
    rw [← h.2, get_set (lt_size_grow a l.var), get_grow]
    by_cases hv : v = l.var
    · subst hv
      simp [hget]
    · simp [hv]
  · rw [hassign, Prod.mk.injEq] at h
    rw [← h.2]
    constructor
    · exact .inl
    · intro hvalue
      rcases hvalue with hv | ⟨rfl, rfl⟩
      · exact hv
      · exact hget
  · simp [hassign] at h

theorem maxVar_assign {a b : Assignment} {l : Literal} (h : a.assign l = (.ok (), b)) :
    b.maxVar ≤ max a.maxVar l.var := by
  rcases a.assign_cases l with ⟨-, hassign⟩ | ⟨-, hassign⟩ | ⟨-, hassign⟩
  · rw [hassign, Prod.mk.injEq] at h
    rw [← h.2]
    exact Nat.le_refl _
  · rw [hassign, Prod.mk.injEq] at h
    rw [← h.2]
    exact Nat.le_max_left _ _
  · simp [hassign] at h

theorem get_blank (slots : Nat) (v : Int) : (blank slots).get v = none := by
  unfold get
  split
  · rfl
  · rw [blank, Array.getElem?_replicate]
    split <;> rfl

@[simp] theorem get_empty (v : Int) : empty.get v = none := get_blank 1 v

/-- The assignments that recording leads to, contradictions included. -/
inductive Reachable : Assignment → Prop
  | blank (slots : Nat) : Reachable (blank slots)
  | assign {a : Assignment} (h : Reachable a) (l : Literal) : Reachable (a.assign l).2

namespace Reachable

variable {a : Assignment}

theorem le_maxVar (h : a.Reachable) {n : Nat} (hn : a.get n ≠ none) : n ≤ a.maxVar := by
  induction h with
  | blank slots => exact absurd (get_blank slots n) hn
  | @assign a _ l ih =>
      rcases a.assign_cases l with ⟨-, hassign⟩ | ⟨-, hassign⟩ | ⟨-, hassign⟩
      · rw [hassign, get_set (lt_size_grow a l.var), get_grow] at hn
        rw [hassign]
        show n ≤ max a.maxVar l.var
        split at hn
        · omega
        · have := ih hn
          omega
      · rw [hassign] at hn ⊢
        exact ih hn
      · rw [hassign] at hn ⊢
        exact ih hn

theorem get_maxVar (h : a.Reachable) (hpos : 0 < a.maxVar) : a.get a.maxVar ≠ none := by
  induction h with
  | blank slots => simp [Assignment.blank] at hpos
  | @assign a _ l ih =>
      rcases a.assign_cases l with ⟨-, hassign⟩ | ⟨-, hassign⟩ | ⟨-, hassign⟩
      · rw [hassign, get_set (lt_size_grow a l.var), get_grow]
        have hmax : ((a.grow l.var).set l).maxVar = max a.maxVar l.var := rfl
        rw [hmax]
        split
        · simp
        · have hlt : l.var < a.maxVar := by omega
          rw [Nat.max_eq_left (Nat.le_of_lt hlt)]
          exact ih (by omega)
      · rw [hassign] at hpos ⊢
        exact ih hpos
      · rw [hassign] at hpos ⊢
        exact ih hpos

theorem lt_maxVar_iff (h : a.Reachable) (n : Nat) :
    n < a.maxVar ↔ ∃ x : Nat, n < x ∧ a.get x ≠ none := by
  constructor
  · intro hlt
    exact ⟨a.maxVar, hlt, h.get_maxVar (by omega)⟩
  · rintro ⟨x, hx, hvalue⟩
    exact Nat.lt_of_lt_of_le hx (h.le_maxVar hvalue)

end Reachable

theorem assignAll_cons {a b : Assignment} {l : Literal} {ls : List Literal} :
    assignAll none a (l :: ls) = .ok b ↔
      ∃ c, a.assign l = (.ok (), c) ∧ assignAll none c ls = .ok b := by
  rw [assignAll]
  rcases h : a.assign l with ⟨_ | _, c⟩ <;> simp [exceeded]

theorem assignAll_ok_iff_none {bound : Option Int} {a b : Assignment} {ls : List Literal} :
    assignAll bound a ls = .ok b ↔
      (∀ l ∈ ls, exceeded bound l.var = none) ∧ assignAll none a ls = .ok b := by
  induction ls generalizing a with
  | nil => simp [assignAll]
  | cons l ls ih =>
      rw [assignAll, assignAll_cons, List.forall_mem_cons]
      cases hbound : exceeded bound l.var with
      | some numVars => simp
      | none => rcases a.assign l with ⟨_ | _, c⟩ <;> simp [ih]

theorem Reachable.assignAll {a b : Assignment} {ls : List Literal} (ha : a.Reachable)
    (h : assignAll none a ls = .ok b) : b.Reachable := by
  induction ls generalizing a with
  | nil =>
      rw [← Except.ok.inj h]
      exact ha
  | cons l ls ih =>
      obtain ⟨c, hassign, hrest⟩ := assignAll_cons.1 h
      have hc := ha.assign l
      rw [hassign] at hc
      exact ih hc hrest

theorem get_assignAll {a b : Assignment} {ls : List Literal} (h : assignAll none a ls = .ok b)
    (v : Int) (value : Bool) :
    b.get v = some value ↔
      a.get v = some value ∨ ∃ l ∈ ls, v = l.var ∧ l.isPositive = value := by
  induction ls generalizing a with
  | nil =>
      simp only [assignAll, Except.ok.injEq] at h
      simp [h]
  | cons l ls ih =>
      obtain ⟨c, hassign, hrest⟩ := assignAll_cons.1 h
      rw [ih hrest, get_assign hassign]
      simp [or_assoc]

theorem maxVar_assignAll {a b : Assignment} {ls : List Literal} {n : Nat}
    (h : assignAll none a ls = .ok b) (ha : a.maxVar ≤ n) (hls : ∀ l ∈ ls, l.var ≤ n) :
    b.maxVar ≤ n := by
  induction ls generalizing a with
  | nil =>
      simp only [assignAll, Except.ok.injEq] at h
      rwa [← h]
  | cons l ls ih =>
      obtain ⟨c, hassign, hrest⟩ := assignAll_cons.1 h
      have hl : l.var ≤ n := hls l (by simp)
      have hc := maxVar_assign hassign
      exact ih hrest (by omega) fun k hk => hls k (by simp [hk])

theorem size_le_assign {a b : Assignment} {l : Literal} (h : a.assign l = (.ok (), b)) :
    a.table.size ≤ b.table.size := by
  rcases a.assign_cases l with ⟨-, hassign⟩ | ⟨-, hassign⟩ | ⟨-, hassign⟩
  · rw [hassign, Prod.mk.injEq] at h
    rw [← h.2, set, Array.size_setIfInBounds, size_grow, grownSize]
    split <;> omega
  · rw [hassign, Prod.mk.injEq] at h
    exact Nat.le_of_eq (by rw [h.2])
  · simp [hassign] at h

theorem size_le_assignAll {a b : Assignment} {ls : List Literal}
    (h : assignAll none a ls = .ok b) : a.table.size ≤ b.table.size := by
  induction ls generalizing a with
  | nil =>
      simp only [assignAll, Except.ok.injEq] at h
      exact Nat.le_of_eq (by rw [h])
  | cons l ls ih =>
      obtain ⟨c, hassign, hrest⟩ := assignAll_cons.1 h
      exact Nat.le_trans (size_le_assign hassign) (ih hrest)

private theorem get_assign_ne_iff {a b : Assignment} {l : Literal}
    (h : a.assign l = (.ok (), b)) (k : Literal) :
    b.get k.var ≠ some (!k.isPositive) ↔
      a.get k.var ≠ some (!k.isPositive) ∧ l.toInt ≠ -k.toInt := by
  rw [ne_eq, get_assign h, not_or, ne_eq, ne_eq, Literal.toInt_eq_neg_toInt, Int.natCast_inj,
    eq_comm (a := k.var)]

/-- Literals can be recorded on top of an assignment if none contradicts a value or another. -/
theorem assignAll_ok_iff_pairwise {a : Assignment} {ls : List Literal} :
    (∃ b, assignAll none a ls = .ok b) ↔
      (∀ l ∈ ls, a.get l.var ≠ some !l.isPositive) ∧
        ls.Pairwise fun k l => k.toInt ≠ -l.toInt := by
  induction ls generalizing a with
  | nil => simp [assignAll]
  | cons l ls ih =>
      simp only [assignAll_cons, List.pairwise_cons, List.forall_mem_cons]
      constructor
      · intro hall
        rcases hall with ⟨b, c, hassign, hrest⟩
        obtain ⟨hvalues, hpairwise⟩ := ih.1 ⟨b, hrest⟩
        have hsplit k (hk : k ∈ ls) := (get_assign_ne_iff hassign k).1 (hvalues k hk)
        exact ⟨⟨assign_ok_iff.1 ⟨c, hassign⟩, fun k hk => (hsplit k hk).1⟩,
          fun k hk => (hsplit k hk).2, hpairwise⟩
      · intro hall
        rcases hall with ⟨⟨hl, hvalues⟩, hother, hpairwise⟩
        obtain ⟨c, hassign⟩ := assign_ok_iff.2 hl
        have hnext k (hk : k ∈ ls) :=
          (get_assign_ne_iff hassign k).2 ⟨hvalues k hk, hother k hk⟩
        obtain ⟨b, hrest⟩ := ih.2 ⟨hnext, hpairwise⟩
        exact ⟨b, c, hassign, hrest⟩

/-- No integer stands among the values together with its negative. -/
def Consistent (values : List Int) : Prop := ∀ v ∈ values, -v ∉ values

theorem assignAll_empty_ok_iff {ls : List Literal} :
    (∃ b, assignAll none empty ls = .ok b) ↔ Consistent (ls.map Literal.toInt) := by
  simp only [assignAll_ok_iff_pairwise, get_empty, Consistent, List.mem_map]
  constructor
  · rintro ⟨-, hpairwise⟩ _ ⟨k, hk, rfl⟩ ⟨l, hl, h⟩
    have hself : ∀ l ∈ ls, l.toInt ≠ -l.toInt := by
      intro l _ h
      have := l.toInt_ne_zero
      omega
    have hflip : ls.Pairwise (flip fun k l => k.toInt ≠ -l.toInt) :=
      hpairwise.imp fun hne h => hne (by omega)
    exact hpairwise.forall_of_forall_of_flip hself hflip hl hk h
  · intro h
    refine ⟨by simp, List.pairwise_of_forall_mem_list ?_⟩
    intro k hk l hl hneg
    exact h _ ⟨l, hl, rfl⟩ ⟨k, hk, hneg⟩

section Recorded

variable {b : Assignment} {ls : List Literal} (h : assignAll none empty ls = .ok b)

include h

/-- A variable has the value of a literal that has been recorded on it. -/
theorem get_recorded (n : Nat) (value : Bool) :
    b.get n = some value ↔ ∃ l ∈ ls, l.var = n ∧ l.isPositive = value := by
  rw [get_assignAll h, get_empty]
  simp only [reduceCtorEq, false_or, Int.natCast_inj, eq_comm]

theorem get_eq_true_iff (n : Nat) : b.get n = some true ↔ (n : Int) ∈ ls.map Literal.toInt := by
  simp only [get_recorded h, List.mem_map, Literal.toInt_eq_natCast]

theorem get_eq_false_iff (n : Nat) : b.get n = some false ↔ -(n : Int) ∈ ls.map Literal.toInt := by
  simp only [get_recorded h, List.mem_map, Literal.toInt_eq_neg]

theorem get_eq_none_iff (n : Nat) :
    b.get n = none ↔ (n : Int) ∉ ls.map Literal.toInt ∧ -(n : Int) ∉ ls.map Literal.toInt := by
  rw [← get_eq_true_iff h, ← get_eq_false_iff h]
  rcases b.get n with _ | _ | _ <;> simp

/-- The satisfied literals are those that have been recorded. -/
theorem satisfies_iff (l : Literal) : b.satisfies l = true ↔ l ∈ ls := by
  rw [satisfies, beq_iff_eq, get_recorded h]
  constructor
  · intro hvalue
    obtain ⟨k, hk, hvar, hpositive⟩ := hvalue
    rwa [← Literal.ext_var hvar hpositive]
  · intro hl
    exact ⟨l, hl, rfl, rfl⟩

end Recorded

end CnfAudit.Assignment
