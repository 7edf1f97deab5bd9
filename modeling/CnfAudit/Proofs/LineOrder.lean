import CnfAudit.Proofs.CertificateText
import CnfAudit.Proofs.FirstPolarity
import CnfAudit.Proofs.OpenVariables
import Mathlib.Data.List.Perm.Basic
import Mathlib.Data.List.Sort

/-!
# The order of a certificate's lines

The order of the literals decides when the table grows, and nothing that an assignment can be asked
depends on it.
-/

namespace CnfAudit

theorem Literal.eq_of_ascending {ks ls : List Literal} (hks : ks.Pairwise fun k l => k.var < l.var)
    (hls : ls.Pairwise fun k l => k.var < l.var) (h : ∀ l, l ∈ ks ↔ l ∈ ls) : ks = ls := by
  have : Std.Antisymm fun k l : Literal => k.var < l.var := ⟨fun _ _ hlt hgt => by omega⟩
  have : Std.Irrefl fun k l : Literal => k.var < l.var := ⟨fun _ => Nat.lt_irrefl _⟩
  exact hks.eq_of_mem_iff hls h

namespace Assignment

/-- The two assignments answer alike, whatever they are asked. -/
structure Agrees (a b : Assignment) : Prop where
  get : ∀ v : Int, a.get v = b.get v
  size : a.size = b.size
  maxVar : a.maxVar = b.maxVar
  literals : a.literals = b.literals
  unassignedCount : ∀ n : Nat, a.unassignedCount n = b.unassignedCount n
  unassignedVars : ∀ (n : Nat) (limit : Option Nat),
    a.unassignedVars n (limit.map Int.ofNat) = b.unassignedVars n (limit.map Int.ofNat)

theorem Agrees.refl (a : Assignment) : a.Agrees a :=
  ⟨fun _ => rfl, rfl, rfl, rfl, fun _ => rfl, fun _ _ => rfl⟩

/-- Both give assignments, which then answer alike, or neither does. -/
def SameSuccess {ε : Type} (x y : Except ε Assignment) : Prop :=
  ((∃ a, x = .ok a) ↔ ∃ b, y = .ok b) ∧ ∀ a b, x = .ok a → y = .ok b → a.Agrees b

theorem sameSuccess_of_forward {ε : Type} {x y : Except ε Assignment}
    (h : ∀ a, x = .ok a → ∃ b, y = .ok b ∧ a.Agrees b)
    (h' : ∀ b, y = .ok b → ∃ a, x = .ok a ∧ b.Agrees a) : SameSuccess x y := by
  refine ⟨⟨?_, ?_⟩, ?_⟩
  · rintro ⟨a, ha⟩
    obtain ⟨b, hb, -⟩ := h a ha
    exact ⟨b, hb⟩
  · rintro ⟨b, hb⟩
    obtain ⟨a, ha, -⟩ := h' b hb
    exact ⟨a, ha⟩
  · intro a b ha hb
    obtain ⟨c, hc, hagrees⟩ := h a ha
    rwa [Except.ok.inj (hb.symm.trans hc)]

section SameValues

variable {a b : Assignment} (h : ∀ v : Int, a.get v = b.get v)

include h

private theorem literals_eq_of_get : a.literals = b.literals := by
  apply Literal.eq_of_ascending a.literals_ascending b.literals_ascending
  intro l
  rw [mem_literals, mem_literals, h]

private theorem maxVar_eq_of_get (ha : a.Reachable) (hb : b.Reachable) : a.maxVar = b.maxVar := by
  apply eq_of_forall_lt_iff
  intro n
  simp only [ha.lt_maxVar_iff, hb.lt_maxVar_iff, h]

private theorem openVars_eq_of_get (n : Nat) : a.openVars n = b.openVars n := by
  simp only [openVars, h]

/-- Recorded assignments with the same values answer alike, however long their tables are. -/
theorem agrees_of_get (ha : a.Reachable) (hb : b.Reachable) (hsize : 0 < a.table.size)
    (hsize' : 0 < b.table.size) : a.Agrees b where
  get := h
  size := by rw [← length_literals, ← length_literals, literals_eq_of_get h]
  maxVar := maxVar_eq_of_get h ha hb
  literals := literals_eq_of_get h
  unassignedCount n := by
    rw [unassignedCount_eq hsize, unassignedCount_eq hsize', openVars_eq_of_get h]
  unassignedVars n limit := by
    cases limit with
    | none =>
        show a.unassignedVars n none = b.unassignedVars n none
        rw [unassignedVars_none_eq hsize, unassignedVars_none_eq hsize', openVars_eq_of_get h]
    | some k =>
        show a.unassignedVars n (some k) = b.unassignedVars n (some k)
        rw [unassignedVars_eq hsize, unassignedVars_eq hsize', openVars_eq_of_get h]

end SameValues

section Permuted

variable {a a' b : Assignment} {ls ls' : List Literal}

/-- Literals that can be recorded can be recorded in any order, on any assignment with the same
values, and lead to the same values. -/
theorem assignAll_perm (hsame : ∀ v : Int, a.get v = a'.get v) (hperm : ls.Perm ls')
    (h : assignAll none a ls = .ok b) :
    ∃ c, assignAll none a' ls' = .ok c ∧ ∀ v, b.get v = c.get v := by
  obtain ⟨hvalues, hpairwise⟩ := assignAll_ok_iff_pairwise.1 ⟨b, h⟩
  simp only [hsame] at hvalues
  have hsymm : ∀ {k l : Literal}, k.toInt ≠ -l.toInt → l.toInt ≠ -k.toInt := by
    intro k l hne heq
    omega
  obtain ⟨c, hc⟩ := assignAll_ok_iff_pairwise.2
    ⟨fun l hl => hvalues l (hperm.mem_iff.2 hl), (hperm.pairwise_iff hsymm).1 hpairwise⟩
  refine ⟨c, hc, ?_⟩
  intro v
  apply Option.ext
  intro value
  rw [get_assignAll h, get_assignAll hc, hsame]
  simp only [hperm.mem_iff]

theorem assignAll_perm_agrees {slots slots' : Nat} (hslots : 0 < slots) (hslots' : 0 < slots')
    (hperm : ls.Perm ls') (h : assignAll none (blank slots) ls = .ok b) :
    ∃ c, assignAll none (blank slots') ls' = .ok c ∧ b.Agrees c := by
  have hsame (v : Int) : (blank slots).get v = (blank slots').get v := by
    rw [get_blank, get_blank]
  obtain ⟨c, hc, hget⟩ := assignAll_perm hsame hperm h
  have hblank {n : Nat} (hn : 0 < n) : 0 < (blank n).table.size := by simpa [blank] using hn
  exact ⟨c, hc, agrees_of_get hget ((Reachable.blank slots).assignAll h)
    ((Reachable.blank slots').assignAll hc)
    (Nat.lt_of_lt_of_le (hblank hslots) (size_le_assignAll h))
    (Nat.lt_of_lt_of_le (hblank hslots') (size_le_assignAll hc))⟩

theorem ofLiterals_eq_ok_iff {numVars : Option Int} :
    ofLiterals ls numVars = .ok b ↔
      ∃ start, sized (numVars.getD 0) = .ok start ∧
        (∀ l ∈ ls, exceeded numVars l.var = none) ∧ assignAll none start ls = .ok b := by
  rw [ofLiterals]
  cases sized (numVars.getD 0) with
  | error failure => simp
  | ok start =>
      simp only [Except.ok.injEq, exists_eq_left', ← assignAll_ok_iff_none]
      cases assignAll numVars start ls <;> simp [Except.mapError]

theorem ofLiterals_perm {numVars : Option Int} (hperm : ls.Perm ls')
    (h : ofLiterals ls numVars = .ok b) :
    ∃ c, ofLiterals ls' numVars = .ok c ∧ b.Agrees c := by
  obtain ⟨start, hstart, hbound, hassign⟩ := ofLiterals_eq_ok_iff.1 h
  have hbound' : ∀ l ∈ ls', exceeded numVars l.var = none := fun l hl =>
    hbound l (hperm.mem_iff.2 hl)
  obtain ⟨rfl, hle⟩ := eq_blank_of_sized hstart
  by_cases hnonneg : 0 ≤ numVars.getD 0
  · have hslots : 0 < (numVars.getD 0 + 1).toNat := by omega
    obtain ⟨c, hc, hagrees⟩ := assignAll_perm_agrees hslots hslots hperm hassign
    exact ⟨c, ofLiterals_eq_ok_iff.2 ⟨_, hstart, hbound', hc⟩, hagrees⟩
  · -- below zero there is no variable in the bound, so that there are no literals
    have hnil : ls = [] := by
      apply List.eq_nil_iff_forall_not_mem.2
      intro l hl
      have hnone := hbound l hl
      cases numVars with
      | none => exact hnonneg (Int.le_refl 0)
      | some n =>
          have hbelow : n < 0 := by simpa using hnonneg
          have hvar : (l.var : Int) ≤ n := by simpa [exceeded] using hnone
          omega
    subst hnil
    obtain rfl := List.nil_perm.1 hperm
    exact ⟨b, h, .refl b⟩

end Permuted

end Assignment

open Text

theorem SpellsValues.perm {numVars : Option Int} {texts texts' : List (List String)}
    {values : List Int} (h : SpellsValues numVars texts values) (hperm : texts.Perm texts') :
    ∃ values', SpellsValues numVars texts' values' ∧ values.Perm values' := by
  obtain ⟨written, hwritten, rfl⟩ := h
  obtain ⟨written', hwritten', hperm'⟩ := List.perm_comp_forall₂ hperm.symm hwritten
  exact ⟨_, ⟨written', hwritten', rfl⟩, (hperm'.symm.flatten).filter _⟩

theorem taggedFields_perm {lines lines' : List String} (hperm : lines.Perm lines') (tag : Char) :
    (taggedFields tag lines).Perm (taggedFields tag lines') :=
  (((hperm.filter _).map strip).filter _).map _

theorem CertificateText.perm {numVars : Option Int} {lines lines' : List String}
    {values : List Int} (h : CertificateText numVars lines values) (hperm : lines.Perm lines') :
    ∃ values', CertificateText numVars lines' values' ∧ values.Perm values' := by
  obtain ⟨values', hspelled, hvalues⟩ := h.spelled.perm (taggedFields_perm hperm 'v')
  refine ⟨values', ⟨?_, ?_, hspelled⟩, hvalues⟩
  · intro text htext
    exact h.tags text (((hperm.symm.filter _).map strip).subset htext)
  · have hstatus := taggedFields_perm hperm 's'
    rw [h.status] at hstatus
    exact List.perm_singleton.1 hstatus.symm

namespace Certificate

/-- A certificate that is read is read with its lines in any order, and what is read answers
alike. -/
theorem read_perm {source : Option String} {numVars : Option Int} {lines lines' : List String}
    {ending : Ending} {a : Assignment} (hperm : lines.Perm lines')
    (h : read source numVars ⟨lines, ending⟩ = .ok a) :
    ∃ b, read source numVars ⟨lines', ending⟩ = .ok b ∧ a.Agrees b := by
  obtain rfl : ending = .complete := complete_of_read h
  obtain ⟨ls, htext, hassign⟩ := read_eq_ok_iff_text.1 h
  obtain ⟨values', htext', hvalues⟩ := htext.perm hperm
  obtain ⟨ls', rfl⟩ := htext'.exists_literals
  have hliterals : ls.Perm ls' :=
    (List.map_perm_map_iff fun _ _ => Literal.toInt_injective).1 hvalues
  obtain ⟨b, hb, hagrees⟩ :=
    Assignment.assignAll_perm_agrees Nat.one_pos Nat.one_pos hliterals hassign
  exact ⟨b, read_eq_ok_iff_text.2 ⟨ls', htext', hb⟩, hagrees⟩

/-- The order of a certificate's lines has no influence. Lines in another order are read if and only
if the lines are, and the two assignments answer alike: values, number and greatest of the
variables, literals, and variables left open. The same holds of literals that are recorded in another
order. -/
theorem order_irrelevant (source : Option String) (numVars : Option Int) (ending : Ending) :
    (∀ lines lines' : List String, lines.Perm lines' →
      Assignment.SameSuccess (read source numVars ⟨lines, ending⟩)
        (read source numVars ⟨lines', ending⟩)) ∧
    (∀ ls ls' : List Literal, ls.Perm ls' →
      Assignment.SameSuccess (Assignment.ofLiterals ls numVars)
        (Assignment.ofLiterals ls' numVars)) := by
  constructor
  · intro lines lines' hperm
    apply Assignment.sameSuccess_of_forward
    · exact fun _ => read_perm hperm
    · exact fun _ => read_perm hperm.symm
  · intro ls ls' hperm
    apply Assignment.sameSuccess_of_forward
    · exact fun _ => Assignment.ofLiterals_perm hperm
    · exact fun _ => Assignment.ofLiterals_perm hperm.symm

private theorem exists_of_map_size {x : Except Fault Assignment} {size : Nat}
    (h : x.map (·.table.size) = .ok size) : ∃ a, x = .ok a ∧ a.table.size = size := by
  cases x with
  | error fault => cases h
  | ok a => exact ⟨a, rfl, Except.ok.inj h⟩

/-- Read backwards, the lines lead to a table of four slots instead of six. -/
theorem order_irrelevant_across_tables :
    let lines := ["v 2", "v 3", "s SATISFIABLE"]
    lines.reverse.Perm lines ∧
      ∃ a b, read none none ⟨lines, .complete⟩ = .ok a ∧
        read none none ⟨lines.reverse, .complete⟩ = .ok b ∧
        a.table.size = 6 ∧ b.table.size = 4 ∧ b.Agrees a := by
  intro lines
  have hsize : (read none none ⟨lines, .complete⟩).map (·.table.size) = .ok 6 := by decide +kernel
  have hsize' : (read none none ⟨lines.reverse, .complete⟩).map (·.table.size) = .ok 4 := by
    decide +kernel
  have hperm : lines.reverse.Perm lines := List.reverse_perm lines
  obtain ⟨a, ha, hasize⟩ := exists_of_map_size hsize
  obtain ⟨b, hb, hbsize⟩ := exists_of_map_size hsize'
  have hagrees := ((order_irrelevant none none .complete).1 lines.reverse lines hperm).2 b a hb ha
  exact ⟨hperm, a, b, ha, hb, hasize, hbsize, hagrees⟩

end Certificate

end CnfAudit
