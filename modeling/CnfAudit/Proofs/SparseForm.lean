import CnfAudit.Literal.Order
import CnfAudit.Proofs.LineOrder
import CnfAudit.Proofs.Rendering

/-!
# The sparse form of an assignment
-/

namespace CnfAudit

open Text

theorem Literal.pairwise_sortAscending (ls : List Literal) :
    (sortAscending ls).Pairwise fun k l => k.var ≤ l.var := by
  have hsorted : (sortAscending ls).Pairwise fun k l => !l.before k := by
    apply List.pairwise_mergeSort
    · intro k l m
      simp only [before, Bool.not_eq_true', decide_eq_false_iff_not]
      omega
    · intro k l
      simp only [before, Bool.or_eq_true, Bool.not_eq_true', decide_eq_false_iff_not]
      omega
  apply hsorted.imp
  intro k l hle
  simpa [before] using hle

namespace Assignment

section Recorded

variable {a : Assignment} {ls : List Literal}

theorem consistent_literals (h : ∀ l ∈ ls, l ∈ a.literals) :
    Consistent (ls.map Literal.toInt) := by
  intro v hv hneg
  obtain ⟨k, hk, rfl⟩ := List.mem_map.1 hv
  obtain ⟨l, hl, hopposite⟩ := List.mem_map.1 hneg
  obtain ⟨hvar, hpositive⟩ := Literal.toInt_eq_neg_toInt.1 hopposite
  have hvalue := a.mem_literals.1 (h l hl)
  rw [hvar, a.mem_literals.1 (h k hk), hpositive] at hvalue
  simp at hvalue

/-- Recording the literals of an assignment, in any order and any of them more than once, leads to
an assignment that answers alike. -/
theorem Built.assignAll_literals (ha : a.Built) (h : ∀ l, l ∈ ls ↔ l ∈ a.literals) :
    ∃ b, assignAll none empty ls = .ok b ∧ a.Agrees b := by
  obtain ⟨b, hb⟩ := assignAll_empty_ok_iff.2 (consistent_literals fun l hl => (h l).1 hl)
  have hget (v : Int) : a.get v = b.get v := by
    -- the literals decide the lookups from zero on, and below zero there is no variable
    by_cases hneg : v < 0
    · rw [get_of_neg a hneg, get_of_neg b hneg]
    · obtain ⟨n, rfl⟩ := Int.eq_ofNat_of_zero_le (Int.not_lt.1 hneg)
      apply Option.ext
      intro value
      rw [get_eq_some_iff_literal, get_recorded hb]
      simp only [h]
  have hempty : 0 < empty.table.size := by decide
  exact ⟨b, hb, agrees_of_get hget ha.reachable ((Reachable.blank 1).assignAll hb) ha.size_pos
    (Nat.lt_of_lt_of_le hempty (size_le_assignAll hb))⟩

theorem ofLiterals_none {b : Assignment} :
    ofLiterals ls none = .ok b ↔ assignAll none empty ls = .ok b := by
  have hsized : sized 0 = .ok empty := rfl
  rw [ofLiterals_eq_ok_iff, Option.getD_none, hsized]
  simp [exceeded]

end Recorded

section Sorted

variable {b : Assignment} {ls : List Literal} (h : assignAll none empty ls = .ok b)

include h

private theorem eq_of_var_eq {k l : Literal} (hk : k ∈ ls) (hl : l ∈ ls) (hvar : k.var = l.var) :
    k = l := by
  apply Literal.ext_var hvar
  have hvalue := (get_recorded h k.var k.isPositive).2 ⟨k, hk, rfl, rfl⟩
  rw [hvar, (get_recorded h l.var l.isPositive).2 ⟨l, hl, rfl, rfl⟩] at hvalue
  exact (Option.some.inj hvalue).symm

private theorem sortAscending_strict :
    (Literal.sortAscending ls.dedup).Pairwise fun k l => k.var < l.var := by
  have hle := Literal.pairwise_sortAscending ls.dedup
  have hperm : (Literal.sortAscending ls.dedup).Perm ls.dedup := List.mergeSort_perm _ _
  have hne : (Literal.sortAscending ls.dedup).Nodup := hperm.nodup_iff.2 (List.nodup_dedup ls)
  apply (hle.and hne).imp_of_mem
  intro k l hk hl hboth
  have hmem {m : Literal} (hm : m ∈ Literal.sortAscending ls.dedup) : m ∈ ls :=
    List.mem_dedup.1 (hperm.mem_iff.1 hm)
  apply Nat.lt_of_le_of_ne hboth.1
  intro hvar
  exact hboth.2 (eq_of_var_eq h (hmem hk) (hmem hl) hvar)

/-- The literals recorded are listed once each, by ascending variable. -/
theorem literals_recorded : b.literals = Literal.sortAscending ls.dedup := by
  apply Literal.eq_of_ascending b.literals_ascending (sortAscending_strict h)
  intro l
  rw [Literal.sortAscending, List.mem_mergeSort, List.mem_dedup, ← satisfies_iff h, mem_literals,
    satisfies, beq_iff_eq]

end Sorted

end Assignment

/-- A value line as it is written: some literals, and whether a zero stands behind them. -/
structure ValueText where
  literals : List Literal
  closed : Bool

namespace ValueText

def tokens (t : ValueText) : List String :=
  t.literals.map Literal.render ++ if t.closed then ["0"] else []

def values (t : ValueText) : List Int :=
  t.literals.map Literal.toInt ++ if t.closed then [0] else []

def render (t : ValueText) : String := String.intercalate " " ("v" :: t.tokens)

variable (t : ValueText)

theorem spells_tokens : List.Forall₂ Spells t.tokens t.values := by
  apply List.rel_append (spells_renderAll t.literals)
  cases t.closed with
  | false => exact .nil
  | true => exact .cons spells_zero .nil

theorem fields_render : fields t.render = "v" :: t.tokens := by
  have htag : fields "v" = ["v"] := by decide +kernel
  rw [render, fields_intercalate, List.flatMap_cons, htag,
    flatMap_fields_of_spells t.spells_tokens, List.singleton_append]

theorem tag_payload_render :
    tag? (strip t.render) = some 'v' ∧ fields (payload (strip t.render)) = t.tokens :=
  tag?_and_fields_payload t.fields_render (by decide)

theorem filter_values : t.values.filter (fun v => v ≠ 0) = t.literals.map Literal.toInt := by
  have hliterals : (t.literals.map Literal.toInt).filter (fun v => v ≠ 0) =
      t.literals.map Literal.toInt := by
    apply List.filter_eq_self.2
    intro v hv
    obtain ⟨l, -, rfl⟩ := List.mem_map.1 hv
    simpa using l.toInt_ne_zero
  rw [values, List.filter_append, hliterals]
  cases t.closed <;> simp

theorem valueLine {numVars : Option Int} (h : ∀ l ∈ t.literals, ∀ n ∈ numVars, (l.var : Int) ≤ n) :
    ValueLine numVars t.tokens t.values := by
  have hmem : ∀ v ∈ t.values, v ≠ 0 → ∃ l ∈ t.literals, l.toInt = v := by
    intro v hv hne
    apply List.mem_map.1
    rw [← t.filter_values]
    exact List.mem_filter.2 ⟨hv, by simpa using hne⟩
  refine ⟨t.spells_tokens, ?_, ?_⟩
  · intro v hv hne
    obtain ⟨l, hl, rfl⟩ := hmem v hv hne
    rw [InBound, Literal.natAbs_toInt]
    exact ⟨l.var_le, h l hl⟩
  · -- in front of the last value there are integers of literals only
    intro hzero
    have hliteral : (0 : Int) ∈ t.literals.map Literal.toInt := by
      cases hclosed : t.closed with
      | false => simpa [values, hclosed] using List.dropLast_subset _ hzero
      | true => simpa [values, hclosed] using hzero
    obtain ⟨l, -, hl⟩ := List.mem_map.1 hliteral
    exact l.toInt_ne_zero hl

end ValueText

section Lines

variable {numVars : Option Int} (texts : List ValueText)

theorem taggedFields_values :
    taggedFields 'v' (texts.map ValueText.render) = texts.map ValueText.tokens := by
  induction texts with
  | nil => rfl
  | cons t texts ih =>
      obtain ⟨htag, hpayload⟩ := t.tag_payload_render
      rw [List.map_cons, taggedFields_cons_of_tag htag (by decide), hpayload, ih, List.map_cons]

theorem taggedFields_status_values : taggedFields 's' (texts.map ValueText.render) = [] := by
  induction texts with
  | nil => rfl
  | cons t texts ih =>
      rw [List.map_cons, taggedFields_cons_of_ne (by simp [t.tag_payload_render.1]), ih]

theorem spellsValues_texts
    (h : ∀ l ∈ texts.flatMap ValueText.literals, ∀ n ∈ numVars, (l.var : Int) ≤ n) :
    SpellsValues numVars (texts.map ValueText.tokens)
      ((texts.flatMap ValueText.literals).map Literal.toInt) := by
  induction texts with
  | nil => exact spellsValues_nil.2 rfl
  | cons t texts ih =>
      rw [List.flatMap_cons] at h
      apply spellsValues_cons.2
      refine ⟨t.values, _, t.valueLine ?_, ih ?_, ?_⟩
      · exact fun l hl => h l (List.mem_append_left _ hl)
      · exact fun l hl => h l (List.mem_append_right _ hl)
      · rw [t.filter_values, List.flatMap_cons, List.map_append]

end Lines

/-- Value lines around a status line are the text of a certificate. -/
theorem certificateText_render {numVars : Option Int} (before after : List ValueText)
    (h : ∀ l ∈ (before ++ after).flatMap ValueText.literals, ∀ n ∈ numVars, (l.var : Int) ≤ n) :
    CertificateText numVars
      (before.map ValueText.render ++ "s SATISFIABLE" :: after.map ValueText.render)
      (((before ++ after).flatMap ValueText.literals).map Literal.toInt) := by
  have hfields : fields "s SATISFIABLE" = ["s", "SATISFIABLE"] := by decide +kernel
  have hchar : "s".toList = ['s'] := by decide
  obtain ⟨htag, hpayload⟩ := tag?_and_fields_payload hfields hchar
  refine ⟨?_, ?_, ?_⟩
  · intro text htext
    obtain ⟨line, hline, rfl⟩ := List.mem_map.1 htext
    have hmem := List.mem_of_mem_filter hline
    rw [List.mem_append, List.mem_cons, or_left_comm, ← List.mem_append, ← List.map_append] at hmem
    rcases hmem with rfl | hvalue
    · exact .inl htag
    · obtain ⟨t, -, rfl⟩ := List.mem_map.1 hvalue
      exact .inr t.tag_payload_render.1
  · rw [taggedFields_append, taggedFields_cons_of_tag htag (by decide), hpayload,
      taggedFields_status_values, taggedFields_status_values, List.nil_append]
  · rw [taggedFields_append, taggedFields_cons_of_ne (by simp [htag]), taggedFields_values,
      taggedFields_values, ← List.map_append]
    exact spellsValues_texts (before ++ after) h

namespace Assignment

/-- A certificate that has the literals of an assignment on its value lines is read to an assignment
that answers alike. -/
theorem Built.read_valueTexts {a : Assignment} (ha : a.Built) (source : Option String)
    {numVars : Option Int} (hbound : ∀ n ∈ numVars, (a.maxVar : Int) ≤ n)
    {before after : List ValueText}
    (h : ∀ l, l ∈ (before ++ after).flatMap ValueText.literals ↔ l ∈ a.literals) :
    ∃ b, Certificate.read source numVars
      ⟨before.map ValueText.render ++ "s SATISFIABLE" :: after.map ValueText.render, .complete⟩ =
        .ok b ∧ a.Agrees b := by
  obtain ⟨b, hb, hagrees⟩ := ha.assignAll_literals h
  refine ⟨b, Certificate.read_eq_ok_iff_text.2 ⟨_, ?_, hb⟩, hagrees⟩
  apply certificateText_render
  intro l hl n hn
  have hvalue := a.mem_literals.1 ((h l).1 hl)
  have hle : l.var ≤ a.maxVar := ha.reachable.le_maxVar (by simp [hvalue])
  have hmax := hbound n hn
  omega

/-- The literals of an assignment stand for all of it. Recording them on a new assignment, or
reading them from a certificate that has them on any number of value lines around its status line,
in any order and with or without zeros at the ends of the lines, succeeds and gives an assignment
that answers alike. And literals that do not contradict each other are listed, once recorded,
without repetition and by ascending variable. -/
theorem sparse_form_faithful :
    (∀ a : Assignment, a.Built →
      (∃ b, ofLiterals a.literals none = .ok b ∧ a.Agrees b) ∧
      ∀ (source : Option String) (numVars : Option Int) (before after : List ValueText),
        (∀ n ∈ numVars, (a.maxVar : Int) ≤ n) →
        (∀ l, l ∈ (before ++ after).flatMap ValueText.literals ↔ l ∈ a.literals) →
          ∃ b, Certificate.read source numVars
            ⟨before.map ValueText.render ++ "s SATISFIABLE" :: after.map ValueText.render,
              .complete⟩ = .ok b ∧ a.Agrees b) ∧
    ∀ ls : List Literal, Consistent (ls.map Literal.toInt) →
      ∃ b, ofLiterals ls none = .ok b ∧ b.literals = Literal.sortAscending ls.dedup := by
  refine ⟨?_, ?_⟩
  · intro a ha
    refine ⟨?_, fun source _ _ _ hbound h => ha.read_valueTexts source hbound h⟩
    obtain ⟨b, hb, hagrees⟩ := ha.assignAll_literals fun _ => Iff.rfl
    exact ⟨b, ofLiterals_none.2 hb, hagrees⟩
  · intro ls hconsistent
    obtain ⟨b, hb⟩ := assignAll_empty_ok_iff.2 hconsistent
    exact ⟨b, ofLiterals_none.2 hb, literals_recorded hb⟩

/-- The fifth variable asserted, the second denied, and a refused call in between; the lines have
them the other way round, with the status line between them. -/
theorem sparse_form_faithful_after_refusal :
    let denied : Literal := .ofVar 2 false (by decide)
    let asserted : Literal := .ofVar 5 true (by decide)
    let a := (blank 1).recordEach [asserted, -asserted, denied]
    let before : List ValueText := [⟨[asserted], true⟩, ⟨[], false⟩]
    let after : List ValueText := [⟨[denied], false⟩]
    before.map ValueText.render ++ "s SATISFIABLE" :: after.map ValueText.render =
        ["v 5 0", "v", "s SATISFIABLE", "v -2"] ∧
      ∃ b, Certificate.read none (some 5)
        ⟨before.map ValueText.render ++ "s SATISFIABLE" :: after.map ValueText.render,
          .complete⟩ = .ok b ∧ a.Agrees b := by
  intro denied asserted a before after
  have hliterals : a.literals = [denied, asserted] := by decide +kernel
  refine ⟨by decide +kernel, ?_⟩
  apply (sparse_form_faithful.1 a ⟨0, _, _, by decide, rfl, rfl⟩).2
  · intro n hn
    obtain rfl := Option.some.inj hn
    decide +kernel
  · intro l
    simp [hliterals, before, after, or_comm]

end Assignment

end CnfAudit
