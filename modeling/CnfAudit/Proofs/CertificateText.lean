import CnfAudit.Proofs.CertificatePass
import CnfAudit.Proofs.Literals

/-!
# The text of a certificate

`CertificateText` is the grammar of certificates, on lines and tokens and without reference to the
reader.
-/

namespace CnfAudit

open Text

/-- The integer is the integer of a literal, or zero, and not above the number of variables. -/
def InBound (numVars : Option Int) (v : Int) : Prop :=
  v.natAbs ≤ maxVariable ∧ ∀ n ∈ numVars, (v.natAbs : Int) ≤ n

/-- The tokens of a value line and what they spell. -/
structure ValueLine (numVars : Option Int) (tokens : List String) (values : List Int) :
    Prop where
  spelled : List.Forall₂ Spells tokens values
  inBound : ∀ v ∈ values, v ≠ 0 → InBound numVars v
  zeroLast : 0 ∉ values.dropLast

/-- The fields behind the tag, line by line, of the lines that have this tag. -/
def taggedFields (tag : Char) (lines : List String) : List (List String) :=
  ((contentLines lines).filter fun text => tag? text = some tag).map fun text =>
    fields (payload text)

/-- The value lines spell these integers, zeros left out. -/
def SpellsValues (numVars : Option Int) (texts : List (List String)) (values : List Int) : Prop :=
  ∃ written, List.Forall₂ (ValueLine numVars) texts written ∧
    values = written.flatten.filter fun v => v ≠ 0

/-- The lines are the text of a certificate with these values. -/
structure CertificateText (numVars : Option Int) (lines : List String) (values : List Int) :
    Prop where
  tags : ∀ text ∈ contentLines lines, tag? text = some 's' ∨ tag? text = some 'v'
  status : taggedFields 's' lines = [["SATISFIABLE"]]
  spelled : SpellsValues numVars (taggedFields 'v' lines) values

section Values

variable {numVars : Option Int}

theorem exceeded_eq_some_iff {v n : Int} :
    Assignment.exceeded numVars v = some n ↔ n ∈ numVars ∧ n < v := by
  simp [Assignment.exceeded, Option.filter_eq_some_iff]

theorem exceeded_eq_none_iff {v : Int} :
    Assignment.exceeded numVars v.natAbs = none ↔ ∀ n ∈ numVars, (v.natAbs : Int) ≤ n := by
  cases numVars <;> simp [Assignment.exceeded]

theorem ValueLine.nil : ValueLine numVars [] [] := ⟨.nil, by simp, by simp⟩

theorem valueLine_cons {token : String} {tokens : List String} {values : List Int} :
    ValueLine numVars (token :: tokens) values ↔
      (∃ v rest, values = v :: rest ∧ v ≠ 0 ∧ Spells token v ∧ InBound numVars v ∧
        ValueLine numVars tokens rest) ∨
      (values = [0] ∧ Spells token 0 ∧ tokens = []) := by
  constructor
  · intro h
    obtain ⟨v, rest, hv, hrest, rfl⟩ := List.forall₂_cons_left_iff.1 h.spelled
    by_cases hzero : v = 0
    · subst hzero
      right
      have hnil : rest = [] := by
        by_contra hne
        apply h.zeroLast
        rw [List.dropLast_cons_of_ne_nil hne]
        exact List.mem_cons_self
      subst hnil
      exact ⟨rfl, hv, List.forall₂_nil_right_iff.1 hrest⟩
    · left
      refine ⟨v, rest, rfl, hzero, hv, h.inBound v (by simp) hzero, hrest, ?_, ?_⟩
      · intro w hw
        exact h.inBound w (by simp [hw])
      · intro hmem
        apply h.zeroLast
        cases rest with
        | nil => simp at hmem
        | cons w rest => exact List.mem_cons_of_mem _ hmem
  · intro h
    rcases h with ⟨v, rest, rfl, hzero, hv, hbound, hrest⟩ | ⟨rfl, hv, rfl⟩
    · refine ⟨.cons hv hrest.spelled, ?_, ?_⟩
      · intro w hw hne
        rcases List.mem_cons.1 hw with rfl | hw
        · exact hbound
        · exact hrest.inBound w hw hne
      · intro hmem
        cases rest with
        | nil => simp at hmem
        | cons w rest =>
            rcases List.mem_cons.1 hmem with h | h
            · exact hzero h.symm
            · exact hrest.zeroLast h
    · exact ⟨.cons hv .nil, by simp, by simp⟩

namespace Certificate

variable {place : Place} {token : String} {tokens : List String}

theorem scanValue_cases (numVars : Option Int) (place : Place) (token : String)
    (tokens : List String) :
    (∃ l, scanValue numVars place (token :: tokens) = .value l tokens ∧ Spells token l.toInt ∧
      InBound numVars l.toInt) ∨
    (scanValue numVars place (token :: tokens) = .lineEnd ∧ Spells token 0 ∧ tokens = []) ∨
    (∃ fault, scanValue numVars place (token :: tokens) = .fault fault ∧
      ∀ v, Spells token v → (v = 0 ∧ tokens ≠ []) ∨ (v ≠ 0 ∧ ¬InBound numVars v)) := by
  rw [scanValue]
  cases hread : readInteger token place with
  | error fault =>
      right; right
      refine ⟨fault, rfl, ?_⟩
      intro v hv
      rw [(readInteger_eq_ok_iff place).2 hv] at hread
      simp at hread
  | ok value =>
      have hvalue : Spells token value := (readInteger_eq_ok_iff place).1 hread
      have hunique v (hv : Spells token v) : v = value := hv.unique hvalue
      by_cases hzero : value = 0
      · subst hzero
        right
        cases tokens with
        | nil => exact .inl ⟨rfl, hvalue, rfl⟩
        | cons next rest =>
            right
            exact ⟨_, rfl, fun v hv => .inl ⟨hunique v hv, by simp⟩⟩
      · simp only [hzero, if_false]
        cases hexceeded : Assignment.exceeded numVars value.natAbs with
        | some bound =>
            right; right
            refine ⟨_, rfl, ?_⟩
            intro v hv
            obtain rfl := hunique v hv
            refine .inr ⟨hzero, ?_⟩
            intro hbound
            rw [exceeded_eq_none_iff.2 hbound.2] at hexceeded
            simp at hexceeded
        | none =>
            have hle := exceeded_eq_none_iff.1 hexceeded
            cases hparse : Literal.parse token place with
            | error fault =>
                right; right
                refine ⟨fault, rfl, ?_⟩
                intro v hv
                obtain rfl := hunique v hv
                refine .inr ⟨hzero, ?_⟩
                intro hbound
                obtain ⟨l, rfl⟩ := Literal.exists_toInt_eq_iff.2 ⟨hzero, hbound.1⟩
                rw [Literal.parse_eq_ok_iff.2 hv] at hparse
                simp at hparse
            | ok l =>
                left
                have hl := Literal.parse_eq_ok_iff.1 hparse
                obtain rfl := hunique _ hl
                exact ⟨l, rfl, hl, by simp [l.var_le], hle⟩

/-- The values of a line are read without a fault if and only if the line is a value line. -/
theorem lineValues_eq_none_iff {ls : List Literal} :
    lineValues numVars place tokens = (ls, none) ↔
      ∃ values, ValueLine numVars tokens values ∧
        ls.map Literal.toInt = values.filter fun v => v ≠ 0 := by
  induction tokens generalizing ls with
  | nil =>
      simp only [lineValues, Prod.mk.injEq, and_true]
      constructor
      · rintro rfl
        exact ⟨[], .nil, rfl⟩
      · intro hline
        rcases hline with ⟨values, hvalues, hls⟩
        obtain rfl := List.forall₂_nil_left_iff.1 hvalues.spelled
        simpa using hls.symm
  | cons token tokens ih =>
      rw [lineValues]
      simp only [valueLine_cons]
      rcases scanValue_cases numVars place token tokens with
        ⟨l, hscan, hl, hbound⟩ | ⟨hscan, hzero, rfl⟩ | ⟨fault, hscan, hnone⟩
      · simp only [hscan, Prod.mk.injEq]
        constructor
        · intro hread
          rcases hread with ⟨rfl, hfault⟩
          obtain ⟨values, hvalues, hrest⟩ := ih.1 (Prod.ext rfl hfault)
          refine ⟨l.toInt :: values, .inl ⟨_, _, rfl, l.toInt_ne_zero, hl, hbound, hvalues⟩, ?_⟩
          simp [hrest, l.toInt_ne_zero]
        · intro hline
          rcases hline with ⟨_, ⟨v, values, rfl, hne, hv, -, hvalues⟩ | ⟨-, hv, -⟩, hls⟩
          · obtain rfl := hv.unique hl
            cases ls with
            | nil => simp [hne] at hls
            | cons k ls =>
                simp only [List.map_cons, List.filter_cons, ne_eq, hne, not_false_eq_true,
                  decide_true, if_true, List.cons.injEq, Literal.toInt_inj] at hls
                rw [hls.1, ih.2 ⟨values, hvalues, hls.2⟩]
                exact ⟨rfl, rfl⟩
          · exact absurd (hl.unique hv) l.toInt_ne_zero
      · simp only [hscan, Prod.mk.injEq, and_true]
        constructor
        · rintro rfl
          exact ⟨[0], .inr ⟨rfl, hzero⟩, rfl⟩
        · intro hline
          rcases hline with ⟨_, ⟨v, values, -, hne, hv, -⟩ | ⟨rfl, -⟩, hls⟩
          · exact absurd (hv.unique hzero) hne
          · simpa using hls.symm
      · simp only [hscan, Prod.mk.injEq, reduceCtorEq, and_false, false_iff]
        intro hline
        rcases hline with ⟨_, ⟨v, values, -, hne, hv, hbound, -⟩ | ⟨-, hv, hnil⟩, -⟩
        · rcases hnone v hv with ⟨h, -⟩ | ⟨-, h⟩
          · exact hne h
          · exact h hbound
        · rcases hnone 0 hv with ⟨-, h⟩ | ⟨h, -⟩
          · exact h hnil
          · exact h rfl

end Certificate

theorem spellsValues_nil {values : List Int} : SpellsValues numVars [] values ↔ values = [] := by
  simp [SpellsValues]

theorem spellsValues_cons {tokens : List String} {texts : List (List String)}
    {values : List Int} :
    SpellsValues numVars (tokens :: texts) values ↔
      ∃ line rest, ValueLine numVars tokens line ∧ SpellsValues numVars texts rest ∧
        values = (line.filter fun v => v ≠ 0) ++ rest := by
  constructor
  · intro h
    obtain ⟨written, hwritten, hvalues⟩ := h
    obtain ⟨line, rest, hline, hrest, rfl⟩ := List.forall₂_cons_left_iff.1 hwritten
    refine ⟨line, _, hline, ⟨rest, hrest, rfl⟩, ?_⟩
    rw [hvalues, List.flatten_cons, List.filter_append]
  · intro h
    obtain ⟨line, _, hline, ⟨rest, hrest, rfl⟩, hvalues⟩ := h
    refine ⟨line :: rest, .cons hline hrest, ?_⟩
    rw [hvalues, List.flatten_cons, List.filter_append]

theorem SpellsValues.inBound {texts : List (List String)} {values : List Int}
    (h : SpellsValues numVars texts values) : ∀ v ∈ values, v ≠ 0 ∧ InBound numVars v := by
  induction texts generalizing values with
  | nil => simp [spellsValues_nil.1 h]
  | cons tokens texts ih =>
      obtain ⟨line, rest, hline, hrest, rfl⟩ := spellsValues_cons.1 h
      intro v hv
      rcases List.mem_append.1 hv with hv | hv
      · have hmem := List.mem_filter.1 hv
        have hne : v ≠ 0 := by simpa using hmem.2
        exact ⟨hne, hline.inBound v hmem.1 hne⟩
      · exact ih hrest v hv

theorem SpellsValues.unique {texts : List (List String)} {values others : List Int}
    (h : SpellsValues numVars texts values) (h' : SpellsValues numVars texts others) :
    values = others := by
  obtain ⟨written, hwritten, rfl⟩ := h
  obtain ⟨written', hwritten', rfl⟩ := h'
  have heq : written = written' :=
    List.right_unique_forall₂'
      (fun _ _ _ hv hw => forall₂_spells_unique hv.spelled hw.spelled) hwritten hwritten'
  rw [heq]

end Values

section Tags

variable {tag : Char} {raw : String}

theorem taggedFields_cons_of_tag (htag : tag? (strip raw) = some tag) (hc : tag ≠ 'c')
    (lines : List String) :
    taggedFields tag (raw :: lines) =
      fields (payload (strip raw)) :: taggedFields tag lines := by
  have hskip := Certificate.not_isSkipped_of_tag htag hc
  simp [taggedFields, contentLines_cons_of_not hskip, htag]

theorem taggedFields_cons_of_ne (htag : tag? (strip raw) ≠ some tag) (lines : List String) :
    taggedFields tag (raw :: lines) = taggedFields tag lines := by
  by_cases hskip : IsSkipped raw
  · rw [taggedFields, contentLines_cons_skipped hskip, taggedFields]
  · simp [taggedFields, contentLines_cons_of_not hskip, htag]

theorem taggedFields_append (tag : Char) (first rest : List String) :
    taggedFields tag (first ++ rest) = taggedFields tag first ++ taggedFields tag rest := by
  simp [taggedFields, contentLines]

theorem taggedFields_middle (tag : Char) (before : List String) (raw : String)
    (after : List String) :
    (taggedFields tag (before ++ raw :: after)).Perm
      (taggedFields tag (raw :: (before ++ after))) := by
  apply List.Perm.map
  apply List.Perm.filter
  apply List.Perm.map
  apply List.Perm.filter
  exact List.perm_middle

end Tags

namespace CertificateText

variable {numVars : Option Int} {lines : List String} {values others : List Int}

theorem unique (h : CertificateText numVars lines values)
    (h' : CertificateText numVars lines others) : values = others :=
  h.spelled.unique h'.spelled

theorem exists_literals (h : CertificateText numVars lines values) :
    ∃ ls : List Literal, ls.map Literal.toInt = values := by
  apply Literal.exists_map_toInt
  intro v hv
  have hbound := h.spelled.inBound v hv
  exact ⟨hbound.1, hbound.2.1⟩

/-- The status line of a certificate may be moved. -/
theorem move_status {status : String} {before after before' after' : List String}
    (hstatus : tag? (strip status) = some 's') (hrest : before ++ after = before' ++ after')
    (h : CertificateText numVars (before ++ status :: after) values) :
    CertificateText numVars (before' ++ status :: after') values := by
  have hvalues (first rest : List String) :
      taggedFields 'v' (first ++ status :: rest) = taggedFields 'v' (first ++ rest) := by
    rw [taggedFields_append, taggedFields_cons_of_ne (by simp [hstatus]), ← taggedFields_append]
  refine ⟨?_, ?_, ?_⟩
  · intro text htext
    apply h.tags text
    have hperm : (before' ++ status :: after').Perm (before ++ status :: after) :=
      List.perm_middle.trans ((hrest ▸ List.perm_middle).symm)
    exact ((hperm.filter _).map strip).subset htext
  · have hperm := taggedFields_middle 's' before status after
    rw [h.status, hrest] at hperm
    exact List.perm_singleton.1 ((taggedFields_middle 's' before' status after').trans hperm.symm)
  · have hspelled := h.spelled
    rw [hvalues, hrest, ← hvalues] at hspelled
    exact hspelled

end CertificateText

namespace Certificate

/-- What is to come behind some lines: the status line too, unless it has been met. -/
private structure Remainder (numVars : Option Int) (statusMet : Bool) (lines : List String)
    (values : List Int) : Prop where
  tags : ∀ text ∈ contentLines lines, tag? text = some 's' ∨ tag? text = some 'v'
  status : taggedFields 's' lines = if statusMet then [] else [["SATISFIABLE"]]
  spelled : SpellsValues numVars (taggedFields 'v' lines) values

section Remainder

variable {numVars : Option Int} {statusMet : Bool} {raw : String} {lines : List String}
  {values : List Int}

private theorem remainder_nil :
    Remainder numVars statusMet [] values ↔ statusMet = true ∧ values = [] := by
  constructor
  · intro h
    have hstatus := h.status
    refine ⟨?_, spellsValues_nil.1 h.spelled⟩
    by_contra hmet
    simp [taggedFields, contentLines, hmet] at hstatus
  · intro h
    rcases h with ⟨rfl, rfl⟩
    exact ⟨by simp [contentLines], rfl, spellsValues_nil.2 rfl⟩

private theorem remainder_skipped (h : IsSkipped raw) :
    Remainder numVars statusMet (raw :: lines) values ↔
      Remainder numVars statusMet lines values := by
  have hcontent := contentLines_cons_skipped h lines
  have htagged tag : taggedFields tag (raw :: lines) = taggedFields tag lines := by
    rw [taggedFields, hcontent, taggedFields]
  constructor
  · intro hremainder
    rcases hremainder with ⟨htags, hstatus, hspelled⟩
    rw [hcontent] at htags
    rw [htagged] at hstatus hspelled
    exact ⟨htags, hstatus, hspelled⟩
  · intro hremainder
    rcases hremainder with ⟨htags, hstatus, hspelled⟩
    rw [← hcontent] at htags
    rw [← htagged] at hstatus hspelled
    exact ⟨htags, hstatus, hspelled⟩

private theorem remainder_status (h : tag? (strip raw) = some 's') :
    Remainder numVars statusMet (raw :: lines) values ↔
      statusMet = false ∧ fields (payload (strip raw)) = ["SATISFIABLE"] ∧
        Remainder numVars true lines values := by
  have hcontent := contentLines_cons_of_not (not_isSkipped_of_tag h (by decide)) lines
  have hstatuses := taggedFields_cons_of_tag h (by decide) lines
  have hvalues : taggedFields 'v' (raw :: lines) = taggedFields 'v' lines :=
    taggedFields_cons_of_ne (by simp [h]) lines
  constructor
  · intro hremainder
    rcases hremainder with ⟨htags, hstatus, hspelled⟩
    rw [hcontent, List.forall_mem_cons] at htags
    rw [hvalues] at hspelled
    rw [hstatuses] at hstatus
    cases statusMet with
    | true => simp at hstatus
    | false =>
        obtain ⟨hsat, hrest⟩ := List.cons.inj hstatus
        exact ⟨rfl, hsat, htags.2, hrest, hspelled⟩
  · intro hremainder
    rcases hremainder with ⟨rfl, hsat, htags, hstatus, hspelled⟩
    rw [← hvalues] at hspelled
    refine ⟨?_, ?_, hspelled⟩
    · rw [hcontent, List.forall_mem_cons]
      exact ⟨.inl h, htags⟩
    · rw [hstatuses, hsat, hstatus]
      rfl

private theorem remainder_values (h : tag? (strip raw) = some 'v') :
    Remainder numVars statusMet (raw :: lines) values ↔
      ∃ line rest, ValueLine numVars (fields (payload (strip raw))) line ∧
        Remainder numVars statusMet lines rest ∧
        values = (line.filter fun v => v ≠ 0) ++ rest := by
  have hcontent := contentLines_cons_of_not (not_isSkipped_of_tag h (by decide)) lines
  have hstatuses : taggedFields 's' (raw :: lines) = taggedFields 's' lines :=
    taggedFields_cons_of_ne (by simp [h]) lines
  have hvalues := taggedFields_cons_of_tag h (by decide) lines
  constructor
  · intro hremainder
    rcases hremainder with ⟨htags, hstatus, hspelled⟩
    rw [hcontent, List.forall_mem_cons] at htags
    rw [hstatuses] at hstatus
    rw [hvalues, spellsValues_cons] at hspelled
    obtain ⟨line, rest, hline, hrest, heq⟩ := hspelled
    exact ⟨line, rest, hline, ⟨htags.2, hstatus, hrest⟩, heq⟩
  · intro hremainder
    rcases hremainder with ⟨line, rest, hline, ⟨htags, hstatus, hrest⟩, heq⟩
    rw [← hstatuses] at hstatus
    refine ⟨?_, hstatus, ?_⟩
    · rw [hcontent, List.forall_mem_cons]
      exact ⟨.inr h, htags⟩
    · rw [hvalues, spellsValues_cons]
      exact ⟨line, rest, hline, hrest, heq⟩

private theorem not_remainder_other {c : Char} (h : tag? (strip raw) = some c) (hc : c ≠ 'c')
    (hs : c ≠ 's') (hv : c ≠ 'v') : ¬Remainder numVars statusMet (raw :: lines) values := by
  intro hrest
  have htags := hrest.tags
  rw [contentLines_cons_of_not (not_isSkipped_of_tag h hc), List.forall_mem_cons, h] at htags
  simp [hs, hv] at htags

end Remainder

private theorem continued_eq_none_iff {first rest : List (Nat × Literal) × Option Fault}
    {ls : List Literal} :
    ((continued first rest).2 = none ∧ (continued first rest).1.map Prod.snd = ls) ↔
      first.2 = none ∧ rest.2 = none ∧ first.1.map Prod.snd ++ rest.1.map Prod.snd = ls := by
  rw [continued]
  cases first.2 <;> simp

private theorem readLines_eq_none_iff (source : Option String) {numVars : Option Int}
    {status : Option Nat} (taken : Nat) {lines : List String} {ls : List Literal} :
    ((readLines source numVars .complete status taken lines).2 = none ∧
        (readLines source numVars .complete status taken lines).1.map Prod.snd = ls) ↔
      Remainder numVars status.isSome lines (ls.map Literal.toInt) := by
  induction lines generalizing status taken ls with
  | nil =>
      rw [remainder_nil]
      cases status <;> simp [readLines, endFault, eq_comm]
  | cons raw rest ih =>
      rcases line_cases raw with hskip | htag | htag | ⟨c, htag, hc, hs, hv⟩
      · rw [readLines_skipped _ _ _ hskip, remainder_skipped hskip]
        exact ih (taken + 1)
      · rw [remainder_status htag]
        cases status with
        | some first => simp [readLines_second_status _ _ _ htag]
        | none =>
            rw [readLines_first_status _ _ _ htag]
            by_cases hsat : fields (payload (strip raw)) = ["SATISFIABLE"]
            · rw [if_pos hsat, ih]
              simp [hsat]
            · simp [hsat]
      · rw [readLines_values _ _ _ htag, continued_eq_none_iff, remainder_values htag]
        simp only [numberedValues, List.map_map, Function.comp_def, List.map_id']
        constructor
        · intro hread
          rcases hread with ⟨hline, hrest, rfl⟩
          obtain ⟨values, hvalues, heq⟩ := lineValues_eq_none_iff.1 (Prod.ext rfl hline)
          refine ⟨values, _, hvalues, (ih (taken + 1)).1 ⟨hrest, rfl⟩, ?_⟩
          rw [List.map_append, heq]
        · intro hremainder
          rcases hremainder with ⟨values, _, hvalues, hrest, heq⟩
          -- the literals split where the integers of this line end
          obtain ⟨first, others, rfl, hfirst, rfl⟩ := List.map_eq_append_iff.1 heq
          obtain ⟨hfault, hothers⟩ := (ih (taken + 1)).2 hrest
          rw [lineValues_eq_none_iff.2 ⟨values, hvalues, hfirst⟩]
          exact ⟨rfl, hfault, by rw [hothers]⟩
      · rw [readLines_other _ _ _ htag hc hs hv]
        apply iff_of_false
        · simp
        · exact not_remainder_other htag hc hs hv

/-- A certificate is read if and only if it is a text whose literals can be recorded. -/
theorem read_eq_ok_iff_text {source : Option String} {numVars : Option Int} {lines : List String}
    {a : Assignment} :
    read source numVars ⟨lines, .complete⟩ = .ok a ↔
      ∃ ls, CertificateText numVars lines (ls.map Literal.toInt) ∧
        Assignment.assignAll none .empty ls = .ok a := by
  rw [read_eq_ok_iff]
  constructor
  · intro h
    obtain ⟨hfault, hassign⟩ := h
    obtain ⟨htags, hstatus, hspelled⟩ := (readLines_eq_none_iff source 0).1 ⟨hfault, rfl⟩
    exact ⟨_, ⟨htags, hstatus, hspelled⟩, hassign⟩
  · intro h
    obtain ⟨ls, htext, hassign⟩ := h
    have hrest : Remainder numVars (none : Option Nat).isSome lines (ls.map Literal.toInt) :=
      ⟨htext.tags, htext.status, htext.spelled⟩
    obtain ⟨hfault, rfl⟩ := (readLines_eq_none_iff source 0).2 hrest
    exact ⟨hfault, hassign⟩

theorem maxVar_le_of_read {source : Option String} {numVars : Nat} {input : LineSource}
    {a : Assignment} (h : read source (some numVars) input = .ok a) : a.maxVar ≤ numVars := by
  obtain ⟨lines, ending⟩ := input
  obtain rfl : ending = .complete := complete_of_read h
  obtain ⟨ls, htext, hassign⟩ := read_eq_ok_iff_text.1 h
  apply Assignment.maxVar_assignAll hassign (Nat.zero_le _)
  intro l hl
  have hbound := (htext.spelled.inBound l.toInt (List.mem_map_of_mem hl)).2.2 numVars rfl
  rw [Literal.natAbs_toInt] at hbound
  exact Int.ofNat_le.1 hbound

/-- Reading accepts exactly the texts of certificates in which no variable has both signs. What is
read gives a variable the sign with which the text lists it, and no value if the text does not list
it. The status line may stand at any place between the others. -/
theorem read_certificateText (source : Option String) (numVars : Option Int) (lines : List String) :
    ((∃ a, read source numVars ⟨lines, .complete⟩ = .ok a) ↔
      ∃ values, CertificateText numVars lines values ∧ Assignment.Consistent values) ∧
    (∀ a values, read source numVars ⟨lines, .complete⟩ = .ok a →
      CertificateText numVars lines values → ∀ x : Int, 1 ≤ x →
        (a.get x = some true ↔ x ∈ values) ∧ (a.get x = some false ↔ -x ∈ values) ∧
        (a.get x = none ↔ x ∉ values ∧ -x ∉ values)) ∧
    (∀ source' status before after before' after', tag? (strip status) = some 's' →
      lines = before ++ status :: after → before ++ after = before' ++ after' →
        ∀ a, read source numVars ⟨lines, .complete⟩ = .ok a ↔
          read source' numVars ⟨before' ++ status :: after', .complete⟩ = .ok a) := by
  refine ⟨⟨?_, ?_⟩, ?_, ?_⟩
  · intro h
    obtain ⟨a, hread⟩ := h
    obtain ⟨ls, htext, hassign⟩ := read_eq_ok_iff_text.1 hread
    exact ⟨_, htext, Assignment.assignAll_empty_ok_iff.1 ⟨a, hassign⟩⟩
  · intro h
    obtain ⟨values, htext, hconsistent⟩ := h
    obtain ⟨ls, rfl⟩ := htext.exists_literals
    obtain ⟨a, hassign⟩ := Assignment.assignAll_empty_ok_iff.2 hconsistent
    exact ⟨a, read_eq_ok_iff_text.2 ⟨ls, htext, hassign⟩⟩
  · intro a values hread htext x hx
    obtain ⟨ls, htext', hassign⟩ := read_eq_ok_iff_text.1 hread
    obtain rfl := htext.unique htext'
    obtain ⟨n, rfl⟩ := Int.eq_ofNat_of_zero_le (by omega : 0 ≤ x)
    exact ⟨Assignment.get_eq_true_iff hassign n, Assignment.get_eq_false_iff hassign n,
      Assignment.get_eq_none_iff hassign n⟩
  · intro source' status before after before' after' hstatus hlines hrest a
    subst hlines
    rw [read_eq_ok_iff_text, read_eq_ok_iff_text]
    apply exists_congr
    intro ls
    apply and_congr_left
    intro _
    exact ⟨fun h => h.move_status hstatus hrest, fun h => h.move_status hstatus hrest.symm⟩

end Certificate

end CnfAudit
