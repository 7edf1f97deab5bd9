import CnfAudit.FileTree

/-!
# What writing does to a tree
-/

namespace CnfAudit

/-- The path may be handed to the file system. -/
def Path.Fits (p : Path) : Prop :=
  '\x00' ∉ p.render.toList ∧ p.render.utf8ByteSize < FileTree.maxPath

namespace FileTree

section Nodes

variable {t : FileTree} {name other : NodeName} {node : Node}

private theorem lookup_filter_ne (nodes : List (NodeName × Node)) (h : other ≠ name) :
    (nodes.filter fun entry => entry.1 ≠ name).lookup other = nodes.lookup other := by
  induction nodes with
  | nil => rfl
  | cons entry nodes ih =>
      rcases entry with ⟨key, node⟩
      by_cases hkey : key = name
      · have hother : (other == key) = false := by
          rw [hkey]
          exact beq_eq_false_iff_ne.2 h
        rw [List.filter_cons_of_neg (by simp [hkey]), ih, List.lookup_cons, hother]
      · rw [List.filter_cons_of_pos (by simp [hkey]), List.lookup_cons, List.lookup_cons, ih]

theorem node?_put_self (h : name ≠ []) : (t.put name node).node? name = some node := by
  simp [node?, put, h]

theorem node?_put_of_ne (h : other ≠ name) : (t.put name node).node? other = t.node? other := by
  have hbeq : (other == name) = false := beq_eq_false_iff_ne.2 h
  simp only [node?, put, List.lookup_cons, hbeq, lookup_filter_ne t.nodes h]

end Nodes

/-- The path leads to something, which has this name. -/
def LeadsTo (t : FileTree) (p : Path) (name : NodeName) : Prop :=
  t.walk (t.startOf p) p.parts = .ok name

/-- What is there stays: a directory as a directory, and a file at least as something. -/
structure Grows (t u : FileTree) : Prop where
  start : u.workingDirectory = t.workingDirectory
  directory : ∀ name, t.node? name = some .directory → u.node? name = some .directory
  present : ∀ name, t.node? name ≠ none → u.node? name ≠ none

namespace Grows

variable {t u w : FileTree}

theorem refl (t : FileTree) : Grows t t := ⟨rfl, fun _ h => h, fun _ h => h⟩

theorem trans (h : Grows t u) (h' : Grows u w) : Grows t w where
  start := h'.start.trans h.start
  directory name hname := h'.directory name (h.directory name hname)
  present name hname := h'.present name (h.present name hname)

theorem put {name : NodeName} (h : t.node? name ≠ some .directory) (node : Node) :
    Grows t (t.put name node) := by
  have hroot : name ≠ [] := by
    rintro rfl
    exact h rfl
  refine ⟨rfl, ?_, ?_⟩
  · intro other hother
    by_cases heq : other = name
    · rw [heq] at hother
      exact absurd hother h
    · rwa [node?_put_of_ne heq]
  · intro other hother
    by_cases heq : other = name
    · simp [heq, node?_put_self hroot]
    · rwa [node?_put_of_ne heq]

theorem startOf (h : Grows t u) (p : Path) : u.startOf p = t.startOf p := by
  rw [FileTree.startOf, FileTree.startOf, h.start]

theorem walk (h : Grows t u) {start name : NodeName} {parts : List String}
    (hwalk : t.walk start parts = .ok name) : u.walk start parts = .ok name := by
  induction parts generalizing start with
  | nil => exact hwalk
  | cons part rest ih =>
      rw [FileTree.walk] at hwalk ⊢
      split at hwalk
      · rename_i hstart
        rw [h.directory start hstart]
        simp only
        split at hwalk
        · rename_i hup
          rw [if_pos hup]
          exact ih hwalk
        · rename_i hup
          rw [if_neg hup]
          split at hwalk
          · cases hwalk
          · rename_i hlong
            rw [if_neg hlong]
            split at hwalk
            · cases hwalk
            · rename_i node hnode
              have hpresent := h.present (start ++ [part]) (by simp [hnode])
              obtain ⟨later, hlater⟩ := Option.ne_none_iff_exists'.1 hpresent
              rw [hlater]
              exact ih hwalk
      · cases hwalk
      · cases hwalk

theorem leadsTo (h : Grows t u) {p : Path} {name : NodeName} (hname : t.LeadsTo p name) :
    u.LeadsTo p name := by
  rw [LeadsTo, h.startOf]
  exact h.walk hname

end Grows

section Walks

variable {t u : FileTree} {p : Path} {name : NodeName}

theorem walk_append (t : FileTree) (start : NodeName) (above below : List String) :
    t.walk start (above ++ below) =
      match t.walk start above with
      | .error kind => .error kind
      | .ok name => t.walk name below := by
  induction above generalizing start with
  | nil => rfl
  | cons part above ih =>
      rw [List.cons_append, walk, walk]
      split
      · split
        · exact ih _
        · split
          · rfl
          · split
            · rfl
            · exact ih _
      · rfl
      · rfl

/-- Where a new entry goes: below a directory that the path above leads to, under the last
component. -/
theorem place_eq_some_iff :
    t.place p = .ok (some name) ↔
      ∃ above last dir, p.parts = above ++ [last] ∧ t.walk (t.startOf p) above = .ok dir ∧
        t.node? dir = some .directory ∧ last ≠ ".." ∧ last.utf8ByteSize ≤ maxComponent ∧
        name = dir ++ [last] := by
  rw [place]
  rcases List.eq_nil_or_concat p.parts with hparts | ⟨above, last, hparts⟩
  · simp [hparts]
  · rw [List.concat_eq_append] at hparts
    simp only [hparts, List.getLast?_concat, List.dropLast_concat]
    constructor
    · intro h
      split at h
      · cases h
      · rename_i dir hwalk
        split at h
        · rename_i hdir
          split at h
          · cases h
          · rename_i hup
            split at h
            · cases h
            · rename_i hlong
              have hname := (Option.some.inj (Except.ok.inj h)).symm
              exact ⟨above, last, dir, rfl, hwalk, hdir, hup, Nat.le_of_not_lt hlong, hname⟩
        · cases h
        · cases h
    · rintro ⟨above', last', dir, hsplit, hwalk, hdir, hup, hlong, rfl⟩
      obtain ⟨rfl, hlast⟩ := List.append_inj' hsplit rfl
      obtain rfl := (List.cons.inj hlast).1
      simp [hwalk, hdir, hup, Nat.not_lt.2 hlong]

theorem leadsTo_of_place (hplace : t.place p = .ok (some name)) (hgrows : Grows t u)
    (hname : u.node? name ≠ none) : u.LeadsTo p name := by
  obtain ⟨above, last, dir, hparts, hwalk, hdir, hup, hlong, rfl⟩ := place_eq_some_iff.1 hplace
  obtain ⟨node, hnode⟩ := Option.ne_none_iff_exists'.1 hname
  rw [LeadsTo, hgrows.startOf, hparts, walk_append, hgrows.walk hwalk]
  simp [walk, hgrows.directory dir hdir, hup, Nat.not_lt.2 hlong, hnode]

theorem ne_nil_of_place (h : t.place p = .ok (some name)) : name ≠ [] := by
  obtain ⟨above, last, dir, -, -, -, -, -, rfl⟩ := place_eq_some_iff.1 h
  simp

end Walks

section Operations

variable {t u : FileTree} {p : Path}

theorem guarded_eq_ok_iff {α : Type} {outcome : Except FileErrorKind α} {x : α} :
    guarded p outcome = .ok x ↔ p.Fits ∧ outcome = .ok x := by
  rw [guarded]
  split
  · rename_i hnull
    simp_all [Path.Fits]
  · rename_i hnull
    split
    · rename_i hlong
      simp_all [Path.Fits, Nat.not_lt.2 hlong]
    · rename_i hlong
      have hfits : p.Fits := ⟨by simpa using hnull, Nat.lt_of_not_le hlong⟩
      cases outcome with
      | error kind =>
          constructor
          · intro h
            cases h
          · rintro ⟨-, h⟩
            cases h
      | ok y =>
          constructor
          · intro h
            cases h
            exact ⟨hfits, rfl⟩
          · rintro ⟨-, h⟩
            cases h
            rfl

theorem read_eq_ok_iff {bytes : List UInt8} :
    t.read p = .ok bytes ↔
      p.Fits ∧ ∃ name, t.LeadsTo p name ∧ t.node? name = some (.file bytes) := by
  simp only [read, guarded_eq_ok_iff, readNode, LeadsTo]
  refine and_congr_right fun _ => ?_
  cases t.walk (t.startOf p) p.parts with
  | error kind => simp
  | ok name => rcases hnode : t.node? name with _ | _ | _ <;> simp [hnode]

/-- A file can be put where the path leads: into a directory, and not in place of one. -/
def Writable (t : FileTree) (p : Path) : Prop :=
  p.Fits ∧ ∃ name, t.place p = .ok (some name) ∧ t.node? name ≠ some .directory

theorem write_eq_ok_iff {bytes : List UInt8} :
    t.write p bytes = .ok u ↔
      p.Fits ∧ ∃ name, t.place p = .ok (some name) ∧ t.node? name ≠ some .directory ∧
        u = t.put name (.file bytes) := by
  rw [write, guarded_eq_ok_iff, writeNode]
  refine and_congr_right fun _ => ?_
  rcases t.place p with _ | _ | name
  · simp
  · simp
  · simp only
    split
    · rename_i hnode
      simp [hnode]
    · rename_i hnode
      simp only [Except.ok.injEq, Option.some.injEq, exists_eq_left']
      exact ⟨fun h => ⟨hnode, h.symm⟩, fun h => h.2.symm⟩

/-- Behind a write the path leads to the file, and all else is as before. -/
theorem leadsTo_of_write {bytes : List UInt8} (h : t.write p bytes = .ok u) :
    t.Grows u ∧ ∃ name, u.LeadsTo p name ∧ u.node? name = some (.file bytes) ∧
      ∀ other, other ≠ name → u.node? other = t.node? other := by
  obtain ⟨-, name, hplace, hnode, rfl⟩ := write_eq_ok_iff.1 h
  have hgrows : t.Grows (t.put name (.file bytes)) := .put hnode _
  have hput : (t.put name (.file bytes)).node? name = some (.file bytes) :=
    node?_put_self (ne_nil_of_place hplace)
  refine ⟨hgrows, name, leadsTo_of_place hplace hgrows (by simp [hput]), hput, ?_⟩
  intro other hother
  exact node?_put_of_ne hother

theorem read_of_write {bytes : List UInt8} (h : t.write p bytes = .ok u) :
    u.read p = .ok bytes := by
  obtain ⟨-, name, hleads, hnode, -⟩ := leadsTo_of_write h
  exact read_eq_ok_iff.2 ⟨(write_eq_ok_iff.1 h).1, name, hleads, hnode⟩

end Operations

/-- The tree has grown by directories only, and each of them is found under an initial part of the
path. -/
structure GrownAlong (t : FileTree) (p : Path) (u : FileTree) : Prop where
  grows : Grows t u
  changed : ∀ name, u.node? name = t.node? name ∨
    (t.node? name = none ∧ u.node? name = some .directory ∧
      ∃ front, front <+: p.parts ∧ u.LeadsTo ⟨p.root, front⟩ name)

namespace GrownAlong

variable {t u w : FileTree} {p : Path}

theorem refl (t : FileTree) (p : Path) : GrownAlong t p t := ⟨.refl t, fun _ => .inl rfl⟩

theorem trans (h : GrownAlong t p u) (h' : GrownAlong u p w) : GrownAlong t p w where
  grows := h.grows.trans h'.grows
  changed name := by
    rcases h'.changed name with hsame | ⟨habsent, hmade, hfront⟩
    · rw [hsame]
      rcases h.changed name with hsame' | ⟨habsent, hmade, front, hfront, hleads⟩
      · exact .inl hsame'
      · exact .inr ⟨habsent, hmade, front, hfront, h'.grows.leadsTo hleads⟩
    · have hbefore : t.node? name = none := by
        cases hname : t.node? name with
        | none => rfl
        | some node => exact absurd habsent (h.grows.present name (by simp [hname]))
      exact .inr ⟨hbefore, hmade, hfront⟩

theorem mono {q : Path} (h : GrownAlong t q u) (hroot : q.root = p.root)
    (hparts : q.parts <+: p.parts) : GrownAlong t p u where
  grows := h.grows
  changed name := by
    refine (h.changed name).imp_right ?_
    rintro ⟨habsent, hmade, front, hfront, hleads⟩
    rw [hroot] at hleads
    exact ⟨habsent, hmade, front, hfront.trans hparts, hleads⟩

end GrownAlong

section Directories

variable {t u : FileTree} {p : Path}

end Directories

end FileTree

end CnfAudit
