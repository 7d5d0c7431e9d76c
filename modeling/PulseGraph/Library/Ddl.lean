/-
# Additive changes of a schema

A catalog of tables and indexes, and the statements that add to it: a table or an index if there is none
of that name, and a column if the table has none of that name.

**Proved here.**  Such statements can be taken again (`resumable_exec`) and take nothing away
(`extends_of_runAll`), and a list of them succeeds exactly when every index it creates finds its columns
(`runAll_isSome_iff`).
-/

import PulseGraph.Library.Resume
import Mathlib.Data.List.Induction

namespace Library
namespace Ddl

/-- The columns of the tables there are, and the names of the indexes. -/
structure Catalog where
  columns : String → Option (List String)
  indexed : String → Bool

/-- An empty database. -/
def Catalog.empty : Catalog := ⟨fun _ => none, fun _ => false⟩

/-- A statement that adds what is not there. -/
inductive Statement where
  | table (name : String) (columns : List String)
  | index (name table : String) (columns : List String)
  | column (table name : String)
  deriving DecidableEq

/-- `ALTER TABLE table ADD COLUMN name`; raises where the table is missing or has the column. -/
def addColumn (table name : String) (c : Catalog) : Option Catalog :=
  (c.columns table).bind fun columns =>
    if name ∈ columns then none
    else some { c with columns := Function.update c.columns table (some (columns ++ [name])) }

/-- Execute a statement; `none` where it raises. -/
def exec : Statement → Catalog → Option Catalog
  | .table name columns, c =>
      if (c.columns name).isSome then some c
      else some { c with columns := Function.update c.columns name (some columns) }
  | .index name table columns, c =>
      if c.indexed name then some c
      else (c.columns table).bind fun present =>
        if columns ⊆ present then some { c with indexed := Function.update c.indexed name true } else none
  | .column table name, c =>
      (c.columns table).bind fun columns => if name ∈ columns then some c else addColumn table name c

/-- The table has the column. -/
def Catalog.HasColumn (c : Catalog) (table name : String) : Prop :=
  ∃ columns, c.columns table = some columns ∧ name ∈ columns

/-- What a statement adds is there. -/
def Done (c : Catalog) : Statement → Prop
  | .table name _ => (c.columns name).isSome = true
  | .index name _ _ => c.indexed name = true
  | .column table name => c.HasColumn table name

/-- Everything of one catalog is in the other, each table's columns in their places. -/
structure Extends (c c' : Catalog) : Prop where
  columns : ∀ table columns, c.columns table = some columns → ∃ more, c'.columns table = some (columns ++ more)
  indexed : ∀ name, c.indexed name = true → c'.indexed name = true

theorem Extends.refl (c : Catalog) : Extends c c := ⟨fun _ columns h => ⟨[], by rw [h, List.append_nil]⟩, fun _ => id⟩

theorem Extends.trans {a b c : Catalog} (h : Extends a b) (h' : Extends b c) : Extends a c := by
  refine ⟨fun table columns hc => ?_, fun name hn => h'.indexed name (h.indexed name hn)⟩
  obtain ⟨more, hmore⟩ := h.columns table columns hc
  obtain ⟨rest, hrest⟩ := h'.columns table _ hmore
  exact ⟨more ++ rest, by rw [hrest, List.append_assoc]⟩

theorem Extends.done {c c' : Catalog} (h : Extends c c') {s : Statement} (hd : Done c s) : Done c' s := by
  cases s with
  | table name columns =>
      obtain ⟨there, hthere⟩ := Option.isSome_iff_exists.1 hd
      obtain ⟨more, hmore⟩ := h.columns name there hthere
      exact Option.isSome_iff_exists.2 ⟨_, hmore⟩
  | index name table columns => exact h.indexed name hd
  | column table name =>
      obtain ⟨there, hthere, hname⟩ := hd
      obtain ⟨more, hmore⟩ := h.columns table there hthere
      exact ⟨_, hmore, List.mem_append_left more hname⟩

/-- A statement with nothing to add does nothing. -/
theorem exec_of_done {c : Catalog} {s : Statement} (hd : Done c s) : exec s c = some c := by
  cases s with
  | table name columns => exact if_pos hd
  | index name table columns => exact if_pos hd
  | column table name =>
      obtain ⟨there, hthere, hname⟩ := hd
      rw [exec, hthere, Option.bind_some, if_pos hname]

/-- **What a statement leaves**: what it adds is there, and nothing is gone. -/
theorem exec_spec {c c' : Catalog} {s : Statement} (h : exec s c = some c') : Done c' s ∧ Extends c c' := by
  cases s with
  | table name columns =>
      rw [exec] at h
      split_ifs at h with hthere
      · obtain rfl := Option.some.inj h
        exact ⟨hthere, Extends.refl c⟩
      · obtain rfl := Option.some.inj h
        refine ⟨by simp [Done], fun table there hc => ?_, fun _ => id⟩
        have hne : table ≠ name := by
          rintro rfl
          exact hthere (Option.isSome_iff_exists.2 ⟨_, hc⟩)
        exact ⟨[], by rw [List.append_nil]; exact (Function.update_of_ne hne _ c.columns).trans hc⟩
  | index name table columns =>
      rw [exec] at h
      split_ifs at h with hthere
      · obtain rfl := Option.some.inj h
        exact ⟨hthere, Extends.refl c⟩
      · obtain ⟨present, hpresent, h⟩ := Option.bind_eq_some_iff.1 h
        split_ifs at h with hsub
        obtain rfl := Option.some.inj h
        refine ⟨by simp [Done], fun table there hc => ⟨[], by rw [List.append_nil]; exact hc⟩, fun other hother => ?_⟩
        by_cases hname : other = name
        · rw [hname]
          exact Function.update_self name true c.indexed
        · exact (Function.update_of_ne hname true c.indexed).trans hother
  | column table name =>
      rw [exec] at h
      obtain ⟨there, hthere, h⟩ := Option.bind_eq_some_iff.1 h
      split_ifs at h with hname
      · obtain rfl := Option.some.inj h
        exact ⟨⟨there, hthere, hname⟩, Extends.refl c⟩
      · rw [addColumn, hthere, Option.bind_some, if_neg hname] at h
        obtain rfl := Option.some.inj h
        refine ⟨⟨_, Function.update_self table _ c.columns, List.mem_append_right _ (List.mem_singleton.2 rfl)⟩,
          fun other columns hc => ?_, fun _ => id⟩
        by_cases hother : other = table
        · rw [hother] at hc ⊢
          obtain rfl := Option.some.inj (hthere.symm.trans hc)
          exact ⟨[name], Function.update_self table _ c.columns⟩
        · exact ⟨[], by rw [List.append_nil]; exact (Function.update_of_ne hother _ c.columns).trans hc⟩

/-- **The statements can be taken again.** -/
theorem resumable_exec : Resumable exec where
  settles _ _ _ h := exec_of_done (exec_spec h).1
  keeps _ _ _ _ h h' := exec_of_done ((exec_spec h').2.done (exec_spec h).1)

/-- **Nothing is taken away.** -/
theorem extends_of_runAll {statements : List Statement} {c c' : Catalog} (h : runAll exec statements c = some c') :
    Extends c c' := by
  induction statements generalizing c with
  | nil => exact Option.some.inj h ▸ Extends.refl c
  | cons s statements ih =>
      obtain ⟨c₁, h₁, h⟩ := Option.bind_eq_some_iff.1 (runAll_cons s statements c ▸ h)
      exact (exec_spec h₁).2.trans (ih h)

theorem extends_of_restarts {statements : List Statement} {c c' : Catalog} (h : Restarts exec statements c c') :
    Extends c c' := by
  induction h with
  | start => exact Extends.refl c
  | again _ _ hrun ih => exact ih.trans (extends_of_runAll hrun)

/-! ## When a list of statements succeeds -/

/-- No table is declared twice with different columns. -/
def OneShape (statements : List Statement) : Prop :=
  ∀ name columns columns', .table name columns ∈ statements → .table name columns' ∈ statements → columns = columns'

/-- The table is there, or is declared. -/
def Declared (statements : List Statement) (c : Catalog) (table : String) : Prop :=
  (c.columns table).isSome = true ∨ ∃ columns, .table table columns ∈ statements

/-- The table has the column, or gets it: it is added, or the table is created with it. -/
def Available (statements : List Statement) (c : Catalog) (table name : String) : Prop :=
  c.HasColumn table name ∨ .column table name ∈ statements ∨
    c.columns table = none ∧ ∃ columns, .table table columns ∈ statements ∧ name ∈ columns

theorem Catalog.HasColumn.declared {c : Catalog} {table name : String} (h : c.HasColumn table name) :
    (c.columns table).isSome = true := Option.isSome_iff_exists.2 ⟨_, h.choose_spec.1⟩

/-- What is new after a statement is what it adds. -/
structure Adds (s : Statement) (c c' : Catalog) : Prop where
  table : ∀ t, (c'.columns t).isSome = true → (c.columns t).isSome = true ∨ ∃ columns, s = .table t columns
  column : ∀ t x, c'.HasColumn t x → Available [s] c t x
  index : ∀ n, c'.indexed n = true → c.indexed n = true ∨ ∃ t columns, s = .index n t columns

theorem Adds.refl (s : Statement) (c : Catalog) : Adds s c c := ⟨fun _ => .inl, fun _ _ => .inl, fun _ => .inl⟩

theorem exec_adds {c c' : Catalog} {s : Statement} (h : exec s c = some c') : Adds s c c' := by
  cases s with
  | table name columns =>
      rw [exec] at h
      split_ifs at h with hthere
      · exact Option.some.inj h ▸ Adds.refl _ c
      · obtain rfl := Option.some.inj h
        have hnone : c.columns name = none := Option.not_isSome_iff_eq_none.1 hthere
        have hother : ∀ t, t ≠ name → Function.update c.columns name (some columns) t = c.columns t := fun t ht =>
          Function.update_of_ne ht _ c.columns
        refine ⟨fun t ht => ?_, fun t x hx => ?_, fun _ => .inl⟩
        · by_cases hname : t = name
          · exact .inr ⟨columns, by rw [hname]⟩
          · exact .inl (hother t hname ▸ ht)
        · by_cases hname : t = name
          · subst hname
            obtain ⟨there, ht, hx⟩ := hx
            obtain rfl := Option.some.inj ((Function.update_self t _ c.columns).symm.trans ht)
            exact .inr (.inr ⟨hnone, columns, List.mem_singleton.2 rfl, hx⟩)
          · obtain ⟨there, ht, hx⟩ := hx
            exact .inl ⟨there, (hother t hname).symm.trans ht, hx⟩
  | index name table columns =>
      rw [exec] at h
      split_ifs at h with hthere
      · exact Option.some.inj h ▸ Adds.refl _ c
      · obtain ⟨present, -, h⟩ := Option.bind_eq_some_iff.1 h
        split_ifs at h
        obtain rfl := Option.some.inj h
        refine ⟨fun _ => .inl, fun _ _ => .inl, fun n hn => ?_⟩
        by_cases hname : n = name
        · exact .inr ⟨table, columns, by rw [hname]⟩
        · exact .inl ((Function.update_of_ne hname true c.indexed).symm.trans hn)
  | column table name =>
      rw [exec] at h
      obtain ⟨there, hthere, h⟩ := Option.bind_eq_some_iff.1 h
      split_ifs at h with hname
      · exact Option.some.inj h ▸ Adds.refl _ c
      · rw [addColumn, hthere, Option.bind_some, if_neg hname] at h
        obtain rfl := Option.some.inj h
        refine ⟨fun t ht => ?_, fun t x hx => ?_, fun _ => .inl⟩
        · by_cases heq : t = table
          · exact .inl (by rw [heq, hthere]; rfl)
          · exact .inl (Function.update_of_ne heq _ c.columns ▸ ht)
        · by_cases heq : t = table
          · subst heq
            obtain ⟨columns, hcolumns, hx⟩ := hx
            obtain rfl := Option.some.inj ((Function.update_self t _ c.columns).symm.trans hcolumns)
            rcases List.mem_append.1 hx with hx | hx
            · exact .inl ⟨there, hthere, hx⟩
            · exact .inr (.inl (by rw [List.mem_singleton.1 hx]; exact List.mem_singleton.2 rfl))
          · obtain ⟨columns, hcolumns, hx⟩ := hx
            exact .inl ⟨columns, (Function.update_of_ne heq _ c.columns).symm.trans hcolumns, hx⟩

section Runs

variable {statements : List Statement} {c c' : Catalog}

/-- What a list of statements adds is there. -/
theorem done_runAll (h : runAll exec statements c = some c') {s : Statement} (hs : s ∈ statements) : Done c' s :=
  (exec_spec (resumable_exec.settled_of_mem hs h)).1

/-- A table that is not there was not there before. -/
theorem Extends.none (h : Extends c c') {table : String} (hnone : c'.columns table = none) :
    c.columns table = none := by
  cases hc : c.columns table with
  | none => rfl
  | some columns =>
      obtain ⟨more, hmore⟩ := h.columns table columns hc
      rw [hnone] at hmore
      cases hmore

theorem declared_runAll (h : runAll exec statements c = some c') (table : String) :
    (c'.columns table).isSome = true ↔ Declared statements c table := by
  constructor
  · intro hthere
    induction statements generalizing c with
    | nil => exact .inl (Option.some.inj h ▸ hthere)
    | cons s statements ih =>
        obtain ⟨c₁, h₁, h⟩ := Option.bind_eq_some_iff.1 (runAll_cons s statements c ▸ h)
        rcases ih h with hold | ⟨columns, hmem⟩
        · rcases (exec_adds h₁).table table hold with hold | ⟨columns, rfl⟩
          · exact .inl hold
          · exact .inr ⟨columns, List.mem_cons_self⟩
        · exact .inr ⟨columns, List.mem_cons_of_mem s hmem⟩
  · rintro (hold | ⟨columns, hmem⟩)
    · exact (extends_of_runAll h).done (s := .table table []) hold
    · exact done_runAll h hmem

theorem indexed_runAll (h : runAll exec statements c = some c') (name : String) :
    c'.indexed name = true ↔ c.indexed name = true ∨ ∃ table columns, .index name table columns ∈ statements := by
  constructor
  · intro hthere
    induction statements generalizing c with
    | nil => exact .inl (Option.some.inj h ▸ hthere)
    | cons s statements ih =>
        obtain ⟨c₁, h₁, h⟩ := Option.bind_eq_some_iff.1 (runAll_cons s statements c ▸ h)
        rcases ih h with hold | ⟨table, columns, hmem⟩
        · rcases (exec_adds h₁).index name hold with hold | ⟨table, columns, rfl⟩
          · exact .inl hold
          · exact .inr ⟨table, columns, List.mem_cons_self⟩
        · exact .inr ⟨table, columns, List.mem_cons_of_mem s hmem⟩
  · rintro (hold | ⟨table, columns, hmem⟩)
    · exact (extends_of_runAll h).indexed name hold
    · exact done_runAll h hmem

/-- A table that is created has the columns it is declared with. -/
theorem hasColumn_created (hone : OneShape statements) (h : runAll exec statements c = some c') {table name : String}
    {columns : List String} (hnone : c.columns table = none) (hmem : .table table columns ∈ statements)
    (hname : name ∈ columns) : c'.HasColumn table name := by
  induction statements generalizing c with
  | nil => cases hmem
  | cons s statements ih =>
      obtain ⟨c₁, h₁, hrun⟩ := Option.bind_eq_some_iff.1 (runAll_cons s statements c ▸ h)
      by_cases hs : ∃ columns', s = .table table columns'
      · obtain ⟨columns', rfl⟩ := hs
        obtain rfl := hone table columns columns' hmem List.mem_cons_self
        have hcreated : c₁.columns table = some columns := by
          rw [exec, if_neg (by simp [hnone])] at h₁
          rw [← Option.some.inj h₁]
          exact Function.update_self table _ c.columns
        obtain ⟨more, hmore⟩ := (extends_of_runAll hrun).columns table columns hcreated
        exact ⟨_, hmore, List.mem_append_left more hname⟩
      · have hnone₁ : c₁.columns table = none := by
          refine Option.not_isSome_iff_eq_none.1 fun hthere => ?_
          rcases (exec_adds h₁).table table hthere with hold | hdeclared
          · rw [hnone] at hold
            cases hold
          · exact hs hdeclared
        have hrest : .table table columns ∈ statements := by
          rcases List.mem_cons.1 hmem with rfl | hmem
          · exact absurd ⟨columns, rfl⟩ hs
          · exact hmem
        refine ih (fun n a b ha hb => ?_) hrun hnone₁ hrest
        exact hone n a b (List.mem_cons_of_mem s ha) (List.mem_cons_of_mem s hb)

theorem available_runAll (hone : OneShape statements) (h : runAll exec statements c = some c') (table name : String) :
    c'.HasColumn table name ↔ Available statements c table name := by
  constructor
  · intro hthere
    clear hone
    induction statements generalizing c with
    | nil => exact .inl (Option.some.inj h ▸ hthere)
    | cons s statements ih =>
        obtain ⟨c₁, h₁, h⟩ := Option.bind_eq_some_iff.1 (runAll_cons s statements c ▸ h)
        rcases ih h with hold | hmem | ⟨hnone, columns, hmem, hname⟩
        · rcases (exec_adds h₁).column table name hold with hold | hs | ⟨hnone, columns, hs, hname⟩
          · exact .inl hold
          · exact .inr (.inl (List.mem_singleton.1 hs ▸ List.mem_cons_self))
          · exact .inr (.inr ⟨hnone, columns, List.mem_singleton.1 hs ▸ List.mem_cons_self, hname⟩)
        · exact .inr (.inl (List.mem_cons_of_mem s hmem))
        · exact .inr (.inr ⟨(exec_spec h₁).2.none hnone, columns, List.mem_cons_of_mem s hmem, hname⟩)
  · rintro (hold | hmem | ⟨hnone, columns, hmem, hname⟩)
    · exact (extends_of_runAll h).done (s := .column table name) hold
    · exact done_runAll h hmem
    · exact hasColumn_created hone h hnone hmem hname

end Runs

/-- A statement finds what it needs, after the ones before it. -/
def Ready (pre : List Statement) (c : Catalog) : Statement → Prop
  | .table _ _ => True
  | .column table _ => Declared pre c table
  | .index name table columns => (c.indexed name = true ∨ ∃ t cs, .index name t cs ∈ pre) ∨
      Declared pre c table ∧ ∀ x ∈ columns, Available pre c table x

/-- What a statement needs, read off the catalog it finds. -/
theorem exec_isSome_iff {pre : List Statement} {c c' : Catalog} (hone : OneShape pre) (h : runAll exec pre c = some c')
    (s : Statement) : (exec s c').isSome = true ↔ Ready pre c s := by
  cases s with
  | table name columns =>
      rw [exec]
      refine iff_of_true ?_ trivial
      split_ifs <;> rfl
  | column table name =>
      rw [Ready, ← declared_runAll h, exec]
      cases hthere : c'.columns table with
      | none => exact iff_of_false (by simp) (by simp)
      | some columns =>
          rw [Option.bind_some]
          refine iff_of_true ?_ rfl
          split_ifs with hname
          · rfl
          · rw [addColumn, hthere, Option.bind_some, if_neg hname]
            rfl
  | index name table columns =>
      have hcolumns : (∀ x ∈ columns, Available pre c table x) ↔ ∀ x ∈ columns, c'.HasColumn table x :=
        forall₂_congr fun x _ => (available_runAll hone h table x).symm
      rw [Ready, ← declared_runAll h, ← indexed_runAll h, hcolumns, exec]
      split_ifs with hindexed
      · exact iff_of_true rfl (.inl hindexed)
      · rw [or_iff_right hindexed]
        cases hthere : c'.columns table with
        | none => exact iff_of_false (by simp) (by simp)
        | some present =>
            have hiff : (∀ x ∈ columns, c'.HasColumn table x) ↔ columns ⊆ present := by
              refine forall₂_congr fun x _ => ⟨?_, fun hx => ⟨present, hthere, hx⟩⟩
              rintro ⟨there, hc, hx⟩
              exact Option.some.inj (hthere.symm.trans hc) ▸ hx
            rw [Option.bind_some, hiff]
            split_ifs with hsub
            · exact iff_of_true rfl ⟨rfl, hsub⟩
            · exact iff_of_false (by simp) fun hboth => hsub hboth.2

/-- **When a list of statements succeeds**: each finds what it needs. -/
theorem runAll_isSome_iff {statements : List Statement} {c : Catalog} (hone : OneShape statements) :
    (runAll exec statements c).isSome = true ↔
      ∀ pre s post, statements = pre ++ s :: post → Ready pre c s := by
  have hbegin : ∀ {pre post : List Statement}, statements = pre ++ post → OneShape pre := fun hsplit n a b ha hb =>
    hone n a b (hsplit ▸ List.mem_append_left _ ha) (hsplit ▸ List.mem_append_left _ hb)
  constructor
  · intro h pre s post hsplit
    obtain ⟨final, hfinal⟩ := Option.isSome_iff_exists.1 h
    rw [hsplit, runAll_append] at hfinal
    obtain ⟨c₁, h₁, hrest⟩ := Option.bind_eq_some_iff.1 hfinal
    obtain ⟨c₂, h₂, -⟩ := Option.bind_eq_some_iff.1 (runAll_cons s post c₁ ▸ hrest)
    exact (exec_isSome_iff (hbegin hsplit) h₁ s).1 (Option.isSome_iff_exists.2 ⟨c₂, h₂⟩)
  · intro hready
    -- every beginning succeeds, by induction on its length
    have hall : ∀ pre post, statements = pre ++ post → ∃ c', runAll exec pre c = some c' := by
      intro pre
      induction pre using List.reverseRecOn with
      | nil => exact fun _ _ => ⟨c, rfl⟩
      | append_singleton pre s ih =>
          intro post hsplit
          rw [List.append_assoc, List.singleton_append] at hsplit
          obtain ⟨c₁, h₁⟩ := ih (s :: post) hsplit
          obtain ⟨c₂, h₂⟩ := Option.isSome_iff_exists.1
            ((exec_isSome_iff (hbegin hsplit) h₁ s).2 (hready pre s post hsplit))
          exact ⟨c₂, by rw [runAll_append, h₁, Option.bind_some, runAll_cons, h₂]; rfl⟩
    exact Option.isSome_iff_exists.2 (hall statements [] (List.append_nil _).symm)

/-! ## Lists that create before they use -/

/-- A statement creates a table or an index of a new name, and uses a table that is declared before it,
with columns of the declaration; a column is added before an index uses it. -/
def creates (pre : List Statement) : Statement → Bool
  | .table name _ => pre.all fun s => if let .table name' _ := s then name' ≠ name else true
  | .index name table columns =>
      (pre.all fun s => if let .index name' _ _ := s then name' ≠ name else true) &&
        pre.any fun s =>
          if let .table table' declared := s then table' = table && columns.all declared.contains else false
  | .column table name =>
      (pre.all fun s => if let .index _ table' columns := s then table' ≠ table || !columns.contains name else true) &&
        pre.any fun s => if let .table table' _ := s then table' = table else false

/-- Every statement of a list creates before it uses. -/
def inOrder (pre : List Statement) : List Statement → Bool
  | [] => true
  | s :: post => creates pre s && inOrder (pre ++ [s]) post

section InOrder

variable {statements pre post : List Statement} {c : Catalog}

theorem creates_of_inOrder {s : Statement} (h : inOrder [] statements = true) (hsplit : statements = pre ++ s :: post) :
    creates pre s = true := by
  have hall : ∀ (before between : List Statement), inOrder before (between ++ s :: post) = true →
      creates (before ++ between) s = true := by
    intro before between
    induction between generalizing before with
    | nil =>
        intro h
        rw [List.append_nil]
        exact (Bool.and_eq_true_iff.1 h).1
    | cons t between ih =>
        intro h
        have hrest := ih (before ++ [t]) (Bool.and_eq_true_iff.1 h).2
        rwa [List.append_assoc, List.singleton_append] at hrest
  exact hall [] pre (hsplit ▸ h)

/-- In such a list no table is declared twice. -/
theorem oneShape_of_inOrder (h : inOrder [] statements = true) : OneShape statements := by
  have hfirst : ∀ {name columns columns'}, .table name columns ∈ statements → .table name columns' ∈ statements →
      ∀ {pre post}, statements = pre ++ .table name columns :: post → .table name columns' ∉ pre := by
    intro name columns columns' _ _ pre post hsplit hmem
    have hnew := creates_of_inOrder h hsplit
    rw [creates, List.all_eq_true] at hnew
    simpa using hnew _ hmem
  intro name columns columns' hmem hmem'
  obtain ⟨pre, post, hsplit⟩ := List.append_of_mem hmem
  obtain ⟨pre', post', hsplit'⟩ := List.append_of_mem hmem'
  rcases List.append_eq_append_iff.1 (hsplit.symm.trans hsplit') with ⟨rest, hpre, hrest⟩ | ⟨rest, hpre, hrest⟩
  · cases rest with
    | nil =>
        injection hrest with heq _
        injection heq
    | cons s rest =>
        injection hrest with heq _
        exact absurd (by rw [hpre, ← heq]; simp) (hfirst hmem' hmem hsplit')
  · cases rest with
    | nil =>
        injection hrest with heq _
        injection heq with _ hcolumns
        exact hcolumns.symm
    | cons s rest =>
        injection hrest with heq _
        exact absurd (by rw [hpre, ← heq]; simp) (hfirst hmem hmem' hsplit)

/-- **What such a list needs of a catalog**: an index that is not there finds its columns in its table, or
among those that are added before. -/
theorem ready_iff {s : Statement} (h : creates pre s = true) : Ready pre c s ↔ ∀ name table columns,
    s = .index name table columns → c.indexed name = true ∨ ∀ present, c.columns table = some present →
      ∀ x ∈ columns, x ∈ present ∨ .column table x ∈ pre := by
  have hdeclared : ∀ {table : String} {p : List String → Bool}, (pre.any fun s =>
      if let .table table' declared := s then table' = table && p declared else false) = true →
      ∃ declared, .table table declared ∈ pre ∧ p declared = true := by
    intro table p hany
    obtain ⟨s, hs, hmatch⟩ := List.any_eq_true.1 hany
    cases s with
    | table table' declared =>
        simp only [Bool.and_eq_true, decide_eq_true_eq] at hmatch
        exact ⟨declared, hmatch.1 ▸ hs, hmatch.2⟩
    | index _ _ _ => cases hmatch
    | column _ _ => cases hmatch
  cases s with
  | table name columns => exact iff_of_true trivial nofun
  | column table name =>
      rw [creates, Bool.and_eq_true] at h
      obtain ⟨declared, hmem, -⟩ := hdeclared (p := fun _ => true) (by simpa using h.2)
      exact iff_of_true (.inr ⟨declared, hmem⟩) nofun
  | index name table columns =>
      rw [creates, Bool.and_eq_true, List.all_eq_true] at h
      obtain ⟨declared, hmem, hsub⟩ := hdeclared h.2
      have hnew : ¬ ∃ t cs, .index name t cs ∈ pre := by
        rintro ⟨t, cs, hin⟩
        simpa using h.1 _ hin
      rw [Ready, or_iff_left hnew]
      constructor
      · rintro hready _ _ _ ⟨⟩
        refine hready.imp_right fun hneeds present hpresent x hx => ?_
        rcases hneeds.2 x hx with ⟨there, hthere, hin⟩ | hadded | ⟨hnone, -⟩
        · exact .inl (Option.some.inj (hpresent.symm.trans hthere) ▸ hin)
        · exact .inr hadded
        · rw [hpresent] at hnone
          cases hnone
      · intro hneeds
        refine (hneeds name table columns rfl).imp_right fun hcolumns => ⟨.inr ⟨declared, hmem⟩, fun x hx => ?_⟩
        cases hthere : c.columns table with
        | none =>
            rw [List.all_eq_true] at hsub
            exact .inr (.inr ⟨hthere, declared, hmem, List.contains_iff_mem.1 (hsub x hx)⟩)
        | some present =>
            rcases hcolumns present hthere x hx with hin | hadded
            · exact .inl ⟨present, hthere, hin⟩
            · exact .inr (.inl hadded)

/-- A column that such a list adds is added before an index uses it. -/
theorem column_mem_of_inOrder (h : inOrder [] statements = true) {name table x : String} {columns : List String}
    (hsplit : statements = pre ++ .index name table columns :: post) (hx : x ∈ columns)
    (hcolumn : .column table x ∈ statements) : .column table x ∈ pre := by
  rw [hsplit] at hcolumn
  rcases List.mem_append.1 hcolumn with hpre | hpost
  · exact hpre
  · rcases List.mem_cons.1 hpost with hindex | hlater
    · cases hindex
    · obtain ⟨between, after, rfl⟩ := List.append_of_mem hlater
      have hnew : creates (pre ++ .index name table columns :: between) (.column table x) = true :=
        creates_of_inOrder h (hsplit.trans (List.append_assoc pre (_ :: between) (_ :: after)).symm)
      rw [creates, Bool.and_eq_true, List.all_eq_true] at hnew
      exact absurd hx (by simpa using hnew.1 (.index name table columns) (by simp))

/-- **When it succeeds.** -/
theorem runAll_isSome_iff_of_inOrder (h : inOrder [] statements = true) :
    (runAll exec statements c).isSome = true ↔ ∀ name table columns, .index name table columns ∈ statements →
      c.indexed name = true ∨ ∀ present, c.columns table = some present →
        ∀ x ∈ columns, x ∈ present ∨ .column table x ∈ statements := by
  rw [runAll_isSome_iff (oneShape_of_inOrder h)]
  constructor
  · intro hready name table columns hmem
    obtain ⟨pre, post, hsplit⟩ := List.append_of_mem hmem
    refine ((ready_iff (creates_of_inOrder h hsplit)).1 (hready pre _ post hsplit) name table columns rfl).imp_right ?_
    intro hcolumns present hpresent x hx
    exact (hcolumns present hpresent x hx).imp_right fun hin => hsplit ▸ List.mem_append_left _ hin
  · intro hneeds pre s post hsplit
    refine (ready_iff (creates_of_inOrder h hsplit)).2 ?_
    rintro name table columns rfl
    have hmem : Statement.index name table columns ∈ statements := by simp [hsplit]
    refine (hneeds name table columns hmem).imp_right fun hcolumns present hpresent x hx => ?_
    exact (hcolumns present hpresent x hx).imp_right (column_mem_of_inOrder h hsplit hx)

end InOrder

end Ddl
end Library
