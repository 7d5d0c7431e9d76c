/-
# Trees of files

A tree has directories and files under paths, lists of names; the root `[]` is no entry of its
own.  Every entry stands in the root or in a directory, which is a field of the structure: a
file with entries beneath it cannot be built.  The operations are those of an operating system,
each of which may refuse: `unlink` a file, `mkdir` under a directory, `writeFile` over a file or
where nothing is, `rmdir` an empty directory.  `place` makes the directories above a file and
writes it; `prune` removes the empty directories, the deepest first.

**Proved here.**  What each operation leaves.  From it `exists_replace`: the files of a tree are
replaced by any others in which no file lies beneath another, by unlinking the files that stand in
the way, writing the new ones and unlinking the rest, whatever the order within a phase; and
the tree has no empty directory then if it had none before.
-/

import PulseGraph.Library.Table
import Mathlib.Data.List.Induction
import Mathlib.Data.List.Sort

namespace Library

/-- An entry of a tree. -/
inductive Entry (γ : Type) where
  | dir
  | file (content : γ)

/-- The directory is above the path. -/
def Above {ν : Type} (d p : List ν) : Prop := d <+: p ∧ d ≠ p

instance {ν : Type} [DecidableEq ν] (d p : List ν) : Decidable (Above d p) := inferInstanceAs (Decidable (_ ∧ _))

/-- Entries under paths, each in the root or in a directory. -/
structure FileTree (ν γ : Type) [DecidableEq ν] where
  entries : Table (List ν) (Entry γ)
  closed : ∀ p e, entries.find? p = some e →
    p ≠ [] ∧ (p.dropLast = [] ∨ entries.find? p.dropLast = some .dir)

section Paths

variable {ν : Type} {d p q : List ν}

theorem Above.trans (h : Above d p) (h' : Above p q) : Above d q := by
  refine ⟨h.1.trans h'.1, ?_⟩
  rintro rfl
  exact h'.2 (h'.1.eq_of_length (le_antisymm h'.1.length_le h.1.length_le))

/-- A path is longer than what is above it. -/
theorem Above.length_lt (h : Above d p) : d.length < p.length := by
  refine lt_of_le_of_ne h.1.length_le fun heq => h.2 (h.1.eq_of_length heq)

/-- What is above a path is its directory, or above that. -/
theorem above_iff_prefix_dropLast (hp : p ≠ []) : Above d p ↔ d <+: p.dropLast := by
  obtain ⟨front, a, rfl⟩ : ∃ front a, p = front ++ [a] := 
    ⟨p.dropLast, p.getLast hp, (List.dropLast_concat_getLast hp).symm⟩
  rw [List.dropLast_concat]
  constructor
  · rintro ⟨hbegins, hne⟩
    rcases List.prefix_concat_iff.1 hbegins with rfl | h
    · exact absurd rfl hne
    · exact h
  · intro h
    refine ⟨h.trans (List.prefix_append _ _), ?_⟩
    rintro rfl
    have hlen := h.length_le
    simp at hlen

end Paths

namespace FileTree

variable {ν γ : Type} [DecidableEq ν]

/-- The tree with nothing in its root. -/
def empty : FileTree ν γ where
  entries := Table.empty
  closed := by
    intro p e h
    cases h

/-- The entry under a path. -/
def find? (t : FileTree ν γ) (p : List ν) : Option (Entry γ) := t.entries.find? p

/-- The content of the file under a path. -/
def files (t : FileTree ν γ) (p : List ν) : Option γ :=
  match t.find? p with
  | some (.file c) => some c
  | _ => none

/-- A directory is under the path. -/
def isDir (t : FileTree ν γ) (p : List ν) : Bool :=
  match t.find? p with
  | some .dir => true
  | _ => false

/-- Every directory has a file somewhere beneath it. -/
def Tight (t : FileTree ν γ) : Prop := ∀ d, t.find? d = some .dir → ∃ p c, Above d p ∧ t.files p = some c

section Reads

variable {t : FileTree ν γ} {d p q : List ν} {c : γ} {e : Entry γ}

theorem files_eq_some_iff : t.files p = some c ↔ t.find? p = some (.file c) := by
  unfold files
  cases t.find? p with
  | none => simp
  | some e => cases e <;> simp

theorem isDir_iff : t.isDir p = true ↔ t.find? p = some .dir := by
  unfold isDir
  cases t.find? p with
  | none => simp
  | some e => cases e <;> simp

theorem ne_nil_of_find? (h : t.find? p = some e) : p ≠ [] := (t.closed p e h).1

/-- **What is above an entry is a directory.** -/
theorem dir_above (h : t.find? p = some e) (hd : Above d p) (hne : d ≠ []) : t.find? d = some .dir := by
  induction p using List.reverseRecOn generalizing e with
  | nil => exact absurd rfl (ne_nil_of_find? h)
  | append_singleton front a ih =>
      have hbegins := (above_iff_prefix_dropLast (by simp)).1 hd
      obtain ⟨-, hparent⟩ := t.closed _ e h
      rw [List.dropLast_concat] at hbegins hparent
      rcases hparent with rfl | hparent
      · exact absurd (List.prefix_nil.1 hbegins) hne
      · by_cases heq : d = front
        · rw [heq]
          exact hparent
        · exact ih hparent ⟨hbegins, heq⟩

/-- Nothing lies beneath a file. -/
theorem not_above_of_file (h : t.find? d = some (.file c)) (hp : t.find? p = some e) : ¬ Above d p := by
  intro habove
  have hdir := dir_above hp habove (ne_nil_of_find? h)
  rw [h] at hdir
  cases hdir

end Reads

/-! ## The operations -/

/-- Take an entry away that nothing stands in. -/
def remove (t : FileTree ν γ) (p : List ν)
    (h : ∀ q e, t.find? q = some e → q.dropLast = p → p = []) : FileTree ν γ where
  entries := t.entries.delete fun k _ => k = p
  closed := by
    intro q e hq
    rw [Table.find?_delete, Option.filter_eq_some_iff] at hq
    obtain ⟨hq, -⟩ := hq
    obtain ⟨hne, hparent⟩ := t.closed q e hq
    refine ⟨hne, hparent.imp id fun hdir => ?_⟩
    rw [Table.find?_delete, hdir, Option.filter_eq_some_iff]
    refine ⟨rfl, ?_⟩
    by_cases heq : q.dropLast = p
    · have hnil := h q e hq heq
      rw [heq, hnil] at hdir
      exact absurd rfl (t.closed [] _ hdir).1
    · simpa using heq

/-- Put an entry where it may stand; a directory stays one. -/
def put (t : FileTree ν γ) (p : List ν) (e : Entry γ) (hp : p ≠ [])
    (hparent : p.dropLast = [] ∨ t.find? p.dropLast = some .dir)
    (hdir : t.find? p = some .dir → e = .dir) : FileTree ν γ where
  entries := t.entries.upsert p e fun _ => e
  closed := by
    intro q e' hq
    rw [Table.find?_upsert_const] at hq
    have hself : p.dropLast ≠ p := by
      intro heq
      have hlen := congrArg List.length heq
      have hpos := List.length_pos_of_ne_nil hp
      rw [List.length_dropLast] at hlen
      omega
    split_ifs at hq with hqp
    · subst hqp
      refine ⟨hp, hparent.imp id fun h => ?_⟩
      rw [Table.find?_upsert_const, if_neg hself]
      exact h
    · obtain ⟨hne, hq'⟩ := t.closed q e' hq
      refine ⟨hne, hq'.imp id fun h => ?_⟩
      rw [Table.find?_upsert_const]
      split_ifs with heq
      · rw [hdir (heq ▸ h)]
      · exact h

/-- `unlink`: a file alone. -/
def unlink (p : List ν) (t : FileTree ν γ) : Option (FileTree ν γ) :=
  match h : t.find? p with
  | some (.file _) => some (t.remove p fun q e hq heq => by
      by_contra hne
      have hqne := ne_nil_of_find? hq
      exact not_above_of_file h hq ((above_iff_prefix_dropLast hqne).2 (heq ▸ List.prefix_refl _)))
  | _ => none

/-- `mkdir`, in the root or in a directory, where nothing is. -/
def mkdir (p : List ν) (t : FileTree ν γ) : Option (FileTree ν γ) :=
  if h : p ≠ [] ∧ (p.dropLast = [] ∨ t.isDir p.dropLast = true) ∧ (t.find? p).isNone = true then
    some (t.put p .dir h.1 (h.2.1.imp id isDir_iff.1) fun _ => rfl)
  else none

/-- A file replaced as a whole, in the root or in a directory. -/
def writeFile (p : List ν) (c : γ) (t : FileTree ν γ) : Option (FileTree ν γ) :=
  if h : p ≠ [] ∧ (p.dropLast = [] ∨ t.isDir p.dropLast = true) ∧ t.isDir p = false then
    some (t.put p (.file c) h.1 (h.2.1.imp id isDir_iff.1) fun hdir => by
      rw [isDir_iff.2 hdir] at h
      exact absurd h.2.2 (by decide))
  else none

/-- `rmdir`: an empty directory alone. -/
def rmdir (p : List ν) (t : FileTree ν γ) : Option (FileTree ν γ) :=
  if h : t.isDir p = true ∧ (t.entries.rows.all fun r => decide (¬ Above p r.1)) = true then
    some (t.remove p fun q e hq heq => by
      have hrow := List.all_eq_true.1 h.2 (q, e) (Table.find?_eq_some_iff.1 hq)
      exact absurd ((above_iff_prefix_dropLast (ne_nil_of_find? hq)).2 (heq ▸ List.prefix_refl _))
        (of_decide_eq_true hrow))
  else none

/-- A directory that is there, or made. -/
def ensureDir (p : List ν) (t : FileTree ν γ) : Option (FileTree ν γ) :=
  match t.find? p with
  | some .dir => some t
  | some (.file _) => none
  | none => t.mkdir p

/-- The directories from one downwards, one after the other. -/
def makeDirs (base : List ν) : List ν → FileTree ν γ → Option (FileTree ν γ)
  | [], t => some t
  | name :: names, t => (t.ensureDir (base ++ [name])).bind (makeDirs (base ++ [name]) names)

/-- A file, with the directories above it. -/
def place (p : List ν) (c : γ) (t : FileTree ν γ) : Option (FileTree ν γ) :=
  (makeDirs [] p.dropLast t).bind (writeFile p c)

/-- The directories, the deepest first. -/
def dirsBottomUp (t : FileTree ν γ) : List (List ν) :=
  (t.entries.rows.filterMap fun r => match r.2 with
    | .dir => some r.1
    | .file _ => none).insertionSort fun a b => b.length ≤ a.length

/-- Every empty directory is removed, from the bottom up; one that is not empty stays. -/
def prune (t : FileTree ν γ) : FileTree ν γ := t.dirsBottomUp.foldl (fun t d => (t.rmdir d).getD t) t

/-! ## What the operations leave -/

section Writes

variable {t t' : FileTree ν γ} {d p q : List ν} {c : γ} {e : Entry γ}

@[simp] theorem find?_empty (p : List ν) : (empty : FileTree ν γ).find? p = none := rfl

theorem find?_remove (h : ∀ q e, t.find? q = some e → q.dropLast = p → p = []) :
    (t.remove p h).find? q = if q = p then none else t.find? q := by
  change (t.entries.delete fun k _ => k = p).find? q = _
  rw [Table.find?_delete]
  split_ifs with heq
  · subst heq
    cases t.entries.find? q <;> simp
  · change _ = t.entries.find? q
    cases t.entries.find? q <;> simp [heq]

theorem find?_put {hp : p ≠ []} {hparent : p.dropLast = [] ∨ t.find? p.dropLast = some .dir}
    {hdir : t.find? p = some .dir → e = .dir} :
    (t.put p e hp hparent hdir).find? q = if q = p then some e else t.find? q :=
  Table.find?_upsert_const

/-- A file is unlinked. -/
theorem exists_unlink (h : t.files p = some c) :
    ∃ t', t.unlink p = some t' ∧ ∀ q, t'.find? q = if q = p then none else t.find? q := by
  rw [files_eq_some_iff] at h
  unfold unlink
  split
  · exact ⟨_, rfl, fun q => find?_remove _⟩
  · next hno => exact absurd h (hno c)

/-- A directory is made, unless a file stands there. -/
theorem exists_ensureDir (hp : p ≠ []) (hparent : p.dropLast = [] ∨ t.find? p.dropLast = some .dir)
    (hfile : t.files p = none) :
    ∃ t', t.ensureDir p = some t' ∧ ∀ q, t'.find? q = if q = p then some .dir else t.find? q := by
  unfold ensureDir
  cases hfind : t.find? p with
  | none =>
      have hcond : p ≠ [] ∧ (p.dropLast = [] ∨ t.isDir p.dropLast = true) ∧ (t.find? p).isNone = true :=
        ⟨hp, hparent.imp id isDir_iff.2, by rw [hfind]; rfl⟩
      refine ⟨_, dif_pos hcond, fun q => find?_put⟩
  | some e =>
      cases e with
      | dir =>
          refine ⟨t, rfl, fun q => ?_⟩
          split_ifs with heq
          · rw [heq, hfind]
          · rfl
      | file c =>
          rw [files_eq_some_iff.2 hfind] at hfile
          cases hfile

/-- **The directories from one downwards are made**, unless a file stands in the way. -/
theorem exists_makeDirs {base names : List ν} (hbase : base = [] ∨ t.find? base = some .dir)
    (hfile : ∀ q, Above base q → q <+: base ++ names → t.files q = none) :
    ∃ t', makeDirs base names t = some t' ∧
      ∀ q, t'.find? q = if Above base q ∧ q <+: base ++ names then some .dir else t.find? q := by
  induction names generalizing base t with
  | nil =>
      refine ⟨t, rfl, fun q => ?_⟩
      rw [if_neg]
      rintro ⟨⟨hbegins, hne⟩, hq⟩
      rw [List.append_nil] at hq
      exact hne (hbegins.eq_of_length (le_antisymm hbegins.length_le hq.length_le))
  | cons name names ih =>
      have happ : base ++ name :: names = base ++ [name] ++ names := by simp
      have hstep : Above base (base ++ [name]) := ⟨List.prefix_append _ _, by simp⟩
      obtain ⟨t₁, ht₁, hfind₁⟩ := @exists_ensureDir ν γ _ t (base ++ [name]) (by simp) (by simpa using hbase)
        (hfile _ hstep (by rw [happ]; exact List.prefix_append _ _))
      have hfile₁ : ∀ q, Above (base ++ [name]) q → q <+: base ++ [name] ++ names → t₁.files q = none := by
        intro q habove hq
        have hold := hfile q (hstep.trans habove) (happ ▸ hq)
        unfold files at hold ⊢
        rw [hfind₁ q, if_neg (Ne.symm habove.2)]
        exact hold
      obtain ⟨t', ht', hfind⟩ := @ih t₁ (base ++ [name])
        (.inr (by rw [hfind₁, if_pos rfl])) hfile₁
      refine ⟨t', ?_, fun q => ?_⟩
      · rw [makeDirs, ht₁]
        exact ht'
      · -- what lies between is the first directory, or beneath it
        rw [hfind q, happ]
        by_cases hq : q = base ++ [name]
        · subst hq
          rw [if_neg fun h => h.1.2 rfl, hfind₁, if_pos rfl, if_pos ⟨hstep, List.prefix_append _ _⟩]
        · rw [hfind₁ q, if_neg hq]
          refine if_congr ⟨fun h => ⟨hstep.trans h.1, h.2⟩, fun h => ⟨⟨?_, Ne.symm hq⟩, h.2⟩⟩ rfl rfl
          refine List.prefix_of_prefix_length_le (List.prefix_append _ _) h.2 ?_
          have hlt := h.1.length_lt
          simp only [List.length_append, List.length_singleton]
          omega

/-- A file is written, unless a directory stands in its place. -/
theorem exists_writeFile (hp : p ≠ []) (hparent : p.dropLast = [] ∨ t.find? p.dropLast = some .dir)
    (hdir : t.find? p ≠ some .dir) (c : γ) :
    ∃ t', t.writeFile p c = some t' ∧ ∀ q, t'.find? q = if q = p then some (.file c) else t.find? q := by
  have hcond : p ≠ [] ∧ (p.dropLast = [] ∨ t.isDir p.dropLast = true) ∧ t.isDir p = false :=
    ⟨hp, hparent.imp id isDir_iff.2, Bool.eq_false_iff.2 fun h => hdir (isDir_iff.1 h)⟩
  exact ⟨_, dif_pos hcond, fun q => find?_put⟩

/-- **A file is placed**, unless a file stands above it or a directory in its place. -/
theorem exists_place (hp : p ≠ []) (hfile : ∀ d, Above d p → t.files d = none)
    (hdir : t.find? p ≠ some .dir) (c : γ) : ∃ t', t.place p c = some t' ∧ ∀ q, t'.find? q =
      if q = p then some (.file c) else if q ≠ [] ∧ Above q p then some .dir else t.find? q := by
  obtain ⟨t₁, ht₁, hfind₁⟩ := @exists_makeDirs ν γ _ t [] p.dropLast (.inl rfl) fun q _ hq =>
    hfile q ((above_iff_prefix_dropLast hp).2 hq)
  have hmade : ∀ q, t₁.find? q = if q ≠ [] ∧ Above q p then some .dir else t.find? q := by
    intro q
    refine (hfind₁ q).trans (if_congr ?_ rfl rfl)
    rw [List.nil_append, above_iff_prefix_dropLast hp]
    refine and_congr_left fun _ => ?_
    exact ⟨fun h => Ne.symm h.2, fun h => ⟨List.nil_prefix, Ne.symm h⟩⟩
  have hparent : p.dropLast = [] ∨ t₁.find? p.dropLast = some .dir := by
    by_cases hnil : p.dropLast = []
    · exact .inl hnil
    · refine .inr ?_
      rw [hmade, if_pos ⟨hnil, (above_iff_prefix_dropLast hp).2 (List.prefix_refl _)⟩]
  have hself : t₁.find? p ≠ some .dir := by
    rw [hmade, if_neg fun h => h.2.2 rfl]
    exact hdir
  obtain ⟨t', ht', hfind⟩ := exists_writeFile hp hparent hself c
  refine ⟨t', ?_, fun q => ?_⟩
  · rw [place, ht₁]
    exact ht'
  · rw [hfind q]
    split_ifs with heq hq
    · rfl
    · rw [hmade, if_pos hq]
    · rw [hmade, if_neg hq]

end Writes

/-! ## Several operations -/

section Several

variable {t : FileTree ν γ}

/-- **Files are unlinked**, in any order. -/
theorem exists_unlinkAll {ps : List (List ν)} (hnodup : ps.Nodup) (hfiles : ∀ p ∈ ps, (t.files p).isSome = true) :
    ∃ t', ps.foldlM (fun t p => t.unlink p) t = some t' ∧
      ∀ q, t'.find? q = if q ∈ ps then none else t.find? q := by
  induction ps generalizing t with
  | nil => exact ⟨t, rfl, fun q => (if_neg List.not_mem_nil).symm⟩
  | cons p ps ih =>
      obtain ⟨hp, hps⟩ := List.nodup_cons.1 hnodup
      obtain ⟨c, hc⟩ := Option.isSome_iff_exists.1 (hfiles p List.mem_cons_self)
      obtain ⟨t₁, ht₁, hfind₁⟩ := exists_unlink hc
      have hleft : ∀ q ∈ ps, (t₁.files q).isSome = true := by
        intro q hq
        have hne : q ≠ p := by
          rintro rfl
          exact hp hq
        have hsome := hfiles q (List.mem_cons_of_mem _ hq)
        unfold files at hsome ⊢
        rw [hfind₁ q, if_neg hne]
        exact hsome
      obtain ⟨t', ht', hfind⟩ := ih hps hleft
      refine ⟨t', ?_, fun q => ?_⟩
      · rw [List.foldlM_cons, ht₁]
        exact ht'
      · rw [hfind q, hfind₁ q]
        by_cases hqp : q = p
        · subst hqp
          rw [if_neg hp, if_pos rfl, if_pos List.mem_cons_self]
        · simp only [List.mem_cons, hqp, false_or, if_false]

/-- Whether a path is above one of those. -/
def AboveSome (ps : List (List ν)) (d : List ν) : Prop := ∃ p ∈ ps, Above d p

/-- **Files are placed**, in any order: the files get their content, and what is above them is a
directory; no file may stand above one of them, and no directory in its place. -/
theorem exists_placeAll {content : List ν → γ} {ps : List (List ν)} (hne : ∀ p ∈ ps, p ≠ [])
    (hfile : ∀ p ∈ ps, ∀ d, Above d p → t.files d = none ∧ d ∉ ps) (hdir : ∀ p ∈ ps, t.find? p ≠ some .dir) :
    ∃ t', ps.foldlM (fun t p => t.place p (content p)) t = some t' ∧
      (∀ q, t'.files q = if q ∈ ps then some (content q) else t.files q) ∧
      ∀ q, t'.find? q = some .dir ↔ t.find? q = some .dir ∨ q ≠ [] ∧ AboveSome ps q := by
  induction ps generalizing t with
  | nil =>
      refine ⟨t, rfl, fun q => (if_neg List.not_mem_nil).symm, fun q => ?_⟩
      simp [AboveSome]
  | cons p ps ih =>
      have hmem : p ∈ p :: ps := List.mem_cons_self
      obtain ⟨t₁, ht₁, hfind₁⟩ := exists_place (hne p hmem) (fun d hd => (hfile p hmem d hd).1) (hdir p hmem)
        (content p)
      have hfiles₁ : ∀ q, t₁.files q = if q = p then some (content p) else t.files q := by
        intro q
        unfold files
        rw [hfind₁ q]
        split_ifs with hqp hq
        · rfl
        · -- no file was where a directory is made
          have hnone := (hfile p hmem q hq.2).1
          unfold files at hnone
          rw [hnone]
        · rfl
      have hdir₁ : ∀ q, t₁.find? q = some .dir ↔ t.find? q = some .dir ∨ q ≠ [] ∧ Above q p := by
        intro q
        rw [hfind₁ q]
        split_ifs with hqp hq
        · subst hqp
          constructor
          · intro h
            cases h
          · rintro (h | ⟨-, h⟩)
            · exact absurd h (hdir q hmem)
            · exact absurd rfl h.2
        · exact ⟨fun _ => .inr hq, fun _ => rfl⟩
        · exact ⟨.inl, fun h => h.resolve_right hq⟩
      have hlater : ∀ q ∈ ps, ∀ d, Above d q → t₁.files d = none ∧ d ∉ ps := by
        intro q hq d hd
        obtain ⟨hnone, hnot⟩ := hfile q (List.mem_cons_of_mem _ hq) d hd
        refine ⟨?_, fun h => hnot (List.mem_cons_of_mem _ h)⟩
        rw [hfiles₁, if_neg]
        · exact hnone
        · rintro rfl
          exact hnot hmem
      have hlaterDir : ∀ q ∈ ps, t₁.find? q ≠ some .dir := by
        intro q hq h
        rcases (hdir₁ q).1 h with h | ⟨-, h⟩
        · exact hdir q (List.mem_cons_of_mem _ hq) h
        · exact (hfile p hmem q h).2 (List.mem_cons_of_mem _ hq)
      obtain ⟨t', ht', hfiles, hdirs⟩ := ih (fun q hq => hne q (List.mem_cons_of_mem _ hq)) hlater hlaterDir
      refine ⟨t', ?_, fun q => ?_, fun q => ?_⟩
      · rw [List.foldlM_cons, ht₁]
        exact ht'
      · rw [hfiles q, hfiles₁ q]
        by_cases hps : q ∈ ps
        · rw [if_pos hps, if_pos (List.mem_cons_of_mem _ hps)]
        · rw [if_neg hps]
          by_cases hqp : q = p
          · subst hqp
            rw [if_pos rfl, if_pos hmem]
          · rw [if_neg hqp, if_neg (by simp [hqp, hps])]
      · rw [hdirs q, hdir₁ q]
        simp only [AboveSome, List.exists_mem_cons_iff, and_or_left, or_assoc]

/-! ## Pruning -/

/-- Removing a directory leaves the files and the other directories, and fails when something is
beneath it. -/
theorem rmdir_cases (d : List ν) : ((t.rmdir d).getD t).files = t.files ∧
    (∀ q, q ≠ d → ((t.rmdir d).getD t).find? q = t.find? q) ∧
    (((t.rmdir d).getD t).find? d = some .dir → ∃ q e, Above d q ∧ t.find? q = some e) := by
  unfold rmdir
  split_ifs with h
  · rw [Option.getD_some]
    refine ⟨?_, fun q hq => ?_, fun hdir => ?_⟩
    · funext q
      unfold files
      rw [find?_remove]
      split_ifs with heq
      · rw [heq, isDir_iff.1 h.1]
      · rfl
    · rw [find?_remove, if_neg hq]
    · rw [find?_remove, if_pos rfl] at hdir
      cases hdir
  · rw [Option.getD_none]
    refine ⟨rfl, fun q _ => rfl, fun hdir => ?_⟩
    simp only [isDir_iff.2 hdir, true_and, Bool.not_eq_true, List.all_eq_false] at h
    obtain ⟨⟨q, e⟩, hmem, hnot⟩ := h
    have habove : Above d q := by simpa using hnot
    exact ⟨q, e, habove, Table.find?_eq_some_iff.2 hmem⟩

/-- The directories that are not to be visited any more have files beneath them. -/
theorem foldl_rmdir {ds : List (List ν)} (hsorted : ds.Pairwise fun a b => b.length ≤ a.length)
    (hdirs : ∀ d, t.find? d = some .dir → d ∈ ds ∨ ∃ p c, Above d p ∧ t.files p = some c) :
    (ds.foldl (fun t d => (t.rmdir d).getD t) t).files = t.files ∧
      (ds.foldl (fun t d => (t.rmdir d).getD t) t).Tight := by
  induction ds generalizing t with
  | nil => exact ⟨rfl, fun d hd => (hdirs d hd).resolve_left List.not_mem_nil⟩
  | cons d ds ih =>
      obtain ⟨hfirst, hrest⟩ := List.pairwise_cons.1 hsorted
      obtain ⟨hfiles, hothers, hself⟩ := @rmdir_cases ν γ _ t d
      have hnext : ∀ d', ((t.rmdir d).getD t).find? d' = some .dir →
          d' ∈ ds ∨ ∃ p c, Above d' p ∧ ((t.rmdir d).getD t).files p = some c := by
        intro d' hd'
        rw [hfiles]
        by_cases heq : d' = d
        · -- what stands in the way is deeper, so a file or above one
          subst heq
          obtain ⟨q, e, habove, hq⟩ := hself hd'
          refine .inr ?_
          cases e with
          | file c => exact ⟨q, c, habove, files_eq_some_iff.2 hq⟩
          | dir =>
              rcases hdirs q hq with hmem | ⟨p, c, hp, hc⟩
              · have hlt := habove.length_lt
                rcases List.mem_cons.1 hmem with rfl | hmem
                · exact absurd hlt (lt_irrefl _)
                · exact absurd (hfirst q hmem) (not_le.2 hlt)
              · exact ⟨p, c, habove.trans hp, hc⟩
        · rw [hothers d' heq] at hd'
          rcases hdirs d' hd' with hmem | hbelow
          · exact .inl ((List.mem_cons.1 hmem).resolve_left heq)
          · exact .inr hbelow
      obtain ⟨hkept, htight⟩ := ih hrest hnext
      exact ⟨hkept.trans hfiles, htight⟩

/-- **Pruning leaves the files**, and no empty directory. -/
theorem prune_spec (t : FileTree ν γ) : t.prune.files = t.files ∧ t.prune.Tight := by
  have htotal : Std.Total fun a b : List ν => b.length ≤ a.length := ⟨fun a b => Nat.le_total _ _⟩
  have htrans : IsTrans (List ν) fun a b => b.length ≤ a.length := ⟨fun a b c hab hbc => hbc.trans hab⟩
  refine foldl_rmdir (List.pairwise_insertionSort _ _) fun d hd => .inl ?_
  unfold dirsBottomUp
  rw [List.mem_insertionSort, List.mem_filterMap]
  exact ⟨(d, .dir), Table.find?_eq_some_iff.1 hd, rfl⟩

/-! ## Replacing the files -/

/-- Files of which none lies beneath another, and none in the place of the root. -/
structure CollisionFree (files : List ν → Option γ) : Prop where
  root : files [] = none
  apart : ∀ p q, (files p).isSome = true → (files q).isSome = true → ¬ Above p q

/-- The file is in the way: it is not to stay, and stands above or beneath one that is to be. -/
def Blocks (t : FileTree ν γ) (result : List ν → Option γ) (p : List ν) : Prop :=
  (t.files p).isSome = true ∧ result p = none ∧ ∃ q, (result q).isSome = true ∧ (Above p q ∨ Above q p)

/-- **The files of a tree are replaced by any others**: those in the way are unlinked (and the empty
directories removed, if there were any), the new ones placed, and the rest unlinked. -/
theorem exists_replace {t : FileTree ν γ} (ht : t.Tight) {result : List ν → Option γ}
    (hresult : CollisionFree result) {content : List ν → γ} {blockers written rest : List (List ν)}
    (hblockers : blockers.Nodup ∧ ∀ p, p ∈ blockers ↔ Blocks t result p)
    (hwritten : ∀ p, p ∈ written ↔ (result p).isSome = true ∧ t.files p ≠ result p)
    (hcontent : ∀ p ∈ written, result p = some (content p))
    (hrest : rest.Nodup ∧ ∀ p, p ∈ rest ↔ (t.files p).isSome = true ∧ result p = none ∧ p ∉ blockers) :
    ∃ t₁ t₂ t₃, blockers.foldlM (fun t p => t.unlink p) t = some t₁ ∧
      written.foldlM (fun t p => t.place p (content p)) (if blockers = [] then t₁ else t₁.prune) = some t₂ ∧
      rest.foldlM (fun t p => t.unlink p) t₂ = some t₃ ∧ t₃.prune.files = result ∧ t₃.prune.Tight := by
  obtain ⟨t₁, ht₁, hfind₁⟩ := exists_unlinkAll hblockers.1 fun p hp => ((hblockers.2 p).1 hp).1
  have hfiles₁ : ∀ p, t₁.files p = if p ∈ blockers then none else t.files p := by
    intro p
    unfold files
    rw [hfind₁ p]
    split_ifs <;> rfl
  obtain ⟨s, hs⟩ : ∃ s, (if blockers = [] then t₁ else t₁.prune) = s := ⟨_, rfl⟩
  have hclear : s.files = t₁.files ∧ s.Tight := by
    rw [← hs]
    split_ifs with hnil
    · refine ⟨rfl, fun d hd => ?_⟩
      rw [hfind₁, hnil, if_neg List.not_mem_nil] at hd
      obtain ⟨p, c, habove, hc⟩ := ht d hd
      refine ⟨p, c, habove, ?_⟩
      rw [hfiles₁, hnil, if_neg List.not_mem_nil]
      exact hc
    · exact prune_spec t₁
  have hstays : ∀ p, (s.files p).isSome = true → (t.files p).isSome = true ∧ p ∉ blockers := by
    intro p hp
    rw [hclear.1, hfiles₁] at hp
    split_ifs at hp with hmem
    · cases hp
    · exact ⟨hp, hmem⟩
  have hnew : ∀ p ∈ written, (result p).isSome = true := fun p hp => ((hwritten p).1 hp).1
  have hfree : ∀ p ∈ written, ∀ d, Above d p → s.files d = none ∧ d ∉ written := by
    intro p hp d hd
    refine ⟨?_, fun hmem => hresult.apart d p (hnew d hmem) (hnew p hp) hd⟩
    by_contra hsome
    obtain ⟨hold, hnot⟩ := hstays d (Option.isSome_iff_ne_none.2 hsome)
    refine hnot ((hblockers.2 d).2 ⟨hold, ?_, p, hnew p hp, .inl hd⟩)
    by_contra hkept
    exact hresult.apart d p (Option.isSome_iff_ne_none.2 hkept) (hnew p hp) hd
  have hplace : ∀ p ∈ written, s.find? p ≠ some .dir := by
    intro p hp hdir
    obtain ⟨q, c, habove, hc⟩ := hclear.2 p hdir
    obtain ⟨hold, hnot⟩ := hstays q (by rw [hc]; rfl)
    refine hnot ((hblockers.2 q).2 ⟨hold, ?_, p, hnew p hp, .inr habove⟩)
    by_contra hkept
    exact hresult.apart p q (hnew p hp) (Option.isSome_iff_ne_none.2 hkept) habove
  have hroot : ∀ p ∈ written, p ≠ [] := by
    rintro p hp rfl
    have hsome := hnew [] hp
    rw [hresult.root] at hsome
    cases hsome
  obtain ⟨t₂, ht₂, hfiles₂, -⟩ := @exists_placeAll ν γ _ s content written hroot hfree hplace
  have hold : ∀ p ∈ rest, (t₂.files p).isSome = true := by
    intro p hp
    obtain ⟨hsome, hgone, hnot⟩ := (hrest.2 p).1 hp
    have hunwritten : p ∉ written := by
      intro hmem
      have hkept := hnew p hmem
      rw [hgone] at hkept
      cases hkept
    rw [hfiles₂, if_neg hunwritten, hclear.1, hfiles₁, if_neg hnot]
    exact hsome
  obtain ⟨t₃, ht₃, hfind₃⟩ := exists_unlinkAll hrest.1 hold
  obtain ⟨hpruned, htight⟩ := prune_spec t₃
  refine ⟨t₁, t₂, t₃, ht₁, ?_, ht₃, ?_, htight⟩
  · rw [hs]
    exact ht₂
  · funext p
    have hfiles₃ : t₃.files p = if p ∈ rest then none else t₂.files p := by
      unfold files
      rw [hfind₃ p]
      split_ifs <;> rfl
    rw [hpruned, hfiles₃, hfiles₂, hclear.1, hfiles₁]
    split_ifs with hmem hnew hblock
    · exact ((hrest.2 p).1 hmem).2.1.symm
    · exact (hcontent p hnew).symm
    · exact ((hblockers.2 p).1 hblock).2.1.symm
    · -- the file was there, and stays as it is
      by_contra hne
      cases hr : result p with
      | some c => exact hnew ((hwritten p).2 ⟨by rw [hr]; rfl, hne⟩)
      | none =>
          rw [hr] at hne
          exact hmem ((hrest.2 p).2 ⟨Option.isSome_iff_ne_none.2 hne, hr, hblock⟩)

end Several

end FileTree

end Library
