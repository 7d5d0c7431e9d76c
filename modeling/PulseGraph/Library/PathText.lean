/-
# Paths as texts

A path is written as its names with a slash between them; a text is taken apart at its slashes.
A table of texts under such paths is a map on lists of names, `fileMap`.

**Proved here.**  Taking a text apart loses nothing (`joinSegments_segments`), and a list of names
free of slashes is what its text is taken apart into (`segments_joinSegments`).  The two ways of
asking whether a file lies in a directory agree with the order of the lists: a text that begins
with a path and a slash (`startsWith_iff_above`), and a path among the initial parts of another
(`mem_ancestors_iff_above`).
-/

import PulseGraph.Library.FileTree
import Mathlib.Data.String.Basic

namespace Library

/-- `path.split("/")`. -/
def segments (path : String) : List String := (path.toList.splitOn '/').map String.ofList

/-- `"/".join(parts)`. -/
def joinSegments (parts : List String) : String := String.ofList (List.intercalate ['/'] (parts.map String.toList))

/-- `path.startswith(directory + "/")`. -/
def startsWithDir (directory path : String) : Bool := (directory.toList ++ ['/']).isPrefixOf path.toList

/-- `{"/".join(parts[:index]) for index in range(1, len(parts))}`. -/
def ancestors (path : String) : List String :=
  (List.range (segments path).length).tail.map fun index => joinSegments ((segments path).take index)

/-- A table of texts under paths, as a map on lists of names. -/
def fileMap {γ : Type} (files : Table String γ) (parts : List String) : Option γ :=
  if segments (joinSegments parts) = parts then files.find? (joinSegments parts) else none

/-! ## Characters and bytes -/

theorem length_le_size_utf8Encode (cs : List Char) : cs.length ≤ cs.utf8Encode.size := by
  induction cs with
  | nil => simp
  | cons c cs ih =>
      have hpos := c.utf8Size_pos
      rw [List.utf8Encode_cons, ByteArray.size_append, List.length_cons, List.utf8Encode_singleton]
      simp only [List.size_toByteArray, String.length_utf8EncodeChar]
      omega

/-- A text has no more characters than bytes. -/
theorem length_le_utf8ByteSize (s : String) : s.length ≤ s.utf8ByteSize := by
  rw [← String.length_toList]
  conv_rhs => rw [← String.ofList_toList (s := s)]
  exact length_le_size_utf8Encode s.toList

/-! ## Taking apart and putting together -/

section Parts

variable {p q r : String}

theorem segments_ne_nil (p : String) : segments p ≠ [] := by
  unfold segments
  rw [Ne, List.map_eq_nil_iff]
  exact List.splitOn_ne_nil _ _

/-- **Nothing is lost** by taking a path apart. -/
@[simp] theorem joinSegments_segments (p : String) : joinSegments (segments p) = p := by
  have hparts : (segments p).map String.toList = p.toList.splitOn '/' := by
    unfold segments
    rw [List.map_map]
    refine (List.map_congr_left fun cs _ => ?_).trans (List.map_id _)
    exact String.toList_ofList
  unfold joinSegments
  rw [hparts, List.intercalate_splitOn, String.ofList_toList]

theorem segments_injective (h : segments p = segments q) : p = q := by
  rw [← joinSegments_segments p, h, joinSegments_segments]

/-- **Names free of slashes** are what their text is taken apart into. -/
theorem segments_joinSegments {parts : List String} (hne : parts ≠ []) (hfree : ∀ part ∈ parts, '/' ∉ part.toList) :
    segments (joinSegments parts) = parts := by
  unfold segments joinSegments
  rw [String.toList_ofList, List.splitOn_intercalate]
  · rw [List.map_map]
    refine (List.map_congr_left fun part _ => ?_).trans (List.map_id _)
    exact String.ofList_toList
  · intro cs hcs
    obtain ⟨part, hpart, rfl⟩ := List.mem_map.1 hcs
    exact hfree part hpart
  · rw [Ne, List.map_eq_nil_iff]
    exact hne

theorem joinSegments_singleton (p : String) : joinSegments [p] = p := by
  simp [joinSegments]

/-- One name more in front. -/
theorem joinSegments_cons (p : String) {parts : List String} (h : parts ≠ []) :
    joinSegments (p :: parts) = p ++ "/" ++ joinSegments parts := by
  obtain ⟨q, rest, rfl⟩ := List.exists_cons_of_ne_nil h
  refine String.toList_inj.1 ?_
  simp [joinSegments]

/-- What a list is taken apart into has no separator in it. -/
theorem not_mem_of_mem_splitOn {α : Type} [DecidableEq α] {a : α} {xs ys : List α} (h : ys ∈ xs.splitOn a) :
    a ∉ ys := by
  induction xs generalizing ys with
  | nil =>
      rw [List.splitOn_nil, List.mem_singleton] at h
      rw [h]
      exact List.not_mem_nil
  | cons x xs ih =>
      rw [List.splitOn_cons_eq_if_modifyHead] at h
      split_ifs at h with hx
      · rcases List.mem_cons.1 h with rfl | h
        · exact List.not_mem_nil
        · exact ih h
      · -- the first part gets one more element, which is no separator
        obtain ⟨first, rest, hsplit⟩ := List.exists_cons_of_ne_nil (List.splitOn_ne_nil a xs)
        rw [hsplit, List.modifyHead_cons] at h
        rcases List.mem_cons.1 h with rfl | h
        · rw [List.mem_cons, not_or]
          refine ⟨fun heq => hx (beq_iff_eq.2 heq.symm), ih ?_⟩
          rw [hsplit]
          exact List.mem_cons_self
        · refine ih ?_
          rw [hsplit]
          exact List.mem_cons_of_mem _ h

/-- What is no separator is in the list exactly when it is in one of the parts. -/
theorem mem_iff_mem_splitOn {α : Type} [DecidableEq α] {a x : α} {xs : List α} (hne : x ≠ a) :
    x ∈ xs ↔ ∃ ys ∈ xs.splitOn a, x ∈ ys := by
  induction xs with
  | nil => simp
  | cons y xs ih =>
      obtain ⟨first, rest, hsplit⟩ := List.exists_cons_of_ne_nil (List.splitOn_ne_nil a xs)
      rw [List.splitOn_cons_eq_if_modifyHead]
      rw [hsplit] at ih ⊢
      split_ifs with hy
      · have hxy : x ≠ y := fun h => hne (h.trans (beq_iff_eq.1 hy))
        simp [hxy, ih]
      · simp [ih, or_assoc]

/-- The names of a path are free of slashes. -/
theorem slash_not_mem {part : String} (h : part ∈ segments p) : '/' ∉ part.toList := by
  obtain ⟨cs, hcs, rfl⟩ := List.mem_map.1 h
  rw [String.toList_ofList]
  exact not_mem_of_mem_splitOn hcs

/-- So every part of the names is what its text is taken apart into. -/
theorem segments_joinSegments_of_sublist {parts : List String} (hne : parts ≠ [])
    (hsub : parts.Sublist (segments p)) : segments (joinSegments parts) = parts := by
  exact segments_joinSegments hne fun part hpart => slash_not_mem (hsub.subset hpart)

/-! ## What lies in a directory -/

/-- The names of a path in a directory. -/
theorem segments_append (d : String) (rest : List Char) :
    segments (String.ofList (d.toList ++ '/' :: rest)) = segments d ++ segments (String.ofList rest) := by
  unfold segments
  rw [String.toList_ofList, String.toList_ofList, List.splitOn_append_cons_self, List.map_append]

/-- **A text begins with a path and a slash** exactly when it lies beneath the path. -/
theorem startsWithDir_iff_above : startsWithDir r p = true ↔ Above (segments r) (segments p) := by
  unfold startsWithDir
  rw [List.isPrefixOf_iff_prefix]
  constructor
  · rintro ⟨rest, hrest⟩
    have hp : p = String.ofList (r.toList ++ '/' :: rest) := by
      rw [← String.ofList_toList (s := p), ← hrest, List.append_assoc]
      rfl
    rw [hp, segments_append]
    refine ⟨List.prefix_append _ _, fun heq => ?_⟩
    exact segments_ne_nil _ (List.self_eq_append_right.1 heq)
  · rintro ⟨⟨more, hmore⟩, hne⟩
    have hnil : more ≠ [] := by
      rintro rfl
      rw [List.append_nil] at hmore
      exact hne hmore
    have hsub : more.Sublist (segments p) := by
      rw [← hmore]
      exact List.sublist_append_right _ _
    -- the text of the names that follow completes the directory's
    have hp : String.ofList (r.toList ++ '/' :: (joinSegments more).toList) = p := by
      refine segments_injective ?_
      rw [segments_append, String.ofList_toList, segments_joinSegments_of_sublist hnil hsub]
      exact hmore
    refine ⟨(joinSegments more).toList, ?_⟩
    rw [← hp, String.toList_ofList, List.append_assoc]
    rfl

/-- **A path is an initial part of another** exactly when that lies beneath it. -/
theorem mem_ancestors_iff_above : r ∈ ancestors p ↔ Above (segments r) (segments p) := by
  have hindex : ∀ n index : ℕ, index ∈ (List.range n).tail ↔ 1 ≤ index ∧ index < n := by
    intro n index
    cases n with
    | zero => simp
    | succ n =>
        rw [List.range_succ_eq_map, List.tail_cons, List.mem_map]
        constructor
        · rintro ⟨k, hk, rfl⟩
          have hlt := List.mem_range.1 hk
          omega
        · rintro ⟨h1, h2⟩
          exact ⟨index - 1, List.mem_range.2 (by omega), by omega⟩
  unfold ancestors
  rw [List.mem_map]
  constructor
  · rintro ⟨index, hmem, rfl⟩
    obtain ⟨h1, h2⟩ := (hindex _ _).1 hmem
    have hne : (segments p).take index ≠ [] := by
      rw [Ne, List.take_eq_nil_iff, not_or]
      exact ⟨by omega, segments_ne_nil p⟩
    rw [segments_joinSegments_of_sublist hne (List.take_sublist _ _)]
    refine ⟨List.take_prefix _ _, fun heq => ?_⟩
    have hlen := congrArg List.length heq
    rw [List.length_take] at hlen
    omega
  · intro h
    have hlt := h.length_lt
    have hpos := List.length_pos_of_ne_nil (segments_ne_nil r)
    refine ⟨(segments r).length, (hindex _ _).2 ⟨hpos, hlt⟩, ?_⟩
    rw [← List.prefix_iff_eq_take.1 h.1, joinSegments_segments]

end Parts

/-! ## Tables of files -/

section Files

variable {γ : Type} {files : Table String γ} {parts : List String} {c : γ}

@[simp] theorem fileMap_segments (p : String) : fileMap files (segments p) = files.find? p := by
  unfold fileMap
  rw [joinSegments_segments, if_pos rfl]

theorem fileMap_eq_some_iff : fileMap files parts = some c ↔ ∃ p, segments p = parts ∧ files.find? p = some c := by
  constructor
  · intro h
    unfold fileMap at h
    split_ifs at h with hparts
    exact ⟨_, hparts, h⟩
  · rintro ⟨p, rfl, hp⟩
    rw [fileMap_segments]
    exact hp

/-- A file in the map is one in the table. -/
theorem exists_of_fileMap (h : (fileMap files parts).isSome = true) :
    ∃ p, segments p = parts ∧ (files.find? p).isSome = true := by
  obtain ⟨c, hc⟩ := Option.isSome_iff_exists.1 h
  obtain ⟨p, hp, hfind⟩ := fileMap_eq_some_iff.1 hc
  exact ⟨p, hp, by rw [hfind]; rfl⟩

/-- Two tables are one map exactly when they hold the same under every path. -/
theorem fileMap_congr {files' : Table String γ} (h : ∀ p, files.find? p = files'.find? p) :
    fileMap files = fileMap files' := by
  funext parts
  unfold fileMap
  rw [h]

/-- Files no one of which is an initial part of another can stand in one tree. -/
theorem collisionFree_fileMap (h : ∀ p q, (files.find? p).isSome = true → (files.find? q).isSome = true →
    p ∉ ancestors q) : FileTree.CollisionFree (fileMap files) where
  root := by
    rw [Option.eq_none_iff_forall_ne_some]
    intro c hc
    obtain ⟨p, hp, -⟩ := fileMap_eq_some_iff.1 hc
    exact segments_ne_nil p hp
  apart := by
    intro a b ha hb hab
    obtain ⟨p, rfl, hp⟩ := exists_of_fileMap ha
    obtain ⟨q, rfl, hq⟩ := exists_of_fileMap hb
    exact h p q hp hq (mem_ancestors_iff_above.2 hab)

end Files
end Library
