/-
# The reviewed diff

What `PatchReview.unified_diff` of `src/github_integration/workspace.py` says about the files: applied to
those before, it should give those after.  `difflib.unified_diff` is any function that is right about the
lines it is given.

**Proved here.**  `str.splitlines` drops the ends of the lines, whatever they were, and whether the last one
had any.  So the diff shows the plan exactly if every line of every changed text ends, in a line feed, and
nothing but line feeds breaks lines, and some line changes (`unifiedDiff_shows_iff`).  A file that loses its
last line feed changes under an empty diff (`unifiedDiff_hides_lineEnd`).
-/

import PulseGraph.GitHub.WorkspaceApply
import PulseGraph.Library.UnifiedDiff

namespace PulseGraph
namespace GitHub

open Library (Json Table FileTree toOption_eq_some segments fileMap Edit Hunk FilePatch applyHunks applyHunks_map
  applyHunks_first lines_of_applyHunks endLine endLine_injective unlines unlines_eq_intercalate keepLines
  keepLines_unlines flatten_keepLines length_keepLines_cons showHunks sideText patchedText applyPatch applyDiff
  readPatches_unlines applyPatches_eq_some_iff)

/-! ## Lines -/

section Lines

variable {line cs : List Char}

/-- Every line ends in a line feed, and no other character ends one. -/
def EndsLines (text : String) : Prop :=
  (∀ c ∈ text.toList, isLineBreak c = true → c = '\n') ∧ ∀ c ∈ text.toList.getLast?, c = '\n'

theorem endsLines_iff {text : String} : ((text.toList.all fun c => !isLineBreak c || c == '\n') = true ∧
    text.toList.getLast?.all (· == '\n') = true) ↔ EndsLines text := by
  refine and_congr ?_ ?_
  · simp [imp_iff_not_or]
  · cases text.toList.getLast? <;> simp

instance (text : String) : Decidable (EndsLines text) := decidable_of_iff _ endsLines_iff

/-- A line has no end inside. -/
theorem free_of_splitLines (hline : ∀ c ∈ line, isLineBreak c = false) :
    ∀ l ∈ splitLines line cs, ∀ c ∈ l.toList, isLineBreak c = false := by
  fun_induction splitLines line cs with
  | case1 line hempty => exact fun l hl => absurd hl List.not_mem_nil
  | case2 line hne =>
      intro l hl c hc
      rw [List.mem_singleton.1 hl, String.toList_ofList, List.mem_reverse] at hc
      exact hline c hc
  | case3 line cs ih =>
      intro l hl c hc
      rcases List.mem_cons.1 hl with rfl | hl
      · rw [String.toList_ofList, List.mem_reverse] at hc
        exact hline c hc
      · exact ih (fun c hc => absurd hc List.not_mem_nil) l hl c hc
  | case4 line d cs hcrlf hbreak ih =>
      intro l hl c hc
      rcases List.mem_cons.1 hl with rfl | hl
      · rw [String.toList_ofList, List.mem_reverse] at hc
        exact hline c hc
      · exact ih (fun c hc => absurd hc List.not_mem_nil) l hl c hc
  | case5 line d cs hcrlf hbreak ih =>
      exact ih (List.forall_mem_cons.2 ⟨Bool.eq_false_iff.2 hbreak, hline⟩)

/-- Lines that end in line feeds, and nothing else, are put together again. -/
theorem flatMap_splitLines (hbreaks : ∀ c ∈ cs, isLineBreak c = true → c = '\n')
    (hlast : ∀ c ∈ (line.reverse ++ cs).getLast?, c = '\n') (hline : ∀ c ∈ line, isLineBreak c = false) :
    (splitLines line cs).flatMap endLine = line.reverse ++ cs := by
  fun_induction splitLines line cs with
  | case1 line hempty =>
      rw [List.isEmpty_iff.1 hempty]
      rfl
  | case2 line hne =>
      -- a line that is open at the end has a last character
      exfalso
      rw [List.append_nil, List.getLast?_reverse] at hlast
      cases line with
      | nil => exact hne rfl
      | cons c line =>
          have hc := hline c List.mem_cons_self
          rw [hlast c rfl] at hc
          exact absurd hc (by decide)
  | case3 line cs ih => exact absurd (hbreaks '\r' List.mem_cons_self (by decide)) (by decide)
  | case4 line d cs hcrlf hbreak ih =>
      obtain ⟨hd, hrest⟩ := List.forall_mem_cons.1 hbreaks
      obtain rfl := hd hbreak
      have hlast' : ∀ c ∈ cs.getLast?, c = '\n' := by
        intro c hc
        exact hlast c (by rw [List.getLast?_append, List.getLast?_cons, Option.mem_def.1 hc]; rfl)
      rw [List.flatMap_cons, ih hrest hlast' fun c hc => absurd hc List.not_mem_nil]
      unfold endLine
      rw [String.toList_ofList, List.append_assoc]
      rfl
  | case5 line d cs hcrlf hbreak ih =>
      rw [List.reverse_cons, List.append_assoc] at ih
      exact ih (List.forall_mem_cons.1 hbreaks).2 hlast (List.forall_mem_cons.2 ⟨Bool.eq_false_iff.2 hbreak, hline⟩)

/-- **A text is that of its lines** exactly if all of them end. -/
theorem unlines_splitLines_iff {text : String} : unlines (splitLines [] text.toList) = text ↔ EndsLines text := by
  constructor
  · intro h
    have htext : text.toList = (splitLines [] text.toList).flatMap endLine := by
      conv_lhs => rw [← h, unlines, String.toList_ofList]
    constructor
    · intro c hc hbreak
      rw [htext] at hc
      obtain ⟨l, hl, hc⟩ := List.mem_flatMap.1 hc
      rcases List.mem_append.1 hc with hc | hc
      · rw [free_of_splitLines (fun c hc => absurd hc List.not_mem_nil) l hl c hc] at hbreak
        cases hbreak
      · exact List.mem_singleton.1 hc
    · intro c hc
      rw [htext] at hc
      rcases List.eq_nil_or_concat (splitLines [] text.toList) with hnil | ⟨lines, l, hlines⟩
      · rw [hnil] at hc
        cases hc
      · rw [hlines, List.concat_eq_append, List.flatMap_append, List.flatMap_singleton, endLine, ← List.append_assoc,
          List.getLast?_concat] at hc
        exact (Option.some.inj hc).symm
  · rintro ⟨hbreaks, hlast⟩
    have hlines := @flatMap_splitLines [] text.toList hbreaks hlast fun c hc => absurd hc List.not_mem_nil
    unfold unlines
    rw [hlines]
    exact String.ofList_toList

theorem splitLines_ne_nil (hline : line ≠ []) : splitLines line cs ≠ [] := by
  fun_induction splitLines line cs with
  | case1 line hempty => exact absurd (List.isEmpty_iff.1 hempty) hline
  | case2 line hne => exact List.cons_ne_nil _ _
  | case3 line cs ih => exact List.cons_ne_nil _ _
  | case4 line d cs hcrlf hbreak ih => exact List.cons_ne_nil _ _
  | case5 line d cs hcrlf hbreak ih => exact ih (List.cons_ne_nil _ _)

/-- Every line of a text is counted. -/
theorem length_keepLines_le (line cs : List Char) : (keepLines cs).length ≤ (splitLines line cs).length := by
  fun_induction splitLines line cs with
  | case1 line hempty => exact le_rfl
  | case2 line hne => exact Nat.zero_le _
  | case3 line cs ih =>
      rw [length_keepLines_cons, length_keepLines_cons, if_neg (by decide), if_pos rfl, List.length_cons]
      omega
  | case4 line d cs hcrlf hbreak ih =>
      rw [length_keepLines_cons, List.length_cons]
      split_ifs
      · omega
      · omega
  | case5 line d cs hcrlf hbreak ih =>
      have hd : d ≠ '\n' := by
        rintro rfl
        exact hbreak (by decide)
      have hne : splitLines (d :: line) cs ≠ [] := splitLines_ne_nil (List.cons_ne_nil d line)
      have hpos := List.length_pos_of_ne_nil hne
      rw [length_keepLines_cons, if_neg hd]
      omega

end Lines

/-! ## What a diff should show -/

/-- What `difflib.unified_diff` does with the lines it is given: it shows nothing for equal lines, and for others
hunks that make those after of those before. -/
def CorrectDiff (unifiedDiff : UnifiedDiff) : Prop :=
  ∀ before after source target,
    (before = after → unifiedDiff before after source target = []) ∧
    (before ≠ after → ∃ hunks, unifiedDiff before after source target = showHunks source target hunks ∧
      applyHunks 0 0 hunks before = some after)

/-- The section of a planned change in `_build_unified_diff`. -/
def diffSection (unifiedDiff : UnifiedDiff) (item : PlannedChange) : List String :=
  unifiedDiff (linesOf item.before) (linesOf item.after)
    (if item.before.isSome then "a/" ++ item.path else "/dev/null")
    (if item.after.isSome then "b/" ++ item.path else "/dev/null")

/-- The diff shows a plan: it makes the files after of those before, and no change is left out. -/
structure ShowsPlan (unifiedDiff : UnifiedDiff) (planned : List PlannedChange)
    (before after : String → Option String) : Prop where
  applies : applyDiff (buildUnifiedDiff unifiedDiff planned) before = some after
  sections : ∀ item ∈ planned, diffSection unifiedDiff item ≠ []

/-- The text of a value, empty if it is none. -/
def textOf : Json → String
  | .str s => s
  | _ => ""

/-- A change that a diff of lines can show: of a text whose lines all end, to another one. -/
structure Reviewable (base : Files) (change : ProposedFileChange) : Prop where
  before : EndsLines ((base.find? (textOf change.path)).getD "")
  after : EndsLines (textOf change.content)
  differs : (base.find? (textOf change.path)).getD "" ≠ textOf change.content

/-- The files of a tree by their paths. -/
def fileTexts (t : Tree) : String → Option String := fun path => t.files (segments path)

/-! ## Sections -/

section Sections

variable {K : Type} {rt : Runtime K} {limits : WorkspaceLimits} {unifiedDiff : UnifiedDiff}
  {planned : List PlannedChange} {current result : Files}

theorem linesOf_eq (text : Option String) : linesOf text = splitLines [] (text.getD "").toList := by
  cases text <;> rfl

/-- The lines of a text have no line feed inside. -/
theorem not_mem_linesOf {text : Option String} {l : String} (hl : l ∈ linesOf text) : '\n' ∉ l.toList := by
  intro hmem
  rw [linesOf_eq] at hl
  have hbreak := free_of_splitLines (fun c hc => absurd hc List.not_mem_nil) l hl '\n' hmem
  exact absurd hbreak (by decide)

theorem buildUnifiedDiff_eq_unlines (unifiedDiff : UnifiedDiff) (planned : List PlannedChange) :
    buildUnifiedDiff unifiedDiff planned = unlines (planned.flatMap (diffSection unifiedDiff)) :=
  (unlines_eq_intercalate _).symm

/-- The hunks of a planned change as the change of its file. -/
def patchOf (hunks : PlannedChange → List (Hunk String)) (item : PlannedChange) : FilePatch String :=
  ⟨item.before.map fun _ => item.path, item.after.map fun _ => item.path, hunks item⟩

/-- The hunks that the sections of a diff show. -/
structure SectionHunks (unifiedDiff : UnifiedDiff) (hunks : PlannedChange → List (Hunk String))
    (item : PlannedChange) : Prop where
  shown : diffSection unifiedDiff item = (patchOf hunks item).text
  correct : applyHunks 0 0 (hunks item) (linesOf item.before) = some (linesOf item.after)

theorem text_patchOf (hunks : PlannedChange → List (Hunk String)) (item : PlannedChange) :
    (patchOf hunks item).text = showHunks (if item.before.isSome then "a/" ++ item.path else "/dev/null")
      (if item.after.isSome then "b/" ++ item.path else "/dev/null") (hunks item) := by
  have hside : ∀ (side : String) (text : Option String), sideText side (text.map fun _ => item.path) =
      if text.isSome then side ++ "/" ++ item.path else "/dev/null" := by
    intro side text
    cases text <;> rfl
  unfold FilePatch.text patchOf
  rw [hside, hside]
  rfl

/-- Other lines have hunks. -/
theorem exists_sectionHunks (hcorrect : CorrectDiff unifiedDiff) :
    ∃ hunks, ∀ item, linesOf item.before ≠ linesOf item.after → SectionHunks unifiedDiff hunks item := by
  have hexists : ∀ item : PlannedChange, ∃ hs, linesOf item.before ≠ linesOf item.after →
      diffSection unifiedDiff item = showHunks (if item.before.isSome then "a/" ++ item.path else "/dev/null")
        (if item.after.isSome then "b/" ++ item.path else "/dev/null") hs ∧
      applyHunks 0 0 hs (linesOf item.before) = some (linesOf item.after) := by
    intro item
    by_cases hne : linesOf item.before = linesOf item.after
    · exact ⟨[], fun h => absurd hne h⟩
    · obtain ⟨hs, hshown, happly⟩ := (hcorrect (linesOf item.before) (linesOf item.after) _ _).2 hne
      exact ⟨hs, fun _ => ⟨hshown, happly⟩⟩
  choose hunks hhunks using hexists
  refine ⟨hunks, fun item hne => ⟨?_, (hhunks item hne).2⟩⟩
  rw [text_patchOf]
  exact (hhunks item hne).1

/-- The lines of hunks are lines of the texts, and no path has a line feed. -/
theorem SectionHunks.plain {hunks : PlannedChange → List (Hunk String)} {item : PlannedChange}
    (h : SectionHunks unifiedDiff hunks item) (hpath : validatePath rt limits (.str item.path) = .ok item.path) :
    (patchOf hunks item).Plain := by
  obtain ⟨-, -, -, hchars, -⟩ := validatePath_eq_ok_iff.1 hpath
  have hpath : '\n' ∉ item.path.toList := fun hmem => absurd (hchars '\n' hmem) (by decide)
  have hlines := lines_of_applyHunks h.correct
  constructor
  · intro path hmem
    obtain ⟨_, -, rfl⟩ := Option.map_eq_some_iff.1 hmem
    exact hpath
  · intro path hmem
    obtain ⟨_, -, rfl⟩ := Option.map_eq_some_iff.1 hmem
    exact hpath
  · exact fun hunk hmem l hl => not_mem_linesOf ((hlines hunk hmem).1 hl)
  · exact fun hunk hmem l hl => not_mem_linesOf ((hlines hunk hmem).2 hl)

/-- A planned change is about one file, which is there before or after. -/
theorem path_patchOf {hunks : PlannedChange → List (Hunk String)} {item : PlannedChange}
    (h : SoundChange rt current item) : ((patchOf hunks item).map endLine).path = some item.path := by
  unfold FilePatch.path FilePatch.map patchOf
  rcases h.shape with ⟨-, hbefore, c, -, hafter⟩ | ⟨-, b, c, hbefore, -, hafter, -⟩ | ⟨-, ⟨b, hbefore⟩, -, hafter⟩
  · rw [hbefore, hafter]
    rfl
  · rw [hbefore, hafter]
    exact if_pos rfl
  · rw [hbefore, hafter]
    rfl

/-- What the change of a file makes of it is what it makes of the text. -/
theorem after_patchOf_iff {hunks : PlannedChange → List (Hunk String)} {item : PlannedChange} :
    ((patchOf hunks item).map endLine).after item.before = some item.after ↔
      patchedText ((hunks item).map (Hunk.map endLine)) (item.before.getD "") = some (item.after.getD "") := by
  unfold FilePatch.after FilePatch.map patchOf
  rw [Option.isSome_map, Option.isSome_map, if_pos rfl, Option.bind_eq_some_iff]
  cases item.after with
  | none =>
      constructor
      · rintro ⟨text, htext, h⟩
        rw [Option.isSome_none, if_neg Bool.false_ne_true] at h
        split_ifs at h with hempty
        rw [hempty] at htext
        exact htext
      · intro h
        exact ⟨"", h, rfl⟩
  | some c =>
      constructor
      · rintro ⟨text, htext, h⟩
        obtain rfl := Option.some.inj (Option.some.inj h)
        exact htext
      · intro h
        exact ⟨c, h, rfl⟩

/-- **The diff is right about the files** if each section is right about its text. -/
theorem applyDiff_iff (hplanned : Planned rt current result planned) (hbefore : FileSet rt limits current)
    (hafter : FileSet rt limits result) {hunks : PlannedChange → List (Hunk String)}
    (hhunks : ∀ item ∈ planned, SectionHunks unifiedDiff hunks item) :
    applyDiff (buildUnifiedDiff unifiedDiff planned) current.find? = some result.find? ↔ ∀ item ∈ planned,
      patchedText ((hunks item).map (Hunk.map endLine)) (item.before.getD "") = some (item.after.getD "") := by
  have hpaths : ∀ item ∈ planned, validatePath rt limits (.str item.path) = .ok item.path := by
    intro item hitem
    have hsound := hplanned.sound item hitem
    rcases hsound.shape with ⟨-, -, c, -, hc⟩ | ⟨-, b, c, hb, -⟩ | ⟨-, ⟨b, hb⟩, -⟩
    · exact hafter.paths _ (by rw [hplanned.after item hitem, hc]; rfl)
    · exact hbefore.paths _ (by rw [← hsound.before, hb]; rfl)
    · exact hbefore.paths _ (by rw [← hsound.before, hb]; rfl)
  have htext : buildUnifiedDiff unifiedDiff planned =
    unlines ((planned.map (patchOf hunks)).flatMap FilePatch.text) := by
    rw [buildUnifiedDiff_eq_unlines, List.flatMap_map]
    refine congrArg unlines ?_
    rw [List.flatMap_def, List.flatMap_def, List.map_congr_left fun item hitem => (hhunks item hitem).shown]
  have hplain : ∀ p ∈ planned.map (patchOf hunks), p.Plain :=
    List.forall_mem_map.2 fun item hitem => (hhunks item hitem).plain (hpaths item hitem)
  have hnames : (planned.map fun item => (patchOf hunks item).map endLine).map FilePatch.path =
      (planned.map (·.path)).map some := by
    rw [List.map_map, List.map_map]
    exact List.map_congr_left fun item hitem => path_patchOf (hplanned.sound item hitem)
  have hsome : ∀ p ∈ planned.map fun item => (patchOf hunks item).map endLine, p.path.isSome = true :=
    List.forall_mem_map.2 fun item hitem => by rw [path_patchOf (hplanned.sound item hitem)]; rfl
  have hdistinct : ((planned.map fun item => (patchOf hunks item).map endLine).map FilePatch.path).Nodup := by
    rw [hnames]
    exact hplanned.distinct.map (Option.some_injective _)
  unfold applyDiff
  rw [htext, readPatches_unlines hplain, List.map_map]
  show (planned.map fun item => (patchOf hunks item).map endLine).foldlM applyPatch current.find? = _ ↔ _
  rw [applyPatches_eq_some_iff hsome hdistinct, hnames]
  constructor
  · rintro ⟨heach, -⟩ item hitem
    have hsound := hplanned.sound item hitem
    have hitem' := heach _ (List.mem_map_of_mem hitem) item.path (path_patchOf hsound)
    rw [← hsound.before, hplanned.after item hitem] at hitem'
    exact after_patchOf_iff.1 hitem'
  · intro h
    refine ⟨List.forall_mem_map.2 fun item hitem path hpath => ?_,
      fun path hpath => hplanned.others path fun hmem => ?_⟩
    · have hsound := hplanned.sound item hitem
      obtain rfl := Option.some.inj ((path_patchOf hsound).symm.trans hpath)
      rw [← hsound.before, hplanned.after item hitem]
      exact after_patchOf_iff.2 (h item hitem)
    · exact hpath (List.mem_map_of_mem hmem)

end Sections

/-! ## When the diff shows the plan -/

section Showing

variable {before after : String}

/-- Lines that all end are kept as they are counted. -/
theorem keepLines_of_endsLines (h : EndsLines before) :
    keepLines before.toList = (splitLines [] before.toList).map endLine := by
  have hfree : ∀ l ∈ splitLines [] before.toList, '\n' ∉ l.toList := by
    intro l hl
    have hl' : l ∈ linesOf (some before) := hl
    exact not_mem_linesOf hl'
  have hlines := keepLines_unlines hfree
  rw [unlines_splitLines_iff.2 h] at hlines
  exact hlines

/-- Hunks that are right about the lines are right about the texts, if all lines end. -/
theorem patchedText_of_endsLines {hunks : List (Hunk String)} (hbefore : EndsLines before) (hafter : EndsLines after)
    (h : applyHunks 0 0 hunks (splitLines [] before.toList) = some (splitLines [] after.toList)) :
    patchedText (hunks.map (Hunk.map endLine)) before = some after := by
  unfold patchedText
  rw [keepLines_of_endsLines hbefore, applyHunks_map endLine_injective, h, Option.map_some, Option.map_some,
    ← List.flatMap_def]
  exact congrArg some (unlines_splitLines_iff.2 hafter)

/-- A hunk that replaces every line. -/
def rewriteHunk (before after : List String) : Hunk String := ⟨0, 0, before.map .drop ++ after.map .add⟩

/-- The diff that replaces every line of a text that changes. -/
def rewriteAll : UnifiedDiff := fun before after source target =>
  if before = after then [] else showHunks source target [rewriteHunk before after]

theorem old_rewriteHunk (before after : List String) : (rewriteHunk before after).old = before := by
  simp [Hunk.old, rewriteHunk, List.flatMap_map, Edit.old]

theorem new_rewriteHunk (before after : List String) : (rewriteHunk before after).new = after := by
  simp [Hunk.new, rewriteHunk, List.flatMap_map, Edit.new]

theorem correctDiff_rewriteAll : CorrectDiff rewriteAll := by
  intro before after source target
  unfold rewriteAll
  refine ⟨fun heq => if_pos heq, fun hne => ⟨[rewriteHunk before after], if_neg hne, ?_⟩⟩
  rw [applyHunks_first rfl rfl, old_rewriteHunk, new_rewriteHunk, List.drop_length, List.append_nil]
  exact ⟨List.prefix_refl _, rfl⟩

/-- **A text that is rewritten as a whole** is rewritten right only if all lines end, before and after. -/
theorem endsLines_of_rewriteHunk
    (h : patchedText [(rewriteHunk (splitLines [] before.toList) (splitLines [] after.toList)).map endLine] before =
      some after) : EndsLines before ∧ EndsLines after := by
  obtain ⟨lines, hlines, htext⟩ := Option.map_eq_some_iff.1 h
  obtain ⟨hstart, rfl⟩ := (applyHunks_first rfl rfl).1 hlines
  rw [Hunk.old_map, old_rewriteHunk] at hstart
  rw [Hunk.old_map, Hunk.new_map, old_rewriteHunk, new_rewriteHunk] at htext
  -- the text has no more lines than are counted
  have hkeep : (splitLines [] before.toList).map endLine = keepLines before.toList :=
    hstart.eq_of_length_le (by rw [List.length_map]; exact length_keepLines_le [] before.toList)
  constructor
  · rw [← unlines_splitLines_iff, unlines, List.flatMap_def, hkeep, flatten_keepLines]
    exact String.ofList_toList
  · rw [← unlines_splitLines_iff, unlines, List.flatMap_def]
    rw [← hkeep, List.drop_length, List.append_nil] at htext
    exact htext

end Showing

section Laws

variable {K : Type} {rt : Runtime K} {limits : WorkspaceLimits} {t : Tree} {base current result : Files}
  {planned : List PlannedChange} {proposal : ProposedPatch}

/-- The texts of a planned change are those of the files and of the proposal. -/
theorem reviewable_iff (hcurrent : ∀ path, current.find? path = base.find? path) {item : PlannedChange}
    (h : SoundChange rt current item) : Reviewable base item.change ↔
      EndsLines (item.before.getD "") ∧ EndsLines (item.after.getD "") ∧
        item.before.getD "" ≠ item.after.getD "" := by
  have hbefore : (base.find? (textOf item.change.path)).getD "" = item.before.getD "" := by
    rw [h.before, h.path, hcurrent]
    rfl
  have hafter : textOf item.change.content = item.after.getD "" := by
    rcases h.shape with ⟨-, -, c, hcontent, hafter⟩ | ⟨-, b, c, -, hcontent, hafter, -⟩ | ⟨-, -, hcontent, hafter⟩
    · rw [hcontent, hafter]
      rfl
    · rw [hcontent, hafter]
      rfl
    · rw [hcontent, hafter]
      rfl
  constructor
  · rintro ⟨hold, hnew, hne⟩
    rw [hbefore] at hold hne
    rw [hafter] at hnew hne
    exact ⟨hold, hnew, hne⟩
  · rintro ⟨hold, hnew, hne⟩
    refine ⟨?_, ?_, ?_⟩
    · rw [hbefore]
      exact hold
    · rw [hafter]
      exact hnew
    · rw [hbefore, hafter]
      exact hne

/-- What can be reviewed has other lines. -/
theorem linesOf_ne {before after : Option String} (hbefore : EndsLines (before.getD ""))
    (hafter : EndsLines (after.getD "")) (hne : before.getD "" ≠ after.getD "") : linesOf before ≠ linesOf after := by
  intro heq
  rw [linesOf_eq, linesOf_eq] at heq
  refine hne ?_
  calc before.getD "" = unlines (splitLines [] (before.getD "").toList) := (unlines_splitLines_iff.2 hbefore).symm
    _ = unlines (splitLines [] (after.getD "").toList) := by rw [heq]
    _ = after.getD "" := unlines_splitLines_iff.2 hafter

/-- A plan that a diff which rewrites every text shows is one that can be reviewed. -/
theorem reviewable_of_showsPlan (hplanned : Planned rt current result planned) (hbefore : FileSet rt limits current)
    (hafter : FileSet rt limits result) (h : ShowsPlan rewriteAll planned current.find? result.find?) :
    ∀ item ∈ planned, EndsLines (item.before.getD "") ∧ EndsLines (item.after.getD "") ∧
      item.before.getD "" ≠ item.after.getD "" := by
  have hne : ∀ item ∈ planned, linesOf item.before ≠ linesOf item.after :=
    fun item hitem heq => h.sections item hitem ((correctDiff_rewriteAll _ _ _ _).1 heq)
  have hhunks : ∀ item ∈ planned,
      SectionHunks rewriteAll (fun item => [rewriteHunk (linesOf item.before) (linesOf item.after)]) item := by
    intro item hitem
    constructor
    · rw [text_patchOf]
      exact if_neg (hne item hitem)
    · rw [applyHunks_first rfl rfl, old_rewriteHunk, new_rewriteHunk, List.drop_length, List.append_nil]
      exact ⟨List.prefix_refl _, rfl⟩
  intro item hitem
  have htext := (applyDiff_iff hplanned hbefore hafter hhunks).1 h.applies item hitem
  rw [linesOf_eq, linesOf_eq] at htext
  obtain ⟨hold, hnew⟩ := endsLines_of_rewriteHunk htext
  refine ⟨hold, hnew, fun heq => hne item hitem ?_⟩
  rw [linesOf_eq, linesOf_eq, heq]

/-- A plan that can be reviewed is shown by every right diff. -/
theorem showsPlan_of_reviewable (hplanned : Planned rt current result planned) (hbefore : FileSet rt limits current)
    (hafter : FileSet rt limits result) (h : ∀ item ∈ planned, EndsLines (item.before.getD "") ∧
      EndsLines (item.after.getD "") ∧ item.before.getD "" ≠ item.after.getD "") {unifiedDiff : UnifiedDiff}
    (hcorrect : CorrectDiff unifiedDiff) : ShowsPlan unifiedDiff planned current.find? result.find? := by
  obtain ⟨hunks, hhunks⟩ := exists_sectionHunks hcorrect
  have hshown : ∀ item ∈ planned, SectionHunks unifiedDiff hunks item := fun item hitem =>
    hhunks item (linesOf_ne (h item hitem).1 (h item hitem).2.1 (h item hitem).2.2)
  constructor
  · refine (applyDiff_iff hplanned hbefore hafter hshown).2 fun item hitem => ?_
    obtain ⟨hold, hnew, -⟩ := h item hitem
    have happly := (hshown item hitem).correct
    rw [linesOf_eq, linesOf_eq] at happly
    exact patchedText_of_endsLines hold hnew happly
  · intro item hitem
    rw [(hshown item hitem).shown]
    exact List.cons_ne_nil _ _

/-- **The diff of a review shows the plan**, whatever hunks a right `unified_diff` chooses, exactly if every change
is reviewable.  The review of an apply that succeeds has this diff, and the tree holds the planned files. -/
theorem unifiedDiff_shows_iff (hheld : TreeHolds t base) (hread : readWorkspaceFiles rt limits t = .ok current)
    (hplan : planChanges rt limits proposal current = .ok (planned, result)) :
    ((∀ unifiedDiff, CorrectDiff unifiedDiff → ShowsPlan unifiedDiff planned base.find? result.find?) ↔
      ∀ change ∈ proposal.changes, Reviewable base change) ∧
    ∀ unifiedDiff review t', (apply rt limits unifiedDiff proposal).runFrom t = (.ok review, t') →
      review.unifiedDiff = buildUnifiedDiff unifiedDiff planned ∧ fileTexts t = base.find? ∧
        fileTexts t' = result.find? := by
  obtain ⟨hset, hcurrent⟩ := readWorkspaceFiles_eq_ok hheld.files hread
  obtain ⟨hplanned, hresult, hchanges⟩ := planned_of_planChanges hplan
  have hsame : current.find? = base.find? := funext hcurrent
  have hreviewable : (∀ change ∈ proposal.changes, Reviewable base change) ↔
      ∀ item ∈ planned, EndsLines (item.before.getD "") ∧ EndsLines (item.after.getD "") ∧
        item.before.getD "" ≠ item.after.getD "" := by
    rw [← hchanges, List.forall_mem_map]
    exact forall₂_congr fun item hitem => reviewable_iff hcurrent (hplanned.sound item hitem)
  refine ⟨?_, fun unifiedDiff review t' hrun => ?_⟩
  · rw [hreviewable, ← hsame]
    constructor
    · exact fun h => reviewable_of_showsPlan hplanned hset hresult (h rewriteAll correctDiff_rewriteAll)
    · exact fun h unifiedDiff hcorrect => showsPlan_of_reviewable hplanned hset hresult h hcorrect
  · rcases @apply_cases _ rt limits _ _ hheld unifiedDiff proposal with
      ⟨e, -, hfailed⟩ | ⟨current', planned', result', review', t₁, hdone, hread', -, hplan', hheld', hreview⟩
    · rw [hfailed] at hrun
      cases (Prod.mk.inj hrun).1
    · rw [hdone] at hrun
      obtain ⟨hok, rfl⟩ := Prod.mk.inj hrun
      obtain rfl := Except.ok.inj hok
      obtain rfl := Except.ok.inj (hread.symm.trans hread')
      obtain ⟨rfl, rfl⟩ := Prod.mk.inj (Except.ok.inj (hplan.symm.trans hplan'))
      refine ⟨hreview.diff, funext fun path => ?_, funext fun path => ?_⟩
      · unfold fileTexts
        rw [hheld.files, Library.fileMap_segments]
      · unfold fileTexts
        rw [hheld'.files, Library.fileMap_segments]

/-- A file of one line. -/
def lineBase : Files := Table.empty.insert "app.py" "a\n"

/-- The tree of a workspace over that file. -/
def lineTree : Tree := ((createWorkspace Runtime.reference .standard lineBase).runFrom FileTree.empty).2

/-- Another text for the file. -/
def lineProposal (content : String) : ProposedPatch where
  patchId := .str "line"
  summary := .str "another line"
  changes := [{ path := .str "app.py", action := .raw (.str "update"), content := .str content }]

example : (((apply Runtime.reference {} rewriteAll (lineProposal "b\n")).runFrom lineTree).1.toOption.map
    fun review => review.unifiedDiff) = some "--- a/app.py\n+++ b/app.py\n@@ -1 +1 @@\n-a\n+b\n" := by decide +kernel

/-- **A line feed that goes is not shown**: the review is of an empty diff, and the file is another. -/
theorem unifiedDiff_hides_lineEnd : CorrectDiff rewriteAll ∧
    ∃ review t', (createWorkspace Runtime.reference {} lineBase).runFrom FileTree.empty = (.ok (), lineTree) ∧
      (apply Runtime.reference {} rewriteAll (lineProposal "a")).runFrom lineTree = (.ok review, t') ∧
      review.unifiedDiff = "" ∧ applyDiff review.unifiedDiff (fileTexts lineTree) ≠ some (fileTexts t') := by
  have hcreate : ((createWorkspace Runtime.reference {} lineBase).runFrom FileTree.empty).1 = .ok () := by
    decide +kernel
  have hdiff : (((apply Runtime.reference {} rewriteAll (lineProposal "a")).runFrom lineTree).1.toOption.map
      fun review => review.unifiedDiff) = some "" := by decide +kernel
  have hold : fileTexts lineTree "app.py" = some "a\n" := by decide +kernel
  have hnew : fileTexts ((apply Runtime.reference {} rewriteAll (lineProposal "a")).runFrom lineTree).2 "app.py" =
      some "a" := by decide +kernel
  obtain ⟨review, hreview, hempty⟩ := Option.map_eq_some_iff.1 hdiff
  have hrun := Prod.fst_eq_iff.1 (toOption_eq_some.1 hreview)
  refine ⟨correctDiff_rewriteAll, review, _, Prod.fst_eq_iff.1 hcreate, hrun, hempty, fun happly => ?_⟩
  rw [hempty] at happly
  -- an empty diff leaves the file as it was
  have hsame := congrFun (Option.some.inj happly) "app.py"
  rw [hold, hnew] at hsame
  exact absurd hsame (by decide)

/-- A file whose line changes, with its end. -/
theorem unifiedDiff_shows_iff_update : ∃ current planned result,
    readWorkspaceFiles Runtime.reference {} lineTree = .ok current ∧
      planChanges Runtime.reference {} (lineProposal "b\n") current = .ok (planned, result) ∧
      ∀ unifiedDiff, CorrectDiff unifiedDiff → ShowsPlan unifiedDiff planned lineBase.find? result.find? := by
  have hcreate : ((createWorkspace Runtime.reference {} lineBase).runFrom FileTree.empty).1 = .ok () := by
    decide +kernel
  have hplan : ((readWorkspaceFiles Runtime.reference {} lineTree).bind
      (planChanges Runtime.reference {} (lineProposal "b\n"))).toOption.isSome = true := by decide +kernel
  rcases @createWorkspace_cases _ Runtime.reference {} lineBase with ⟨e, hrun⟩ | ⟨t, hrun, hheld, -⟩
  · rw [hrun] at hcreate
    cases hcreate
  obtain rfl : lineTree = t := congrArg Prod.snd hrun
  cases hread : readWorkspaceFiles Runtime.reference {} lineTree with
  | error e =>
      rw [hread] at hplan
      cases hplan
  | ok current =>
      rw [hread] at hplan
      obtain ⟨⟨planned, result⟩, hplan⟩ := Option.isSome_iff_exists.1 hplan
      have hplanned := toOption_eq_some.1 hplan
      refine ⟨current, planned, result, rfl, hplanned, (unifiedDiff_shows_iff hheld hread hplanned).1.2 ?_⟩
      intro change hchange
      obtain rfl := List.mem_singleton.1 hchange
      exact ⟨by decide +kernel, by decide +kernel, by decide +kernel⟩

end Laws

end GitHub
end PulseGraph
