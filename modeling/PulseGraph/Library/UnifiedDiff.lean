/-
# Unified diffs

Hunks of edited lines, the text in which a unified diff shows them, a reader of that text, and what it
does to files: every hunk applies where its header says, to the lines it shows, or not at all.  A line is
shown without its end and read with it.

**Proved here.**  A diff that was shown is read back (`readDiff_showDiff`).  A hunk says the same of lines and
of their images under an injective map (`applyHunks_map`), and shows no others (`lines_of_applyHunks`).
Patches of different files each do what they do alone (`applyPatches_eq_some_iff`).
-/

import Mathlib.Data.List.TakeWhile
import Mathlib.Logic.Function.Basic

namespace Library

/-! ## Hunks -/

section Hunks

variable {α β : Type*}

/-- One line of a hunk. -/
inductive Edit (α : Type*) where
  | keep (line : α)
  | drop (line : α)
  | add (line : α)
  deriving DecidableEq

/-- The lines before the edit. -/
def Edit.old : Edit α → List α
  | .keep line => [line]
  | .drop line => [line]
  | .add _ => []

/-- The lines after the edit. -/
def Edit.new : Edit α → List α
  | .keep line => [line]
  | .drop _ => []
  | .add line => [line]

/-- The edit of other lines. -/
def Edit.map (f : α → β) : Edit α → Edit β
  | .keep line => .keep (f line)
  | .drop line => .drop (f line)
  | .add line => .add (f line)

/-- Edits one after the other, with the number of lines above them before and after. -/
structure Hunk (α : Type*) where
  oldStart : ℕ
  newStart : ℕ
  edits : List (Edit α)
  deriving DecidableEq

/-- The lines that a hunk replaces. -/
def Hunk.old (h : Hunk α) : List α := h.edits.flatMap Edit.old

/-- The lines that it puts in their place. -/
def Hunk.new (h : Hunk α) : List α := h.edits.flatMap Edit.new

/-- The hunk of other lines. -/
def Hunk.map (f : α → β) (h : Hunk α) : Hunk β := ⟨h.oldStart, h.newStart, h.edits.map (Edit.map f)⟩

/-- The hunk applies where its header says, after the first `pos` lines, of which `out` lines were made. -/
def Hunk.Fits (pos out : ℕ) (lines : List α) (h : Hunk α) : Prop :=
  pos ≤ h.oldStart ∧ h.oldStart - pos ≤ lines.length ∧ h.newStart = out + (h.oldStart - pos) ∧
    h.old <+: lines.drop (h.oldStart - pos)

instance [DecidableEq α] (pos out : ℕ) (lines : List α) (h : Hunk α) : Decidable (h.Fits pos out lines) :=
  inferInstanceAs (Decidable (_ ∧ _))

/-- Hunks applied to the lines after the first `pos`, of which `out` lines were made. -/
def applyHunks [DecidableEq α] : ℕ → ℕ → List (Hunk α) → List α → Option (List α)
  | _, _, [], lines => some lines
  | pos, out, h :: hs, lines =>
      let gap := h.oldStart - pos
      if h.Fits pos out lines then
        (applyHunks (h.oldStart + h.old.length) (h.newStart + h.new.length) hs
          (lines.drop (gap + h.old.length))).map (lines.take gap ++ h.new ++ ·)
      else none

theorem Edit.old_map (f : α → β) (e : Edit α) : (e.map f).old = e.old.map f := by
  cases e <;> rfl

theorem Edit.new_map (f : α → β) (e : Edit α) : (e.map f).new = e.new.map f := by
  cases e <;> rfl

theorem Hunk.old_map (f : α → β) (h : Hunk α) : (h.map f).old = h.old.map f := by
  simp only [Hunk.old, Hunk.map, List.flatMap_map, List.map_flatMap, Edit.old_map]

theorem Hunk.new_map (f : α → β) (h : Hunk α) : (h.map f).new = h.new.map f := by
  simp only [Hunk.new, Hunk.map, List.flatMap_map, List.map_flatMap, Edit.new_map]

theorem Hunk.fits_map {f : α → β} (hf : Function.Injective f) {pos out : ℕ} {lines : List α} {h : Hunk α} :
    (h.map f).Fits pos out (lines.map f) ↔ h.Fits pos out lines := by
  unfold Hunk.Fits
  rw [Hunk.old_map, List.length_map, ← List.map_drop, List.prefix_map_iff_of_injective hf]
  rfl

variable [DecidableEq α] [DecidableEq β]

/-- **Other lines**, as long as different ones stay different. -/
theorem applyHunks_map {f : α → β} (hf : Function.Injective f) (pos out : ℕ) (hs : List (Hunk α)) (lines : List α) :
    applyHunks pos out (hs.map (Hunk.map f)) (lines.map f) = (applyHunks pos out hs lines).map (List.map f) := by
  induction hs generalizing pos out lines with
  | nil => rfl
  | cons h hs ih =>
      rw [List.map_cons, applyHunks, applyHunks]
      by_cases hfits : h.Fits pos out lines
      · rw [if_pos hfits, if_pos ((Hunk.fits_map hf).2 hfits), Hunk.old_map, Hunk.new_map, List.length_map,
          List.length_map, ← List.map_drop, ← List.map_take, ih, Option.map_map, Option.map_map]
        refine congrArg (fun g => Option.map g _) (funext fun rest => ?_)
        simp only [Function.comp_apply, List.map_append]
        rfl
      · rw [if_neg hfits, if_neg fun h => hfits ((Hunk.fits_map hf).1 h)]
        rfl

/-- One hunk from the first line on. -/
theorem applyHunks_first {h : Hunk α} (hold : h.oldStart = 0) (hnew : h.newStart = 0) {lines new : List α} :
    applyHunks 0 0 [h] lines = some new ↔ h.old <+: lines ∧ h.new ++ lines.drop h.old.length = new := by
  have hfits : h.Fits 0 0 lines ↔ h.old <+: lines := by
    unfold Hunk.Fits
    rw [hold, hnew]
    simp
  rw [applyHunks, hold, Nat.sub_self, Nat.zero_add, List.take_zero, List.nil_append, applyHunks]
  by_cases hstart : h.old <+: lines
  · rw [if_pos (hfits.2 hstart), Option.map_some, Option.some.injEq]
    exact (and_iff_right hstart).symm
  · rw [if_neg fun h => hstart (hfits.1 h)]
    exact ⟨fun h => absurd h (by simp), fun h => absurd h.1 hstart⟩

/-- **No other lines.**  A hunk that applies shows lines that were there, or are there now. -/
theorem lines_of_applyHunks {pos out : ℕ} {hs : List (Hunk α)} {lines new : List α}
    (happly : applyHunks pos out hs lines = some new) : ∀ h ∈ hs, h.old ⊆ lines ∧ h.new ⊆ new := by
  induction hs generalizing pos out lines new with
  | nil => exact fun h hmem => absurd hmem List.not_mem_nil
  | cons h hs ih =>
      rw [applyHunks] at happly
      split_ifs at happly with hfits
      obtain ⟨rest, hrest, rfl⟩ := Option.map_eq_some_iff.1 happly
      intro h' hmem
      rcases List.mem_cons.1 hmem with rfl | hmem
      · constructor
        · exact List.Subset.trans hfits.2.2.2.subset (List.drop_subset _ _)
        · intro line hline
          simp [hline]
      · obtain ⟨hold, hnew⟩ := ih hrest h' hmem
        constructor
        · exact List.Subset.trans hold (List.drop_subset _ _)
        · intro line hline
          simp [hnew hline]

end Hunks

/-! ## Lines -/

/-- A line of a text, with its end if it has one. -/
abbrev Line := List Char

/-- A line that is shown without its end, with it. -/
def endLine (line : String) : Line := line.toList ++ ['\n']

/-- The text of lines that all end. -/
def unlines (lines : List String) : String := String.ofList (lines.flatMap endLine)

/-- The lines of a text. -/
def keepLines : List Char → List Line
  | [] => []
  | c :: cs =>
      if c = '\n' then [c] :: keepLines cs
      else match keepLines cs with
        | [] => [[c]]
        | line :: lines => (c :: line) :: lines

theorem endLine_injective : Function.Injective endLine := by
  intro a b h
  exact String.toList_injective (List.append_cancel_right h)

theorem unlines_cons (line : String) (lines : List String) :
    unlines (line :: lines) = line ++ "\n" ++ unlines lines := by
  refine String.toList_injective ?_
  simp [unlines, endLine]

/-- Lines that are joined, with the last one's end. -/
theorem unlines_eq_intercalate (lines : List String) :
    unlines lines = if lines.isEmpty then "" else "\n".intercalate lines ++ "\n" := by
  cases lines with
  | nil => rfl
  | cons line lines =>
      show _ = "\n".intercalate (line :: lines) ++ "\n"
      induction lines generalizing line with
      | nil => rw [unlines_cons, String.intercalate_singleton]; exact String.append_empty
      | cons next lines ih => rw [unlines_cons, ih, String.intercalate_cons_cons, ← String.append_assoc]

/-- The lines are the text. -/
theorem flatten_keepLines (cs : List Char) : (keepLines cs).flatten = cs := by
  induction cs with
  | nil => rfl
  | cons c cs ih =>
      unfold keepLines
      split_ifs
      · rw [List.flatten_cons, ih, List.singleton_append]
      · split
        · next hnil =>
            rw [hnil] at ih
            rw [← ih]
            rfl
        · next line lines hcons =>
            rw [hcons] at ih
            rw [← ih]
            rfl

theorem length_keepLines_cons (c : Char) (cs : List Char) : (keepLines (c :: cs)).length =
    if c = '\n' then (keepLines cs).length + 1 else max 1 (keepLines cs).length := by
  rw [keepLines]
  split_ifs
  · rfl
  · split
    · next hnil => rw [hnil]; rfl
    · next line lines hcons => rw [hcons, List.length_cons, List.length_cons]; omega

/-- A line is read up to its end. -/
theorem keepLines_endLine {line : String} (hline : '\n' ∉ line.toList) (cs : List Char) :
    keepLines (endLine line ++ cs) = endLine line :: keepLines cs := by
  unfold endLine
  generalize line.toList = line at hline
  induction line with
  | nil => rfl
  | cons c line ih =>
      obtain ⟨hc, hline⟩ := not_or.1 (List.mem_cons.not.1 hline)
      rw [List.cons_append, List.cons_append, keepLines, if_neg (Ne.symm hc), ih hline]

/-- **Lines that end** are read one by one. -/
theorem keepLines_unlines {lines : List String} (hlines : ∀ line ∈ lines, '\n' ∉ line.toList) :
    keepLines (unlines lines).toList = lines.map endLine := by
  unfold unlines
  rw [String.toList_ofList]
  induction lines with
  | nil => rfl
  | cons line lines ih =>
      obtain ⟨hline, hlines⟩ := List.forall_mem_cons.1 hlines
      rw [List.flatMap_cons, keepLines_endLine hline, ih hlines, List.map_cons]

/-! ## Text -/

/-- A line of a hunk in the text. -/
def Edit.text : Edit String → String
  | .keep line => " " ++ line
  | .drop line => "-" ++ line
  | .add line => "+" ++ line

/-- A range in the header of a hunk: its first line counted from one, and its length unless it is one.  An
empty range names the line above it. -/
def rangeText (start length : ℕ) : String :=
  if length = 1 then toString (start + 1)
  else toString (if length = 0 then start else start + 1) ++ "," ++ toString length

/-- The header of a hunk. -/
def Hunk.header (h : Hunk String) : String :=
  "@@ -" ++ rangeText h.oldStart h.old.length ++ " +" ++ rangeText h.newStart h.new.length ++ " @@"

/-- The lines of a hunk in the text. -/
def Hunk.text (h : Hunk String) : List String := h.header :: h.edits.map Edit.text

/-- The lines in which the change of one file is shown. -/
def showHunks (source target : String) (hunks : List (Hunk String)) : List String :=
  ("--- " ++ source) :: ("+++ " ++ target) :: hunks.flatMap Hunk.text

/-- The change of one file, under its path before and after. -/
structure FilePatch (α : Type*) where
  source : Option String
  target : Option String
  hunks : List (Hunk α)

/-- The change of other lines. -/
def FilePatch.map {α β : Type*} (f : α → β) (p : FilePatch α) : FilePatch β :=
  ⟨p.source, p.target, p.hunks.map (Hunk.map f)⟩

/-- The name of a file before or after its change; a file that is absent is the null device. -/
def sideText (side : String) (path : Option String) : String := (path.map fun p => side ++ "/" ++ p).getD "/dev/null"

/-- The lines of a diff for one file. -/
def FilePatch.text (p : FilePatch String) : List String :=
  showHunks (sideText "a" p.source) (sideText "b" p.target) p.hunks

/-! ## Reading -/

/-- A number, and what follows it. -/
def readNumber (cs : List Char) : Option (ℕ × List Char) :=
  let digits := cs.takeWhile Char.isDigit
  if digits = [] then none else some (Nat.ofDigitChars 10 digits 0, cs.dropWhile Char.isDigit)

/-- A range and what follows it. -/
def readRange (cs : List Char) : Option ((ℕ × ℕ) × List Char) :=
  (readNumber cs).bind fun first => match first.2 with
    | ',' :: rest => (readNumber rest).map fun length =>
        ((if length.1 = 0 then first.1 else first.1 - 1, length.1), length.2)
    | rest => some ((first.1 - 1, 1), rest)

/-- The ranges of a header. -/
def readHeader (line : Line) : Option ((ℕ × ℕ) × (ℕ × ℕ)) :=
  match line with
  | '@' :: '@' :: ' ' :: '-' :: cs => (readRange cs).bind fun old => match old.2 with
      | ' ' :: '+' :: cs => (readRange cs).bind fun new =>
          if new.2 = endLine " @@" then some (old.1, new.1) else none
      | _ => none
  | _ => none

/-- The name of a file after its mark. -/
def readSide (side : Char) (cs : List Char) : Option (Option String) :=
  if cs = endLine "/dev/null" then some none
  else match cs with
    | c :: '/' :: path =>
        if c = side ∧ path.getLast? = some '\n' then some (some (String.ofList path.dropLast)) else none
    | _ => none

/-- `--- a/path` -/
def readSource : Line → Option (Option String)
  | '-' :: '-' :: '-' :: ' ' :: cs => readSide 'a' cs
  | _ => none

/-- `+++ b/path` -/
def readTarget : Line → Option (Option String)
  | '+' :: '+' :: '+' :: ' ' :: cs => readSide 'b' cs
  | _ => none

/-- What the lines of a diff say: the rest of a hunk, further hunks of its file, further files. -/
structure DiffText where
  edits : List (Edit Line) := []
  hunks : List (Hunk Line) := []
  patches : List (FilePatch Line) := []

/-- The lines of a diff, where a hunk still has to show `old` lines before and `new` lines after. -/
def readDiff : List Line → ℕ → ℕ → Option DiffText
  | [], old, new => if old = 0 ∧ new = 0 then some {} else none
  | line :: lines, 0, 0 => match readHeader line, lines with
      | some (old, new), lines => (readDiff lines old.2 new.2).map fun rest =>
          { rest with edits := [], hunks := ⟨old.1, new.1, rest.edits⟩ :: rest.hunks }
      | none, next :: lines => do
          let source ← readSource line
          let target ← readTarget next
          let rest ← readDiff lines 0 0
          return { patches := ⟨source, target, rest.hunks⟩ :: rest.patches }
      | none, [] => none
  | (' ' :: line) :: lines, old + 1, new + 1 =>
      (readDiff lines old new).map fun rest => { rest with edits := .keep line :: rest.edits }
  | ('-' :: line) :: lines, old + 1, new =>
      (readDiff lines old new).map fun rest => { rest with edits := .drop line :: rest.edits }
  | ('+' :: line) :: lines, old, new + 1 =>
      (readDiff lines old new).map fun rest => { rest with edits := .add line :: rest.edits }
  | _ :: _, _, _ => none

/-- The changes that a diff shows. -/
def readPatches (text : String) : Option (List (FilePatch Line)) :=
  (readDiff (keepLines text.toList) 0 0).bind fun read => if read.hunks = [] then some read.patches else none

/-! ## Round trip -/

theorem readNumber_toString (n : ℕ) {cs : List Char} (hcs : ∀ c ∈ cs.head?, c.isDigit = false) :
    readNumber ((toString n).toList ++ cs) = some (n, cs) := by
  have hall : ∀ c ∈ Nat.toDigits 10 n, c.isDigit = true :=
    fun c hc => Nat.isDigit_of_mem_toDigits (by decide) le_rfl hc
  have htext : (toString n).toList = Nat.toDigits 10 n := String.toList_ofList
  have hrest : cs.takeWhile Char.isDigit = [] ∧ cs.dropWhile Char.isDigit = cs := by
    cases cs with
    | nil => exact ⟨rfl, rfl⟩
    | cons c cs => simp [hcs c rfl]
  unfold readNumber
  rw [htext, List.takeWhile_append_of_pos hall, List.dropWhile_append_of_pos hall, hrest.1, hrest.2, List.append_nil,
    if_neg Nat.toDigits_ne_nil, Nat.ofDigitChars_ten_toDigits]

/-- What follows a range is neither a digit nor a comma. -/
theorem readRange_rangeText (start length : ℕ) {cs : List Char}
    (hcs : ∀ c ∈ cs.head?, c.isDigit = false ∧ c ≠ ',') :
    readRange ((rangeText start length).toList ++ cs) = some ((start, length), cs) := by
  unfold rangeText readRange
  split_ifs with hone hzero
  · rw [readNumber_toString (start + 1) fun c hc => (hcs c hc).1, Option.bind_some, hone]
    cases cs with
    | nil => rfl
    | cons c cs =>
        have hc := (hcs c rfl).2
        split
        · next rest heq => exact absurd (List.cons.inj heq).1 hc
        · rfl
  · rw [String.toList_append, String.toList_append, List.append_assoc, List.append_assoc,
      readNumber_toString start (by simp), Option.bind_some]
    show Option.map _ (readNumber ((toString length).toList ++ cs)) = _
    rw [readNumber_toString length fun c hc => (hcs c hc).1, Option.map_some, if_pos hzero]
  · rw [String.toList_append, String.toList_append, List.append_assoc, List.append_assoc,
      readNumber_toString (start + 1) (by simp), Option.bind_some]
    show Option.map _ (readNumber ((toString length).toList ++ cs)) = _
    rw [readNumber_toString length fun c hc => (hcs c hc).1, Option.map_some, if_neg hzero]
    rfl

theorem readHeader_header (h : Hunk String) :
    readHeader (endLine h.header) = some ((h.oldStart, h.old.length), (h.newStart, h.new.length)) := by
  have htext : endLine h.header = '@' :: '@' :: ' ' :: '-' :: ((rangeText h.oldStart h.old.length).toList ++
      ' ' :: '+' :: ((rangeText h.newStart h.new.length).toList ++ endLine " @@")) := by
    unfold endLine Hunk.header
    simp
  rw [htext, readHeader, readRange_rangeText _ _ (by simp), Option.bind_some]
  show (readRange ((rangeText h.newStart h.new.length).toList ++ endLine " @@")).bind _ = _
  rw [readRange_rangeText _ _ fun c hc => ?_, Option.bind_some, if_pos rfl]
  obtain rfl : ' ' = c := Option.some.inj hc
  exact ⟨rfl, by decide⟩

theorem readSide_sideText {side : Char} (hside : side ≠ '/') (path : Option String) :
    readSide side (endLine (sideText (String.singleton side) path)) = some path := by
  cases path with
  | none => exact if_pos rfl
  | some p =>
      have htext : endLine (sideText (String.singleton side) (some p)) = side :: '/' :: (p.toList ++ ['\n']) := by
        unfold endLine sideText
        simp
      unfold readSide
      rw [htext, if_neg]
      · show (if side = side ∧ (p.toList ++ ['\n']).getLast? = some '\n' then _ else none) = _
        rw [if_pos ⟨rfl, List.getLast?_concat⟩, List.dropLast_concat, String.ofList_toList]
      · exact fun heq => hside (List.cons.inj heq).1

/-- The lines of an edit, as they are read. -/
theorem readDiff_edit (e : Edit String) (lines : List Line) (old new : ℕ) :
    readDiff (endLine e.text :: lines) (e.old.length + old) (e.new.length + new) =
      (readDiff lines old new).map fun rest => { rest with edits := e.map endLine :: rest.edits } := by
  cases e with
  | keep line =>
      have htext : endLine (Edit.keep line).text = ' ' :: endLine line := by
        unfold endLine Edit.text
        simp
      rw [htext, Edit.old, Edit.new, List.length_singleton, Nat.add_comm, Nat.add_comm 1 new, readDiff]
      rfl
  | drop line =>
      have htext : endLine (Edit.drop line).text = '-' :: endLine line := by
        unfold endLine Edit.text
        simp
      rw [htext, Edit.old, Edit.new, List.length_singleton, Nat.add_comm, List.length_nil, Nat.zero_add, readDiff]
      rfl
  | add line =>
      have htext : endLine (Edit.add line).text = '+' :: endLine line := by
        unfold endLine Edit.text
        simp
      rw [htext, Edit.old, Edit.new, List.length_singleton, Nat.add_comm 1 new, List.length_nil, Nat.zero_add, readDiff]
      rfl

theorem readDiff_edits {lines : List Line} {rest : DiffText} (h : readDiff lines 0 0 = some rest)
    (es : List (Edit String)) :
    readDiff (es.map (fun e => endLine e.text) ++ lines) (es.flatMap Edit.old).length (es.flatMap Edit.new).length =
      some { rest with edits := es.map (Edit.map endLine) ++ rest.edits } := by
  induction es with
  | nil => exact h
  | cons e es ih =>
      rw [List.map_cons, List.cons_append, List.flatMap_cons, List.flatMap_cons, List.length_append,
        List.length_append, readDiff_edit, ih]
      rfl

theorem readDiff_header (h : Hunk String) (lines : List Line) : readDiff (endLine h.header :: lines) 0 0 =
    (readDiff lines h.old.length h.new.length).map fun rest =>
      { rest with edits := [], hunks := ⟨h.oldStart, h.newStart, rest.edits⟩ :: rest.hunks } := by
  rw [readDiff.eq_def]
  dsimp only
  rw [readHeader_header]

theorem readDiff_names (source target : Option String) (lines : List Line) :
    readDiff (endLine ("--- " ++ sideText "a" source) :: endLine ("+++ " ++ sideText "b" target) :: lines) 0 0 =
      (readDiff lines 0 0).map fun rest => { patches := ⟨source, target, rest.hunks⟩ :: rest.patches } := by
  have htext : endLine ("--- " ++ sideText "a" source) =
      '-' :: '-' :: '-' :: ' ' :: endLine (sideText (String.singleton 'a') source) := by
    unfold endLine
    simp
  have htext' : endLine ("+++ " ++ sideText "b" target) =
      '+' :: '+' :: '+' :: ' ' :: endLine (sideText (String.singleton 'b') target) := by
    unfold endLine
    simp
  have hnone : readHeader (endLine ("--- " ++ sideText "a" source)) = none := by
    rw [htext]
    rfl
  have hsource : readSource (endLine ("--- " ++ sideText "a" source)) = some source := by
    rw [htext]
    exact readSide_sideText (by decide) source
  have htarget : readTarget (endLine ("+++ " ++ sideText "b" target)) = some target := by
    rw [htext']
    exact readSide_sideText (by decide) target
  rw [readDiff.eq_def]
  dsimp only
  rw [hnone]
  dsimp only
  rw [hsource, htarget]
  cases readDiff lines 0 0 <;> rfl

/-- The lines of hunks, before a file or the end. -/
theorem readDiff_hunks {lines : List Line} {rest : DiffText} (h : readDiff lines 0 0 = some rest)
    (hedits : rest.edits = []) (hs : List (Hunk String)) :
    readDiff ((hs.flatMap Hunk.text).map endLine ++ lines) 0 0 =
      some { rest with hunks := hs.map (Hunk.map endLine) ++ rest.hunks } := by
  induction hs with
  | nil => exact h
  | cons hunk hs ih =>
      have hbody := readDiff_edits ih hunk.edits
      have hlines : ((hunk :: hs).flatMap Hunk.text).map endLine ++ lines = endLine hunk.header ::
          (hunk.edits.map (fun e => endLine e.text) ++ ((hs.flatMap Hunk.text).map endLine ++ lines)) := by
        rw [List.flatMap_cons, List.map_append, List.append_assoc, Hunk.text, List.map_cons, List.map_map]
        rfl
      have hbody : readDiff (hunk.edits.map (fun e => endLine e.text) ++ ((hs.flatMap Hunk.text).map endLine ++ lines))
          hunk.old.length hunk.new.length = _ := readDiff_edits ih hunk.edits
      rw [hlines, readDiff_header, hbody, Option.map_some, hedits, List.append_nil]
      rfl

/-- **A diff that was shown** is read back. -/
theorem readDiff_showDiff (ps : List (FilePatch String)) :
    readDiff ((ps.flatMap FilePatch.text).map endLine) 0 0 = some { patches := ps.map (FilePatch.map endLine) } := by
  induction ps with
  | nil => rfl
  | cons p ps ih =>
      rw [List.flatMap_cons, List.map_append, FilePatch.text, showHunks, List.map_cons, List.map_cons, List.cons_append,
        List.cons_append, readDiff_names, readDiff_hunks ih rfl, List.append_nil]
      rfl

/-- No name and no line has an end inside. -/
structure FilePatch.Plain (p : FilePatch String) : Prop where
  source : ∀ path ∈ p.source, '\n' ∉ path.toList
  target : ∀ path ∈ p.target, '\n' ∉ path.toList
  old : ∀ h ∈ p.hunks, ∀ line ∈ h.old, '\n' ∉ line.toList
  new : ∀ h ∈ p.hunks, ∀ line ∈ h.new, '\n' ∉ line.toList

theorem not_mem_rangeText (start length : ℕ) : '\n' ∉ (rangeText start length).toList := by
  have hnumber : ∀ n : ℕ, '\n' ∉ Nat.toDigits 10 n :=
    fun n hmem => absurd (Nat.isDigit_of_mem_toDigits (by decide) le_rfl hmem) (by decide)
  unfold rangeText
  split_ifs
  · simp [hnumber]
  · simp [hnumber]
  · simp [hnumber]

theorem not_mem_sideText {side : String} (hside : '\n' ∉ side.toList) {path : Option String}
    (hpath : ∀ p ∈ path, '\n' ∉ p.toList) : '\n' ∉ (sideText side path).toList := by
  cases path with
  | none => simp [sideText]
  | some p => simp [sideText, hside, hpath p rfl]

/-- The line of an edit is one before it or after it. -/
theorem not_mem_editText {e : Edit String} (hold : ∀ line ∈ e.old, '\n' ∉ line.toList)
    (hnew : ∀ line ∈ e.new, '\n' ∉ line.toList) : '\n' ∉ e.text.toList := by
  cases e with
  | keep line => simp [Edit.text, hold line List.mem_cons_self]
  | drop line => simp [Edit.text, hold line List.mem_cons_self]
  | add line => simp [Edit.text, hnew line List.mem_cons_self]

/-- The lines of a diff have no end inside. -/
theorem FilePatch.Plain.text {p : FilePatch String} (h : p.Plain) : ∀ line ∈ p.text, '\n' ∉ line.toList := by
  intro line hline
  unfold FilePatch.text showHunks at hline
  rcases List.mem_cons.1 hline with rfl | hline
  · simp [not_mem_sideText (show '\n' ∉ "a".toList by decide) h.source]
  rcases List.mem_cons.1 hline with rfl | hline
  · simp [not_mem_sideText (show '\n' ∉ "b".toList by decide) h.target]
  obtain ⟨hunk, hhunk, hline⟩ := List.mem_flatMap.1 hline
  rcases List.mem_cons.1 hline with rfl | hline
  · simp [Hunk.header, not_mem_rangeText]
  obtain ⟨e, he, rfl⟩ := List.mem_map.1 hline
  refine not_mem_editText (fun l hl => h.old hunk hhunk l ?_) fun l hl => h.new hunk hhunk l ?_
  · exact List.mem_flatMap.2 ⟨e, he, hl⟩
  · exact List.mem_flatMap.2 ⟨e, he, hl⟩

/-- **The text of a diff** is read back. -/
theorem readPatches_unlines {ps : List (FilePatch String)} (h : ∀ p ∈ ps, p.Plain) :
    readPatches (unlines (ps.flatMap FilePatch.text)) = some (ps.map (FilePatch.map endLine)) := by
  have hlines : ∀ line ∈ ps.flatMap FilePatch.text, '\n' ∉ line.toList := by
    intro line hline
    obtain ⟨p, hp, hline⟩ := List.mem_flatMap.1 hline
    exact (h p hp).text line hline
  unfold readPatches
  rw [keepLines_unlines hlines, readDiff_showDiff]
  rfl

/-! ## Applying -/

/-- Hunks applied to a text. -/
def patchedText (hunks : List (Hunk Line)) (text : String) : Option String :=
  (applyHunks 0 0 hunks (keepLines text.toList)).map fun lines => String.ofList lines.flatten

/-- The file that a change is about; no file is renamed. -/
def FilePatch.path {α : Type*} (p : FilePatch α) : Option String :=
  match p.source, p.target with
  | some source, some target => if source = target then some source else none
  | some source, none => some source
  | none, target => target

/-- What the change makes of a file, which has to be there if the change names it, and is gone afterwards if
nothing is left of a file that the change removes. -/
def FilePatch.after (p : FilePatch Line) (before : Option String) : Option (Option String) :=
  if p.source.isSome = before.isSome then
    (patchedText p.hunks (before.getD "")).bind fun text =>
      if p.target.isSome then some (some text) else if text = "" then some none else none
  else none

/-- The change of one file applied to files. -/
def applyPatch (files : String → Option String) (p : FilePatch Line) : Option (String → Option String) := do
  let path ← p.path
  let after ← p.after (files path)
  return Function.update files path after

/-- A diff applied to files. -/
def applyDiff (diff : String) (files : String → Option String) : Option (String → Option String) := do
  let patches ← readPatches diff
  patches.foldlM applyPatch files

theorem applyPatch_eq_some_iff {p : FilePatch Line} {path : String} (hpath : p.path = some path)
    {files files' : String → Option String} : applyPatch files p = some files' ↔
      ∃ after, p.after (files path) = some after ∧ Function.update files path after = files' := by
  unfold applyPatch
  rw [hpath]
  show ((p.after (files path)).bind fun after => some (Function.update files path after)) = some files' ↔ _
  simp only [Option.bind_eq_some_iff, Option.some.injEq]

/-- **Patches of different files** each do what they do alone, and leave the other files. -/
theorem applyPatches_eq_some_iff {ps : List (FilePatch Line)} (hpath : ∀ p ∈ ps, p.path.isSome = true)
    (hdistinct : (ps.map FilePatch.path).Nodup) {files files' : String → Option String} :
    ps.foldlM applyPatch files = some files' ↔
      (∀ p ∈ ps, ∀ path, p.path = some path → p.after (files path) = some (files' path)) ∧
        ∀ path, some path ∉ ps.map FilePatch.path → files' path = files path := by
  induction ps generalizing files with
  | nil =>
      constructor
      · intro h
        obtain rfl := Option.some.inj h
        exact ⟨fun p hp => absurd hp List.not_mem_nil, fun _ _ => rfl⟩
      · rintro ⟨-, h⟩
        exact congrArg some (funext fun path => (h path List.not_mem_nil).symm)
  | cons p ps ih =>
      obtain ⟨hp, hps⟩ := List.forall_mem_cons.1 hpath
      obtain ⟨path, hp⟩ := Option.isSome_iff_exists.1 hp
      rw [List.map_cons, List.nodup_cons, hp] at hdistinct
      -- the patches that follow leave the first one's file
      have hne : ∀ q ∈ ps, ∀ path', q.path = some path' → path' ≠ path := by
        rintro q hq path' hpath' rfl
        exact hdistinct.1 (hpath' ▸ List.mem_map_of_mem hq)
      rw [List.foldlM_cons]
      constructor
      · intro h
        obtain ⟨files₁, hfirst, hrest⟩ := Option.bind_eq_some_iff.1 h
        obtain ⟨after, hafter, rfl⟩ := (applyPatch_eq_some_iff hp).1 hfirst
        obtain ⟨heach, hothers⟩ := (ih hps hdistinct.2).1 hrest
        refine ⟨List.forall_mem_cons.2 ⟨fun path' hpath' => ?_, fun q hq path' hpath' => ?_⟩, fun path' hpath' => ?_⟩
        · obtain rfl := Option.some.inj (hp.symm.trans hpath')
          rw [hafter, hothers path hdistinct.1, Function.update_self]
        · rw [← heach q hq path' hpath', Function.update_of_ne (hne q hq path' hpath')]
        · rw [List.map_cons, hp] at hpath'
          obtain ⟨hfile, hpath'⟩ := not_or.1 (List.mem_cons.not.1 hpath')
          rw [hothers path' hpath', Function.update_of_ne fun heq => hfile (congrArg some heq)]
      · rintro ⟨heach, hothers⟩
        obtain ⟨hafter, heach⟩ := List.forall_mem_cons.1 heach
        refine Option.bind_eq_some_iff.2 ⟨Function.update files path (files' path), ?_, ?_⟩
        · exact (applyPatch_eq_some_iff hp).2 ⟨files' path, hafter path hp, rfl⟩
        · refine (ih hps hdistinct.2).2 ⟨fun q hq path' hpath' => ?_, fun path' hpath' => ?_⟩
          · rw [Function.update_of_ne (hne q hq path' hpath')]
            exact heach q hq path' hpath'
          · by_cases hfile : path' = path
            · rw [hfile, Function.update_self]
            · rw [Function.update_of_ne hfile]
              refine hothers path' ?_
              rw [List.map_cons, hp, List.mem_cons, not_or]
              exact ⟨fun heq => hfile (Option.some.inj heq), hpath'⟩

end Library
