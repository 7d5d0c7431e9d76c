/-
# The event stream format

The reader of `text/event-stream`, one character at a time, as the format's standard describes it:
lines end with a line feed, a carriage return or both; a line is a comment, a field, or empty, and an
empty line dispatches what the fields before it have said.  A frame is the text of one message in
three fields, and a comment is a line of its own.

**Proved here.**  `read_prefix`: of a text of frames and comments that breaks off anywhere, the
reader dispatches the messages of the frames that are complete, in their order, and the id it
remembers is that of the last of them.
-/

import PulseGraph.Library.Checked
import Mathlib.Data.List.TakeWhile

namespace Library

/-- What a reader dispatches. -/
structure Message where
  lastEventId : List Char
  type : List Char
  data : List Char
  deriving DecidableEq

/-- A reader between two characters: the line so far, whether a carriage return has just ended one,
and the buffers. -/
structure EventReader where
  line : List Char := []
  afterReturn : Bool := false
  data : List Char := []
  type : List Char := []
  idBuffer : List Char := []
  lastEventId : List Char := []
  deriving DecidableEq

namespace EventReader

/-- The end of a message: without data nothing is dispatched, and a line feed at its end is no part
of the data. -/
def dispatch (r : EventReader) : EventReader × List Message :=
  ({ r with data := [], type := [], lastEventId := r.idBuffer },
    if r.data = [] then []
    else [⟨r.idBuffer, if r.type = [] then "message".toList else r.type, r.data.dropLast⟩])

/-- One field. -/
def field (r : EventReader) (name value : List Char) : EventReader :=
  if name = "event".toList then { r with type := value }
  else if name = "data".toList then { r with data := r.data ++ value ++ ['\n'] }
  else if name = "id".toList ∧ Char.ofNat 0 ∉ value then { r with idBuffer := value }
  else r

/-- The value of a field, after its colon and one blank. -/
def fieldValue (line : List Char) : List Char :=
  let value := (line.dropWhile (· ≠ ':')).tail
  if value.head? = some ' ' then value.tail else value

/-- The end of a line. -/
def endLine (r : EventReader) : EventReader × List Message :=
  let r' := { r with line := [] }
  if r.line = [] then r'.dispatch
  else if r.line.head? = some ':' then (r', [])
  else (r'.field (r.line.takeWhile (· ≠ ':')) (fieldValue r.line), [])

/-- One character. -/
def char (r : EventReader) (c : Char) : EventReader × List Message :=
  if c = '\n' then
    if r.afterReturn then ({ r with afterReturn := false }, []) else r.endLine
  else if c = '\r' then ({ r.endLine.1 with afterReturn := true }, r.endLine.2)
  else ({ r with line := r.line ++ [c], afterReturn := false }, [])

/-- A text, with the messages it dispatches. -/
def read (r : EventReader) : List Char → EventReader × List Message
  | [] => (r, [])
  | c :: cs => (((r.char c).1.read cs).1, (r.char c).2 ++ ((r.char c).1.read cs).2)

/-- Between two messages, after the one with a given id. -/
def between (id : List Char) : EventReader := { idBuffer := id, lastEventId := id }

example : (read {} ": hi\nid:7\r\ndata: a\rdata\n\r\nevent: e\n\n".toList).2 =
    [⟨['7'], "message".toList, ['a', '\n']⟩] := by decide +kernel

/-- **A text may come in any pieces.** -/
theorem read_append (r : EventReader) (cs ds : List Char) : r.read (cs ++ ds) =
    (((r.read cs).1.read ds).1, (r.read cs).2 ++ ((r.read cs).1.read ds).2) := by
  induction cs generalizing r with
  | nil => rfl
  | cons c cs ih => simp only [List.cons_append, read, ih, List.append_assoc]

end EventReader

/-! ## Lines -/

open EventReader

/-- A text that a longer one begins with breaks off before a given part of it, or holds that part. -/
theorem prefix_append_cases {α : Type*} {p xs ys : List α} (h : p <+: xs ++ ys) :
    (p <+: xs ∧ p ≠ xs) ∨ ∃ q, p = xs ++ q ∧ q <+: ys := by
  rcases List.prefix_or_prefix_of_prefix h (List.prefix_append xs ys) with hp | ⟨q, rfl⟩
  · by_cases heq : p = xs
    · exact .inr ⟨[], by rw [heq, List.append_nil], List.nil_prefix⟩
    · exact .inl ⟨hp, heq⟩
  · exact .inr ⟨q, rfl, (List.prefix_append_right_inj xs).1 h⟩

/-- A text without a line break. -/
def OneLine (cs : List Char) : Prop := ∀ c ∈ cs, c ≠ '\n' ∧ c ≠ '\r'

theorem OneLine.append {cs ds : List Char} (hc : OneLine cs) (hd : OneLine ds) : OneLine (cs ++ ds) := by
  intro c h
  rcases List.mem_append.1 h with h | h
  · exact hc c h
  · exact hd c h

section Lines

variable {r : EventReader} {line : List Char}

/-- The characters of a line are kept until it ends. -/
theorem read_oneLine (hr : r.afterReturn = false) (h : OneLine line) :
    r.read line = ({ r with line := r.line ++ line }, []) := by
  induction line generalizing r with
  | nil => rw [List.append_nil]; rfl
  | cons c line ih =>
      obtain ⟨hlf, hcr⟩ := h c List.mem_cons_self
      have hchar : r.char c = ({ r with line := r.line ++ [c], afterReturn := false }, []) := by
        rw [char, if_neg hlf, if_neg hcr]
      rw [EventReader.read, hchar]
      dsimp only
      rw [ih rfl fun d hd => h d (List.mem_cons_of_mem _ hd)]
      simp [hr]

/-- A line that is complete. -/
theorem read_line (hline : r.line = []) (hr : r.afterReturn = false) (h : OneLine line) :
    r.read (line ++ ['\n']) = { r with line := line }.endLine := by
  rw [read_append, read_oneLine hr h, hline, List.nil_append]
  dsimp only
  rw [EventReader.read, EventReader.read, char, if_pos rfl, hr]
  simp

/-- The text of some lines. -/
def linesText (lines : List (List Char)) : List Char := lines.flatMap (· ++ ['\n'])

/-- The reader after some lines. -/
def EventReader.afterLines (r : EventReader) (lines : List (List Char)) : EventReader :=
  lines.foldl (fun r line => { r with line := line }.endLine.1) r

/-- Where no line is empty, none dispatches anything or touches the id that is remembered. -/
theorem endLine_nonempty (h : r.line ≠ []) : r.endLine.2 = [] ∧ r.endLine.1.line = [] ∧
    r.endLine.1.afterReturn = r.afterReturn ∧ r.endLine.1.lastEventId = r.lastEventId := by
  unfold endLine
  dsimp only
  rw [if_neg h]
  split_ifs
  · exact ⟨rfl, rfl, rfl, rfl⟩
  · unfold field
    split_ifs <;> exact ⟨rfl, rfl, rfl, rfl⟩

/-- The lines of a message, without the empty one at its end. -/
def Block (lines : List (List Char)) : Prop := ∀ line ∈ lines, line ≠ [] ∧ OneLine line

variable {lines : List (List Char)} {p : List Char}

/-- A line that is not empty, and complete. -/
theorem read_nonempty_line (hline : r.line = []) (hr : r.afterReturn = false) (hne : line ≠ [])
    (h : OneLine line) : ∃ r', r.read (line ++ ['\n']) = (r', []) ∧ r' = { r with line := line }.endLine.1 ∧
      r'.line = [] ∧ r'.afterReturn = false ∧ r'.lastEventId = r.lastEventId := by
  obtain ⟨hnone, hempty, hreturn, hid⟩ := @endLine_nonempty { r with line := line } hne
  exact ⟨_, by rw [read_line hline hr h, ← hnone], rfl, hempty, hreturn.trans hr, hid⟩

/-- The lines of a message, all of them. -/
theorem read_linesText (hline : r.line = []) (hr : r.afterReturn = false) (h : Block lines) :
    r.read (linesText lines) = (r.afterLines lines, []) ∧ (r.afterLines lines).line = [] ∧
      (r.afterLines lines).afterReturn = false := by
  induction lines generalizing r with
  | nil => exact ⟨rfl, hline, hr⟩
  | cons line lines ih =>
      obtain ⟨⟨hne, hone⟩, hrest⟩ := List.forall_mem_cons.1 h
      obtain ⟨r', hread, rfl, hline', hr', -⟩ := read_nonempty_line hline hr hne hone
      obtain ⟨hlines, hstate⟩ := ih hline' hr' hrest
      refine ⟨?_, hstate⟩
      rw [linesText, List.flatMap_cons, read_append, hread]
      exact hlines

/-- **The lines of a message dispatch nothing**, however much of them has come. -/
theorem read_linesText_begun (hline : r.line = []) (hr : r.afterReturn = false) (h : Block lines)
    (hp : p <+: linesText lines) : (r.read p).2 = [] ∧ (r.read p).1.lastEventId = r.lastEventId := by
  induction lines generalizing r p with
  | nil =>
      rw [List.prefix_nil.1 hp]
      exact ⟨rfl, rfl⟩
  | cons line lines ih =>
      obtain ⟨⟨hne, hone⟩, hrest⟩ := List.forall_mem_cons.1 h
      rw [linesText, List.flatMap_cons] at hp
      rcases prefix_append_cases hp with ⟨hp, hpne⟩ | ⟨q, rfl, hq⟩
      · have hp := (List.prefix_concat_iff.1 hp).resolve_left hpne
        rw [read_oneLine hr fun c hc => hone c (hp.subset hc)]
        exact ⟨rfl, rfl⟩
      · obtain ⟨r', hread, -, hline', hr', hid⟩ := read_nonempty_line hline hr hne hone
        obtain ⟨hnone, hsame⟩ := ih hline' hr' hrest hq
        rw [read_append, hread]
        exact ⟨hnone, hsame.trans hid⟩

end Lines

/-! ## Messages and comments -/

/-- What a server writes: a message in three fields, or a comment. -/
inductive StreamItem where
  | frame (m : Message)
  | comment (text : List Char)

namespace StreamItem

/-- The line of a field. -/
def fieldLine (name : String) (value : List Char) : List Char := name.toList ++ ':' :: ' ' :: value

/-- The lines of an item. -/
def lines : StreamItem → List (List Char)
  | .frame m => [fieldLine "id" m.lastEventId, fieldLine "event" m.type, fieldLine "data" m.data]
  | .comment text => [':' :: text]

/-- The text of an item. -/
def text (item : StreamItem) : List Char := linesText item.lines ++ ['\n']

/-- The message of an item. -/
def message? : StreamItem → Option Message
  | .frame m => some m
  | .comment _ => none

/-- The id that is remembered after an item. -/
def nextId (id : List Char) : StreamItem → List Char
  | .frame m => m.lastEventId
  | .comment _ => id

/-- No line of an item breaks, and the fields are ones that can be said. -/
def Proper : StreamItem → Prop
  | .frame m => OneLine m.lastEventId ∧ OneLine m.type ∧ OneLine m.data ∧ m.type ≠ [] ∧ Char.ofNat 0 ∉ m.lastEventId
  | .comment text => OneLine text

end StreamItem

variable {id p : List Char} {item : StreamItem} {items : List StreamItem}

open StreamItem

/-- The line of a field breaks where its value does. -/
theorem oneLine_fieldLine {name : String} {value : List Char} (hname : OneLine name.toList) (h : OneLine value) :
    OneLine (fieldLine name value) := by
  refine hname.append fun c hc => ?_
  rcases List.mem_cons.1 hc with rfl | hc
  · exact ⟨by decide, by decide⟩
  rcases List.mem_cons.1 hc with rfl | hc
  · exact ⟨by decide, by decide⟩
  · exact h c hc

theorem StreamItem.Proper.block (h : item.Proper) : Block item.lines := by
  have hcolon : ∀ {cs ds : List Char} {c : Char}, cs ++ c :: ds ≠ [] := by simp
  cases item with
  | frame m =>
      obtain ⟨hid, htype, hdata, -⟩ := h
      simp only [Block, StreamItem.lines, List.forall_mem_cons]
      exact ⟨⟨hcolon, oneLine_fieldLine (forall_mem_of_all (by decide)) hid⟩,
        ⟨hcolon, oneLine_fieldLine (forall_mem_of_all (by decide)) htype⟩,
        ⟨hcolon, oneLine_fieldLine (forall_mem_of_all (by decide)) hdata⟩, List.forall_mem_nil _⟩
  | comment text =>
      intro line hline
      obtain rfl := List.mem_singleton.1 hline
      refine ⟨List.cons_ne_nil _ _, fun c hc => ?_⟩
      rcases List.mem_cons.1 hc with rfl | hc
      · exact ⟨by decide, by decide⟩
      · exact h c hc

/-- The line of a field sets its buffer. -/
theorem endLine_fieldLine (r : EventReader) {name : String} (value : List Char)
    (hname : ∀ c ∈ name.toList, c ≠ ':') (hne : name.toList ≠ []) :
    { r with line := fieldLine name value }.endLine = ({ r with line := [] }.field name.toList value, []) := by
  have hcolon : ∀ c ∈ name.toList, (decide (c ≠ ':')) = true := fun c hc => decide_eq_true (hname c hc)
  have htake : (fieldLine name value).takeWhile (· ≠ ':') = name.toList := by
    rw [fieldLine, List.takeWhile_append_of_pos hcolon]
    simp
  have hvalue : fieldValue (fieldLine name value) = value := by
    rw [fieldValue, fieldLine, List.dropWhile_append_of_pos hcolon]
    simp
  have hhead : (fieldLine name value).head? ≠ some ':' := by
    obtain ⟨c, cs, hcs⟩ := List.exists_cons_of_ne_nil hne
    rw [fieldLine, hcs]
    exact fun h => hname c (hcs ▸ List.mem_cons_self) (Option.some.inj h)
  have hsome : fieldLine name value ≠ [] := by simp [fieldLine]
  rw [endLine]
  dsimp only
  rw [if_neg hsome, if_neg hhead, htake, hvalue]

theorem field_id (r : EventReader) {value : List Char} (hnul : Char.ofNat 0 ∉ value) :
    r.field "id".toList value = { r with idBuffer := value } := by
  rw [field, if_neg (by decide), if_neg (by decide), if_pos ⟨rfl, hnul⟩]

theorem field_event (r : EventReader) (value : List Char) :
    r.field "event".toList value = { r with type := value } := if_pos rfl

theorem field_data (r : EventReader) (value : List Char) :
    r.field "data".toList value = { r with data := r.data ++ value ++ ['\n'] } := by
  rw [field, if_neg (by decide), if_pos rfl]

/-- What the lines of a message leave in the buffers. -/
theorem afterLines_frame {m : Message} (hnul : Char.ofNat 0 ∉ m.lastEventId) :
    (between id).afterLines (StreamItem.frame m).lines =
      { idBuffer := m.lastEventId, type := m.type, data := m.data ++ ['\n'], lastEventId := id } := by
  simp only [StreamItem.lines, afterLines, List.foldl_cons, List.foldl_nil]
  rw [endLine_fieldLine _ m.lastEventId (forall_mem_of_all (by decide)) (by decide), field_id _ hnul,
    endLine_fieldLine _ m.type (forall_mem_of_all (by decide)) (by decide), field_event,
    endLine_fieldLine _ m.data (forall_mem_of_all (by decide)) (by decide), field_data]
  rfl

/-- A comment leaves nothing. -/
theorem afterLines_comment {text : List Char} :
    (between id).afterLines (StreamItem.comment text).lines = between id := by
  simp only [StreamItem.lines, afterLines, List.foldl_cons, List.foldl_nil]
  rw [endLine]
  dsimp only
  rw [if_neg (List.cons_ne_nil _ _), if_pos List.head?_cons]
  rfl

/-- **An item that is complete**: its message is dispatched, and its id remembered. -/
theorem read_item (h : item.Proper) :
    (between id).read item.text = (between (item.nextId id), item.message?.toList) := by
  obtain ⟨hlines, hline, hreturn⟩ := @read_linesText (between id) item.lines rfl rfl h.block
  rw [StreamItem.text, read_append, hlines]
  dsimp only
  rw [EventReader.read, EventReader.read, char, if_pos rfl, hreturn, if_neg Bool.false_ne_true, endLine]
  dsimp only
  rw [if_pos hline]
  cases item with
  | frame m =>
      rw [afterLines_frame h.2.2.2.2, dispatch]
      dsimp only
      rw [if_neg (List.append_ne_nil_of_right_ne_nil _ (List.cons_ne_nil _ _)), if_neg h.2.2.2.1,
        List.dropLast_concat]
      rfl
  | comment text =>
      rw [afterLines_comment]
      rfl

/-! ## A text that breaks off -/

/-- The text of some items. -/
def streamText (items : List StreamItem) : List Char := items.flatMap (·.text)

/-- The messages of some items. -/
def messages (items : List StreamItem) : List Message := items.filterMap (·.message?)

/-- The id that is remembered after some items. -/
def lastId (id : List Char) (items : List StreamItem) : List Char := items.foldl nextId id

/-- **Complete items, and no others**: what breaks off after some items, and before the end of the
next one, dispatches the messages of those and remembers the id of the last. -/
theorem read_prefix (h : ∀ item ∈ items, item.Proper) (hp : p <+: streamText items) :
    ∃ k ≤ items.length, ((between id).read p).2 = messages (items.take k) ∧
      ((between id).read p).1.lastEventId = lastId id (items.take k) ∧ streamText (items.take k) <+: p ∧
      (k < items.length → ¬ streamText (items.take (k + 1)) <+: p) := by
  induction items generalizing id p with
  | nil =>
      rw [List.prefix_nil.1 hp]
      exact ⟨0, le_rfl, rfl, rfl, List.prefix_refl _, fun h => absurd h (Nat.lt_irrefl _)⟩
  | cons item items ih =>
      obtain ⟨hitem, hrest⟩ := List.forall_mem_cons.1 h
      rw [streamText, List.flatMap_cons] at hp
      rcases prefix_append_cases hp with ⟨hp, hne⟩ | ⟨q, rfl, hq⟩
      · -- the first item is not complete
        have hlines := (List.prefix_concat_iff.1 hp).resolve_left hne
        obtain ⟨hnone, hid⟩ := @read_linesText_begun (between id) item.lines p rfl rfl hitem.block hlines
        refine ⟨0, Nat.zero_le _, hnone, hid, List.nil_prefix, fun _ hcomplete => hne ?_⟩
        have hcomplete : item.text <+: p := by simpa [streamText] using hcomplete
        exact hp.eq_of_length_le hcomplete.length_le
      · obtain ⟨k, hk, hmessages, hid, hcomplete, hmore⟩ := @ih (item.nextId id) q hrest hq
        refine ⟨k + 1, Nat.succ_le_succ hk, ?_, ?_, ?_, fun hlt hnext => ?_⟩
        · rw [read_append, read_item hitem]
          dsimp only
          rw [hmessages, List.take_succ_cons, messages, messages, List.filterMap_cons]
          cases item.message? <;> rfl
        · rw [read_append, read_item hitem]
          exact hid
        · rw [List.take_succ_cons, streamText, List.flatMap_cons]
          exact (List.prefix_append_right_inj _).2 hcomplete
        · rw [List.take_succ_cons, streamText, List.flatMap_cons] at hnext
          exact hmore (Nat.lt_of_succ_lt_succ hlt) ((List.prefix_append_right_inj _).1 hnext)

end Library
