/-
# Form-encoded text

The bytes of a text (`utf8`) with the decoder that puts one replacement character for what is no
character (`bytes.decode("utf-8", errors="replace")`), and the reader of a form's fields
(`urllib.parse.parse_qs`): fields between ampersands, a name before the first equals sign, a plus
for a blank, and a percent sign before the two digits of a byte.

**Proved here.**  A decoder gives back the text it is given the bytes of (`utf8Decode_utf8`), and the
reader gives back a field however its writer chose which bytes to escape (`formFields_written`).
-/

import PulseGraph.Library.JsonLoads
import Mathlib.Data.List.Basic

namespace Library

/-! ## Bytes -/

/-- The UTF-8 bytes of a text. -/
def utf8 (cs : List Char) : List UInt8 := cs.flatMap String.utf8EncodeChar

/-- The character some bytes begin with. -/
def firstChar (bytes : List UInt8) : Option Char := bytes.toByteArray.utf8DecodeChar? 0

/-- How many bytes that begin no character one replacement stands for: as many as could begin one. -/
def brokenLength (bytes : List UInt8) : ℕ :=
  let isByte := fun (k : ℕ) (low high : UInt8) => (bytes[k]?).any fun b => low ≤ b && b ≤ high
  let second :=
    if isByte 0 0xE0 0xE0 then isByte 1 0xA0 0xBF
    else if isByte 0 0xED 0xED then isByte 1 0x80 0x9F
    else if isByte 0 0xF0 0xF0 then isByte 1 0x90 0xBF
    else if isByte 0 0xF4 0xF4 then isByte 1 0x80 0x8F
    else isByte 0 0xE0 0xF4 && isByte 1 0x80 0xBF
  if second then if isByte 0 0xF0 0xF4 && isByte 2 0x80 0xBF then 3 else 2 else 1

/-- The replacement character. -/
def replacement : Char := Char.ofNat 0xFFFD

/-- At most so many characters of some bytes. -/
def decodeChars : ℕ → List UInt8 → List Char
  | 0, _ => []
  | _, [] => []
  | fuel + 1, bytes => match firstChar bytes with
    | some c => c :: decodeChars fuel (bytes.drop c.utf8Size)
    | none => replacement :: decodeChars fuel (bytes.drop (brokenLength bytes))

/-- `bytes.decode("utf-8", errors="replace")`: no character takes less than a byte. -/
def utf8Decode (bytes : List UInt8) : List Char := decodeChars bytes.length bytes

example : utf8Decode [0x61, 0xE2, 0x82, 0x62, 0xFF, 0xC3, 0xA9] =
    ['a', replacement, 'b', replacement, 'é'] := by decide +kernel

@[simp] theorem utf8_nil : utf8 [] = [] := rfl

theorem utf8_cons (c : Char) (cs : List Char) : utf8 (c :: cs) = String.utf8EncodeChar c ++ utf8 cs :=
  List.flatMap_cons

theorem utf8_append (cs ds : List Char) : utf8 (cs ++ ds) = utf8 cs ++ utf8 ds := List.flatMap_append

/-- A character is read back from its bytes, whatever follows. -/
theorem firstChar_encode (c : Char) (bytes : List UInt8) :
    firstChar (String.utf8EncodeChar c ++ bytes) = some c := by
  rw [firstChar, List.toByteArray_append]
  exact ByteArray.utf8DecodeChar?_utf8EncodeChar_append

theorem length_le_utf8 (cs : List Char) : cs.length ≤ (utf8 cs).length := by
  induction cs with
  | nil => exact le_rfl
  | cons c cs ih =>
      have hpos := c.utf8Size_pos
      rw [utf8_cons, List.length_append, String.length_utf8EncodeChar, List.length_cons]
      omega

/-- Enough fuel reads a text back. -/
theorem decodeChars_utf8 {cs : List Char} {fuel : ℕ} (h : cs.length ≤ fuel) : decodeChars fuel (utf8 cs) = cs := by
  induction cs generalizing fuel with
  | nil => cases fuel <;> rfl
  | cons c cs ih =>
      obtain ⟨fuel, rfl⟩ : ∃ f, fuel = f + 1 := ⟨fuel - 1, by rw [List.length_cons] at h; omega⟩
      have hpos : 0 < (String.utf8EncodeChar c).length := by
        rw [String.length_utf8EncodeChar]
        exact c.utf8Size_pos
      obtain ⟨b, bs, hbytes⟩ := List.exists_cons_of_length_pos hpos
      have hread := firstChar_encode c (utf8 cs)
      have hdrop : (String.utf8EncodeChar c ++ utf8 cs).drop c.utf8Size = utf8 cs := by
        rw [← String.length_utf8EncodeChar c, List.drop_left]
      rw [utf8_cons]
      rw [hbytes, List.cons_append] at hread hdrop ⊢
      rw [decodeChars, hread]
      · dsimp only
        rw [hdrop, ih (by rw [List.length_cons] at h; omega)]
      · exact List.cons_ne_nil _ _

/-- **A text is read back from its bytes.** -/
theorem utf8Decode_utf8 (cs : List Char) : utf8Decode (utf8 cs) = cs := decodeChars_utf8 (length_le_utf8 cs)

/-- `bytes.decode("utf-8")`: bytes that are not those of a text are refused. -/
def utf8DecodeStrict (bytes : List UInt8) : Option (List Char) :=
  if utf8 (utf8Decode bytes) = bytes then some (utf8Decode bytes) else none

theorem utf8DecodeStrict_utf8 (cs : List Char) : utf8DecodeStrict (utf8 cs) = some cs := by
  rw [utf8DecodeStrict, utf8Decode_utf8, if_pos rfl]

/-- The one byte of an ASCII character. -/
def asciiByte (c : Char) : UInt8 := UInt8.ofNat c.toNat

theorem utf8_of_ascii {cs : List Char} (h : ∀ c ∈ cs, c.toNat < 128) : utf8 cs = cs.map asciiByte := by
  induction cs with
  | nil => rfl
  | cons c cs ih =>
      have hc := h c List.mem_cons_self
      have hsize : c.utf8Size = 1 := Char.utf8Size_eq_one_iff.2 (UInt32.le_iff_toNat_le.2 (Nat.lt_succ_iff.1 hc))
      rw [utf8_cons, String.utf8EncodeChar_eq_singleton hsize, ih fun d hd => h d (List.mem_cons_of_mem _ hd)]
      rfl

/-! ## Fields -/

/-- A plus stands for a blank. -/
def plusToSpace (c : Char) : Char := if c = '+' then ' ' else c

/-- `urllib.parse.unquote(text, errors="replace")`, after the bytes that are not decoded yet: a run
of ASCII characters is decoded as a whole, with the bytes its escapes stand for. -/
def unquoteFrom (pending : List UInt8) : List Char → List Char
  | [] => utf8Decode pending
  | c :: cs =>
      if c.toNat < 128 then
        match cs with
        | a :: b :: ds => match c, Json.hexValue a, Json.hexValue b with
          | '%', some x, some y => unquoteFrom (pending ++ [UInt8.ofNat (16 * x + y)]) ds
          | _, _, _ => unquoteFrom (pending ++ [asciiByte c]) (a :: b :: ds)
        | ds => unquoteFrom (pending ++ [asciiByte c]) ds
      else utf8Decode pending ++ c :: unquoteFrom [] cs

/-- A name or a value of a field. -/
def unquotePlus (text : List Char) : List Char := unquoteFrom [] (text.map plusToSpace)

/-- One field of a form; a field without a value is dropped. -/
def formField (field : List Char) : Option (List Char × List Char) :=
  let value := (field.dropWhile (· ≠ '=')).tail
  if value = [] then none else some (unquotePlus (field.takeWhile (· ≠ '=')), unquotePlus value)

/-- `urllib.parse.parse_qsl`. -/
def formFields (text : List Char) : List (List Char × List Char) := (text.splitOn '&').filterMap formField

example : (formFields "a=1&payload=%7B%22x%22:+%22%C3%A9%22%7D&b=&c".toList).map
    (fun f => (String.ofList f.1, String.ofList f.2)) =
      [("a", "1"), ("payload", "\x7b\"x\": \"é\"\x7d")] := by decide +kernel

/-- **How a writer may write some bytes in a value**: a character that means nothing to the reader
stands for its byte, a plus for a blank, and an escape for any byte. -/
inductive FormWritten : List UInt8 → List Char → Prop
  | nil : FormWritten [] []
  | plain {c bytes text} : c.toNat < 128 → c ∉ ['%', '+', '&'] → FormWritten bytes text →
      FormWritten (asciiByte c :: bytes) (c :: text)
  | blank {bytes text} : FormWritten bytes text → FormWritten (asciiByte ' ' :: bytes) ('+' :: text)
  | escaped {a b x y bytes text} : Json.hexValue a = some x → Json.hexValue b = some y →
      FormWritten bytes text → FormWritten (UInt8.ofNat (16 * x + y) :: bytes) ('%' :: a :: b :: text)

/-- A byte no writer has to escape: a letter, a digit, or one of `_.-~`. -/
def unreserved (c : Char) : Bool := (c.isAlphanum || ['_', '.', '-', '~'].contains c) && c.toNat < 128

/-- A digit of an escape. -/
def hexDigit (n : ℕ) : Char := if n < 10 then Char.ofNat (48 + n) else Char.ofNat (55 + n)

/-- `urllib.parse.quote_plus`, the writer that escapes every byte it may not leave alone. -/
def quotePlus : List UInt8 → List Char
  | [] => []
  | b :: bytes =>
      let c := Char.ofNat b.toNat
      (if unreserved c then [c] else if c = ' ' then ['+']
        else ['%', hexDigit (b.toNat / 16), hexDigit (b.toNat % 16)]) ++ quotePlus bytes

/-- What becomes of each byte. -/
theorem quotePlus_byte : ∀ n < 256, let c := Char.ofNat n
    if unreserved c then c.toNat < 128 ∧ c ∉ ['%', '+', '&'] ∧ asciiByte c = UInt8.ofNat n
    else if c = ' ' then asciiByte ' ' = UInt8.ofNat n
    else Json.hexValue (hexDigit (n / 16)) = some (n / 16) ∧ Json.hexValue (hexDigit (n % 16)) = some (n % 16) := by
  decide +kernel

/-- **The standard writer** is one of the writers. -/
theorem formWritten_quotePlus (bytes : List UInt8) : FormWritten bytes (quotePlus bytes) := by
  induction bytes with
  | nil => exact .nil
  | cons b bytes ih =>
      have hbyte := quotePlus_byte b.toNat b.toNat_lt
      have hb : UInt8.ofNat b.toNat = b := UInt8.ofNat_toNat
      rw [quotePlus]
      dsimp only at hbyte ⊢
      split_ifs at hbyte ⊢
      · obtain ⟨hascii, hplain, heq⟩ := hbyte
        have hwritten := ih.plain hascii hplain
        rw [heq, hb] at hwritten
        exact hwritten
      · have hwritten := ih.blank
        rw [hbyte, hb] at hwritten
        exact hwritten
      · have hsplit : 16 * (b.toNat / 16) + b.toNat % 16 = b.toNat := Nat.div_add_mod _ _
        have hwritten := ih.escaped hbyte.1 hbyte.2
        rw [hsplit, hb] at hwritten
        exact hwritten

section Written

variable {bytes : List UInt8} {text : List Char}

/-- A digit is no separator, and stands for itself. -/
theorem hexValue_plain {c : Char} {x : ℕ} (h : Json.hexValue c = some x) :
    c.toNat < 128 ∧ c ≠ '&' ∧ plusToSpace c = c := by
  have hrange : ('0' ≤ c ∧ c ≤ '9') ∨ ('a' ≤ c ∧ c ≤ 'f') ∨ ('A' ≤ c ∧ c ≤ 'F') := by
    unfold Json.hexValue at h
    split_ifs at h with h₁ h₂ h₃
    · exact .inl h₁
    · exact .inr (.inl h₂)
    · exact .inr (.inr h₃)
  have hne : ∀ d : Char, d.toNat < 48 → c ≠ d := by
    rintro d hd rfl
    have hle : ∀ {a b : Char}, a ≤ b → a.toNat ≤ b.toNat := fun hab => UInt32.le_iff_toNat_le.1 hab
    rcases hrange with ⟨h₁, -⟩ | ⟨h₁, -⟩ | ⟨h₁, -⟩ <;>
    · have := hle h₁
      simp only [Char.reduceToNat] at this
      omega
  refine ⟨?_, hne '&' (by decide), if_neg (hne '+' (by decide))⟩
  have hle : ∀ {a b : Char}, a ≤ b → a.toNat ≤ b.toNat := fun hab => UInt32.le_iff_toNat_le.1 hab
  rcases hrange with ⟨-, h₁⟩ | ⟨-, h₁⟩ | ⟨-, h₁⟩ <;>
  · have := hle h₁
    simp only [Char.reduceToNat] at this
    omega

/-- What a writer writes is ASCII without an ampersand. -/
theorem FormWritten.plain_text (h : FormWritten bytes text) : ∀ c ∈ text, c.toNat < 128 ∧ c ≠ '&' := by
  induction h with
  | nil => exact fun c hc => absurd hc List.not_mem_nil
  | plain hascii hplain _ ih =>
      intro d hd
      rcases List.mem_cons.1 hd with rfl | hd
      · exact ⟨hascii, fun hc => hplain (by rw [hc]; decide)⟩
      · exact ih d hd
  | blank _ ih =>
      intro d hd
      rcases List.mem_cons.1 hd with rfl | hd
      · exact ⟨by decide, by decide⟩
      · exact ih d hd
  | escaped ha hb _ ih =>
      intro d hd
      rcases List.mem_cons.1 hd with rfl | hd
      · exact ⟨by decide, by decide⟩
      rcases List.mem_cons.1 hd with rfl | hd
      · exact ⟨(hexValue_plain ha).1, (hexValue_plain ha).2.1⟩
      rcases List.mem_cons.1 hd with rfl | hd
      · exact ⟨(hexValue_plain hb).1, (hexValue_plain hb).2.1⟩
      · exact ih d hd

/-- A character that is no percent sign stands for its byte. -/
theorem unquoteFrom_plain {pending : List UInt8} {c : Char} (hascii : c.toNat < 128) (hplain : c ≠ '%')
    (cs : List Char) : unquoteFrom pending (c :: cs) = unquoteFrom (pending ++ [asciiByte c]) cs := by
  rcases cs with _ | ⟨a, _ | ⟨b, ds⟩⟩
  · simp [unquoteFrom, hascii]
  · simp [unquoteFrom, hascii]
  · rw [unquoteFrom, if_pos hascii]
    exact fun x y hc _ _ => hplain hc

/-- An escape stands for its byte. -/
theorem unquoteFrom_escaped {pending : List UInt8} {a b : Char} {x y : ℕ} (ha : Json.hexValue a = some x)
    (hb : Json.hexValue b = some y) (cs : List Char) : unquoteFrom pending ('%' :: a :: b :: cs) =
      unquoteFrom (pending ++ [UInt8.ofNat (16 * x + y)]) cs := by
  simp [unquoteFrom, ha, hb]

/-- **The reader gives back the bytes**, however they were written. -/
theorem unquoteFrom_written (h : FormWritten bytes text) (pending : List UInt8) :
    unquoteFrom pending (text.map plusToSpace) = utf8Decode (pending ++ bytes) := by
  induction h generalizing pending with
  | nil => rw [List.map_nil, unquoteFrom, List.append_nil]
  | @plain c bytes text hascii hplain _ ih =>
      have hsame : plusToSpace c = c := if_neg fun hc => hplain (by rw [hc]; decide)
      rw [List.map_cons, hsame, unquoteFrom_plain hascii (fun hc => hplain (by rw [hc]; decide)), ih,
        List.append_assoc]
      rfl
  | @blank bytes text _ ih =>
      have hblank : plusToSpace '+' = ' ' := rfl
      rw [List.map_cons, hblank, unquoteFrom_plain (by decide) (by decide), ih, List.append_assoc]
      rfl
  | @escaped a b x y bytes text ha hb _ ih =>
      have hpercent : plusToSpace '%' = '%' := rfl
      rw [List.map_cons, List.map_cons, List.map_cons, hpercent, (hexValue_plain ha).2.2, (hexValue_plain hb).2.2,
        unquoteFrom_escaped ha hb, ih, List.append_assoc]
      rfl

/-- **A field reads back**: the first field of a form has the name and the text that were written,
whichever bytes the writer escaped, and whatever fields follow. -/
theorem formFields_written {name value : List Char} {rest : List Char}
    (hname : ∀ c ∈ name, c.toNat < 128 ∧ c ∉ ['%', '+', '&', '='])
    (hwritten : FormWritten (utf8 value) text) (hvalue : value ≠ []) (hrest : rest = [] ∨ rest.head? = some '&') :
    (formFields (name ++ '=' :: text ++ rest)).head? = some (name, value) := by
  have hnamed : FormWritten (name.map asciiByte) name := by
    clear hwritten hvalue hrest
    induction name with
    | nil => exact .nil
    | cons c name ih =>
        obtain ⟨hascii, hplain⟩ := hname c List.mem_cons_self
        refine .plain hascii (fun hc => hplain ?_) (ih fun d hd => hname d (List.mem_cons_of_mem _ hd))
        exact List.mem_append_left ['='] hc
  have htext : text ≠ [] := by
    rintro rfl
    cases hbytes : value with
    | nil => exact hvalue hbytes
    | cons c cs =>
        have hlen := length_le_utf8 value
        generalize utf8 value = bytes at hwritten hlen
        cases hwritten
        rw [hbytes] at hlen
        exact absurd hlen (Nat.not_succ_le_zero _)
  have hneq : ∀ c ∈ name, (decide (c ≠ '=')) = true := by
    intro c hc
    exact decide_eq_true fun heq => (hname c hc).2 (by rw [heq]; decide)
  have hread : formField (name ++ '=' :: text) = some (name, value) := by
    have htake : (name ++ '=' :: text).takeWhile (· ≠ '=') = name := by
      rw [List.takeWhile_append_of_pos hneq]
      exact List.append_nil name
    have hdrop : (name ++ '=' :: text).dropWhile (· ≠ '=') = '=' :: text := by
      rw [List.dropWhile_append_of_pos hneq]
      rfl
    unfold formField
    dsimp only
    rw [htake, hdrop, List.tail_cons, if_neg htext, unquotePlus, unquotePlus, unquoteFrom_written hnamed,
      unquoteFrom_written hwritten, List.nil_append, List.nil_append, utf8Decode_utf8,
      ← utf8_of_ascii fun c hc => (hname c hc).1, utf8Decode_utf8]
  have hplain : ∀ c ∈ name ++ '=' :: text, (c == '&') = false := by
    intro c hc
    refine beq_eq_false_iff_ne.2 ?_
    rcases List.mem_append.1 hc with hc | hc
    · exact (hnamed.plain_text c hc).2
    rcases List.mem_cons.1 hc with rfl | hc
    · decide
    · exact (hwritten.plain_text c hc).2
  unfold formFields
  rw [List.splitOn_eq_splitOnP]
  rcases hrest with rfl | hrest
  · rw [List.append_nil, List.splitOnP_eq_singleton hplain, List.filterMap_cons, hread]
    rfl
  · cases rest with
    | nil => cases hrest
    | cons c rest =>
        obtain rfl := Option.some.inj hrest
        rw [List.splitOnP_append_cons_of_forall_mem hplain '&' rfl, List.filterMap_cons, hread]
        rfl

end Written

end Library
