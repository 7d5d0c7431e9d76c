/-
# Reading JSON text back

`json.loads` on a list of characters, with blanks between tokens, the escapes of a
string literal, surrogate pairs, and the last of two equal keys winning; a number
keeps its text.  **What `dumps` wrote reads back as the same value with its keys in
order** (`loads_dumps`), in either escaping mode, so the canonical text of a value
determines it up to the order of its keys (`dumps_injective`).

The reader recurses on a fuel of twice the length of the text: every value takes one
unit, every element of an array or an object one more, and both write a character.
-/

import PulseGraph.Library.Json
import Mathlib.Data.List.Nodup
import Mathlib.Data.List.TakeWhile

namespace Library

/-- One given character. -/
def expect (c : Char) : List Char → Option (List Char)
  | [] => none
  | d :: cs => if d = c then some cs else none

@[simp] theorem expect_self (c : Char) (cs : List Char) : expect c (c :: cs) = some cs := if_pos rfl

namespace Json

/-! ## String literals -/

/-- The value of a hexadecimal digit. -/
def hexValue (c : Char) : Option ℕ :=
  if '0' ≤ c ∧ c ≤ '9' then some (c.toNat - 48)
  else if 'a' ≤ c ∧ c ≤ 'f' then some (c.toNat - 87)
  else if 'A' ≤ c ∧ c ≤ 'F' then some (c.toNat - 55)
  else none

/-- A code unit in four hexadecimal digits. -/
def readHex4 : List Char → Option (ℕ × List Char)
  | a :: b :: c :: d :: cs => do
      let a ← hexValue a
      let b ← hexValue b
      let c ← hexValue c
      let d ← hexValue d
      some (((a * 16 + b) * 16 + c) * 16 + d, cs)
  | _ => none

/-- The second half of a surrogate pair. -/
def readLowSurrogate (high : ℕ) : List Char → Option (Char × List Char)
  | b :: u :: cs =>
      if b = '\\' ∧ u = 'u' then do
        let (low, cs) ← readHex4 cs
        if 0xDC00 ≤ low ∧ low < 0xE000 then
          some (Char.ofNat (0x10000 + (high - 0xD800) * 1024 + (low - 0xDC00)), cs)
        else none
      else none
  | _ => none

/-- An escape, after its backslash; a surrogate without its other half names no character. -/
def readEscape : List Char → Option (Char × List Char)
  | [] => none
  | c :: cs =>
      if c = 'u' then do
        let (n, cs) ← readHex4 cs
        if 0xD800 ≤ n ∧ n < 0xDC00 then readLowSurrogate n cs
        else if 0xDC00 ≤ n ∧ n < 0xE000 then none
        else some (Char.ofNat n, cs)
      else if c = '"' then some ('"', cs)
      else if c = '\\' then some ('\\', cs)
      else if c = '/' then some ('/', cs)
      else if c = 'b' then some (Char.ofNat 8, cs)
      else if c = 'f' then some (Char.ofNat 12, cs)
      else if c = 'n' then some ('\n', cs)
      else if c = 'r' then some ('\r', cs)
      else if c = 't' then some ('\t', cs)
      else none

/-- One character of a string literal; a bare control character is an error. -/
def readChar : List Char → Option (Char × List Char)
  | [] => none
  | c :: cs => if c = '\\' then readEscape cs else if c.toNat < 32 then none else some (c, cs)

/-- The characters of a string literal up to its closing quote. -/
def readChars : ℕ → List Char → Option (List Char × List Char)
  | 0, _ => none
  | fuel + 1, cs =>
      if cs.head? = some '"' then some ([], cs.tail)
      else do
        let (c, cs) ← readChar cs
        let (s, cs) ← readChars fuel cs
        some (c :: s, cs)

/-- A string literal, after its opening quote. -/
def readString (cs : List Char) : Option (String × List Char) :=
  (readChars (cs.length + 1) cs).map fun r => (String.ofList r.1, r.2)

theorem hexValue_digitChar {d : ℕ} (h : d < 16) : hexValue (Nat.digitChar d) = some d := by
  have hall : ∀ d < 16, hexValue (Nat.digitChar d) = some d := by decide
  exact hall d h

/-- A code unit reads back from its four digits. -/
theorem readHex4_hex4 {n : ℕ} (h : n < 0x10000) (cs : List Char) :
    readHex4 ((hex4 n).toList ++ cs) = some (n, cs) := by
  have h₁ := hexValue_digitChar (Nat.mod_lt (n / 4096) (show 0 < 16 by decide))
  have h₂ := hexValue_digitChar (Nat.mod_lt (n / 256) (show 0 < 16 by decide))
  have h₃ := hexValue_digitChar (Nat.mod_lt (n / 16) (show 0 < 16 by decide))
  have h₄ := hexValue_digitChar (Nat.mod_lt n (show 0 < 16 by decide))
  have hn : ((n / 4096 % 16 * 16 + n / 256 % 16) * 16 + n / 16 % 16) * 16 + n % 16 = n := by omega
  rw [hex4, String.toList_ofList]
  simp only [List.map_cons, List.map_nil, List.cons_append, List.nil_append, readHex4, h₁, h₂, h₃, h₄]
  simp [hn]

/-- What a code unit written as an escape is read as. -/
theorem readChar_unicodeEscape {n : ℕ} (h : n < 0x10000) (cs : List Char) :
    readChar ((unicodeEscape n).toList ++ cs) =
      if 0xD800 ≤ n ∧ n < 0xDC00 then readLowSurrogate n cs
      else if 0xDC00 ≤ n ∧ n < 0xE000 then none else some (Char.ofNat n, cs) := by
  have htext : (unicodeEscape n).toList ++ cs = '\\' :: 'u' :: ((hex4 n).toList ++ cs) := by
    rw [unicodeEscape, String.toList_append]
    rfl
  rw [htext, readChar, if_pos rfl, readEscape, if_pos rfl, readHex4_hex4 h]
  rfl

/-- The second escape of a surrogate pair completes the first. -/
theorem readLowSurrogate_unicodeEscape {high low : ℕ} (h : 0xDC00 ≤ low ∧ low < 0xE000)
    (cs : List Char) : readLowSurrogate high ((unicodeEscape low).toList ++ cs) =
      some (Char.ofNat (0x10000 + (high - 0xD800) * 1024 + (low - 0xDC00)), cs) := by
  have htext : (unicodeEscape low).toList ++ cs = '\\' :: 'u' :: ((hex4 low).toList ++ cs) := by
    rw [unicodeEscape, String.toList_append]
    rfl
  rw [htext, readLowSurrogate, if_pos ⟨rfl, rfl⟩, readHex4_hex4 (by omega)]
  simp [h]

/-- A character in the basic plane is no surrogate. -/
theorem not_surrogate (c : Char) : ¬ (0xD800 ≤ c.toNat ∧ c.toNat < 0xE000) := by
  have hc := c.valid
  simp only [UInt32.isValidChar, Nat.isValidChar] at hc
  show ¬ (0xD800 ≤ c.val.toNat ∧ c.val.toNat < 0xE000)
  omega

/-- **A character reads back from the text it is written as.** -/
theorem readChar_escapeChar (ascii : Bool) (c : Char) (cs : List Char) :
    readChar ((escapeChar ascii c).toList ++ cs) = some (c, cs) := by
  have hc := not_surrogate c
  unfold escapeChar
  by_cases hquote : c = '"'
  · rw [if_pos hquote, hquote]; rfl
  rw [if_neg hquote]
  by_cases hback : c = '\\'
  · rw [if_pos hback, hback]; rfl
  rw [if_neg hback]
  by_cases hnl : c = '\n'
  · rw [if_pos hnl, hnl]; rfl
  rw [if_neg hnl]
  by_cases hcr : c = '\r'
  · rw [if_pos hcr, hcr]; rfl
  rw [if_neg hcr]
  by_cases htab : c = '\t'
  · rw [if_pos htab, htab]; rfl
  rw [if_neg htab]
  by_cases hbs : c.toNat = 8
  · rw [if_pos hbs, ← Char.ofNat_toNat c, hbs]; rfl
  rw [if_neg hbs]
  by_cases hff : c.toNat = 12
  · rw [if_pos hff, ← Char.ofNat_toNat c, hff]; rfl
  rw [if_neg hff]
  by_cases hctl : c.toNat < 32
  · rw [if_pos hctl, readChar_unicodeEscape (by omega), if_neg (by omega), if_neg (by omega),
      Char.ofNat_toNat]
  rw [if_neg hctl]
  by_cases hascii : (ascii && decide (126 < c.toNat)) = true
  · rw [if_pos hascii]
    by_cases hbmp : c.toNat < 0x10000
    · rw [if_pos hbmp, readChar_unicodeEscape hbmp, if_neg (by omega), if_neg (by omega),
        Char.ofNat_toNat]
    · -- above the basic plane: a surrogate pair
      have hmax : c.toNat < 0x110000 := by
        have hv := c.valid
        simp only [UInt32.isValidChar, Nat.isValidChar] at hv
        show c.val.toNat < _
        omega
      rw [if_neg hbmp, String.toList_append, List.append_assoc, readChar_unicodeEscape (by omega),
        if_pos (by omega), readLowSurrogate_unicodeEscape (by omega)]
      have hn : 0x10000 + (0xD800 + (c.toNat - 0x10000) / 1024 - 0xD800) * 1024 +
          (0xDC00 + (c.toNat - 0x10000) % 1024 - 0xDC00) = c.toNat := by omega
      rw [hn, Char.ofNat_toNat]
  · rw [if_neg hascii, show c.toString.toList = [c] from String.toList_singleton c,
      List.singleton_append, readChar, if_neg hback, if_neg hctl]

/-- No character is written with a quote first: it would read back as a quote, which
is written with a backslash. -/
theorem head?_escapeChar (ascii : Bool) (c : Char) (cs : List Char) :
    ((escapeChar ascii c).toList ++ cs).head? ≠ some '"' := by
  intro h
  have hread := readChar_escapeChar ascii c cs
  rcases htext : (escapeChar ascii c).toList ++ cs with _ | ⟨d, ds⟩
  · rw [htext] at h
    cases h
  · rw [htext] at h hread
    obtain rfl : d = '"' := Option.some.inj h
    rw [readChar, if_neg (by decide), if_neg (by decide)] at hread
    obtain ⟨rfl, -⟩ := Prod.mk.inj (Option.some.inj hread)
    have hquote : (escapeChar ascii '"').toList = ['\\', '"'] := by
      rw [escapeChar, if_pos rfl]
      rfl
    rw [hquote] at htext
    exact absurd (List.cons.inj htext).1 (by decide)

/-- **A string literal reads back as the string.** -/
theorem readChars_escape (ascii : Bool) : ∀ (s : List Char) (fuel : ℕ) (cs : List Char),
    s.length < fuel → readChars fuel
      (s.flatMap (fun c => (escapeChar ascii c).toList) ++ '"' :: cs) = some (s, cs)
  | [], fuel + 1, cs, _ => rfl
  | c :: s, fuel + 1, cs, h => by
      rw [List.flatMap_cons, List.append_assoc, readChars, if_neg (head?_escapeChar ascii c _),
        readChar_escapeChar]
      show (do let (s, cs) ← readChars fuel _; some (c :: s, cs)) = _
      rw [readChars_escape ascii s fuel cs (by simpa using h)]
      rfl

/-- The text of a string literal. -/
theorem toList_quote (ascii : Bool) (s : String) : (quote ascii s).toList =
    '"' :: (s.toList.flatMap (fun c => (escapeChar ascii c).toList) ++ ['"']) := by
  rw [quote, String.toList_append, String.toList_append, String.toList_join, List.flatMap_map]
  rfl

theorem readString_quote (ascii : Bool) (s : String) (cs : List Char) :
    readString (s.toList.flatMap (fun c => (escapeChar ascii c).toList) ++ '"' :: cs) =
      some (s, cs) := by
  have hpos : ∀ c : Char, 0 < (escapeChar ascii c).toList.length := by
    intro c
    have hread := readChar_escapeChar ascii c []
    rcases he : (escapeChar ascii c).toList with _ | ⟨d, ds⟩
    · rw [he] at hread
      cases hread
    · exact Nat.succ_pos _
  have hlen : s.toList.length ≤ (s.toList.flatMap fun c => (escapeChar ascii c).toList).length := by
    generalize s.toList = l
    induction l with
    | nil => exact le_rfl
    | cons c l ih =>
        have := hpos c
        rw [List.flatMap_cons, List.length_append, List.length_cons]
        omega
  rw [readString, readChars_escape]
  · rw [Option.map_some, String.ofList_toList]
  · rw [List.length_append, List.length_cons]
    omega

/-! ## Numbers, constants and blanks -/

/-- The characters a number is written with. -/
def numberChar (c : Char) : Bool :=
  c.isDigit || c = '-' || c = '+' || c = '.' || c = 'e' || c = 'E'

/-- Decimal digits, at least one. -/
def isDigits (cs : List Char) : Bool := !cs.isEmpty && cs.all Char.isDigit

/-- What follows the mantissa of a number. -/
def isExponent : List Char → Bool
  | [] => true
  | c :: cs => (c = 'e' || c = 'E') && isDigits (if cs.head? = some '+' ∨ cs.head? = some '-'
      then cs.tail else cs)

/-- What follows the integer part of a number. -/
def isFraction : List Char → Bool
  | [] => true
  | c :: cs =>
      if c = '.' then isDigits (cs.takeWhile Char.isDigit) && isExponent (cs.dropWhile Char.isDigit)
      else isExponent (c :: cs)

/-- A number without its sign: no leading zero but a lone one. -/
def isUnsigned : List Char → Bool
  | [] => false
  | c :: cs =>
      if c = '0' then isFraction cs
      else c.isDigit && isFraction (cs.dropWhile Char.isDigit)

/-- The grammar of a number. -/
def isNumber : List Char → Bool
  | [] => false
  | c :: cs => if c = '-' then isUnsigned cs else isUnsigned (c :: cs)

/-- A number; the longest run of its characters is one or the text is no JSON. -/
def readNumber (cs : List Char) : Option (Json × List Char) :=
  if isNumber (cs.takeWhile numberChar) then
    some (.num (String.ofList (cs.takeWhile numberChar)), cs.dropWhile numberChar)
  else none

/-- The literal names; floats have three. -/
def constants : List (String × Json) :=
  [("null", .null), ("true", .bool true), ("false", .bool false), ("NaN", .num "NaN"),
    ("Infinity", .num "Infinity"), ("-Infinity", .num "-Infinity")]

/-- A literal name. -/
def readConstant (cs : List Char) : Option (Json × List Char) :=
  constants.findSome? fun kv =>
    if kv.1.toList.isPrefixOf cs then some (kv.2, cs.drop kv.1.toList.length) else none

/-- The blanks between tokens. -/
def isBlank (c : Char) : Bool := c = ' ' || c = '\t' || c = '\n' || c = '\r'

/-- The text from its first token on. -/
def skipBlanks (cs : List Char) : List Char := cs.dropWhile isBlank

theorem skipBlanks_cons {c : Char} (h : isBlank c = false) (cs : List Char) :
    skipBlanks (c :: cs) = c :: cs := by
  rw [skipBlanks, List.dropWhile_cons_of_neg (by simp [h])]

/-! ## Values -/

/-- The items of a dictionary read field by field: a repeated key keeps its place and
takes the later value. -/
def lastWins (fields : List (String × Json)) : List (String × Json) :=
  fields.foldl (fun d f => if d.any fun g => g.1 = f.1
    then d.map fun g => if g.1 = f.1 then f else g else d ++ [f]) []

mutual
/-- A value, after any blanks. -/
def readValue : ℕ → List Char → Option (Json × List Char)
  | 0, _ => none
  | fuel + 1, cs => match skipBlanks cs with
    | [] => none
    | c :: cs =>
        if c = '"' then (readString cs).map fun r => (.str r.1, r.2)
        else if c = '[' then
          if (skipBlanks cs).head? = some ']' then some (.arr [], (skipBlanks cs).tail)
          else (readItems fuel cs).map fun r => (.arr r.1, r.2)
        else if c = '\x7b' then
          if (skipBlanks cs).head? = some '\x7d' then some (.obj [], (skipBlanks cs).tail)
          else (readFields fuel cs).map fun r => (.obj (lastWins r.1), r.2)
        else (readNumber (c :: cs)).or (readConstant (c :: cs))

/-- The elements of an array up to its closing bracket. -/
def readItems : ℕ → List Char → Option (List Json × List Char)
  | 0, _ => none
  | fuel + 1, cs => (readValue fuel cs).bind fun r => match skipBlanks r.2 with
    | [] => none
    | c :: cs =>
        if c = ',' then (readItems fuel cs).map fun rs => (r.1 :: rs.1, rs.2)
        else if c = ']' then some ([r.1], cs)
        else none

/-- The fields of an object up to its closing brace. -/
def readFields : ℕ → List Char → Option (List (String × Json) × List Char)
  | 0, _ => none
  | fuel + 1, cs => (expect '"' (skipBlanks cs)).bind fun cs =>
      (readString cs).bind fun k => (expect ':' (skipBlanks k.2)).bind fun cs =>
        (readValue fuel cs).bind fun r => match skipBlanks r.2 with
          | [] => none
          | c :: cs =>
              if c = ',' then (readFields fuel cs).map fun rs => ((k.1, r.1) :: rs.1, rs.2)
              else if c = '\x7d' then some ([(k.1, r.1)], cs)
              else none
end

/-- `json.loads(text)`. -/
def loads (text : String) : Option Json :=
  (readValue (2 * text.length) text.toList).bind fun r =>
    if (skipBlanks r.2).isEmpty then some r.1 else none

/-! ## What was written reads back -/

/-- A value a `dict`, `list`, `str`, number, `bool` or `None` can have: the text of a
number is one, and no key of an object comes twice. -/
inductive WellFormed : Json → Prop
  | null : WellFormed .null
  | bool (b : Bool) : WellFormed (.bool b)
  | num {text : String} (chars : text.toList.all numberChar) (grammar : isNumber text.toList) :
      WellFormed (.num text)
  | constant {text : String} (h : text ∈ ["NaN", "Infinity", "-Infinity"]) : WellFormed (.num text)
  | str (s : String) : WellFormed (.str s)
  | arr {xs : List Json} (items : ∀ x ∈ xs, WellFormed x) : WellFormed (.arr xs)
  | obj {fields : List (String × Json)} (nodup : (fields.map Prod.fst).Nodup)
      (values : ∀ f ∈ fields, WellFormed f.2) : WellFormed (.obj fields)

mutual
/-- The value with the keys of every object in order. -/
def sorted : Json → Json
  | .arr xs => .arr (sortedList xs)
  | .obj fields => .obj (sortFields (sortedFields fields))
  | v => v

/-- The elements of an array, each with its keys in order. -/
def sortedList : List Json → List Json
  | [] => []
  | x :: xs => sorted x :: sortedList xs

/-- The values of an object, each with its keys in order. -/
def sortedFields : List (String × Json) → List (String × Json)
  | [] => []
  | (k, v) :: fs => (k, sorted v) :: sortedFields fs
end

theorem sortedList_eq_map : ∀ xs : List Json, sortedList xs = xs.map sorted
  | [] => rfl
  | x :: xs => by rw [sortedList, sortedList_eq_map xs, List.map_cons]

theorem sortedFields_eq_map : ∀ fs : List (String × Json),
    sortedFields fs = fs.map fun f => (f.1, sorted f.2)
  | [] => rfl
  | (k, v) :: fs => by rw [sortedFields, sortedFields_eq_map fs, List.map_cons]

theorem dumpsList_eq_map (ascii : Bool) : ∀ xs : List Json, dumpsList ascii xs = xs.map (dumps ascii)
  | [] => rfl
  | x :: xs => by rw [dumpsList, dumpsList_eq_map ascii xs, List.map_cons]

theorem dumpsFields_eq_map (ascii : Bool) : ∀ fs : List (String × Json),
    dumpsFields ascii fs = fs.map fun f => (f.1, dumps ascii f.2)
  | [] => rfl
  | (k, v) :: fs => by rw [dumpsFields, dumpsFields_eq_map ascii fs, List.map_cons]

/-- Sorting fields commutes with a map on their values. -/
theorem sortFields_map {α β : Type} (f : α → β) (fields : List (String × α)) :
    sortFields (fields.map fun g => (g.1, f g.2)) = (sortFields fields).map fun g => (g.1, f g.2) :=
  (List.map_insertionSort (r := fun a b : String × α => a.1 ≤ b.1)
    (s := fun a b : String × β => a.1 ≤ b.1) (fun g => (g.1, f g.2)) fields
    fun _ _ _ _ => Iff.rfl).symm

/-- What is in order is left as it is. -/
theorem sortFields_sortFields {α : Type} (fields : List (String × α)) :
    sortFields (sortFields fields) = sortFields fields := by
  refine (List.Pairwise.insertionSort_eq ?_)
  have : IsTrans (String × α) fun a b => a.1 ≤ b.1 := ⟨fun _ _ _ => le_trans⟩
  have : Std.Total fun a b : String × α => a.1 ≤ b.1 := ⟨fun a b => le_total a.1 b.1⟩
  exact List.pairwise_insertionSort _ fields

theorem mem_sortFields {α : Type} {fields : List (String × α)} {f : String × α} :
    f ∈ sortFields fields ↔ f ∈ fields := List.mem_insertionSort _

/-- The first field under a key, where no key comes twice. -/
theorem lookup_eq_some_iff_mem {α : Type} {fields : List (String × α)} (h : (fields.map Prod.fst).Nodup)
    {k : String} {v : α} :
    fields.lookup k = some v ↔ (k, v) ∈ fields := by
  induction fields with
  | nil => simp
  | cons f fields ih =>
      obtain ⟨k', v'⟩ := f
      rw [List.map_cons, List.nodup_cons] at h
      rw [List.lookup_cons, List.mem_cons]
      by_cases hk : k = k'
      · subst hk
        have hnot : (k, v) ∉ fields := fun hmem => h.1 (List.mem_map.2 ⟨(k, v), hmem, rfl⟩)
        simp [hnot, eq_comm]
      · rw [beq_false_of_ne hk, ih h.2]
        simp [hk]

/-- **Sorting does not change what is under a key.** -/
theorem lookup_sortFields {α : Type} {fields : List (String × α)} (h : (fields.map Prod.fst).Nodup) (k : String) :
    (sortFields fields).lookup k = fields.lookup k := by
  have hperm : (sortFields fields).Perm fields := List.perm_insertionSort _ _
  have hnodup : ((sortFields fields).map Prod.fst).Nodup := (hperm.map Prod.fst).nodup_iff.2 h
  refine Option.ext fun v => ?_
  rw [lookup_eq_some_iff_mem hnodup, lookup_eq_some_iff_mem h, hperm.mem_iff]

/-- The text of an object depends on the texts of its values only. -/
theorem dumps_obj_congr {ascii : Bool} {fs gs : List (String × Json)}
    (h : dumpsFields ascii fs = dumpsFields ascii gs) :
    dumps ascii (.obj fs) = dumps ascii (.obj gs) := by rw [dumps, dumps, h]

/-- A number is written without a leading zero. -/
theorem isUnsigned_toDigits (n : ℕ) : isUnsigned (Nat.toDigits 10 n) = true := by
  have hdigit : ∀ n < 10, 0 < n → Nat.digitChar n ≠ '0' := by decide
  have hhead : ∀ n : ℕ, 0 < n → ∀ c ∈ (Nat.toDigits 10 n).head?, c ≠ '0' := by
    intro n
    induction n using Nat.strong_induction_on with
    | _ n ih =>
        intro hpos c hc
        rcases Nat.lt_or_ge n 10 with hlt | hge
        · rw [Nat.toDigits_of_lt_base hlt] at hc
          obtain rfl := Option.some.inj hc
          exact hdigit n hlt hpos
        · rw [Nat.toDigits_of_base_le (by decide) hge] at hc
          obtain ⟨d, ds, hds⟩ := List.exists_cons_of_ne_nil (@Nat.toDigits_ne_nil (n / 10) 10)
          rw [hds] at hc
          obtain rfl : d = c := Option.some.inj hc
          exact ih (n / 10) (by omega) (by omega) d (by rw [hds]; rfl)
  have hall : ∀ c ∈ Nat.toDigits 10 n, c.isDigit = true :=
    fun c hc => Nat.isDigit_of_mem_toDigits (by decide) le_rfl hc
  rcases Nat.eq_zero_or_pos n with rfl | hpos
  · rfl
  obtain ⟨d, ds, hds⟩ := List.exists_cons_of_ne_nil (@Nat.toDigits_ne_nil n 10)
  rw [hds] at hall ⊢
  have hd : d ≠ '0' := hhead n hpos d (by rw [hds]; rfl)
  have hdrop : ds.dropWhile Char.isDigit = [] :=
    List.dropWhile_eq_nil_iff.2 fun c hc => hall c (List.mem_cons_of_mem d hc)
  simp [isUnsigned, hd, hall d List.mem_cons_self, hdrop, isFraction]

/-- An integer's text, with its sign. -/
theorem toList_int (n : ℤ) : (toString n).toList = (if n < 0 then ['-'] else []) ++ Nat.toDigits 10 n.natAbs := by
  cases n with
  | ofNat m =>
      rw [if_neg (by simp), List.nil_append]
      exact Nat.toList_repr
  | negSucc m =>
      rw [if_pos (Int.negSucc_lt_zero m)]
      show ("-" ++ Nat.repr (m + 1)).toList = _
      rw [String.toList_append, Nat.toList_repr]
      rfl

/-- An integer is a value. -/
theorem WellFormed.int (n : ℤ) : WellFormed (Json.int n) := by
  have hall : ∀ c ∈ Nat.toDigits 10 n.natAbs, c.isDigit = true :=
    fun c hc => Nat.isDigit_of_mem_toDigits (by decide) le_rfl hc
  have hchars : (Nat.toDigits 10 n.natAbs).all numberChar = true := by
    rw [List.all_eq_true]
    intro c hc
    simp [numberChar, hall c hc]
  refine .num ?_ ?_
  · rw [toList_int]
    split_ifs
    · exact hchars
    · exact hchars
  · have hunsigned := isUnsigned_toDigits n.natAbs
    rw [toList_int]
    split_ifs
    · exact hunsigned
    · obtain ⟨d, ds, hds⟩ := List.exists_cons_of_ne_nil (@Nat.toDigits_ne_nil n.natAbs 10)
      rw [hds] at hall hunsigned ⊢
      have hd : d ≠ '-' := by
        rintro rfl
        exact absurd (hall '-' List.mem_cons_self) (by decide)
      rw [List.nil_append, isNumber, if_neg hd]
      exact hunsigned

/-- Objects equal up to the order of keys have equal values under every key. -/
theorem field_eq_of_sorted_eq {fs gs : List (String × Json)} {k : String} {v w : Json}
    (h : (obj fs).sorted = (obj gs).sorted) (hnd : (gs.map Prod.fst).Nodup) (hv : (k, v) ∈ fs)
    (hw : (k, w) ∈ gs) : v.sorted = w.sorted := by
  rw [sorted, sorted, obj.injEq] at h
  have hmem : (k, v.sorted) ∈ sortFields (sortedFields fs) := by
    rw [mem_sortFields, sortedFields_eq_map]
    exact List.mem_map.2 ⟨_, hv, rfl⟩
  rw [h, mem_sortFields, sortedFields_eq_map] at hmem
  obtain ⟨g, hg, he⟩ := List.mem_map.1 hmem
  obtain ⟨hk, hgv⟩ := Prod.mk.inj he
  rw [← hgv, List.inj_on_of_nodup_map hnd hg hw hk]

/-- **Sorting the keys does not change the text.** -/
theorem dumps_sorted (ascii : Bool) {v : Json} (h : WellFormed v) :
    dumps ascii v.sorted = dumps ascii v := by
  induction h with
  | null => rfl
  | bool b => rfl
  | num => rfl
  | constant => rfl
  | str s => rfl
  | @arr xs _ ih =>
      rw [sorted, dumps, dumps, dumpsList_eq_map, dumpsList_eq_map, sortedList_eq_map, List.map_map]
      rw [List.map_congr_left (f := dumps ascii ∘ sorted) ih]
  | @obj fields _ _ ih =>
      have hfields : fields.map (fun f => (f.1, dumps ascii f.2.sorted)) =
          fields.map fun f => (f.1, dumps ascii f.2) :=
        List.map_congr_left fun f hf => by rw [ih f hf]
      rw [sorted, dumps, dumps, dumpsFields_eq_map, dumpsFields_eq_map, sortedFields_eq_map,
        ← sortFields_map, List.map_map, sortFields_sortFields]
      show _ ++ ",".intercalate ((sortFields (fields.map fun f => (f.1, dumps ascii f.2.sorted))).map _)
        ++ _ = _
      rw [hfields]

/-- A value reads back from its text, before any text that cannot continue a number. -/
structure ReadsBack (ascii : Bool) (v : Json) : Prop where
  head : ∃ c cs, (dumps ascii v).toList = c :: cs ∧ isBlank c = false ∧ c ≠ ']'
  read : ∀ fuel cs, 2 * (dumps ascii v).toList.length ≤ fuel →
    (∀ c ∈ cs.head?, numberChar c = false) →
      readValue fuel ((dumps ascii v).toList ++ cs) = some (v.sorted, cs)

/-- A character of a number opens no other token. -/
theorem ne_of_numberChar {c : Char} (h : numberChar c = true) :
    isBlank c = false ∧ c ≠ '"' ∧ c ≠ '[' ∧ c ≠ ']' ∧ c ≠ '\x7b' := by
  refine ⟨?_, ?_, ?_, ?_, ?_⟩
  · by_contra hb
    simp only [isBlank, Bool.not_eq_false, Bool.or_eq_true, decide_eq_true_eq] at hb
    rcases hb with ((rfl | rfl) | rfl) | rfl <;> revert h <;> decide
  all_goals rintro rfl; revert h; decide

/-- The longest run of number characters is the number that was written. -/
theorem readNumber_append {text cs : List Char} (chars : text.all numberChar)
    (grammar : isNumber text) (hcs : ∀ c ∈ cs.head?, numberChar c = false) :
    readNumber (text ++ cs) = some (.num (String.ofList text), cs) := by
  have hall : ∀ c ∈ text, numberChar c = true := List.all_eq_true.1 chars
  have hstop : cs.takeWhile numberChar = [] ∧ cs.dropWhile numberChar = cs := by
    cases cs with
    | nil => exact ⟨rfl, rfl⟩
    | cons c cs =>
        have hc := hcs c rfl
        exact ⟨List.takeWhile_cons_of_neg (by simp [hc]), List.dropWhile_cons_of_neg (by simp [hc])⟩
  rw [readNumber, List.takeWhile_append_of_pos hall, List.dropWhile_append_of_pos hall, hstop.1,
    hstop.2, List.append_nil, if_pos grammar]

/-- A token that is neither a string, an array nor an object. -/
theorem readValue_scalar {fuel : ℕ} {c : Char} {cs : List Char} (hb : isBlank c = false)
    (hs : c ≠ '"') (ha : c ≠ '[') (ho : c ≠ '\x7b') : readValue (fuel + 1) (c :: cs) =
      (readNumber (c :: cs)).or (readConstant (c :: cs)) := by
  rw [readValue, skipBlanks_cons hb]
  simp only [if_neg hs, if_neg ha, if_neg ho]

theorem ReadsBack.of_num (ascii : Bool) {text : String} (chars : text.toList.all numberChar)
    (grammar : isNumber text.toList) : ReadsBack ascii (.num text) := by
  obtain ⟨c, cs, htext⟩ : ∃ c cs, text.toList = c :: cs := by
    cases htext : text.toList with
    | nil =>
        rw [htext] at grammar
        exact absurd grammar (by decide)
    | cons c cs => exact ⟨c, cs, rfl⟩
  have hc : numberChar c = true := List.all_eq_true.1 chars c (htext ▸ List.mem_cons_self)
  obtain ⟨hb, hs, ha, hclose, ho⟩ := ne_of_numberChar hc
  refine ⟨⟨c, cs, htext, hb, hclose⟩, fun fuel rest hfuel hrest => ?_⟩
  have hread := readNumber_append chars grammar hrest
  rw [dumps, htext] at hfuel ⊢
  rw [htext] at hread
  obtain ⟨fuel, rfl⟩ : ∃ f, fuel = f + 1 := ⟨fuel - 1, by rw [List.length_cons] at hfuel; omega⟩
  rw [List.cons_append, readValue_scalar hb hs ha ho, ← List.cons_append, hread, Option.some_or,
    ← htext, String.ofList_toList]
  rfl

/-- A literal name reads back. -/
theorem ReadsBack.of_constant (ascii : Bool) {name : String} {v : Json} (h : (name, v) ∈ constants)
    (htext : dumps ascii v = name) (hv : v.sorted = v) : ReadsBack ascii v := by
  rw [constants] at h
  refine ⟨?_, fun fuel rest hfuel _ => ?_⟩
  · rw [htext]
    simp only [List.mem_cons, Prod.mk.injEq, List.not_mem_nil, or_false] at h
    rcases h with ⟨rfl, -⟩ | ⟨rfl, -⟩ | ⟨rfl, -⟩ | ⟨rfl, -⟩ | ⟨rfl, -⟩ | ⟨rfl, -⟩ <;>
      exact ⟨_, _, rfl, by decide, by decide⟩
  · rw [htext] at hfuel ⊢
    rw [hv]
    simp only [List.mem_cons, Prod.mk.injEq, List.not_mem_nil, or_false] at h
    rcases h with ⟨rfl, rfl⟩ | ⟨rfl, rfl⟩ | ⟨rfl, rfl⟩ | ⟨rfl, rfl⟩ | ⟨rfl, rfl⟩ | ⟨rfl, rfl⟩ <;>
    · obtain ⟨fuel, rfl⟩ : ∃ f, fuel = f + 1 := ⟨fuel - 1, by simp at hfuel; omega⟩
      rfl

theorem ReadsBack.of_str (ascii : Bool) (s : String) : ReadsBack ascii (.str s) := by
  refine ⟨⟨'"', _, toList_quote ascii s, by decide, by decide⟩, fun fuel cs hfuel _ => ?_⟩
  rw [dumps, toList_quote] at hfuel ⊢
  obtain ⟨fuel, rfl⟩ : ∃ f, fuel = f + 1 := ⟨fuel - 1, by rw [List.length_cons] at hfuel; omega⟩
  rw [List.cons_append, readValue, skipBlanks_cons (by decide)]
  simp only [if_true]
  rw [List.append_assoc, List.singleton_append, readString_quote]
  rfl

/-- What follows an element or a field is no part of a number. -/
theorem not_numberChar_of_head {c : Char} (hc : numberChar c = false) (cs : List Char) :
    ∀ d ∈ (c :: cs).head?, numberChar d = false := by
  rintro d hd
  obtain rfl := Option.some.inj hd
  exact hc

/-- The elements of an array and the fields of an object are set apart by commas. -/
theorem intercalate_map_cons {α : Type} (t : α → List Char) (x y : α) (ys : List α) :
    [','].intercalate ((x :: y :: ys).map t) = t x ++ ',' :: [','].intercalate ((y :: ys).map t) := by
  rw [List.map_cons, List.map_cons, List.intercalate_cons_cons, List.append_assoc]
  rfl

/-- The elements of an array read back. -/
theorem readItems_dumps {ascii : Bool} : ∀ {xs : List Json}, xs ≠ [] →
    (∀ x ∈ xs, ReadsBack ascii x) → ∀ (fuel : ℕ) (cs : List Char),
      2 * ([','].intercalate (xs.map fun x => (dumps ascii x).toList)).length < fuel →
        readItems fuel ([','].intercalate (xs.map fun x => (dumps ascii x).toList) ++ ']' :: cs) =
          some (xs.map sorted, cs)
  | [], hne, _, _, _ => absurd rfl hne
  | _ :: _, _, _, 0, _ => fun hfuel => absurd hfuel (Nat.not_lt_zero _)
  | [x], _, hx, fuel + 1, cs => by
      intro hfuel
      rw [List.map_singleton, List.intercalate_singleton] at hfuel ⊢
      rw [readItems, (hx x List.mem_cons_self).read fuel (']' :: cs) (by omega)
        (not_numberChar_of_head (by decide) cs)]
      rfl
  | x :: y :: ys, _, hx, fuel + 1, cs => by
      intro hfuel
      rw [intercalate_map_cons, List.length_append, List.length_cons] at hfuel
      have hrest := readItems_dumps (List.cons_ne_nil y ys)
        (fun z hz => hx z (List.mem_cons_of_mem _ hz)) fuel cs (by omega)
      rw [intercalate_map_cons, List.append_assoc, List.cons_append, readItems,
        (hx x List.mem_cons_self).read fuel _ (by omega) (not_numberChar_of_head (by decide) _)]
      show (readItems fuel _).map _ = _
      rw [hrest]
      rfl

/-- The text of a field of an object. -/
def fieldText (ascii : Bool) (f : String × Json) : List Char :=
  (quote ascii f.1).toList ++ ':' :: (dumps ascii f.2).toList

/-- One field read back, before a comma or the closing brace. -/
theorem readFields_field {ascii : Bool} {f : String × Json} (hf : ReadsBack ascii f.2) {fuel : ℕ}
    (hfuel : 2 * (fieldText ascii f).length ≤ fuel) {d : Char} (hd : numberChar d = false)
    (hb : isBlank d = false) (cs : List Char) : readFields (fuel + 1) (fieldText ascii f ++ d :: cs) =
      if d = ',' then (readFields fuel cs).map fun rs => ((f.1, f.2.sorted) :: rs.1, rs.2)
      else if d = '\x7d' then some ([(f.1, f.2.sorted)], cs)
      else none := by
  rw [fieldText, List.length_append, List.length_cons] at hfuel
  have hread := hf.read fuel (d :: cs) (by omega) (not_numberChar_of_head hd cs)
  rw [fieldText, toList_quote, List.append_assoc, List.cons_append, List.append_assoc,
    List.singleton_append, List.cons_append, readFields, skipBlanks_cons (by decide), expect_self,
    Option.bind_some, readString_quote, Option.bind_some]
  simp only [skipBlanks_cons (show isBlank ':' = false by decide), expect_self, Option.bind_some,
    hread, skipBlanks_cons hb]

/-- The fields of an object read back. -/
theorem readFields_dumps {ascii : Bool} : ∀ {fs : List (String × Json)}, fs ≠ [] →
    (∀ f ∈ fs, ReadsBack ascii f.2) → ∀ (fuel : ℕ) (cs : List Char),
      2 * ([','].intercalate (fs.map (fieldText ascii))).length < fuel →
        readFields fuel ([','].intercalate (fs.map (fieldText ascii)) ++ '\x7d' :: cs) =
          some (fs.map fun f => (f.1, f.2.sorted), cs)
  | [], hne, _, _, _ => absurd rfl hne
  | _ :: _, _, _, 0, _ => fun hfuel => absurd hfuel (Nat.not_lt_zero _)
  | [f], _, hf, fuel + 1, cs => by
      intro hfuel
      rw [List.map_singleton, List.intercalate_singleton] at hfuel ⊢
      rw [readFields_field (hf f List.mem_cons_self) (by omega) (by decide) (by decide) cs,
        if_neg (by decide), if_pos rfl]
      rfl
  | f :: g :: gs, _, hf, fuel + 1, cs => by
      intro hfuel
      rw [intercalate_map_cons, List.length_append, List.length_cons] at hfuel
      have hrest := readFields_dumps (List.cons_ne_nil g gs)
        (fun h hh => hf h (List.mem_cons_of_mem _ hh)) fuel cs (by omega)
      rw [intercalate_map_cons, List.append_assoc, List.cons_append,
        readFields_field (hf f List.mem_cons_self) (by omega) (by decide) (by decide), if_pos rfl,
        hrest]
      rfl

/-- Fields without a repeated key are the items of the dictionary. -/
theorem lastWins_of_nodup {fields : List (String × Json)} (h : (fields.map Prod.fst).Nodup) :
    lastWins fields = fields := by
  have hfold : ∀ (fs acc : List (String × Json)), ((acc ++ fs).map Prod.fst).Nodup →
      fs.foldl (fun d f => if d.any fun g => g.1 = f.1
        then d.map fun g => if g.1 = f.1 then f else g else d ++ [f]) acc = acc ++ fs := by
    intro fs
    induction fs with
    | nil => exact fun acc _ => (List.append_nil acc).symm
    | cons f fs ih =>
        intro acc hnd
        have hnew : ¬ (acc.any fun g => g.1 = f.1) = true := by
          rw [List.any_eq_true]
          rintro ⟨g, hg, he⟩
          rw [List.map_append, List.nodup_append'] at hnd
          exact hnd.2.2 (List.mem_map_of_mem hg)
            (of_decide_eq_true he ▸ List.mem_map_of_mem List.mem_cons_self)
        rw [List.foldl_cons, if_neg hnew, ih _ (by simpa using hnd), List.append_assoc,
          List.singleton_append]
  exact hfold fields [] h

theorem ReadsBack.of_arr {ascii : Bool} {xs : List Json} (hx : ∀ x ∈ xs, ReadsBack ascii x) :
    ReadsBack ascii (.arr xs) := by
  have htext : (dumps ascii (.arr xs)).toList =
      '[' :: ([','].intercalate (xs.map fun x => (dumps ascii x).toList) ++ [']']) := by
    rw [dumps, dumpsList_eq_map, String.toList_append, String.toList_append,
      String.toList_intercalate, List.map_map]
    rfl
  refine ⟨⟨'[', _, htext, by decide, by decide⟩, fun fuel cs hfuel _ => ?_⟩
  rw [htext, List.length_cons, List.length_append, List.length_singleton] at hfuel
  obtain ⟨fuel, rfl⟩ : ∃ f, fuel = f + 1 := ⟨fuel - 1, by omega⟩
  rw [htext, List.cons_append, List.append_assoc, List.singleton_append, readValue,
    skipBlanks_cons (by decide), sorted, sortedList_eq_map]
  simp only [if_neg (show ¬ '[' = '"' by decide), if_true]
  rcases xs with _ | ⟨x, xs⟩
  · rfl
  · -- the first element does not close the array
    obtain ⟨c, ds, hc, hb, hclose⟩ := (hx x List.mem_cons_self).head
    have hfirst : ∃ ds', [','].intercalate ((x :: xs).map fun x => (dumps ascii x).toList) =
        c :: ds' := by
      rcases xs with _ | ⟨y, ys⟩
      · exact ⟨ds, by rw [List.map_singleton, List.intercalate_singleton, hc]⟩
      · exact ⟨_, by rw [intercalate_map_cons, hc]; rfl⟩
    obtain ⟨ds', hds'⟩ := hfirst
    have hopen : (skipBlanks ([','].intercalate ((x :: xs).map fun x => (dumps ascii x).toList) ++
        ']' :: cs)).head? ≠ some ']' := by
      rw [hds', List.cons_append, skipBlanks_cons hb]
      exact fun h => hclose (Option.some.inj h)
    rw [if_neg hopen, readItems_dumps (List.cons_ne_nil x xs) hx fuel cs (by omega)]
    rfl

theorem ReadsBack.of_obj {ascii : Bool} {fields : List (String × Json)}
    (nodup : (fields.map Prod.fst).Nodup) (hf : ∀ f ∈ fields, ReadsBack ascii f.2) :
    ReadsBack ascii (.obj fields) := by
  have htext : (dumps ascii (.obj fields)).toList = '\x7b' ::
      ([','].intercalate ((sortFields fields).map (fieldText ascii)) ++ ['\x7d']) := by
    rw [dumps, dumpsFields_eq_map, sortFields_map, String.toList_append, String.toList_append,
      String.toList_intercalate, List.map_map, List.map_map]
    have hfield : (String.toList ∘ fun f : String × String => quote ascii f.1 ++ ":" ++ f.2) ∘
        (fun f : String × Json => (f.1, dumps ascii f.2)) = fieldText ascii := by
      funext f
      show (quote ascii f.1 ++ ":" ++ dumps ascii f.2).toList = _
      rw [String.toList_append, String.toList_append, List.append_assoc]
      rfl
    rw [← hfield]
    rfl
  refine ⟨⟨'\x7b', _, htext, by decide, by decide⟩, fun fuel cs hfuel _ => ?_⟩
  rw [htext, List.length_cons, List.length_append, List.length_singleton] at hfuel
  obtain ⟨fuel, rfl⟩ : ∃ f, fuel = f + 1 := ⟨fuel - 1, by omega⟩
  have hperm : (sortFields fields).Perm fields := List.perm_insertionSort _ fields
  rw [htext, List.cons_append, List.append_assoc, List.singleton_append, readValue,
    skipBlanks_cons (by decide), sorted, sortedFields_eq_map, sortFields_map]
  simp only [if_neg (show ¬ '\x7b' = '"' by decide), if_neg (show ¬ '\x7b' = '[' by decide), if_true]
  have hf' : ∀ f ∈ sortFields fields, ReadsBack ascii f.2 := fun f h => hf f (hperm.mem_iff.1 h)
  have hnd : ((sortFields fields).map Prod.fst).Nodup := (hperm.map Prod.fst).nodup_iff.2 nodup
  generalize sortFields fields = fs at hf' hnd hfuel ⊢
  rcases fs with _ | ⟨f, fs⟩
  · rfl
  · have hopen : (skipBlanks ([','].intercalate ((f :: fs).map (fieldText ascii)) ++
        '\x7d' :: cs)).head? ≠ some '\x7d' := by
      -- a field begins with the quote of its key
      have hfirst : ∃ ds, [','].intercalate ((f :: fs).map (fieldText ascii)) = '"' :: ds := by
        rcases fs with _ | ⟨g, gs⟩
        · exact ⟨_, by rw [List.map_singleton, List.intercalate_singleton, fieldText, toList_quote]; rfl⟩
        · exact ⟨_, by rw [intercalate_map_cons, fieldText, toList_quote]; rfl⟩
      obtain ⟨ds, hds⟩ := hfirst
      rw [hds, List.cons_append, skipBlanks_cons (by decide)]
      exact fun h => absurd (Option.some.inj h) (by decide)
    rw [if_neg hopen, readFields_dumps (List.cons_ne_nil f fs) hf' fuel cs (by omega),
      Option.map_some, lastWins_of_nodup (by simpa [Function.comp_def] using hnd)]

/-- **Every value reads back from its text.** -/
theorem readsBack (ascii : Bool) {v : Json} (h : WellFormed v) : ReadsBack ascii v := by
  induction h with
  | null => exact .of_constant ascii (.head _) rfl rfl
  | bool b =>
      cases b with
      | true => exact .of_constant ascii (.tail _ (.head _)) rfl rfl
      | false => exact .of_constant ascii (.tail _ (.tail _ (.head _))) rfl rfl
  | num chars grammar => exact .of_num ascii chars grammar
  | constant h =>
      simp only [List.mem_cons, List.not_mem_nil, or_false] at h
      rcases h with rfl | rfl | rfl
      · exact .of_constant ascii (.tail _ (.tail _ (.tail _ (.head _)))) rfl rfl
      · exact .of_constant ascii (.tail _ (.tail _ (.tail _ (.tail _ (.head _))))) rfl rfl
      · exact .of_constant ascii (.tail _ (.tail _ (.tail _ (.tail _ (.tail _ (.head _)))))) rfl rfl
  | str s => exact .of_str ascii s
  | arr _ ih => exact .of_arr ih
  | obj nodup _ ih => exact .of_obj nodup ih

/-- **`json.loads` inverts `json.dumps`**, up to the order of keys. -/
theorem loads_dumps (ascii : Bool) {v : Json} (h : WellFormed v) :
    loads (dumps ascii v) = some v.sorted := by
  have hread := (readsBack ascii h).read (2 * (dumps ascii v).toList.length) [] le_rfl
    (by rintro c ⟨⟩)
  rw [List.append_nil] at hread
  rw [loads, ← String.length_toList, hread]
  rfl

/-- **The canonical text determines the value**, up to the order of keys. -/
theorem dumps_injective {ascii : Bool} {v w : Json} (hv : WellFormed v) (hw : WellFormed w)
    (h : dumps ascii v = dumps ascii w) : v.sorted = w.sorted := by
  have hread := loads_dumps ascii hv
  rw [h, loads_dumps ascii hw] at hread
  exact (Option.some.inj hread).symm

example : (loads " \x7b\"b\": [1.5e3, \"\\u00e9\"],\n\"a\": null\x7d").map (dumps false) =
    some "\x7b\"a\":null,\"b\":[1.5e3,\"é\"]\x7d" := by decide +kernel

end Json
end Library
