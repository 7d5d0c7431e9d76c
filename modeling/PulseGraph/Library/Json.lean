/-
# JSON values and their canonical text

A value and its text as `json.dumps(value, sort_keys=True,
separators=(",", ":"))` writes it: keys sorted by code point, no blanks, and two
escaping modes (`ensure_ascii`).  Numbers keep the text they are written with.
-/

import Mathlib.Data.List.Sort
import Mathlib.Data.String.Basic

namespace Library

/-- A JSON value. -/
inductive Json where
  | null
  | bool (b : Bool)
  | num (text : String)
  | str (s : String)
  | arr (xs : List Json)
  | obj (fields : List (String × Json))

namespace Json

/-- An integer as a JSON number. -/
def int (n : ℤ) : Json := .num (toString n)

/-- A string or `null`. -/
def optStr : Option String → Json
  | some s => .str s
  | none => .null

/-- The low four hexadecimal digits of a code unit. -/
def hex4 (n : ℕ) : String :=
  String.ofList ([n / 4096, n / 256, n / 16, n].map fun d => Nat.digitChar (d % 16))

/-- A code unit as an escape `\uXXXX`. -/
def unicodeEscape (n : ℕ) : String := "\\u" ++ hex4 n

/-- One character inside a string.  With `ascii` everything outside the printable
ASCII range is escaped, by a surrogate pair above the basic plane; without it
only the quote, the backslash and the control characters are. -/
def escapeChar (ascii : Bool) (c : Char) : String :=
  if c = '"' then "\\\""
  else if c = '\\' then "\\\\"
  else if c = '\n' then "\\n"
  else if c = '\r' then "\\r"
  else if c = '\t' then "\\t"
  else if c.toNat = 8 then "\\b"
  else if c.toNat = 12 then "\\f"
  else if c.toNat < 32 then unicodeEscape c.toNat
  else if ascii && decide (126 < c.toNat) then
    if c.toNat < 0x10000 then unicodeEscape c.toNat
    else unicodeEscape (0xD800 + (c.toNat - 0x10000) / 1024) ++
      unicodeEscape (0xDC00 + (c.toNat - 0x10000) % 1024)
  else c.toString

/-- A string literal. -/
def quote (ascii : Bool) (s : String) : String :=
  "\"" ++ String.join (s.toList.map (escapeChar ascii)) ++ "\""

/-- Fields by increasing key. -/
def sortFields {α : Type} (fields : List (String × α)) : List (String × α) :=
  fields.insertionSort fun a b => a.1 ≤ b.1

mutual
/-- `json.dumps(v, sort_keys=True, separators=(",", ":"), ensure_ascii=ascii)`. -/
def dumps (ascii : Bool) : Json → String
  | .null => "null"
  | .bool true => "true"
  | .bool false => "false"
  | .num text => text
  | .str s => quote ascii s
  | .arr xs => "[" ++ ",".intercalate (dumpsList ascii xs) ++ "]"
  | .obj fields =>
      "\x7b" ++ ",".intercalate ((sortFields (dumpsFields ascii fields)).map
        fun f => quote ascii f.1 ++ ":" ++ f.2) ++ "\x7d"

/-- The texts of the elements of an array. -/
def dumpsList (ascii : Bool) : List Json → List String
  | [] => []
  | x :: xs => dumps ascii x :: dumpsList ascii xs

/-- The texts of the values of an object, under their keys. -/
def dumpsFields (ascii : Bool) : List (String × Json) → List (String × String)
  | [] => []
  | (k, v) :: fs => (k, dumps ascii v) :: dumpsFields ascii fs
end

example : dumps true (.obj [("b", .arr [.null, int (-3)]), ("a", .str "é\n")]) =
    "\x7b\"a\":\"\\u00e9\\n\",\"b\":[null,-3]\x7d" := by decide +kernel

end Json
end Library
