/-
# JSON values as Python uses them

The truth value of a JSON value, `a or b`, and `mapping.get(key)` where what is asked may be no
mapping, so that the attribute is missing and the read raises; and the compact text of a value with
its keys as they were inserted.

**Proved here.**  A compact text is one line of printable ASCII characters (`printable_write`).
-/

import PulseGraph.Library.Checked
import PulseGraph.Library.JsonLoads

namespace Library
namespace Json

/-- A number that is zero: no digit of its mantissa is another. -/
def isZero (text : String) : Bool :=
  !(["NaN", "Infinity", "-Infinity"].contains text) &&
    (text.toList.takeWhile fun c => c ≠ 'e' && c ≠ 'E').all fun c => !(c.isDigit && c ≠ '0')

/-- `bool(value)`. -/
def truthy : Json → Bool
  | .null => false
  | .bool b => b
  | .num text => !isZero text
  | .str s => s ≠ ""
  | .arr xs => !xs.isEmpty
  | .obj fields => !fields.isEmpty

/-- `a or b`. -/
def orElse (a b : Json) : Json := if a.truthy then a else b

/-- `value.get(key)`; only a mapping has the attribute. -/
def get? (key : String) : Json → Option Json
  | .obj fields => some ((fields.lookup key).getD .null)
  | _ => none

/-- `(value or {})`. -/
def orEmpty (value : Json) : Json := value.orElse (.obj [])

example : (Json.num "-0.0e7").truthy = false ∧ (Json.num "10").truthy = true := by decide +kernel

@[simp] theorem truthy_str (s : String) : (Json.str s).truthy = decide (s ≠ "") := rfl

theorem orElse_of_truthy {a b : Json} (h : a.truthy = true) : a.orElse b = a := if_pos h

theorem orElse_str {s : String} {b : Json} (h : s ≠ "") : (Json.str s).orElse b = .str s :=
  orElse_of_truthy (decide_eq_true h)

@[simp] theorem orEmpty_obj (fields : List (String × Json)) : (Json.obj fields).orEmpty = .obj fields := by
  cases fields <;> rfl

theorem get?_obj {fields : List (String × Json)} {key : String} {v : Json}
    (h : fields.lookup key = some v) : (Json.obj fields).get? key = some v := by
  rw [get?, h]
  rfl

/-! ## Compact text -/

mutual
/-- `json.dumps(v, separators=(",", ":"), ensure_ascii=ascii)`. -/
def write (ascii : Bool) : Json → String
  | .null => "null"
  | .bool true => "true"
  | .bool false => "false"
  | .num text => text
  | .str s => quote ascii s
  | .arr xs => "[" ++ ",".intercalate (writeList ascii xs) ++ "]"
  | .obj fields => "\x7b" ++ ",".intercalate (writeFields ascii fields) ++ "\x7d"

/-- The texts of the elements of an array. -/
def writeList (ascii : Bool) : List Json → List String
  | [] => []
  | x :: xs => write ascii x :: writeList ascii xs

/-- The texts of the fields of an object. -/
def writeFields (ascii : Bool) : List (String × Json) → List String
  | [] => []
  | (k, v) :: fs => (quote ascii k ++ ":" ++ write ascii v) :: writeFields ascii fs
end

example : write true (.obj [("b", .arr [.null, int (-3)]), ("a", .str "é\n")]) =
    "\x7b\"b\":[null,-3],\"a\":\"\\u00e9\\n\"\x7d" := by decide +kernel

/-- Printable ASCII characters. -/
def Printable (s : String) : Prop := ∀ c ∈ s.toList, 32 ≤ c.toNat ∧ c.toNat < 127

theorem Printable.append {s t : String} (hs : Printable s) (ht : Printable t) : Printable (s ++ t) := by
  intro c hc
  rw [String.toList_append, List.mem_append] at hc
  exact hc.elim (hs c) (ht c)

theorem printable_join {ss : List String} (h : ∀ s ∈ ss, Printable s) : Printable (String.join ss) := by
  intro c hc
  rw [String.toList_join, List.mem_flatMap] at hc
  obtain ⟨s, hs, hc⟩ := hc
  exact h s hs c hc

theorem printable_intercalate {ss : List String} (h : ∀ s ∈ ss, Printable s) : Printable (",".intercalate ss) := by
  have hall : ∀ ls : List (List Char), (∀ l ∈ ls, ∀ c ∈ l, 32 ≤ c.toNat ∧ c.toNat < 127) →
      ∀ c ∈ [','].intercalate ls, 32 ≤ c.toNat ∧ c.toNat < 127 := by
    intro ls
    induction ls with
    | nil => simp
    | cons l ls ih =>
        intro hls c hc
        obtain ⟨hl, hls⟩ := List.forall_mem_cons.1 hls
        cases ls with
        | nil =>
            rw [List.intercalate_singleton] at hc
            exact hl c hc
        | cons m ls =>
            rw [List.intercalate_cons_cons, List.append_assoc, List.mem_append, List.mem_append] at hc
            rcases hc with hc | hc | hc
            · exact hl c hc
            · rw [List.mem_singleton.1 hc]
              decide
            · exact ih hls c hc
  intro c hc
  rw [String.toList_intercalate] at hc
  refine hall _ (fun l hl => ?_) c hc
  obtain ⟨s, hs, rfl⟩ := List.mem_map.1 hl
  exact h s hs

theorem printable_unicodeEscape (n : ℕ) : Printable (unicodeEscape n) := by
  have hdigit : ∀ d < 16, 32 ≤ (Nat.digitChar d).toNat ∧ (Nat.digitChar d).toNat < 127 := by decide
  refine Printable.append (forall_mem_of_all (by decide)) fun c hc => ?_
  rw [hex4, String.toList_ofList] at hc
  obtain ⟨d, -, rfl⟩ := List.mem_map.1 hc
  exact hdigit _ (Nat.mod_lt _ (by decide))

/-- Every character that is not printable is escaped. -/
theorem printable_escapeChar (c : Char) : Printable (escapeChar true c) := by
  have hshort : ∀ t ∈ ["\\\"", "\\\\", "\\n", "\\r", "\\t", "\\b", "\\f"], Printable t := by
    simp only [List.forall_mem_cons]
    refine ⟨?_, ?_, ?_, ?_, ?_, ?_, ?_, List.forall_mem_nil _⟩ <;> exact forall_mem_of_all (by decide)
  unfold escapeChar
  split_ifs with _ _ _ _ _ _ _ hcontrol hascii
  · exact hshort _ (by decide)
  · exact hshort _ (by decide)
  · exact hshort _ (by decide)
  · exact hshort _ (by decide)
  · exact hshort _ (by decide)
  · exact hshort _ (by decide)
  · exact hshort _ (by decide)
  · exact printable_unicodeEscape _
  · exact printable_unicodeEscape _
  · exact (printable_unicodeEscape _).append (printable_unicodeEscape _)
  · intro d hd
    obtain rfl : d = c := by simpa [Char.toString] using hd
    simp only [Bool.true_and, decide_eq_true_eq, not_lt] at hascii
    omega

theorem printable_quote (s : String) : Printable (quote true s) := by
  refine Printable.append (Printable.append (forall_mem_of_all (by decide)) (printable_join fun t ht => ?_))
    (forall_mem_of_all (by decide))
  obtain ⟨c, -, rfl⟩ := List.mem_map.1 ht
  exact printable_escapeChar c

theorem writeList_eq_map (ascii : Bool) : ∀ xs : List Json, writeList ascii xs = xs.map (write ascii)
  | [] => rfl
  | x :: xs => by rw [writeList, writeList_eq_map ascii xs, List.map_cons]

theorem writeFields_eq_map (ascii : Bool) : ∀ fs : List (String × Json),
    writeFields ascii fs = fs.map fun f => quote ascii f.1 ++ ":" ++ write ascii f.2
  | [] => rfl
  | (k, v) :: fs => by rw [writeFields, writeFields_eq_map ascii fs, List.map_cons]

theorem printable_of_isDigit {c : Char} (h : c.isDigit = true) : 32 ≤ c.toNat ∧ c.toNat < 127 := by
  have hdigit := Char.isDigit_iff_toNat.1 h
  simp only [Char.reduceToNat] at hdigit
  omega

/-- A character of a number is printable. -/
theorem printable_of_numberChar {c : Char} (h : numberChar c = true) : 32 ≤ c.toNat ∧ c.toNat < 127 := by
  simp only [numberChar, Bool.or_eq_true, decide_eq_true_eq] at h
  rcases h with ((((h | rfl) | rfl) | rfl) | rfl) | rfl
  · exact printable_of_isDigit h
  all_goals decide

/-- **A compact text is one line**, of printable ASCII characters. -/
theorem printable_write {v : Json} (h : WellFormed v) : Printable (write true v) := by
  induction h with
  | null => exact forall_mem_of_all (by decide)
  | bool b => cases b <;> exact forall_mem_of_all (by decide)
  | num chars _ =>
      rw [write]
      exact fun c hc => printable_of_numberChar (List.all_eq_true.1 chars c hc)
  | constant h =>
      simp only [List.mem_cons, List.not_mem_nil, or_false] at h
      rcases h with rfl | rfl | rfl <;> exact forall_mem_of_all (by decide)
  | str s =>
      rw [write]
      exact printable_quote s
  | @arr xs _ ih =>
      rw [write, writeList_eq_map]
      refine Printable.append (Printable.append (forall_mem_of_all (by decide)) (printable_intercalate fun s hs => ?_))
        (forall_mem_of_all (by decide))
      obtain ⟨x, hx, rfl⟩ := List.mem_map.1 hs
      exact ih x hx
  | @obj fields _ _ ih =>
      rw [write, writeFields_eq_map]
      refine Printable.append (Printable.append (forall_mem_of_all (by decide)) (printable_intercalate fun s hs => ?_))
        (forall_mem_of_all (by decide))
      obtain ⟨f, hf, rfl⟩ := List.mem_map.1 hs
      exact Printable.append ((printable_quote f.1).append (forall_mem_of_all (by decide))) (ih f hf)

end Json
end Library
