/-
# Timestamps as text

The text `_iso` stores for a timestamp and `datetime.fromisoformat`, which reads
`YYYY-MM-DD[*HH[:MM[:SS[.fff[fff]]]][+HH:MM[:SS]]]`.  **A stored timestamp reads back
as its own milliseconds** (`fromIsoFormat_isoText`), in UTC; and **a `datetime` dumps
to the text of what was stored of it exactly when it is a whole millisecond in UTC**
(`dump_ofIsoMs_eq_iff`).
-/

import PulseGraph.Contracts
import PulseGraph.Library.JsonLoads

namespace PulseGraph

open Library (expect expect_self)

/-! ## Days and dates -/

/-- The number of days since the epoch of a civil date. -/
def daysOfCivil (y m d : ℤ) : ℤ :=
  let y := if m ≤ 2 then y - 1 else y
  let yoe := y - y / 400 * 400
  let doy := (153 * (if 2 < m then m - 3 else m + 9) + 2) / 5 + d - 1
  y / 400 * 146097 + (yoe * 365 + yoe / 4 - yoe / 100 + doy) - 719468

/-- The year of a day within an era of 400 years, and its day within that year: the
era splits into centuries of 36524 days and cycles of 1461, and the last day of the
era is a leap day of its own. -/
theorem yearOfEra_bounds {doe : ℤ} (h : 0 ≤ doe) (h' : doe < 146097) :
    ∃ yoe doy : ℤ, (doe - doe / 1460 + doe / 36524 - doe / 146096) / 365 = yoe ∧
      doe - (365 * yoe + yoe / 4 - yoe / 100) = doy ∧
      0 ≤ yoe ∧ yoe < 400 ∧ 0 ≤ doy ∧ doy ≤ 365 := by
  rcases eq_or_ne doe 146096 with rfl | hlast
  · exact ⟨399, 365, by decide, by decide, by decide, by decide, by decide, by decide⟩
  obtain ⟨c, k, r, hdoe, hc, hc', hk, hk', hr, hr', hkr⟩ : ∃ c k r : ℤ,
      doe = 36524 * c + 1461 * k + r ∧ 0 ≤ c ∧ c ≤ 3 ∧ 0 ≤ k ∧ k ≤ 24 ∧ 0 ≤ r ∧ r ≤ 1460 ∧
        1461 * k + r < 36524 :=
    ⟨doe / 36524, doe % 36524 / 1461, doe % 36524 % 1461, by omega, by omega, by omega, by omega,
      by omega, by omega, by omega, by omega⟩
  have hf : doe / 36524 = c := by omega
  have hg : doe / 146096 = 0 := by omega
  have he : doe / 1460 = 25 * c + k ∧ r < 1460 ∨ doe / 1460 = 25 * c + k + 1 ∧ 1364 ≤ r := by omega
  obtain ⟨j, hj, hj₀, hj₃, hjr⟩ : ∃ j : ℤ, (r - (doe / 1460 - 25 * c - k)) / 365 = j ∧ 0 ≤ j ∧
      j ≤ 3 ∧ 365 * j ≤ r := ⟨_, rfl, by omega, by omega, by omega⟩
  refine ⟨100 * c + 4 * k + j, r - 365 * j, ?_, ?_, by omega, by omega, by omega, by omega⟩
  · rw [hf, hg]
    omega
  · have h₄ : (100 * c + 4 * k + j) / 4 = 25 * c + k := by omega
    have h₁₀₀ : (100 * c + 4 * k + j) / 100 = c := by omega
    rw [h₄, h₁₀₀]
    omega

/-- **The civil date of a day names that day.** -/
theorem civilDate_spec (days : ℤ) : ∃ y m d : ℤ, civilDate days = (y, m, d) ∧
    1 ≤ m ∧ m ≤ 12 ∧ 1 ≤ d ∧ d ≤ 31 ∧ daysOfCivil y m d = days := by
  obtain ⟨yoe, doy, hyoe, hdoy, h₀, h₄₀₀, hd₀, hd₃₆₅⟩ :=
    @yearOfEra_bounds (days + 719468 - (days + 719468) / 146097 * 146097) (by omega) (by omega)
  refine ⟨_, _, _, rfl, ?_⟩
  simp only [hyoe, hdoy]
  have hmp : 0 ≤ (5 * doy + 2) / 153 ∧ (5 * doy + 2) / 153 ≤ 11 := by omega
  have hday : (153 * ((5 * doy + 2) / 153) + 2) / 5 ≤ doy ∧
      doy - (153 * ((5 * doy + 2) / 153) + 2) / 5 ≤ 30 := by omega
  have hera : (yoe + (days + 719468) / 146097 * 400) / 400 = (days + 719468) / 146097 := by omega
  generalize (5 * doy + 2) / 153 = mp at hmp hday ⊢
  by_cases hm : mp < 10
  · simp only [if_pos hm, if_neg (show ¬ mp + 3 ≤ 2 by omega), daysOfCivil,
      if_pos (show 2 < mp + 3 by omega), add_zero, hera, add_sub_cancel_right]
    exact ⟨by omega, by omega, by omega, by omega, by omega⟩
  · simp only [if_neg hm, if_pos (show mp - 9 ≤ 2 by omega), daysOfCivil,
      if_neg (show ¬ 2 < mp - 9 by omega), hera, add_sub_cancel_right, sub_add_cancel]
    exact ⟨by omega, by omega, by omega, by omega, by omega⟩

/-! ## Digits -/

/-- Exactly `n` decimal digits. -/
def readDigits (n : ℕ) (cs : List Char) : Option (ℕ × List Char) :=
  if (cs.take n).length = n ∧ (cs.take n).all Char.isDigit then
    some (Nat.ofDigitChars 10 (cs.take n) 0, cs.drop n)
  else none

theorem toList_padded (width n : ℕ) : (padded width n).toList =
    List.replicate (width - (Nat.toDigits 10 n).length) '0' ++ Nat.toDigits 10 n := by
  rw [padded, String.toList_ofList, Nat.toList_repr]

theorem isDigit_of_mem_padded {width n : ℕ} {c : Char} (h : c ∈ (padded width n).toList) :
    c.isDigit = true := by
  rw [toList_padded] at h
  rcases List.mem_append.1 h with h | h
  · obtain rfl := List.eq_of_mem_replicate h
    decide
  · exact Nat.isDigit_of_mem_toDigits (by decide) le_rfl h

/-- The digits of a padded number spell it. -/
theorem ofDigitChars_padded (width n : ℕ) : Nat.ofDigitChars 10 (padded width n).toList 0 = n := by
  rw [toList_padded, Nat.ofDigitChars_append, Nat.ofDigitChars_replicate_zero, Nat.mul_zero,
    Nat.ofDigitChars_ten_toDigits]

/-- A number that fits is padded to the width. -/
theorem length_padded {width n : ℕ} (hw : 0 < width) (h : n < 10 ^ width) :
    (padded width n).toList.length = width := by
  have hlen := (Nat.length_toDigits_le_iff (by decide) hw).2 h
  rw [toList_padded, List.length_append, List.length_replicate]
  omega

theorem padded_injective {width n n' : ℕ} (h : padded width n = padded width n') : n = n' := by
  rw [← ofDigitChars_padded width n, h, ofDigitChars_padded]

/-- A padded number reads back. -/
theorem readDigits_padded {width n : ℕ} (hw : 0 < width) (h : n < 10 ^ width) (cs : List Char) :
    readDigits width ((padded width n).toList ++ cs) = some (n, cs) := by
  have hlen := length_padded hw h
  have htake : ((padded width n).toList ++ cs).take width = (padded width n).toList :=
    List.take_left' hlen
  rw [readDigits, htake, List.drop_left' hlen, ofDigitChars_padded,
    if_pos ⟨hlen, List.all_eq_true.2 fun c hc => isDigit_of_mem_padded hc⟩]

/-! ## The stored text -/

/-- `_iso`: the whole milliseconds of an instant, `%Y-%m-%dT%H:%M:%S.%fZ`, the year in four digits as
the language documents `%Y`.  A C library whose `strftime` does not fill with zeros writes the
years below 1000 otherwise. -/
def isoText (ms : ℤ) : String :=
  let seconds := ms / 1000
  let (y, m, d) := civilDate (seconds / 86400)
  let s := seconds % 86400
  padded 4 y.toNat ++ "-" ++ padded 2 m.toNat ++ "-" ++ padded 2 d.toNat ++ "T" ++
    padded 2 (s / 3600).toNat ++ ":" ++ padded 2 (s / 60 % 60).toNat ++ ":" ++
    padded 2 (s % 60).toNat ++ "." ++ padded 3 (ms % 1000).toNat ++ "Z"

/-- A `Z` as an offset. -/
def offsetChars (c : Char) : List Char := if c = 'Z' then "+00:00".toList else [c]

/-- `text.replace("Z", "+00:00")`. -/
def offsetSuffix (text : String) : String := String.ofList (text.toList.flatMap offsetChars)

/-- `YYYY-MM-DD`, a date of the years 1 to 9999. -/
def readDate (cs : List Char) : Option (ℤ × List Char) := do
  let (y, cs) ← readDigits 4 cs
  let cs ← expect '-' cs
  let (m, cs) ← readDigits 2 cs
  let cs ← expect '-' cs
  let (d, cs) ← readDigits 2 cs
  let days := daysOfCivil y m d
  if 1 ≤ y ∧ civilDate days = ((y : ℤ), (m : ℤ), (d : ℤ)) then some (days, cs) else none

/-- `[.fff[fff]]`, in microseconds. -/
def readFraction (cs : List Char) : Option (ℤ × List Char) :=
  match expect '.' cs with
  | none => some (0, cs)
  | some cs => match readDigits 6 cs with
    | some (us, cs) => some (us, cs)
    | none => (readDigits 3 cs).map fun r => (r.1 * 1000, r.2)

/-- A part of a time of day below a bound, after a colon. -/
def readPart (bound : ℕ) (cs : List Char) : Option (ℤ × List Char) :=
  (readDigits 2 cs).bind fun r => if r.1 < bound then some (r.1, r.2) else none

/-- `HH[:MM[:SS[.fff[fff]]]]`, in microseconds. -/
def readTime (cs : List Char) : Option (ℤ × List Char) := do
  let (h, cs) ← readPart 24 cs
  match expect ':' cs with
  | none => some (h * 3600 * 1000000, cs)
  | some cs => do
      let (m, cs) ← readPart 60 cs
      match expect ':' cs with
      | none => some ((h * 60 + m) * 60 * 1000000, cs)
      | some cs => do
          let (s, cs) ← readPart 60 cs
          let (us, cs) ← readFraction cs
          some (((h * 60 + m) * 60 + s) * 1000000 + us, cs)

/-- `HH:MM[:SS]`, in seconds. -/
def readOffset (cs : List Char) : Option ℤ := do
  let (h, cs) ← readPart 24 cs
  let cs ← expect ':' cs
  let (m, cs) ← readPart 60 cs
  if cs.isEmpty then some ((h * 60 + m) * 60)
  else do
    let cs ← expect ':' cs
    let (s, cs) ← readPart 60 cs
    if cs.isEmpty then some ((h * 60 + m) * 60 + s) else none

/-- The offset from UTC at the end of a timestamp, if there is one. -/
def readZone : List Char → Option (Option ℤ)
  | [] => some none
  | c :: cs =>
      if c = '+' then (readOffset cs).map some
      else if c = '-' then (readOffset cs).map fun o => some (-o)
      else none

/-- `datetime.fromisoformat`. -/
def fromIsoFormat (text : String) : Option DateTime := do
  let (days, cs) ← readDate text.toList
  if cs.isEmpty then some ⟨days * 86400000000, none⟩
  else do
    let (us, cs) ← readTime cs.tail
    let zone ← readZone cs
    some ⟨days * 86400000000 + us - zone.getD 0 * 1000000, zone⟩

/-! ## What was stored reads back -/

/-- The year a timestamp's text can hold. -/
def InYears (ms : ℤ) : Prop :=
  1 ≤ (civilDate (ms / 1000 / 86400)).1 ∧ (civilDate (ms / 1000 / 86400)).1 ≤ 9999

/-- The characters of a stored timestamp, its zone as an offset. -/
theorem toList_offsetSuffix_isoText {ms y m d : ℤ} (h : civilDate (ms / 1000 / 86400) = (y, m, d)) :
    (offsetSuffix (isoText ms)).toList =
      (padded 4 y.toNat).toList ++ '-' :: ((padded 2 m.toNat).toList ++ '-' ::
        ((padded 2 d.toNat).toList ++ 'T' :: ((padded 2 (ms / 1000 % 86400 / 3600).toNat).toList ++ ':' ::
          ((padded 2 (ms / 1000 % 86400 / 60 % 60).toNat).toList ++ ':' ::
            ((padded 2 (ms / 1000 % 86400 % 60).toNat).toList ++ '.' ::
              ((padded 3 (ms % 1000).toNat).toList ++ "+00:00".toList)))))) := by
  have hdigits : ∀ width n, (padded width n).toList.flatMap offsetChars =
      (padded width n).toList := by
    intro width n
    have hne : ∀ c ∈ (padded width n).toList, offsetChars c = [c] := by
      intro c hc
      have hd := isDigit_of_mem_padded hc
      exact if_neg (by rintro rfl; revert hd; decide)
    rw [List.flatMap_congr hne, List.flatMap_singleton']
  have hdash : "-".toList.flatMap offsetChars = ['-'] := rfl
  have ht : "T".toList.flatMap offsetChars = ['T'] := rfl
  have hcolon : ":".toList.flatMap offsetChars = [':'] := rfl
  have hdot : ".".toList.flatMap offsetChars = ['.'] := rfl
  have hz : "Z".toList.flatMap offsetChars = "+00:00".toList := rfl
  simp only [offsetSuffix, isoText, h, String.toList_ofList, String.toList_append,
    List.flatMap_append, hdigits, hdash, ht, hcolon, hdot, hz, List.append_assoc,
    List.singleton_append]

/-- The fraction of a stored timestamp is its milliseconds. -/
theorem readFraction_isoText {n : ℕ} (h : n < 1000) :
    readFraction ('.' :: ((padded 3 n).toList ++ "+00:00".toList)) =
      some ((n : ℤ) * 1000, "+00:00".toList) := by
  have hlen : (padded 3 n).toList.length = 3 := length_padded (by decide) h
  have hsix : readDigits 6 ((padded 3 n).toList ++ "+00:00".toList) = none := by
    have htake : ((padded 3 n).toList ++ "+00:00".toList).take 6 =
        (padded 3 n).toList ++ ['+', '0', '0'] := by
      rw [List.take_append, hlen, List.take_of_length_le (by omega)]
      rfl
    rw [readDigits, htake, if_neg (by simp)]
  simp only [readFraction, expect_self, hsix, readDigits_padded (show 0 < 3 by decide) h, Option.map_some]

theorem readPart_padded {bound n : ℕ} (hb : bound ≤ 100) (h : n < bound) (cs : List Char) :
    readPart bound ((padded 2 n).toList ++ cs) = some ((n : ℤ), cs) := by
  rw [readPart, readDigits_padded (by decide) (by omega), Option.bind_some, if_pos h]

/-- The date of a stored timestamp. -/
theorem readDate_isoText {days y m d : ℤ} (hdate : civilDate days = (y, m, d)) (hy : 1 ≤ y)
    (hy' : y ≤ 9999) (cs : List Char) :
    readDate ((padded 4 y.toNat).toList ++ '-' :: ((padded 2 m.toNat).toList ++
      '-' :: ((padded 2 d.toNat).toList ++ cs))) = some (days, cs) := by
  obtain ⟨y₁, m₁, d₁, hdate₁, hm, hm', hd, hd', hdays⟩ := civilDate_spec days
  obtain ⟨rfl, rfl, rfl⟩ : y₁ = y ∧ m₁ = m ∧ d₁ = d := by simpa [hdate₁] using hdate
  have hyn : ((y₁.toNat : ℕ) : ℤ) = y₁ := by omega
  have hmn : ((m₁.toNat : ℕ) : ℤ) = m₁ := by omega
  have hdn : ((d₁.toNat : ℕ) : ℤ) = d₁ := by omega
  simp only [readDate, readDigits_padded (show 0 < 4 by decide) (show y₁.toNat < 10 ^ 4 by omega),
    readDigits_padded (show 0 < 2 by decide) (show m₁.toNat < 10 ^ 2 by omega),
    readDigits_padded (show 0 < 2 by decide) (show d₁.toNat < 10 ^ 2 by omega), expect_self,
    Option.bind_some, Option.bind_eq_bind, hyn, hmn, hdn, hdays, hdate]
  rw [if_pos ⟨by omega, trivial⟩]

/-- The time of day of a stored timestamp. -/
theorem readTime_isoText (ms : ℤ) :
    readTime ((padded 2 (ms / 1000 % 86400 / 3600).toNat).toList ++ ':' ::
      ((padded 2 (ms / 1000 % 86400 / 60 % 60).toNat).toList ++ ':' ::
        ((padded 2 (ms / 1000 % 86400 % 60).toNat).toList ++ '.' ::
          ((padded 3 (ms % 1000).toNat).toList ++ "+00:00".toList)))) =
      some (ms % 86400000 * 1000, "+00:00".toList) := by
  simp only [readTime, readPart_padded (show 24 ≤ 100 by decide)
      (show (ms / 1000 % 86400 / 3600).toNat < 24 by omega),
    readPart_padded (show 60 ≤ 100 by decide) (show (ms / 1000 % 86400 / 60 % 60).toNat < 60 by omega),
    readPart_padded (show 60 ≤ 100 by decide) (show (ms / 1000 % 86400 % 60).toNat < 60 by omega),
    readFraction_isoText (show (ms % 1000).toNat < 1000 by omega), expect_self,
    Option.bind_some, Option.bind_eq_bind]
  rw [Option.some.injEq, Prod.mk.injEq]
  exact ⟨by omega, rfl⟩

/-- **A stored timestamp reads back as its own milliseconds.** -/
theorem fromIsoFormat_isoText {ms : ℤ} (h : InYears ms) :
    fromIsoFormat (offsetSuffix (isoText ms)) = some (DateTime.ofIsoMs ms) := by
  obtain ⟨y, m, d, hdate, -⟩ := civilDate_spec (ms / 1000 / 86400)
  rw [InYears, hdate] at h
  rw [fromIsoFormat, toList_offsetSuffix_isoText hdate, readDate_isoText hdate h.1 h.2,
    Option.bind_eq_bind, Option.bind_some]
  simp only [List.isEmpty_cons, Bool.false_eq_true, if_false, List.tail_cons, readTime_isoText,
    Option.bind_eq_bind, Option.bind_some]
  rw [show readZone "+00:00".toList = some (some 0) by decide, Option.bind_some, Option.some.injEq,
    DateTime.ofIsoMs, DateTime.mk.injEq]
  exact ⟨by rw [Option.getD_some]; omega, rfl⟩

/-! ## What a `datetime` dumps to -/

/-- The date and the time of day in whole seconds, as `model_dump` writes them. -/
def secondText (seconds : ℤ) : String :=
  let (y, m, d) := civilDate (seconds / 86400)
  let s := seconds % 86400
  padded 4 y.toNat ++ "-" ++ padded 2 m.toNat ++ "-" ++ padded 2 d.toNat ++ "T" ++
    padded 2 (s / 3600).toNat ++ ":" ++ padded 2 (s / 60 % 60).toNat ++ ":" ++
    padded 2 (s % 60).toNat

/-- The microseconds, when there are any. -/
def fractionText (us : ℤ) : String := if us = 0 then "" else "." ++ padded 6 us.toNat

/-- The offset from UTC. -/
def zoneText : Option ℤ → String
  | none => ""
  | some 0 => "Z"
  | some o => (if o < 0 then "-" else "+") ++ padded 2 (o.natAbs / 3600) ++ ":" ++
      padded 2 (o.natAbs / 60 % 60)

theorem dump_eq (t : DateTime) : t.dump =
    secondText ((t.utcUs + t.utcOffset.getD 0 * 1000000) / 1000000) ++
      fractionText ((t.utcUs + t.utcOffset.getD 0 * 1000000) % 1000000) ++ zoneText t.utcOffset := by
  obtain ⟨y, m, d, h, -⟩ := civilDate_spec
    ((t.utcUs + t.utcOffset.getD 0 * 1000000) / 1000000 / 86400)
  simp only [DateTime.dump, secondText, h]
  rfl

theorem not_mem_padded {c : Char} (h : c.isDigit = false) (width n : ℕ) :
    c ∉ (padded width n).toList := by
  intro hc
  rw [isDigit_of_mem_padded hc] at h
  cases h

/-- **Only UTC is written with a `Z`.** -/
theorem mem_dump_iff (t : DateTime) : 'Z' ∈ t.dump.toList ↔ t.utcOffset = some 0 := by
  have hp : ∀ width n, 'Z' ∉ (padded width n).toList := not_mem_padded (by decide)
  have hsecond : ∀ seconds, 'Z' ∉ (secondText seconds).toList := by
    intro seconds
    obtain ⟨y, m, d, h, -⟩ := civilDate_spec (seconds / 86400)
    simp [secondText, h, hp]
  have hfraction : ∀ us, 'Z' ∉ (fractionText us).toList := by
    intro us
    unfold fractionText
    split_ifs <;> simp [hp]
  rw [dump_eq, String.toList_append, String.toList_append, List.mem_append, List.mem_append]
  simp only [hsecond, hfraction, false_or]
  rcases t.utcOffset with _ | o
  · simp [zoneText]
  · by_cases ho : o = 0
    · subst ho
      simp [zoneText]
    · have hz : 'Z' ∉ (zoneText (some o)).toList := by
        rw [zoneText]
        · split_ifs <;> simp [hp]
        · exact fun h => ho h
      simp [hz, ho]

theorem fractionText_injective {us us' : ℤ} (h₀ : 0 ≤ us) (h₀' : 0 ≤ us')
    (h : fractionText us = fractionText us') : us = us' := by
  unfold fractionText at h
  have hne : ∀ n : ℕ, "" ≠ "." ++ padded 6 n := by
    intro n he
    have htext := congrArg String.toList he
    rw [String.toList_append] at htext
    cases htext
  split_ifs at h with hz hz' hz'
  · rw [hz, hz']
  · exact absurd h (hne _)
  · exact absurd h.symm (hne _)
  · have htext := congrArg String.toList h
    rw [String.toList_append, String.toList_append] at htext
    have hn := padded_injective (String.toList_injective (List.append_cancel_left htext))
    omega

/-- **A `datetime` survives storage exactly when it is a whole millisecond in UTC.** -/
theorem dump_ofIsoMs_eq_iff (t : DateTime) : (DateTime.ofIsoMs t.isoMs).dump = t.dump ↔
    t.utcOffset = some 0 ∧ t.utcUs % 1000 = 0 := by
  constructor
  · intro h
    have hz : t.utcOffset = some 0 := (mem_dump_iff t).1 (h ▸ (mem_dump_iff _).2 rfl)
    refine ⟨hz, ?_⟩
    rw [dump_eq, dump_eq t, hz] at h
    simp only [DateTime.ofIsoMs, DateTime.isoMs, Option.getD_some, zero_mul, add_zero] at h
    have hsec : t.utcUs / 1000 * 1000 / 1000000 = t.utcUs / 1000000 := by omega
    have htext := congrArg String.toList h
    rw [hsec] at htext
    simp only [String.toList_append, List.append_assoc] at htext
    have hfrac := String.toList_injective
      (List.append_cancel_right (List.append_cancel_left htext))
    have hus := fractionText_injective (by omega) (by omega) hfrac
    omega
  · rintro ⟨hz, hus⟩
    have ht : DateTime.ofIsoMs t.isoMs = t := by
      rcases t with ⟨us, zone⟩
      simp only [DateTime.ofIsoMs, DateTime.isoMs, DateTime.mk.injEq] at hz hus ⊢
      exact ⟨by omega, hz.symm⟩
    rw [ht]

end PulseGraph
