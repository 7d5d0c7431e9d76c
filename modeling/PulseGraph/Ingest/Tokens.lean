/-
# The configured sources

`parse_tokens` of `src/ingest/auth.py`: `INGEST_TOKENS` is a list of `name:token[:scope]` entries
separated by commas, and an entry without a name or a token is dropped.

**Proved here.**  An entry is read for itself, whatever stands beside it; a list of credentials can be
configured exactly when no part of one is blank, has blanks at its ends, or holds a separator; and
callers can be identified exactly when some source is configured and every token is ASCII, so that one
token with an accent locks every source out (`tokens_configured`).
-/

import PulseGraph.Ingest.Auth
import PulseGraph.GitHub.AnalysisStore

namespace PulseGraph

open Library (trim trim_trim trim_eq_self head?_trim getLast?_trim)
open GitHub (TextLaws isWhitespace)

variable {K : Type}

section Parse

variable (rt : Runtime K)

/-- One entry of `parse_tokens`. -/
def parseEntry (entry : List Char) : Option IngestCredential :=
  let entry := (rt.strip (String.ofList entry)).toList
  if entry = [] then none
  else match (entry.splitOn ':').map fun part => rt.strip (String.ofList part) with
    | name :: token :: rest =>
        if name = "" ∨ token = "" then none
        else some { name, token, scope := (rest.head?.filter (· ≠ "")).getD "*" }
    | _ => none

/-- `parse_tokens`. -/
def parseTokens (raw : String) : List IngestCredential := (raw.toList.splitOn ',').filterMap (parseEntry rt)

end Parse

/-- A credential as an entry. -/
def IngestCredential.entry (c : IngestCredential) : List Char :=
  c.name.toList ++ ':' :: (c.token.toList ++ ':' :: c.scope.toList)

/-- Credentials as a setting. -/
def renderTokens (cs : List IngestCredential) : String :=
  String.ofList ([','].intercalate (cs.map IngestCredential.entry))

/-- A part of an entry: it is not blank, has no blanks at its ends, and holds no separator. -/
structure Part (s : String) : Prop where
  nonempty : s ≠ ""
  trimmed : trim isWhitespace s.toList = s.toList
  noColon : ':' ∉ s.toList
  noComma : ',' ∉ s.toList

/-- A credential that can be configured. -/
structure Configurable (c : IngestCredential) : Prop where
  name : Part c.name
  token : Part c.token
  scope : Part c.scope

/-! ## Splitting -/

/-- A part has no separator, and only characters of the whole. -/
theorem mem_splitOn_facts {α : Type} [DecidableEq α] {a : α} {l part : List α} (h : part ∈ l.splitOn a) :
    a ∉ part ∧ ∀ c ∈ part, c ∈ l := by
  induction l generalizing part with
  | nil =>
      rw [List.splitOn_nil, List.mem_singleton] at h
      rw [h]
      exact ⟨List.not_mem_nil, fun _ => id⟩
  | cons b l ih =>
      rw [List.splitOn_cons_eq_if_modifyHead] at h
      split_ifs at h with hb
      · rcases List.mem_cons.1 h with rfl | h
        · exact ⟨List.not_mem_nil, fun c hc => absurd hc List.not_mem_nil⟩
        · exact ⟨(ih h).1, fun c hc => List.mem_cons_of_mem b ((ih h).2 c hc)⟩
      · obtain ⟨first, rest, hsplit⟩ := List.exists_cons_of_ne_nil (List.splitOn_ne_nil a l)
        rw [hsplit] at h ih
        rcases List.mem_cons.1 h with rfl | h
        · refine ⟨fun ha => ?_, fun c hc => ?_⟩
          · rcases List.mem_cons.1 ha with rfl | ha
            · exact hb (beq_self_eq_true a)
            · exact (ih List.mem_cons_self).1 ha
          · exact (List.mem_cons.1 hc).elim (fun heq => heq ▸ List.mem_cons_self) fun hc =>
              List.mem_cons_of_mem b ((ih List.mem_cons_self).2 c hc)
        · have hpart := ih (List.mem_cons_of_mem _ h)
          exact ⟨hpart.1, fun c hc => List.mem_cons_of_mem b (hpart.2 c hc)⟩

/-! ## What is read -/

section Laws

variable {rt : Runtime K} (laws : TextLaws rt)
include laws

theorem Part.strip {s : String} (h : Part s) : rt.strip s = s := by
  rw [laws.strip, h.trimmed, String.ofList_toList]

/-- Stripping takes characters away. -/
theorem mem_of_mem_strip {chars : List Char} {c : Char} (hc : c ∈ (rt.strip (String.ofList chars)).toList) :
    c ∈ chars := by
  rw [laws.strip, String.toList_ofList, String.toList_ofList] at hc
  exact (List.dropWhile_sublist _).subset ((List.rdropWhile_prefix _ _).subset hc)

/-- What is stripped off a part of an entry is one, where anything is left. -/
theorem part_strip {part : List Char} (hcolon : ':' ∉ part) (hcomma : ',' ∉ part)
    (hne : rt.strip (String.ofList part) ≠ "") : Part (rt.strip (String.ofList part)) := by
  refine ⟨hne, ?_, fun h => hcolon (mem_of_mem_strip laws h), fun h => hcomma (mem_of_mem_strip laws h)⟩
  rw [laws.strip, String.toList_ofList, trim_trim]

/-- **What is read can be configured.** -/
theorem configurable_of_parseEntry {entry : List Char} {c : IngestCredential} (hcomma : ',' ∉ entry)
    (h : parseEntry rt entry = some c) : Configurable c := by
  unfold parseEntry at h
  dsimp only at h
  split_ifs at h with hblank
  split at h
  swap
  · cases h
  next name token rest hparts =>
    have hpart : ∀ s ∈ name :: token :: rest, s ≠ "" → Part s := by
      intro s hs hne
      rw [← hparts] at hs
      obtain ⟨part, hmem, rfl⟩ := List.mem_map.1 hs
      obtain ⟨hcolon, hsub⟩ := mem_splitOn_facts hmem
      exact part_strip laws hcolon (fun hc => hcomma (mem_of_mem_strip laws (hsub _ hc))) hne
    split_ifs at h with hempty
    obtain ⟨hname, htoken⟩ := not_or.1 hempty
    obtain rfl := Option.some.inj h
    refine ⟨hpart _ List.mem_cons_self hname, hpart _ (List.mem_cons_of_mem _ List.mem_cons_self) htoken, ?_⟩
    have hstar : Part "*" := ⟨by decide, by decide, by decide, by decide⟩
    cases hscope : rest.head?.filter (· ≠ "") with
    | none => exact hstar
    | some scope =>
        obtain ⟨hhead, hne⟩ := Option.filter_eq_some_iff.1 hscope
        exact hpart scope (List.mem_cons_of_mem _ (List.mem_cons_of_mem _ (List.mem_of_mem_head? hhead)))
          (of_decide_eq_true hne)

omit laws in
theorem Part.ne_nil {s : String} (h : Part s) : s.toList ≠ [] := fun hnil =>
  h.nonempty (String.toList_eq_nil_iff.1 hnil)

omit laws in
/-- An entry has no blanks at its ends. -/
theorem trim_entry {c : IngestCredential} (hc : Configurable c) : trim isWhitespace c.entry = c.entry := by
  refine trim_eq_self (fun a ha => ?_) fun a ha => ?_
  · rw [IngestCredential.entry, List.head?_append_of_ne_nil _ hc.name.ne_nil, ← hc.name.trimmed] at ha
    exact head?_trim ha
  · have hlast : c.entry.getLast? = c.scope.toList.getLast? := by
      rw [IngestCredential.entry, List.getLast?_append_of_ne_nil _ (List.cons_ne_nil _ _), List.getLast?_cons_of_ne_nil,
        List.getLast?_append_of_ne_nil _ (List.cons_ne_nil _ _), List.getLast?_cons_of_ne_nil hc.scope.ne_nil]
      simp
    rw [hlast, ← hc.scope.trimmed] at ha
    exact getLast?_trim ha

/-- **An entry is read back.** -/
theorem parseEntry_entry {c : IngestCredential} (hc : Configurable c) : parseEntry rt c.entry = some c := by
  have hstrip : (rt.strip (String.ofList c.entry)).toList = c.entry := by
    rw [laws.strip, String.toList_ofList, String.toList_ofList, trim_entry hc]
  have hsplit : c.entry.splitOn ':' = [c.name.toList, c.token.toList, c.scope.toList] := by
    rw [IngestCredential.entry, List.splitOn_append_cons_self_of_not_mem hc.name.noColon,
      List.splitOn_append_cons_self_of_not_mem hc.token.noColon, List.splitOn_eq_singleton hc.scope.noColon]
  have hne : c.entry ≠ [] := by simp [IngestCredential.entry]
  unfold parseEntry
  dsimp only
  rw [hstrip, if_neg hne, hsplit]
  simp only [List.map_cons, List.map_nil, String.ofList_toList, hc.name.strip laws, hc.token.strip laws,
    hc.scope.strip laws, hc.name.nonempty, hc.token.nonempty, or_self, if_false, List.head?_cons]
  rw [Option.filter_some_pos (by simpa using hc.scope.nonempty), Option.getD_some]

omit laws in
theorem comma_not_mem_entry {c : IngestCredential} (hc : Configurable c) : ',' ∉ c.entry := by
  simp [IngestCredential.entry, hc.name.noComma, hc.token.noComma, hc.scope.noComma]

/-- **Credentials are read back.** -/
theorem parseTokens_renderTokens {cs : List IngestCredential} (hcs : ∀ c ∈ cs, Configurable c) :
    parseTokens rt (renderTokens cs) = cs := by
  unfold parseTokens renderTokens
  rw [String.toList_ofList]
  cases cs with
  | nil =>
      have hblank : parseEntry rt [] = none := by
        unfold parseEntry
        rw [laws.strip]
        rfl
      rw [List.map_nil, List.intercalate_nil, List.splitOn_nil, List.filterMap_cons, hblank]
      rfl
  | cons c cs =>
      rw [List.splitOn_intercalate ',' (by simpa using fun c hc => comma_not_mem_entry (hcs c hc)) (by simp),
        List.filterMap_map]
      have hread : ∀ c' ∈ c :: cs, (parseEntry rt ∘ IngestCredential.entry) c' = some c' := fun c' hc =>
        parseEntry_entry laws (hcs c' hc)
      rw [List.filterMap_congr hread, List.filterMap_some]

/-- What is read of a setting can be configured. -/
theorem configurable_of_mem_parseTokens {raw : String} {c : IngestCredential} (hc : c ∈ parseTokens rt raw) :
    Configurable c := by
  obtain ⟨entry, hentry, hparse⟩ := List.mem_filterMap.1 hc
  exact configurable_of_parseEntry laws (mem_splitOn_facts hentry).1 hparse

omit laws in
/-- **Entries stand side by side**: what one is read as does not depend on the others. -/
theorem parseTokens_append (raw raw' : String) :
    parseTokens rt (raw ++ "," ++ raw') = parseTokens rt raw ++ parseTokens rt raw' := by
  have hchars : (raw ++ "," ++ raw').toList = raw.toList ++ ',' :: raw'.toList := by
    rw [String.toList_append, String.toList_append, List.append_assoc]
    rfl
  rw [parseTokens, hchars, List.splitOn_append_cons_self, List.filterMap_append, parseTokens, parseTokens]

/-! ## Who is let in -/

/-- The token of a configured source is presented as it is. -/
theorem presentedToken_header {c : IngestCredential} (hc : Configurable c) :
    presentedToken rt none (some c.token) = c.token := by
  unfold presentedToken
  rw [if_neg (by simp), Option.getD_some, hc.token.strip laws]

/-- **A source is let in with its token**, as the last of the sources that share it. -/
theorem authenticate_configured {cs : List IngestCredential} (hcs : ∀ c ∈ cs, Configurable c)
    (hascii : ∀ c ∈ cs, isAscii c.token = true) {c : IngestCredential} (hc : c ∈ cs) :
    ∃ c', authenticate rt cs none (some c.token) = .ok c' ∧ c'.token = c.token ∧
      (cs.filter fun d => d.token = c.token).getLast? = some c' := by
  have hmem : c ∈ cs.filter fun d => d.token = c.token := List.mem_filter.2 ⟨hc, decide_eq_true rfl⟩
  have hlast : (cs.filter fun d => d.token = c.token).getLast? =
      some ((cs.filter fun d => d.token = c.token).getLast (List.ne_nil_of_mem hmem)) :=
    List.getLast?_eq_some_getLast _
  refine ⟨_, ?_, of_decide_eq_true (List.mem_filter.1 (List.getLast_mem (List.ne_nil_of_mem hmem))).2, hlast⟩
  have hall : (isAscii c.token && cs.all fun d => isAscii d.token) = true := by
    rw [Bool.and_eq_true, List.all_eq_true]
    exact ⟨hascii c hc, hascii⟩
  unfold authenticate
  dsimp only
  rw [presentedToken_header laws (hcs c hc), if_neg (List.ne_nil_of_mem hc), if_neg (hcs c hc).token.nonempty, hall,
    hlast]
  rfl

/-- **The configured sources.**  What `INGEST_TOKENS` is read as are credentials that can be configured,
any list of these can be, and an entry beside others changes nothing for them.  Some caller can be
identified exactly when there is a source and every token is ASCII; then every source is let in with its
own token. -/
theorem tokens_configured :
    (∀ cs, (∃ raw, parseTokens rt raw = cs) ↔ ∀ c ∈ cs, Configurable c) ∧
    (∀ raw raw', parseTokens rt (raw ++ "," ++ raw') = parseTokens rt raw ++ parseTokens rt raw') ∧
    ∀ raw, ((∃ authorization headerToken c, authenticate rt (parseTokens rt raw) authorization headerToken = .ok c) ↔
        parseTokens rt raw ≠ [] ∧ ∀ c ∈ parseTokens rt raw, isAscii c.token = true) ∧
      ((∀ c ∈ parseTokens rt raw, isAscii c.token = true) → ∀ c ∈ parseTokens rt raw, ∃ c',
        authenticate rt (parseTokens rt raw) none (some c.token) = .ok c' ∧ c'.token = c.token ∧
          ((parseTokens rt raw).filter fun d => d.token = c.token).getLast? = some c') := by
  refine ⟨fun cs => ⟨?_, fun hcs => ⟨renderTokens cs, parseTokens_renderTokens laws hcs⟩⟩, parseTokens_append,
    fun raw => ⟨⟨?_, ?_⟩, fun hascii c hc =>
      authenticate_configured laws (fun _ => configurable_of_mem_parseTokens laws) hascii hc⟩⟩
  · rintro ⟨raw, rfl⟩ c hc
    exact configurable_of_mem_parseTokens laws hc
  · rintro ⟨authorization, headerToken, c, h⟩
    unfold authenticate at h
    dsimp only at h
    split_ifs at h with hempty hmissing hascii
    rw [Bool.not_eq_true', Bool.not_eq_false, Bool.and_eq_true, List.all_eq_true] at hascii
    exact ⟨hempty, hascii.2⟩
  · rintro ⟨hne, hascii⟩
    obtain ⟨c, rest, hcs⟩ := List.exists_cons_of_ne_nil hne
    have hc : c ∈ parseTokens rt raw := hcs ▸ List.mem_cons_self
    obtain ⟨c', hok, -⟩ :=
      authenticate_configured laws (fun _ => configurable_of_mem_parseTokens laws) hascii hc
    exact ⟨none, some c.token, c', hok⟩

end Laws

/-- One entry that is no credential is left out, and one token with an accent locks every source out. -/
theorem tokens_configured_accent :
    parseTokens GitHub.strippingRuntime " prod: token-1 ,nonsense,staging:jetón:staging/*" =
      [⟨"prod", "token-1", "*"⟩, ⟨"staging", "jetón", "staging/*"⟩] ∧
    ¬ ∃ authorization headerToken c, authenticate GitHub.strippingRuntime
      (parseTokens GitHub.strippingRuntime " prod: token-1 ,nonsense,staging:jetón:staging/*")
      authorization headerToken = .ok c := by
  have hread : parseTokens GitHub.strippingRuntime " prod: token-1 ,nonsense,staging:jetón:staging/*" =
      [⟨"prod", "token-1", "*"⟩, ⟨"staging", "jetón", "staging/*"⟩] := by decide +kernel
  refine ⟨hread, fun h => ?_⟩
  obtain ⟨-, hascii⟩ := ((tokens_configured GitHub.textLaws_strippingRuntime).2.2 _).1.1 h
  rw [hread] at hascii
  exact absurd (hascii ⟨"staging", "jetón", "staging/*"⟩ (by decide)) (by decide +kernel)

end PulseGraph
