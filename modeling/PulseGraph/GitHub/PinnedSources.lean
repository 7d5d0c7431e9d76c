/-
# What a source context holds

The files of an inventory are read in an order of their own, so that the order of the rows does not
matter; what a server answers is kept only if it is what the inventory says; and the digest of a
context names its files.

**Proved here.**  `sourceContext_laws`: a context is within the bounds of its policy, each of its
excerpts is the text of a blob of the inventory (`Authentic`), no order of the inventory gives
another, and two contexts of one digest have the same files.
-/

import PulseGraph.GitHub.SourceContext
import PulseGraph.Library.Framing

namespace PulseGraph
namespace GitHub

open Library (raiseIf raiseIf_eq_ok bind_eq_ok bind_eq_error foldlM_induct foldlM_steps AtEnd DelimitedOn
  append_inj_of_stop)

/-- An inventory as `create_snapshot` stores it: one row for a path, each blob sha without blanks around it. -/
structure Inventory {K : Type} (rt : Runtime K) where
  rows : List InventoryRow
  unique : (rows.map (·.path)).Nodup
  stripped : ∀ row ∈ rows, rt.strip row.blobSha = row.blobSha

/-- An excerpt is the text of a blob that the inventory names and that a server has answered with. -/
structure Authentic {K : Type} (rt : Runtime K) (policy : SourceContextPolicy) (getBlob : BlobReader)
    (rows : List InventoryRow) (excerpt : PinnedExcerpt) : Prop where
  safe : isSafePath rt excerpt.path policy = true
  row : ∃ row ∈ rows, row.path = excerpt.path ∧ row.blobSha = excerpt.blobSha ∧
    (row.objectType = none ∨ row.objectType = some "blob") ∧
    ∀ size, row.sizeBytes = some size → (excerpt.byteCount : ℤ) = size
  answer : ∃ index blob, getBlob index excerpt.blobSha = .ok blob ∧ blob.sha = some excerpt.blobSha ∧
    blob.content = some excerpt.text.toUTF8
  size : excerpt.byteCount = excerpt.text.utf8ByteSize

/-- A context within the bounds of its policy. -/
structure Bounded (policy : SourceContextPolicy) (context : SourceContext) : Prop where
  files : context.excerpts.length ≤ policy.maxFiles
  each : ∀ excerpt ∈ context.excerpts, excerpt.text.utf8ByteSize ≤ policy.maxFileBytes
  total : (context.excerpts.map fun excerpt => excerpt.text.utf8ByteSize).sum = context.totalBytes
  budget : context.totalBytes ≤ policy.maxTotalBytes

section Rows

variable {K : Type} {rt : Runtime K} {policy : SourceContextPolicy} {row : InventoryRow}
  {rows rows' : List InventoryRow} {references : List SourceFileReference} {reference : SourceFileReference}

/-- A reference that stands for a row. -/
structure Refers (rt : Runtime K) (policy : SourceContextPolicy) (row : InventoryRow)
    (reference : SourceFileReference) : Prop where
  safe : isSafePath rt row.path policy = true
  path : reference.path = row.path
  sha : reference.blobSha = rt.strip row.blobSha
  kind : row.objectType = none ∨ row.objectType = some "blob"
  size : reference.sizeBytes = row.sizeBytes

/-- A row that may be read becomes a reference of its own. -/
theorem refers_of_referenceFromRow (h : referenceFromRow rt row policy = .ok (some reference)) :
    Refers rt policy row reference := by
  unfold referenceFromRow at h
  split_ifs at h with hkind hsafe hsize
  · cases h
  · cases h
  · cases h
  · obtain ⟨sha, hsha, h⟩ := bind_eq_ok.1 h
    obtain ⟨_, -, hsha⟩ := bind_eq_ok.1 hsha
    obtain rfl := Except.ok.inj hsha
    obtain rfl := Option.some.inj (Except.ok.inj h)
    refine ⟨by simpa using hsafe, rfl, rfl, ?_, rfl⟩
    rw [not_and_or, not_not, not_not] at hkind
    exact hkind

/-- Only a blank blob sha is an error. -/
theorem error_of_referenceFromRow {e : SourceContextError} (h : referenceFromRow rt row policy = .error e) :
    e = .context "blob_sha must be a non-empty string" := by
  unfold referenceFromRow at h
  split_ifs at h with hkind hsafe hsize
  · cases h
  · cases h
  · cases h
  · rcases bind_eq_error.1 h with h | ⟨_, -, h⟩
    · rcases bind_eq_error.1 h with h | ⟨_, -, h⟩
      · unfold raiseIf at h
        split_ifs at h
        exact (Except.error.inj h).symm
      · cases h
    · cases h

/-- The reference of a row whose blob sha is not blank. -/
def referenceOf (rt : Runtime K) (policy : SourceContextPolicy) (row : InventoryRow) : Option SourceFileReference :=
  (referenceFromRow rt row policy).toOption.join

theorem path_of_referenceOf (h : referenceOf rt policy row = some reference) : reference.path = row.path := by
  unfold referenceOf at h
  cases hrow : referenceFromRow rt row policy with
  | error e =>
      rw [hrow] at h
      cases h
  | ok found =>
      rw [hrow] at h
      obtain rfl : found = some reference := h
      exact (refers_of_referenceFromRow hrow).path

/-- **The references of rows of distinct paths** are those of the rows, one after the other. -/
theorem foldlM_addReference (hok : ∀ row ∈ rows, ∃ found, referenceFromRow rt row policy = .ok found)
    (hunique : (rows.map (·.path)).Nodup) (hnew : ∀ row ∈ rows, row.path ∉ references.map (·.path)) :
    rows.foldlM (addReference rt policy) references = .ok (references ++ rows.filterMap (referenceOf rt policy)) := by
  induction rows generalizing references with
  | nil => simp [pure, Except.pure]
  | cons row rows ih =>
      obtain ⟨hhere, hlater⟩ := List.nodup_cons.1 hunique
      obtain ⟨found, hfound⟩ := hok row List.mem_cons_self
      have hof : referenceOf rt policy row = found := by
        unfold referenceOf
        rw [hfound]
        rfl
      have hok' := fun row' (hrow' : row' ∈ rows) => hok row' (List.mem_cons_of_mem _ hrow')
      rw [List.foldlM_cons]
      cases found with
      | none =>
          rw [List.filterMap_cons_none hof]
          refine bind_eq_ok.2 ⟨references, ?_,
            ih hok' hlater fun row' hrow' => hnew row' (List.mem_cons_of_mem _ hrow')⟩
          exact bind_eq_ok.2 ⟨none, hfound, rfl⟩
      | some reference =>
          have hpath : reference.path = row.path := (refers_of_referenceFromRow hfound).path
          have habsent : reference.path ∉ references.map (·.path) := by
            rw [hpath]
            exact hnew row List.mem_cons_self
          rw [List.filterMap_cons_some hof, ← List.singleton_append, ← List.append_assoc]
          refine bind_eq_ok.2 ⟨references ++ [reference], bind_eq_ok.2 ⟨some reference, hfound, ?_⟩, ih hok' hlater ?_⟩
          · simp only [if_neg habsent]
            rfl
          · intro row' hrow' hmem
            rw [List.map_append, List.mem_append, List.map_singleton, List.mem_singleton, hpath] at hmem
            rcases hmem with hold | hsame
            · exact hnew row' (List.mem_cons_of_mem _ hrow') hold
            · -- the paths of the rows are distinct
              exact hhere (List.mem_map.2 ⟨row', hrow', hsame⟩)

/-- A row with a blank blob sha makes the loop fail, wherever it stands. -/
theorem foldlM_addReference_error (hbad : ∃ row ∈ rows, ∃ e, referenceFromRow rt row policy = .error e) :
    rows.foldlM (addReference rt policy) references = .error (.context "blob_sha must be a non-empty string") := by
  induction rows generalizing references with
  | nil =>
      obtain ⟨row, hrow, -⟩ := hbad
      exact absurd hrow List.not_mem_nil
  | cons row rows ih =>
      rw [List.foldlM_cons, bind_eq_error]
      cases hfound : referenceFromRow rt row policy with
      | error e =>
          rw [← error_of_referenceFromRow hfound]
          exact .inl (bind_eq_error.2 (.inl hfound))
      | ok found =>
          obtain ⟨bad, hmem, e, he⟩ := hbad
          have hrest : bad ∈ rows := (List.mem_cons.1 hmem).resolve_left (by rintro rfl; rw [hfound] at he; cases he)
          have hstep : ∃ next, addReference rt policy references row = .ok next := by
            cases found with
            | none => exact ⟨references, bind_eq_ok.2 ⟨none, hfound, rfl⟩⟩
            | some reference => exact ⟨_, bind_eq_ok.2 ⟨some reference, hfound, rfl⟩⟩
          obtain ⟨next, hnext⟩ := hstep
          exact .inr ⟨next, hnext, ih ⟨bad, hrest, e, he⟩⟩

/-- References of distinct paths have one order. -/
theorem sorted_references_perm {tokens : List String} {xs ys : List SourceFileReference} (h : xs.Perm ys)
    (hunique : (xs.map (·.path)).Nodup) :
    (xs.insertionSort fun a b => rank rt tokens policy a ≤ rank rt tokens policy b) =
      ys.insertionSort fun a b => rank rt tokens policy a ≤ rank rt tokens policy b := by
  have htrans : IsTrans SourceFileReference fun a b => rank rt tokens policy a ≤ rank rt tokens policy b :=
    ⟨fun _ _ _ => le_trans⟩
  have htotal : Std.Total fun a b : SourceFileReference => rank rt tokens policy a ≤ rank rt tokens policy b :=
    ⟨fun _ _ => le_total _ _⟩
  have hx := List.perm_insertionSort (fun a b => rank rt tokens policy a ≤ rank rt tokens policy b) xs
  have hy := List.perm_insertionSort (fun a b => rank rt tokens policy a ≤ rank rt tokens policy b) ys
  refine (hx.trans (h.trans hy.symm)).eq_of_pairwise ?_ (List.pairwise_insertionSort _ xs)
    (List.pairwise_insertionSort _ ys)
  -- two references of one rank have one path
  intro a b ha hb hab hba
  have hrank : rank rt tokens policy a = rank rt tokens policy b := le_antisymm hab hba
  have hpath : a.path = b.path := congrArg (fun r => (ofLex (ofLex r).2).2) hrank
  exact List.inj_on_of_nodup_map hunique (hx.subset ha) (h.symm.subset (hy.subset hb)) hpath

/-- **The selection** does not depend on the order of the inventory. -/
theorem selectSourceFiles_perm {signals : List String} (h : rows.Perm rows') (hunique : (rows.map (·.path)).Nodup) :
    selectSourceFiles rt rows signals policy = selectSourceFiles rt rows' signals policy := by
  have hunique' : (rows'.map (·.path)).Nodup := (h.map _).nodup_iff.1 hunique
  unfold selectSourceFiles
  by_cases hbad : ∃ row ∈ rows, ∃ e, referenceFromRow rt row policy = .error e
  · have hbad' : ∃ row ∈ rows', ∃ e, referenceFromRow rt row policy = .error e := by
      obtain ⟨row, hrow, he⟩ := hbad
      exact ⟨row, h.subset hrow, he⟩
    rw [foldlM_addReference_error hbad, foldlM_addReference_error hbad']
  · have hok : ∀ row ∈ rows, ∃ found, referenceFromRow rt row policy = .ok found := by
      intro row hrow
      cases hfound : referenceFromRow rt row policy with
      | ok found => exact ⟨found, rfl⟩
      | error e => exact absurd ⟨row, hrow, e, hfound⟩ hbad
    have hpaths : ((rows.filterMap (referenceOf rt policy)).map (·.path)).Nodup := by
      refine List.pairwise_map.2 (List.pairwise_filterMap.2 ((List.pairwise_map.1 hunique).imp ?_))
      intro a b hne x hx y hy
      rw [path_of_referenceOf hx, path_of_referenceOf hy]
      exact hne
    rw [foldlM_addReference hok hunique (by simp), foldlM_addReference (fun row hrow => hok row (h.symm.subset hrow))
      hunique' (by simp)]
    simp only [List.nil_append, bind, Except.bind]
    rw [sorted_references_perm (h.filterMap _) hpaths]

/-- What is selected stands for rows of the inventory, no more than the policy allows. -/
theorem refers_of_selectSourceFiles {signals : List String}
    (h : selectSourceFiles rt rows signals policy = .ok references) :
    references.length ≤ policy.maxFiles ∧ ∀ reference ∈ references, ∃ row ∈ rows, Refers rt policy row reference := by
  obtain ⟨found, hloop, h⟩ := bind_eq_ok.1 h
  obtain rfl := Except.ok.inj h
  refine ⟨List.length_take_le _ _, fun reference hreference => ?_⟩
  have hmem := (List.mem_insertionSort _).1 (List.mem_of_mem_take hreference)
  refine @foldlM_induct _ _ _ _ (fun references : List SourceFileReference => ∀ reference ∈ references,
    ∃ row ∈ rows, Refers rt policy row reference) _ _ _ hloop (fun _ h => absurd h List.not_mem_nil) ?_ reference hmem
  intro s row s' hrow ih hstep reference hreference
  obtain ⟨next, hnext, hstep⟩ := bind_eq_ok.1 hstep
  cases next with
  | none =>
      obtain rfl := Except.ok.inj hstep
      exact ih reference hreference
  | some new =>
      obtain rfl := Except.ok.inj hstep
      split_ifs at hreference with hseen
      · exact ih reference hreference
      · rcases List.mem_append.1 hreference with hold | hlast
        · exact ih reference hold
        · rw [List.mem_singleton.1 hlast]
          exact ⟨row, hrow, refers_of_referenceFromRow hnext⟩

end Rows

/-! ## Blobs -/

section Blobs

variable {K : Type} {rt : Runtime K} {policy : SourceContextPolicy} {getBlob : BlobReader}
  {s s' : ContextBuild} {reference : SourceFileReference} {content : ByteArray}

/-- A blob is skipped, or its text is kept. -/
theorem keepExcerpt_cases : keepExcerpt policy s reference content = s ∨
    ∃ text : String, text.toUTF8 = content ∧ content.size ≤ policy.maxFileBytes ∧
      s.totalBytes + content.size ≤ policy.maxTotalBytes ∧
      keepExcerpt policy s reference content =
        { excerpts := s.excerpts ++ [⟨⟨reference.path, reference.blobSha, text⟩, content.size⟩],
          totalBytes := s.totalBytes + content.size } := by
  unfold keepExcerpt
  split_ifs with hfile htotal hbinary
  · exact .inl rfl
  · exact .inl rfl
  · exact .inl rfl
  · cases htext : String.fromUTF8? content with
    | none => exact .inl rfl
    | some text =>
        unfold String.fromUTF8? at htext
        split_ifs at htext with hvalid
        obtain rfl := Option.some.inj htext
        exact .inr ⟨String.fromUTF8 content hvalid, rfl, not_lt.1 hfile, not_lt.1 htotal, rfl⟩

/-- What the server must have answered for an iteration to end. -/
theorem addExcerpt_eq_ok {index : ℕ} (h : addExcerpt policy getBlob s (reference, index) = .ok s') :
    ∃ blob content, getBlob index reference.blobSha = .ok blob ∧ blob.sha = some reference.blobSha ∧
      blob.content = some content ∧ (∀ known, reference.sizeBytes = some known → (content.size : ℤ) = known) ∧
      s' = keepExcerpt policy s reference content := by
  obtain ⟨blob, hblob, h⟩ := bind_eq_ok.1 h
  obtain ⟨_, hsha, h⟩ := bind_eq_ok.1 h
  obtain ⟨size, -, h⟩ := bind_eq_ok.1 h
  obtain ⟨content, hcontent, h⟩ := bind_eq_ok.1 h
  obtain ⟨_, hsize, h⟩ := bind_eq_ok.1 h
  obtain rfl := Except.ok.inj h
  unfold responseContent at hcontent
  split at hcontent
  · next found hfound =>
      split_ifs at hcontent with hlength
      obtain rfl := Except.ok.inj hcontent
      rw [not_not] at hlength
      refine ⟨blob, found, hblob, not_not.1 (raiseIf_eq_ok.1 hsha), hfound, fun known hknown => ?_, rfl⟩
      rw [raiseIf_eq_ok, hknown] at hsize
      simp only [Option.any_some, decide_eq_true_eq, not_not] at hsize
      rw [hsize, hlength]
  · cases hcontent

/-- The invariant of the loop after so many candidates. -/
structure Building (rt : Runtime K) (policy : SourceContextPolicy) (getBlob : BlobReader)
    (rows : List InventoryRow) (count : ℕ) (s : ContextBuild) : Prop where
  files : s.excerpts.length ≤ count
  each : ∀ excerpt ∈ s.excerpts, Authentic rt policy getBlob rows excerpt ∧
    excerpt.text.utf8ByteSize ≤ policy.maxFileBytes
  total : (s.excerpts.map fun excerpt => excerpt.text.utf8ByteSize).sum = s.totalBytes
  budget : s.totalBytes ≤ policy.maxTotalBytes

/-- **One candidate more.** -/
theorem Building.step {inventory : Inventory rt} {count index : ℕ}
    (hs : Building rt policy getBlob inventory.rows count s)
    (hrefers : ∃ row ∈ inventory.rows, Refers rt policy row reference)
    (h : addExcerpt policy getBlob s (reference, index) = .ok s') :
    Building rt policy getBlob inventory.rows (count + 1) s' := by
  obtain ⟨blob, content, hblob, hsha, hcontent, hknown, rfl⟩ := addExcerpt_eq_ok h
  rcases @keepExcerpt_cases policy s reference content with hskip | ⟨text, rfl, hfile, htotal, hkeep⟩
  · rw [hskip]
    exact ⟨Nat.le_succ_of_le hs.files, hs.each, hs.total, hs.budget⟩
  · rw [hkeep]
    refine ⟨?_, ?_, ?_, htotal⟩
    · rw [List.length_append, List.length_singleton]
      exact Nat.succ_le_succ hs.files
    · intro excerpt hexcerpt
      rcases List.mem_append.1 hexcerpt with hold | hnew
      · exact hs.each excerpt hold
      · obtain ⟨row, hrow, hrefer⟩ := hrefers
        obtain rfl := List.mem_singleton.1 hnew
        have hstored : row.blobSha = reference.blobSha := by rw [hrefer.sha, inventory.stripped row hrow]
        refine ⟨⟨?_, ⟨row, hrow, hrefer.path.symm, hstored, hrefer.kind, fun size hsize => ?_⟩,
          ⟨index, blob, hblob, hsha, hcontent⟩, rfl⟩, hfile⟩
        · show isSafePath rt reference.path policy = true
          rw [hrefer.path]
          exact hrefer.safe
        · rw [← hrefer.size] at hsize
          exact hknown size hsize
    · rw [List.map_append, List.sum_append, hs.total]
      simp

/-- **A context that is built** is within its bounds, and every excerpt authentic. -/
theorem building_of_buildSourceContext {inventory : Inventory rt} {owner repository : String} {signals : List String}
    {context : SourceContext}
    (h : buildSourceContext rt policy getBlob owner repository inventory.rows signals = .ok context) :
    Bounded policy context ∧ (∀ excerpt ∈ context.excerpts, Authentic rt policy getBlob inventory.rows excerpt) ∧
      context.digest = rt.sha256 (digestMaterial (context.excerpts.map (·.entry))) := by
  obtain ⟨_, -, h⟩ := bind_eq_ok.1 h
  obtain ⟨_, -, h⟩ := bind_eq_ok.1 h
  obtain ⟨candidates, hselect, h⟩ := bind_eq_ok.1 h
  obtain ⟨s, hloop, h⟩ := bind_eq_ok.1 h
  obtain rfl := Except.ok.inj h
  obtain ⟨hcount, hrefers⟩ := refers_of_selectSourceFiles hselect
  have hbuilt : Building rt policy getBlob inventory.rows candidates.zipIdx.length s := by
    refine @foldlM_steps _ _ _ _ (Building rt policy getBlob inventory.rows) _ _ _ hloop
      ⟨le_rfl, fun _ h => absurd h List.not_mem_nil, rfl, Nat.zero_le _⟩ ?_
    rintro count ⟨reference, index⟩ s₁ s₂ hcandidate hs hstep
    have hmem : (reference, index) ∈ candidates.zipIdx := List.mem_of_getElem? hcandidate
    exact hs.step (hrefers reference (List.fst_mem_of_mem_zipIdx hmem)) hstep
  rw [List.length_zipIdx] at hbuilt
  exact ⟨⟨hbuilt.files.trans hcount, fun excerpt hexcerpt => (hbuilt.each excerpt hexcerpt).2, hbuilt.total,
    hbuilt.budget⟩, fun excerpt hexcerpt => (hbuilt.each excerpt hexcerpt).1, rfl⟩

end Blobs

/-! ## Digests -/

section Digests

variable {K : Type} {rt : Runtime K} {policy : SourceContextPolicy} {getBlob : BlobReader}

/-- An entry whose path and blob sha are free of the character between them. -/
def NulFree (entry : String × String × ℕ) : Prop :=
  Char.ofNat 0 ∉ entry.1.toList ∧ Char.ofNat 0 ∉ entry.2.1.toList

theorem toDigits_injective {m n : ℕ} (h : Nat.toDigits 10 m = Nat.toDigits 10 n) : m = n := by
  rw [← @Nat.ofDigitChars_ten_toDigits m, h, Nat.ofDigitChars_ten_toDigits]

/-- **The line of an entry ends itself**, even where a path holds line breaks. -/
theorem delimitedOn_entryLine : DelimitedOn NulFree '\n' entryLine := by
  constructor
  · intro entry
    simp [entryLine]
  · rintro ⟨path, sha, count⟩ ⟨path', sha', count'⟩ rest rest' ⟨hpath, hsha⟩ ⟨hpath', hsha'⟩ hrest hrest' h
    have hnul : ∀ {cs : List Char}, Char.ofNat 0 ∉ cs → ∀ c ∈ cs, (c != Char.ofNat 0) = true := by
      intro cs hcs c hc
      rw [bne_iff_ne]
      rintro rfl
      exact hcs hc
    have hstop : ∀ (cs : List Char) (c : Char), (Char.ofNat 0 :: cs).head? = some c → (c != Char.ofNat 0) = false := by
      rintro cs c ⟨⟩
      rfl
    have hdigit : ∀ {more : List Char}, AtEnd '\n' more → ∀ c, more.head? = some c → c.isDigit = false := by
      intro more hmore c hc
      rw [hmore c hc]
      rfl
    simp only [entryLine, List.append_assoc, List.cons_append, Nat.toString_eq_repr, Nat.toList_repr] at h
    obtain ⟨hfirst, h⟩ := append_inj_of_stop (hnul hpath) (hnul hpath') (hstop _) (hstop _) h
    obtain ⟨hsecond, h⟩ := append_inj_of_stop (hnul hsha) (hnul hsha') (hstop _) (hstop _) (List.cons.inj h).2
    obtain ⟨hthird, h⟩ := append_inj_of_stop (fun c hc => Nat.isDigit_of_mem_toDigits (by decide) le_rfl hc)
      (fun c hc => Nat.isDigit_of_mem_toDigits (by decide) le_rfl hc) (hdigit hrest) (hdigit hrest') (List.cons.inj h).2
    exact ⟨Prod.ext (String.toList_inj.1 hfirst) (Prod.ext (String.toList_inj.1 hsecond) (toDigits_injective hthird)),
      h⟩

/-- The entries of authentic excerpts, where no blob sha of the inventory holds a NUL. -/
theorem nulFree_of_authentic {rows : List InventoryRow} {excerpts : List PinnedExcerpt}
    (hshas : ∀ row ∈ rows, Char.ofNat 0 ∉ row.blobSha.toList)
    (h : ∀ excerpt ∈ excerpts, Authentic rt policy getBlob rows excerpt) :
    ∀ entry ∈ excerpts.map (·.entry), NulFree entry := by
  intro entry hentry
  obtain ⟨excerpt, hexcerpt, rfl⟩ := List.mem_map.1 hentry
  have hauthentic := h excerpt hexcerpt
  obtain ⟨row, hrow, -, hsha, -⟩ := hauthentic.row
  refine ⟨(relative_of_isSafePath hauthentic.safe).2.1, ?_⟩
  show Char.ofNat 0 ∉ excerpt.blobSha.toList
  rw [← hsha]
  exact hshas row hrow

end Digests

/-! ## The laws -/

section Laws

variable {K : Type}

/-- **A source context is bounded, authentic and independent of the order of the inventory**, and its
digest names its files. -/
theorem sourceContext_laws (rt : Runtime K) (policy : SourceContextPolicy) (getBlob : BlobReader)
    (owner repository : String) (inventory : Inventory rt) (signals : List String) :
    (∀ context, buildSourceContext rt policy getBlob owner repository inventory.rows signals = .ok context →
      Bounded policy context ∧
        ∀ excerpt ∈ context.excerpts, Authentic rt policy getBlob inventory.rows excerpt) ∧
    (∀ rows, rows.Perm inventory.rows →
      buildSourceContext rt policy getBlob owner repository rows signals =
        buildSourceContext rt policy getBlob owner repository inventory.rows signals) ∧
    (Function.Injective rt.sha256 → ∀ (policy' : SourceContextPolicy) (getBlob' : BlobReader)
      (owner' repository' : String) (inventory' : Inventory rt) (signals' : List String)
      (context context' : SourceContext),
      (∀ row ∈ inventory.rows, Char.ofNat 0 ∉ row.blobSha.toList) →
      (∀ row ∈ inventory'.rows, Char.ofNat 0 ∉ row.blobSha.toList) →
      buildSourceContext rt policy getBlob owner repository inventory.rows signals = .ok context →
      buildSourceContext rt policy' getBlob' owner' repository' inventory'.rows signals' = .ok context' →
      context.digest = context'.digest → context.excerpts.map (·.entry) = context'.excerpts.map (·.entry)) := by
  refine ⟨fun context h => ?_, fun rows hperm => ?_, ?_⟩
  · obtain ⟨hbounded, hauthentic, -⟩ := building_of_buildSourceContext h
    exact ⟨hbounded, hauthentic⟩
  · unfold buildSourceContext
    rw [selectSourceFiles_perm hperm.symm inventory.unique]
  · intro hsha policy' getBlob' owner' repository' inventory' signals' context context' hfree hfree' h h' hdigest
    obtain ⟨-, hauthentic, hmaterial⟩ := building_of_buildSourceContext h
    obtain ⟨-, hauthentic', hmaterial'⟩ := building_of_buildSourceContext h'
    rw [hmaterial, hmaterial'] at hdigest
    exact delimitedOn_entryLine.intercalate_injective (nulFree_of_authentic hfree hauthentic)
      (nulFree_of_authentic hfree' hauthentic') (String.ofList_injective (hsha hdigest))

/-- Two files, the size of one of them not known. -/
def twoFiles : Inventory Runtime.reference where
  rows := [⟨"src/app.py", "1", some "blob", some 2⟩, ⟨"src/worker.py", "2", some "blob", none⟩]
  unique := by decide
  stripped := by decide +kernel

/-- A server that answers every request with the same two bytes. -/
def echoReader : BlobReader := fun _ sha => .ok ⟨some sha, some 2, some "ok".toUTF8⟩

/-- Both files are read, in either order of the inventory. -/
theorem sourceContext_laws_twoFiles : ∃ context,
    buildSourceContext Runtime.reference {} echoReader "o" "r" twoFiles.rows ["worker latency"] = .ok context ∧
      context.excerpts.map (·.path) = ["src/worker.py", "src/app.py"] ∧ Bounded {} context ∧
      (∀ excerpt ∈ context.excerpts, Authentic Runtime.reference {} echoReader twoFiles.rows excerpt) ∧
      buildSourceContext Runtime.reference {} echoReader "o" "r" twoFiles.rows.reverse ["worker latency"] =
        .ok context ∧
      ∀ context', buildSourceContext Runtime.reference {} echoReader "p" "s" twoFiles.rows [] = .ok context' →
        context.digest = context'.digest → context.excerpts.map (·.entry) = context'.excerpts.map (·.entry) := by
  have hbuilt : (buildSourceContext Runtime.reference {} echoReader "o" "r" twoFiles.rows
      ["worker latency"]).toOption.map
      (fun context => context.excerpts.map (·.path)) = some ["src/worker.py", "src/app.py"] := by decide +kernel
  obtain ⟨context, hcontext, hpaths⟩ := Option.map_eq_some_iff.1 hbuilt
  have hok := Library.toOption_eq_some.1 hcontext
  obtain ⟨hsound, horder, hdigest⟩ :=
    sourceContext_laws Runtime.reference {} echoReader "o" "r" twoFiles ["worker latency"]
  have hfree : ∀ row ∈ twoFiles.rows, Char.ofNat 0 ∉ row.blobSha.toList := by decide +kernel
  refine ⟨context, hok, hpaths, (hsound context hok).1, (hsound context hok).2, ?_, fun context' hok' => ?_⟩
  · rw [horder _ (List.reverse_perm _), hok]
  · exact hdigest Function.injective_id {} echoReader "p" "s" twoFiles [] context context' hfree hfree hok hok'

end Laws

end GitHub
end PulseGraph
