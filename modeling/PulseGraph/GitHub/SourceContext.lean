/-
# Source context

`src/github_integration/source_context.py`: which files of a snapshot's inventory may be read, in
which order, and what is kept of the blobs that a server answers with.  An answer is whatever the
server likes; of its attributes those that have not the type the code asks for are `none`.
-/

import PulseGraph.GitHub.Diagnosis

namespace PulseGraph
namespace GitHub

open Library (raiseIf raiseIf_eq_ok bind_eq_ok bind_eq_error foldlM_induct foldlM_steps segments)

/-- What `build_source_context` raises. -/
inductive SourceContextError where
  /-- `SourceContextError(detail)`. -/
  | context (detail : String)
  /-- What `get_blob` raises. -/
  | reader (detail : String)
  deriving DecidableEq, Repr

/-- `SourceContextPolicy`, positive integers. -/
structure SourceContextPolicy where
  maxFiles : ℕ := 12
  maxFileBytes : ℕ := 64 * 1024
  maxTotalBytes : ℕ := 256 * 1024
  maxPathLength : ℕ := 512
  allowedSuffixes : List String :=
    [".c", ".cc", ".cpp", ".cs", ".css", ".go", ".h", ".hpp", ".html", ".java", ".js", ".json", ".jsx", ".kt", ".md",
     ".php", ".py", ".rb", ".rs", ".sh", ".sql", ".toml", ".ts", ".tsx", ".txt", ".yaml", ".yml"]
  positive : 0 < maxFiles ∧ 0 < maxFileBytes ∧ 0 < maxTotalBytes ∧ 0 < maxPathLength := by decide

/-- A row of the inventory, as the store returns it. -/
structure InventoryRow where
  path : String
  blobSha : String
  objectType : Option String := some "blob"
  sizeBytes : Option ℤ

/-- `SourceFileReference`. -/
structure SourceFileReference where
  path : String
  blobSha : String
  sizeBytes : Option ℤ

/-- `SourceExcerpt` with its `byte_count`. -/
structure PinnedExcerpt extends SourceExcerpt where
  byteCount : ℕ

/-- `SourceContext`. -/
structure SourceContext where
  excerpts : List PinnedExcerpt
  omittedFileCount : ℕ
  totalBytes : ℕ
  digest : String

/-- What `get_blob` returns. -/
structure BlobAnswer where
  sha : Option String
  size : Option ℤ
  content : Option ByteArray

/-! ## Paths -/

section Paths

/-- `_GENERATED_DIRECTORY_PARTS`. -/
def generatedDirectoryParts : List String := [".next", "build", "coverage", "dist", "node_modules", "vendor"]

/-- `_SENSITIVE_DIRECTORY_PARTS`. -/
def sensitiveDirectoryParts : List String := [".aws", ".ssh", "credentials", "secrets"]

/-- `_SENSITIVE_FILE_NAMES`. -/
def sensitiveFileNames : List String := ["id_ed25519", "id_rsa", ".env"]

/-- `_GENERATED_FILE_SUFFIXES`. -/
def generatedFileSuffixes : List String := [".map", ".min.css", ".min.js", ".lock"]

variable {K : Type} (rt : Runtime K)

/-- The directories and names that are left out. -/
def isExcluded (normalizedParts : List String) : Bool :=
  let fileName := normalizedParts.getLastD ""
  (normalizedParts.dropLast.any fun part => decide (part ∈ generatedDirectoryParts)) ||
    (normalizedParts.any fun part => decide (part ∈ sensitiveDirectoryParts)) ||
    decide (fileName ∈ sensitiveFileNames) ||
    ".env.".toList.isPrefixOf fileName.toList ||
    generatedFileSuffixes.any fun suffix => suffix.toList.isSuffixOf fileName.toList

/-- `path.rsplit(".", 1)[-1].lower()`, of a path whose file name has a dot. -/
def suffixOf (path : String) : String :=
  if '.' ∈ ((segments path).getLastD "").toList then
    rt.lower (String.ofList (path.toList.reverse.takeWhile (· ≠ '.')).reverse)
  else ""

/-- `_is_safe_path`. -/
def isSafePath (path : String) (policy : SourceContextPolicy) : Bool :=
  if policy.maxPathLength < path.length ∨ '\\' ∈ path.toList ∨ Char.ofNat 0 ∈ path.toList ∨
      path.toList.head? = some '/' ∨ path.toList.head? = some '\\' then false
  else if ∃ part ∈ segments path, part = "" ∨ part = "." ∨ part = ".." then false
  else if isExcluded ((segments path).map rt.lower) = true then false
  else decide ("." ++ suffixOf rt path ∈ policy.allowedSuffixes)

/-- What the selection asks of a path before it looks at its names. -/
theorem relative_of_isSafePath {path : String} {policy : SourceContextPolicy} {rt : Runtime K}
    (h : isSafePath rt path policy = true) :
    '\\' ∉ path.toList ∧ Char.ofNat 0 ∉ path.toList ∧ path.toList.head? ≠ some '/' ∧
      ∀ part ∈ segments path, part ≠ "" ∧ part ≠ "." ∧ part ≠ ".." := by
  unfold isSafePath at h
  split_ifs at h with hshape hnames hexcluded
  simp only [not_or] at hshape
  refine ⟨hshape.2.1, hshape.2.2.1, hshape.2.2.2.1, fun part hpart => ?_⟩
  have hname : ¬ (part = "" ∨ part = "." ∨ part = "..") := fun hbad => hnames ⟨part, hpart, hbad⟩
  simpa only [not_or] using hname

end Paths

/-! ## Selection -/

section Selection

variable {K : Type} (rt : Runtime K)

/-- `_text`. -/
def contextText (value fieldName : String) : Except SourceContextError String := do
  raiseIf (rt.strip value = "") (.context (fieldName ++ " must be a non-empty string"))
  return rt.strip value

/-- `_reference_from_row`. -/
def referenceFromRow (row : InventoryRow) (policy : SourceContextPolicy) :
    Except SourceContextError (Option SourceFileReference) :=
  if row.objectType ≠ none ∧ row.objectType ≠ some "blob" then return none
  else if isSafePath rt row.path policy = false then return none
  else if row.sizeBytes.any (fun size : ℤ => size < 0 ∨ (policy.maxFileBytes : ℤ) < size) = true then return none
  else do
    let blobSha ← contextText rt row.blobSha "blob_sha"
    return some ⟨row.path, blobSha, row.sizeBytes⟩

/-- `[a-z0-9]` under `re.IGNORECASE`: with the four characters outside ASCII that fold to a letter. -/
def isTokenStart (c : Char) : Bool := c.isAlphanum || decide (c.toNat ∈ [0x130, 0x131, 0x17F, 0x212A])

/-- `[a-z0-9_-]` under `re.IGNORECASE`. -/
def isTokenChar (c : Char) : Bool := isTokenStart c || c = '_' || c = '-'

/-- `_TOKEN_PATTERN.finditer`, after some characters that a match has taken. -/
def tokenMatches : ℕ → List Char → List (List Char)
  | _, [] => []
  | taken + 1, _ :: cs => tokenMatches taken cs
  | 0, c :: cs =>
      let rest := (cs.takeWhile isTokenChar).take 63
      if isTokenStart c && !rest.isEmpty then (c :: rest) :: tokenMatches rest.length cs else tokenMatches 0 cs

/-- The tokens of one match: the whole, and its parts of two characters and more. -/
def tokensOfMatch (found : List Char) : List String :=
  let token := rt.lower (String.ofList found)
  let parts := token.toList.splitOnP fun c => c = '_' || c = '-'
  token :: (parts.filter fun part => 2 ≤ part.length).map String.ofList

/-- `_signal_tokens`, without repetition. -/
def signalTokens (signals : List String) : List String :=
  (signals.flatMap fun signal => (tokenMatches 0 signal.toList).flatMap (tokensOfMatch rt)).eraseDups

/-- `rank` in `select_source_files`. -/
def rank (tokens : List String) (policy : SourceContextPolicy) (reference : SourceFileReference) : ℤ ×ₗ ℤ ×ₗ String :=
  let pathTokens := signalTokens rt [reference.path]
  let signalMatches := (tokens.filter fun token => decide (token ∈ pathTokens)).length
  toLex (-signalMatches, toLex (reference.sizeBytes.getD policy.maxFileBytes, reference.path))

/-- One iteration of the loop of `select_source_files`: the first reference of a path. -/
def addReference (policy : SourceContextPolicy) (references : List SourceFileReference) (row : InventoryRow) :
    Except SourceContextError (List SourceFileReference) := do
  match ← referenceFromRow rt row policy with
  | none => return references
  | some reference =>
      return if reference.path ∈ references.map (·.path) then references else references ++ [reference]

/-- `select_source_files`. -/
def selectSourceFiles (rows : List InventoryRow) (signals : List String) (policy : SourceContextPolicy) :
    Except SourceContextError (List SourceFileReference) := do
  let tokens := signalTokens rt signals
  let references ← rows.foldlM (addReference rt policy) []
  return (references.insertionSort fun a b => rank rt tokens policy a ≤ rank rt tokens policy b).take policy.maxFiles

end Selection

/-! ## Blobs -/

section Blobs

variable {K : Type} (rt : Runtime K) (policy : SourceContextPolicy)

/-- `client.get_blob`: what the server answers, or the error of the client, for a request of the
number that it has. -/
abbrev BlobReader := ℕ → String → Except SourceContextError BlobAnswer

/-- The checks on `response_size`. -/
def responseSize (blob : BlobAnswer) : Except SourceContextError ℕ :=
  match blob.size with
  | some size =>
      if size < 0 then throw (.context "GitHub blob size was invalid") else return size.toNat
  | none => throw (.context "GitHub blob size was invalid")

/-- The checks on `content`. -/
def responseContent (blob : BlobAnswer) (size : ℕ) : Except SourceContextError ByteArray :=
  match blob.content with
  | some content =>
      if content.size ≠ size then throw (.context "GitHub blob content did not match its declared size")
      else return content
  | none => throw (.context "GitHub blob content did not match its declared size")

/-- The variables of the loop of `build_source_context`. -/
structure ContextBuild where
  excerpts : List PinnedExcerpt := []
  totalBytes : ℕ := 0

/-- The end of an iteration: a blob beyond the budgets, a binary one and one that is not UTF-8 are
skipped. -/
def keepExcerpt (s : ContextBuild) (reference : SourceFileReference) (content : ByteArray) : ContextBuild :=
  if policy.maxFileBytes < content.size then s
  else if policy.maxTotalBytes < s.totalBytes + content.size then s
  else if content.data.contains 0 = true then s
  else
    match String.fromUTF8? content with
    | none => s
    | some text =>
        { excerpts := s.excerpts ++ [{ path := reference.path, blobSha := reference.blobSha, text := text,
                                       byteCount := content.size }],
          totalBytes := s.totalBytes + content.size }

/-- One iteration of the loop of `build_source_context`. -/
def addExcerpt (getBlob : BlobReader) (s : ContextBuild) (candidate : SourceFileReference × ℕ) :
    Except SourceContextError ContextBuild := do
  let (reference, index) := candidate
  let blob ← getBlob index reference.blobSha
  raiseIf (blob.sha ≠ some reference.blobSha) (.context "GitHub blob identity did not match the snapshot")
  let size ← responseSize blob
  let content ← responseContent blob size
  raiseIf (reference.sizeBytes.any (fun known : ℤ => known ≠ size) = true)
    (.context "GitHub blob size did not match the immutable snapshot")
  return keepExcerpt policy s reference content

/-- What the digest of a context says of an excerpt. -/
def PinnedExcerpt.entry (excerpt : PinnedExcerpt) : String × String × ℕ :=
  (excerpt.path, excerpt.blobSha, excerpt.byteCount)

/-- The line of an entry in the digest. -/
def entryLine (entry : String × String × ℕ) : List Char :=
  entry.1.toList ++ Char.ofNat 0 :: (entry.2.1.toList ++ Char.ofNat 0 :: (toString entry.2.2).toList)

/-- `digest_material`. -/
def digestMaterial (entries : List (String × String × ℕ)) : String :=
  String.ofList (List.intercalate ['\n'] (entries.map entryLine))

/-- `build_source_context`. -/
def buildSourceContext (getBlob : BlobReader) (owner repository : String) (snapshotRows : List InventoryRow)
    (signals : List String) : Except SourceContextError SourceContext := do
  let _ ← contextText rt owner "owner"
  let _ ← contextText rt repository "repository"
  let candidates ← selectSourceFiles rt snapshotRows signals policy
  let s ← candidates.zipIdx.foldlM (addExcerpt policy getBlob) {}
  return { excerpts := s.excerpts, omittedFileCount := candidates.length - s.excerpts.length,
           totalBytes := s.totalBytes, digest := rt.sha256 (digestMaterial (s.excerpts.map (·.entry))) }

end Blobs

end GitHub
end PulseGraph
