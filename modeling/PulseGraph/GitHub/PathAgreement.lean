/-
# The three path validators

`_is_safe_path`, which selects the sources of a diagnosis, `_repository_path`, which its models
accept, and `_validate_path` of the workspace in which a patch is previewed.  The first two let
through what the third refuses: a device name of Windows with any extension, a colon, a control
character, a name that ends in a dot or a space, and a path of more bytes than the workspace takes.

**Proved here.**  These are the only ones: `validatePath_of_selected_iff`.
-/

import PulseGraph.GitHub.SourceContext
import PulseGraph.GitHub.Workspace

namespace PulseGraph
namespace GitHub

open Library (Json raiseIf_eq_ok bind_eq_ok segments length_le_utf8ByteSize)

/-- A path that every file system can hold, of no more bytes than a workspace takes. -/
structure Portable {K : Type} (rt : Runtime K) (limits : WorkspaceLimits) (path : String) : Prop where
  size : path.utf8ByteSize ≤ limits.maxPathLength
  controls : ∀ c ∈ path.toList, 32 ≤ c.toNat
  ends : ∀ part ∈ segments path, part.toList.getLast? ≠ some '.' ∧ part.toList.getLast? ≠ some ' '
  colons : ∀ part ∈ segments path, ':' ∉ part.toList
  reserved : ∀ part ∈ segments path, isWindowsReservedName rt part = false

section Agreement

variable {K : Type} {rt : Runtime K} {policy : SourceContextPolicy} {limits : WorkspaceLimits} {path : String}

/-- A colon in a path is in one of its names. -/
theorem colon_mem_part (h : ':' ∈ path.toList) : ∃ part ∈ segments path, ':' ∈ part.toList := by
  obtain ⟨cs, hcs, hmem⟩ := (Library.mem_iff_mem_splitOn (show ':' ≠ '/' by decide)).1 h
  exact ⟨String.ofList cs, List.mem_map_of_mem hcs, by rwa [String.toList_ofList]⟩

/-- **What is selected and cited** is accepted by the workspace exactly when it is portable. -/
theorem validatePath_of_selected_iff (hsafe : isSafePath rt path policy = true)
    (hrepository : repositoryPath path = .ok path) :
    validatePath rt limits (.str path) = .ok path ↔ Portable rt limits path := by
  rw [validatePath_eq_ok_iff]
  constructor
  · rintro ⟨-, hsize, -, hcontrols, -, -, hends, hcolons, hreserved⟩
    exact ⟨hsize, hcontrols, hends, hcolons, hreserved⟩
  · intro hportable
    obtain ⟨hbackslash, hnul, hrelative, hnames⟩ := relative_of_isSafePath hsafe
    obtain ⟨_, hlength, -⟩ := bind_eq_ok.1 hrepository
    rw [raiseIf_eq_ok, not_or] at hlength
    have habsolute : isWindowsAbsolute path = false := by
      rw [Bool.eq_false_iff]
      intro hdrive
      simp only [isWindowsAbsolute, Bool.and_eq_true, decide_eq_true_eq] at hdrive
      -- the colon of a drive is in one of the names
      obtain ⟨part, hpart, hcolon⟩ := colon_mem_part (List.mem_of_getElem? hdrive.1)
      exact hportable.colons part hpart hcolon
    exact ⟨⟨hlength.1, (length_le_utf8ByteSize path).trans hportable.size⟩, hportable.size, ⟨hnul, hbackslash⟩,
      hportable.controls, ⟨hrelative, habsolute⟩, hnames, hportable.ends, hportable.colons, hportable.reserved⟩

/-- A source file of an application, under the limit that the route leaves at its default. -/
theorem validatePath_of_selected_iff_app : isSafePath Runtime.reference "src/app.py" {} = true ∧
    repositoryPath "src/app.py" = .ok "src/app.py" ∧ Portable Runtime.reference {} "src/app.py" :=
  ⟨by decide +kernel, by decide +kernel, (@validatePath_of_selected_iff ℚ Runtime.reference {} {} "src/app.py"
    (by decide +kernel) (by decide +kernel)).1 (by decide +kernel)⟩

/-- **A module called `aux`** is selected and can be cited, and no patch of it can be previewed. -/
theorem not_validatePath_of_selected : ¬ ∀ path, isSafePath Runtime.reference path {} = true →
    repositoryPath path = .ok path → validatePath Runtime.reference {} (.str path) = .ok path := by
  intro hall
  have hrefused : validatePath Runtime.reference {} (.str "src/aux.py") ≠ .ok "src/aux.py" := by decide +kernel
  exact hrefused (hall "src/aux.py" (by decide +kernel) (by decide +kernel))

end Agreement

end GitHub
end PulseGraph
