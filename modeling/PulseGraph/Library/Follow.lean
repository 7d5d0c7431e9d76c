/-
# Copies that follow a store

A follower keeps a map of rows it was sent, each a row of the store as some state had it.
`overlay` writes rows into the map; `ReadFrom` says that, under one key, the map has what
one of the states of interest has there.  Rows that are read of such a state keep this for
every key (`ReadFrom.overlay`), and establish it for the keys the read covers
(`readFrom_overlay`).
-/

import Mathlib.Data.List.Basic
import Mathlib.Logic.Function.Basic

namespace Library

variable {κ ν σ : Type*}

/-- Under the key, the map has what one of the states has there. -/
def ReadFrom (states : σ → Prop) (read : σ → κ → Option ν) (m : κ → Option ν) (k : κ) : Prop :=
  ∃ s, states s ∧ m k = read s k

theorem ReadFrom.mono {states states' : σ → Prop} {read : σ → κ → Option ν} {m : κ → Option ν} {k : κ}
    (h : ReadFrom states read m k) (hmono : ∀ s, states s → states' s) : ReadFrom states' read m k := by
  obtain ⟨s, hs, hm⟩ := h
  exact ⟨s, hmono s hs, hm⟩

section Overlay

variable [DecidableEq κ] {key : ν → κ}

/-- Write rows into a map, one after the other, each under its key. -/
def overlay (key : ν → κ) (rows : List ν) (m : κ → Option ν) : κ → Option ν :=
  rows.foldl (fun m r => Function.update m (key r) (some r)) m

variable {rows : List ν} {m : κ → Option ν} {k : κ}

/-- A key that rows are written under has one of them; the others have what they had. -/
theorem overlay_cases : (∃ r ∈ rows, key r = k ∧ overlay key rows m k = some r) ∨
    (∀ r ∈ rows, key r ≠ k) ∧ overlay key rows m k = m k := by
  unfold overlay
  induction rows generalizing m with
  | nil => exact .inr ⟨fun r hr => absurd hr List.not_mem_nil, rfl⟩
  | cons row rows ih =>
      rw [List.foldl_cons]
      rcases @ih (Function.update m (key row) (some row)) with ⟨r, hr, hk, heq⟩ | ⟨hne, heq⟩
      · exact .inl ⟨r, List.mem_cons_of_mem _ hr, hk, heq⟩
      · rw [heq]
        by_cases hk : key row = k
        · refine .inl ⟨row, List.mem_cons_self, hk, ?_⟩
          rw [← hk, Function.update_self]
        · refine .inr ⟨fun r hr => ?_, Function.update_of_ne (Ne.symm hk) _ _⟩
          rcases List.mem_cons.1 hr with rfl | hr
          · exact hk
          · exact hne r hr

variable {states : σ → Prop} {read : σ → κ → Option ν} {s : σ}

/-- **Rows that are read of one of the states** spoil no key. -/
theorem ReadFrom.overlay (h : ReadFrom states read m k) (hs : states s)
    (hrows : ∀ r ∈ rows, read s (key r) = some r) : ReadFrom states read (overlay key rows m) k := by
  rcases @overlay_cases _ _ _ key rows m k with ⟨r, hr, rfl, heq⟩ | ⟨-, heq⟩
  · exact ⟨s, hs, heq.trans (hrows r hr).symm⟩
  · rw [ReadFrom, heq]
    exact h

/-- **They settle a key** where they include the row of the state, or the state has none and the map
has none. -/
theorem readFrom_overlay (hs : states s) (hrows : ∀ r ∈ rows, read s (key r) = some r)
    (hall : ∀ r, read s k = some r → ∃ r' ∈ rows, key r' = k) (hnone : read s k = none → m k = none) :
    ReadFrom states read (overlay key rows m) k := by
  refine ⟨s, hs, ?_⟩
  rcases @overlay_cases _ _ _ key rows m k with ⟨r, hr, rfl, heq⟩ | ⟨hne, heq⟩
  · exact heq.trans (hrows r hr).symm
  · cases hread : read s k with
    | none => exact heq.trans (hnone hread)
    | some r =>
        obtain ⟨r', hr', hk⟩ := hall r hread
        exact absurd hk (hne r' hr')

end Overlay

end Library
