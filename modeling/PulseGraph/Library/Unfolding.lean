/-
# Unfolding a graph of listings

A node lists entries, each with a label and, where it is no leaf, the node beneath it.  Nodes may be
shared and may lie on cycles; a node without a listing is one that cannot be read.  `depthFirst`
unfolds the graph from a node down to a depth, an entry before what lies beneath it, each with the
labels on the way to it; it fails on a node that it cannot read or that lies deeper.

**Proved here.**  Where an unfolding succeeds it is the whole: its entries are those of the graph
(`mem_depthFirst_iff`), none beneath the depth (`length_lt_of_entry`), any greater depth gives
the same (`depthFirst_mono`), every node that can be reached has a listing (`listed_of_reach`), and
none lies on a cycle (`not_onCycle_of_reach`).
-/

import PulseGraph.Library.Checked
import Mathlib.Logic.Relation

namespace Library

/-- The listings of a graph: labels, with the nodes beneath them. -/
abbrev Listings (ν α : Type) := ν → Option (List (α × Option ν))

variable {ν α : Type}

namespace Listings

variable (children : Listings ν α)

/-- What an entry unfolds into, given what nodes unfold into. -/
def unfoldEntry (unfold : ν → Option (List (List α × α))) (entry : α × Option ν) : Option (List (List α × α)) :=
  match entry.2 with
  | none => some [([], entry.1)]
  | some b => (unfold b).map fun found => ([], entry.1) :: found.map fun e => (entry.1 :: e.1, e.2)

/-- The unfolding of a graph from a node, down to a depth. -/
def depthFirst : ℕ → ν → Option (List (List α × α))
  | 0, _ => none
  | n + 1, a => (children a).bind fun entries => (entries.mapM (unfoldEntry (depthFirst n))).map List.flatten

/-- An entry beneath a node, with the labels on the way to it. -/
inductive EntryAt : ν → List α × α → Prop
  | here {a : ν} {entries : List (α × Option ν)} {entry : α × Option ν} : children a = some entries →
      entry ∈ entries → EntryAt a ([], entry.1)
  | beneath {a b : ν} {entries : List (α × Option ν)} {label : α} {found : List α × α} : children a = some entries →
      (label, some b) ∈ entries → EntryAt b found → EntryAt a (label :: found.1, found.2)

/-- One node lists another. -/
def Lists (a b : ν) : Prop := ∃ entries label, children a = some entries ∧ (label, some b) ∈ entries

/-- A node that can be reached from itself. -/
def OnCycle (a : ν) : Prop := Relation.TransGen (Lists children) a a

variable {children} {n m : ℕ} {a b : ν} {out : List (List α × α)} {found : List α × α}

/-- Unfolding an entry is monotone in what nodes unfold into. -/
theorem unfoldEntry_mono {unfold unfold' : ν → Option (List (List α × α))} {entry : α × Option ν}
    {part : List (List α × α)} (h : ∀ b inner, unfold b = some inner → unfold' b = some inner)
    (hentry : unfoldEntry unfold entry = some part) : unfoldEntry unfold' entry = some part := by
  unfold unfoldEntry at hentry ⊢
  split at hentry
  · exact hentry
  · next b _ =>
      obtain ⟨inner, hinner, rfl⟩ := Option.map_eq_some_iff.1 hentry
      rw [h b inner hinner, Option.map_some]

/-- A traversal that succeeds does so with any body that gives the same where the first succeeds. -/
theorem mapM_some_mono {β γ : Type} {f g : β → Option γ} {l : List β} {cs : List γ}
    (h : ∀ b c, f b = some c → g b = some c) (hf : l.mapM f = some cs) : l.mapM g = some cs := by
  induction l generalizing cs with
  | nil => exact hf
  | cons b l ih =>
      rw [List.mapM_cons, Option.bind_eq_bind, Option.bind_eq_some_iff] at hf
      obtain ⟨c, hc, hf⟩ := hf
      obtain ⟨cs', hcs, hf⟩ := Option.bind_eq_some_iff.1 hf
      rw [List.mapM_cons, h b c hc, ih hcs]
      exact hf

/-- **A greater depth** changes nothing where the unfolding succeeds. -/
theorem depthFirst_mono (hle : n ≤ m) (h : depthFirst children n a = some out) : depthFirst children m a = some out :=
    by
  induction n generalizing m a out with
  | zero => cases h
  | succ n ih =>
      obtain ⟨k, rfl⟩ : ∃ k, m = k + 1 := ⟨m - 1, by omega⟩
      obtain ⟨entries, hentries, h⟩ := Option.bind_eq_some_iff.1 h
      obtain ⟨parts, hparts, rfl⟩ := Option.map_eq_some_iff.1 h
      have hsame := mapM_some_mono (fun entry part hentry => unfoldEntry_mono (fun b inner hb =>
        ih (Nat.le_of_succ_le_succ hle) hb) hentry) hparts
      exact Option.bind_eq_some_iff.2 ⟨entries, hentries, Option.map_eq_some_iff.2 ⟨parts, hsame, rfl⟩⟩

/-- What is beneath an entry of an unfolding that succeeds was unfolded. -/
theorem depthFirst_of_lists (h : depthFirst children (n + 1) a = some out) (hab : Lists children a b) :
    ∃ inner, depthFirst children n b = some inner := by
  obtain ⟨entries, label, hentries, hmem⟩ := hab
  obtain ⟨entries', hentries', h⟩ := Option.bind_eq_some_iff.1 h
  obtain rfl : entries' = entries := Option.some.inj (hentries'.symm.trans hentries)
  obtain ⟨parts, hparts, -⟩ := Option.map_eq_some_iff.1 h
  obtain ⟨part, hpart⟩ := mapM_some_of_mem hparts hmem
  obtain ⟨inner, hinner, -⟩ := Option.map_eq_some_iff.1 hpart
  exact ⟨inner, hinner⟩

/-- **The entries of an unfolding** are those of the graph. -/
theorem mem_depthFirst_iff (h : depthFirst children n a = some out) : found ∈ out ↔ EntryAt children a found := by
  induction n generalizing a out found with
  | zero => cases h
  | succ n ih =>
      have hunfolded := h
      obtain ⟨entries, hentries, h⟩ := Option.bind_eq_some_iff.1 h
      obtain ⟨parts, hparts, rfl⟩ := Option.map_eq_some_iff.1 h
      rw [List.mem_flatten]
      constructor
      · rintro ⟨part, hpart, hfound⟩
        obtain ⟨⟨label, beneath⟩, hmem, hentry⟩ := mem_mapM_some hparts hpart
        cases beneath with
        | none =>
            obtain rfl := Option.some.inj hentry
            rw [List.mem_singleton.1 hfound]
            exact .here hentries hmem
        | some b =>
            obtain ⟨inner, hinner, rfl⟩ := Option.map_eq_some_iff.1 hentry
            rcases List.mem_cons.1 hfound with rfl | hfound
            · exact .here hentries hmem
            · obtain ⟨deeper, hdeeper, rfl⟩ := List.mem_map.1 hfound
              exact .beneath hentries hmem ((ih hinner).1 hdeeper)
      · intro hfound
        cases hfound with
        | here hentries' hmem =>
            obtain rfl := Option.some.inj (hentries.symm.trans hentries')
            obtain ⟨part, hpart⟩ := mapM_some_of_mem hparts hmem
            refine ⟨part, mem_of_mapM_some hparts hmem hpart, ?_⟩
            unfold unfoldEntry at hpart
            split at hpart
            · rw [← Option.some.inj hpart]
              exact List.mem_singleton_self _
            · obtain ⟨inner, -, rfl⟩ := Option.map_eq_some_iff.1 hpart
              exact List.mem_cons_self
        | @beneath _ b _ label deeper hentries' hmem hdeeper =>
            obtain rfl := Option.some.inj (hentries.symm.trans hentries')
            obtain ⟨inner, hinner⟩ := depthFirst_of_lists hunfolded ⟨_, label, hentries, hmem⟩
            have hpart : unfoldEntry (depthFirst children n) (label, some b) =
                some (([], label) :: inner.map fun e => (label :: e.1, e.2)) :=
              Option.map_eq_some_iff.2 ⟨inner, hinner, rfl⟩
            refine ⟨_, mem_of_mapM_some hparts hmem hpart, List.mem_cons_of_mem _ ?_⟩
            exact List.mem_map.2 ⟨deeper, (ih hinner).2 hdeeper, rfl⟩

/-- **No entry is beneath the depth** at which an unfolding succeeds. -/
theorem length_lt_of_entry (h : depthFirst children n a = some out) (hfound : EntryAt children a found) :
    found.1.length < n := by
  induction hfound generalizing n out with
  | here _ _ =>
      cases n with
      | zero => cases h
      | succ n => simp
  | beneath hentries hmem _ ih =>
      cases n with
      | zero => cases h
      | succ n =>
          obtain ⟨inner, hinner⟩ := depthFirst_of_lists h ⟨_, _, hentries, hmem⟩
          have hlt := ih hinner
          simpa using hlt

/-- What can be reached was unfolded too. -/
theorem depthFirst_of_reach (h : depthFirst children n a =
    some out) (hreach : Relation.ReflTransGen (Lists children) a b) :
    ∃ m inner, depthFirst children m b = some inner := by
  induction hreach with
  | refl => exact ⟨n, out, h⟩
  | tail _ hstep ih =>
      obtain ⟨m, inner, hm⟩ := ih
      cases m with
      | zero => cases hm
      | succ m =>
          obtain ⟨inner', hinner'⟩ := depthFirst_of_lists hm hstep
          exact ⟨m, inner', hinner'⟩

/-- **What can be reached has a listing.** -/
theorem listed_of_reach (h : depthFirst children n a = some out)
    (hreach : Relation.ReflTransGen (Lists children) a b) : ∃ entries, children b = some entries := by
  obtain ⟨m, inner, hm⟩ := depthFirst_of_reach h hreach
  cases m with
  | zero => cases hm
  | succ m =>
      obtain ⟨entries, hentries, -⟩ := Option.bind_eq_some_iff.1 hm
      exact ⟨entries, hentries⟩

/-- A cycle cannot be unfolded to any depth: its next node lies on it too. -/
theorem depthFirst_eq_none_of_onCycle (h : OnCycle children a) : depthFirst children n a = none := by
  induction n generalizing a with
  | zero => rfl
  | succ n ih =>
      obtain ⟨b, hstep, hback⟩ := Relation.TransGen.head'_iff.1 h
      rw [Option.eq_none_iff_forall_ne_some]
      intro out hout
      obtain ⟨inner, hinner⟩ := depthFirst_of_lists hout hstep
      have hcycle : OnCycle children b := Relation.TransGen.tail' hback hstep
      rw [ih hcycle] at hinner
      cases hinner

/-- **No node that can be reached lies on a cycle.** -/
theorem not_onCycle_of_reach (h : depthFirst children n a = some out)
    (hreach : Relation.ReflTransGen (Lists children) a b) : ¬ OnCycle children b := by
  intro hcycle
  obtain ⟨m, inner, hm⟩ := depthFirst_of_reach h hreach
  rw [depthFirst_eq_none_of_onCycle hcycle] at hm
  cases hm

end Listings
end Library
