/-
# Components kept by labels

Rounds of nodes arrive one at a time, and each links the nodes it names.  The components of what
has arrived are kept as a label on each node: the nodes of a round take one label, and so does
every node that shared a label with one of them.  A node without a label is a component of its own.

**Proved here.**  Labels that tell the components tell them after a round (`TellsComponents.join`),
whichever label the round takes: one that a node of the round has, or one that no node has.
-/

import Mathlib.Logic.Relation

namespace Library

variable {ι γ : Type*} {rounds : List (List ι)} {round : List ι} {x y z : ι}

/-- Two nodes of one round. -/
def InRound (rounds : List (List ι)) (x y : ι) : Prop := ∃ round ∈ rounds, x ∈ round ∧ y ∈ round

/-- **Linked**: joined by a chain of nodes of which any two neighbours share a round. -/
def Linked (rounds : List (List ι)) : ι → ι → Prop := Relation.EqvGen (InRound rounds)

theorem Linked.refl (x : ι) : Linked rounds x x := Relation.EqvGen.refl x

theorem Linked.symm (h : Linked rounds x y) : Linked rounds y x := Relation.EqvGen.symm _ _ h

theorem Linked.trans (h : Linked rounds x y) (h' : Linked rounds y z) : Linked rounds x z :=
  Relation.EqvGen.trans _ _ _ h h'

/-- The nodes of a round are linked. -/
theorem Linked.of_mem (hround : round ∈ rounds) (hx : x ∈ round) (hy : y ∈ round) : Linked rounds x y :=
  Relation.EqvGen.rel _ _ ⟨round, hround, hx, hy⟩

/-- More rounds link no less. -/
theorem Linked.mono {rounds' : List (List ι)} (hsub : rounds ⊆ rounds') (h : Linked rounds x y) :
    Linked rounds' x y := by
  have hrel : ∀ a b, InRound rounds a b → InRound rounds' a b := by
    rintro a b ⟨round, hround, ha, hb⟩
    exact ⟨round, hsub hround, ha, hb⟩
  exact Relation.EqvGen.mono hrel x y h

/-- What no round has linked is not linked. -/
theorem linked_nil : Linked ([] : List (List ι)) x y ↔ x = y := by
  constructor
  · intro h
    induction h with
    | rel a b hab =>
        obtain ⟨round, hround, -⟩ := hab
        cases hround
    | refl a => rfl
    | symm a b _ ih => exact ih.symm
    | trans a b c _ _ ih ih' => exact ih.trans ih'
  · rintro rfl
    exact Linked.refl x

/-- Linked to a node of the round. -/
def Meets (rounds : List (List ι)) (round : List ι) (x : ι) : Prop := ∃ m ∈ round, Linked rounds x m

theorem Meets.of_mem (hx : x ∈ round) : Meets rounds round x := ⟨x, hx, Linked.refl x⟩

theorem Meets.of_linked (h : Meets rounds round x) (hxy : Linked rounds x y) : Meets rounds round y := by
  obtain ⟨m, hm, hxm⟩ := h
  exact ⟨m, hm, hxy.symm.trans hxm⟩

/-- **One more round** links what was linked, and whatever meets it. -/
theorem linked_cons : Linked (round :: rounds) x y ↔
    Linked rounds x y ∨ Meets rounds round x ∧ Meets rounds round y := by
  constructor
  · intro h
    induction h with
    | rel a b hab =>
        obtain ⟨r, hr, ha, hb⟩ := hab
        rcases List.mem_cons.1 hr with rfl | hr
        · exact .inr ⟨.of_mem ha, .of_mem hb⟩
        · exact .inl (.of_mem hr ha hb)
    | refl a => exact .inl (.refl a)
    | symm a b _ ih => exact ih.imp Linked.symm And.symm
    | trans a b c _ _ ih ih' =>
        rcases ih with hab | ⟨ha, hb⟩
        · rcases ih' with hbc | ⟨hb, hc⟩
          · exact .inl (hab.trans hbc)
          · exact .inr ⟨hb.of_linked hab.symm, hc⟩
        · rcases ih' with hbc | ⟨-, hc⟩
          · exact .inr ⟨ha, hb.of_linked hbc⟩
          · exact .inr ⟨ha, hc⟩
  · have hsub : rounds ⊆ round :: rounds := List.subset_cons_self round rounds
    rintro (h | ⟨⟨m, hm, hxm⟩, n, hn, hyn⟩)
    · exact h.mono hsub
    · have hmn : Linked (round :: rounds) m n := .of_mem List.mem_cons_self hm hn
      exact ((hxm.mono hsub).trans hmn).trans (hyn.mono hsub).symm

/-- A round of at most one node links nothing. -/
theorem linked_cons_of_subsingleton (h : ∀ a ∈ round, ∀ b ∈ round, a = b) :
    Linked (round :: rounds) x y ↔ Linked rounds x y := by
  refine ⟨fun hxy => ?_, Linked.mono (List.subset_cons_self round rounds)⟩
  rcases linked_cons.1 hxy with hxy | ⟨⟨m, hm, hxm⟩, n, hn, hyn⟩
  · exact hxy
  · obtain rfl := h m hm n hn
    exact hxm.trans hyn.symm

/-- **Labels tell the components**: two nodes are linked exactly when they have one label. -/
def TellsComponents (rounds : List (List ι)) (label : ι → Option γ) : Prop :=
  ∀ x y, x ≠ y → (Linked rounds x y ↔ ∃ g, label x = some g ∧ label y = some g)

variable {label label' : ι → Option γ}

/-- What meets a round is in it, or shares a label with a node of it. -/
theorem TellsComponents.meets_iff (h : TellsComponents rounds label) : Meets rounds round x ↔
    x ∈ round ∨ ∃ m ∈ round, ∃ g, label x = some g ∧ label m = some g := by
  constructor
  · rintro ⟨m, hm, hxm⟩
    rcases Classical.em (x = m) with rfl | hne
    · exact .inl hm
    · exact .inr ⟨m, hm, (h x m hne).1 hxm⟩
  · rintro (hx | ⟨m, hm, hlabel⟩)
    · exact .of_mem hx
    · rcases Classical.em (x = m) with rfl | hne
      · exact .of_mem hm
      · exact ⟨m, hm, (h x m hne).2 hlabel⟩

/-- **A round keeps the components told**: what meets it takes the label `g₀`, which nothing else
has, and the rest keeps its own. -/
theorem TellsComponents.join {g₀ : γ} (h : TellsComponents rounds label)
    (hmeets : ∀ x, Meets rounds round x → label' x = some g₀)
    (hrest : ∀ x, ¬ Meets rounds round x → label' x = label x ∧ label x ≠ some g₀) :
    TellsComponents (round :: rounds) label' := by
  intro x y hne
  rw [linked_cons]
  by_cases hx : Meets rounds round x <;> by_cases hy : Meets rounds round y
  · exact iff_of_true (.inr ⟨hx, hy⟩) ⟨g₀, hmeets x hx, hmeets y hy⟩
  · refine iff_of_false ?_ ?_
    · rintro (hxy | ⟨-, hy'⟩)
      · exact hy (hx.of_linked hxy)
      · exact hy hy'
    · rintro ⟨g, hgx, hgy⟩
      obtain rfl := Option.some.inj ((hmeets x hx).symm.trans hgx)
      exact (hrest y hy).2 ((hrest y hy).1.symm.trans hgy)
  · refine iff_of_false ?_ ?_
    · rintro (hxy | ⟨hx', -⟩)
      · exact hx (hy.of_linked hxy.symm)
      · exact hx hx'
    · rintro ⟨g, hgx, hgy⟩
      obtain rfl := Option.some.inj ((hmeets y hy).symm.trans hgy)
      exact (hrest x hx).2 ((hrest x hx).1.symm.trans hgx)
  · rw [(hrest x hx).1, (hrest y hy).1, ← h x y hne]
    exact ⟨fun hxy => hxy.resolve_right fun hboth => hx hboth.1, .inl⟩

/-- A round of at most one node keeps them told by the labels there are. -/
theorem TellsComponents.of_subsingleton (h : TellsComponents rounds label)
    (hround : ∀ a ∈ round, ∀ b ∈ round, a = b) (hlabel : label' = label) :
    TellsComponents (round :: rounds) label' := by
  intro x y hne
  rw [linked_cons_of_subsingleton hround, hlabel]
  exact h x y hne

/-- Before any round nothing needs a label. -/
theorem tellsComponents_nil (hnone : ∀ x, label x = none) : TellsComponents ([] : List (List ι)) label := by
  intro x y hne
  rw [linked_nil, hnone x]
  exact iff_of_false hne (by simp)

end Library
