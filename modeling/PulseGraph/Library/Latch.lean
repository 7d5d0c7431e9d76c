/-
# Registers that keep the newest event, behind a latch

A register holds one event.  An offered event replaces it when its version is
greater, unless the value held turns it away: a *locked* value lets only the events
with a key through, a *final* value only events that are final themselves.  An event
that is turned away leaves no trace, not even of its version.

Without a latch the register would be a join: the order of the offers would not
matter.  With it the order does matter, and `Settled` is exactly what a set of events
has to satisfy for every order, with any repeats, to end at the value of the newest
(`value_offerAll`, `exists_perm_value_ne`).
-/

import Mathlib.Data.List.Induction
import Mathlib.Data.List.Nodup
import Mathlib.Data.List.Perm.Lattice
import Mathlib.Order.Lattice

namespace Library

/-- What a latched register reads of its events. -/
structure Latch (ε ν α : Type*) where
  version : ε → ν
  value : ε → α
  key : ε → Bool
  locked : α
  final : α

namespace Latch

variable {ε ν α : Type*} [LinearOrder ν] [DecidableEq α] (L : Latch ε ν α)

/-- The held event does not turn the offered one away. -/
def Admits (held e : ε) : Prop :=
  (L.value held = L.final → L.value e = L.final) ∧
    (L.value held = L.locked → L.key e = true ∨ L.value e = L.final)

instance (held e : ε) : Decidable (L.Admits held e) := inferInstanceAs (Decidable (_ ∧ _))

/-- One offer. -/
def offer : Option ε → ε → Option ε
  | none, e => some e
  | some held, e => if L.Admits held e ∧ L.version held < L.version e then some e else some held

/-- What is held after a list of offers. -/
def offerAll (l : List ε) : Option ε := l.foldl L.offer none

/-- An event that a lock never turns away. -/
def Passes (e : ε) : Prop := L.key e = true ∨ L.value e = L.final

omit [LinearOrder ν] in
instance (e : ε) : Decidable (L.Passes e) := inferInstanceAs (Decidable (_ ∨ _))

/-- No event that passes is newer. -/
def Late (S : List ε) (w : ε) : Prop := ∀ u ∈ S, L.Passes u → L.version u ≤ L.version w

/-- Some event locks, and a later one that passes unlocks. -/
def Reopens (S : List ε) : Prop :=
  ∃ s ∈ S, ∃ u ∈ S, L.value s = L.locked ∧ L.Passes u ∧ L.value u ≠ L.locked ∧
    L.version s < L.version u

/-- Whatever a latch can make the register end at is the value of the event `m`. -/
structure Settled (S : List ε) (m : ε) : Prop where
  final : ∀ d ∈ S, L.value d = L.final → L.value m = L.final
  late : ∀ w ∈ S, L.Late S w → L.value w = L.locked ∨ L.Reopens S → L.value w = L.value m

variable {L} {S l : List ε} {h e m : ε}

@[simp] theorem offer_none : L.offer none e = some e := rfl

theorem offer_of_taken (ha : L.Admits h e) (hv : L.version h < L.version e) :
    L.offer (some h) e = some e := if_pos ⟨ha, hv⟩

theorem offer_of_not (hn : ¬ (L.Admits h e ∧ L.version h < L.version e)) :
    L.offer (some h) e = some h := if_neg hn

/-- Offers none of which is taken change nothing. -/
theorem foldl_offer_of_not (hn : ∀ e ∈ l, ¬ (L.Admits h e ∧ L.version h < L.version e)) :
    l.foldl L.offer (some h) = some h := by
  induction l with
  | nil => rfl
  | cons e l ih =>
      rw [List.foldl_cons, offer_of_not (hn e List.mem_cons_self)]
      exact ih fun e he => hn e (List.mem_cons_of_mem _ he)

/-- Once final, the value held stays final. -/
theorem value_foldl_offer_final (hh : L.value h = L.final) :
    ∃ h', l.foldl L.offer (some h) = some h' ∧ L.value h' = L.final := by
  induction l generalizing h with
  | nil => exact ⟨h, rfl, hh⟩
  | cons e l ih =>
      rw [List.foldl_cons]
      by_cases ht : L.Admits h e ∧ L.version h < L.version e
      · rw [offer_of_taken ht.1 ht.2]
        exact ih (ht.1.1 hh)
      · rw [offer_of_not ht]
        exact ih hh

theorem offerAll_concat : L.offerAll (l ++ [e]) = L.offer (L.offerAll l) e := by
  rw [offerAll, List.foldl_append]
  rfl

/-! ## Settled sets -/

section Settled

variable (hm : ∀ e ∈ S, L.version e ≤ L.version m)
  (hinj : ∀ e ∈ S, ∀ e' ∈ S, L.version e = L.version e' → e = e')

include hm hinj in
/-- A final newest event is held from its first offer on. -/
theorem offerAll_of_final (hmS : m ∈ S) (hf : L.value m = L.final) (hl : ∀ e ∈ l, e ∈ S)
    (hne : l ≠ []) : ∃ h ∈ l, L.offerAll l = some h ∧ (m ∈ l → h = m) := by
  induction l using List.reverseRecOn with
  | nil => exact absurd rfl hne
  | append_singleton l e ih =>
      rw [offerAll_concat]
      rcases eq_or_ne l [] with rfl | hl₀
      · exact ⟨e, by simp, rfl, fun h => (List.mem_singleton.1 h).symm⟩
      obtain ⟨h, hmem, heq, hheld⟩ := ih (fun e he => hl e (List.mem_append_left _ he)) hl₀
      have hS : h ∈ S := hl h (List.mem_append_left _ hmem)
      have he : e ∈ S := hl e (by simp)
      rw [heq]
      by_cases ht : L.Admits h e ∧ L.version h < L.version e
      · refine ⟨e, by simp, offer_of_taken ht.1 ht.2, fun hmem' => ?_⟩
        rcases List.mem_append.1 hmem' with hmem' | hmem'
        · exact absurd ht.2 (not_lt.2 (hheld hmem' ▸ hm e he))
        · exact (List.mem_singleton.1 hmem').symm
      · refine ⟨h, List.mem_append_left _ hmem, offer_of_not ht, fun hmem' => ?_⟩
        rcases List.mem_append.1 hmem' with hmem' | hmem'
        · exact hheld hmem'
        · obtain rfl := List.mem_singleton.1 hmem'
          have hadmits : L.Admits h m := ⟨fun _ => hf, fun _ => .inr hf⟩
          exact hinj h hS m hmS (le_antisymm (hm h hS) (not_lt.1 fun hv => ht ⟨hadmits, hv⟩))

include hm hinj in
/-- **What a register can hold when nothing offered is final:** an event of the list, no
older than any that passes, which is the newest, or locked, or held after a lock was
opened again. -/
theorem offerAll_of_not_final (hf : ∀ e ∈ S, L.value e ≠ L.final) (hmS : m ∈ S)
    (hl : ∀ e ∈ l, e ∈ S) (hne : l ≠ []) :
    ∃ h ∈ l, L.offerAll l = some h ∧ L.Late l h ∧
      (m ∈ l → h = m ∨ L.value h = L.locked ∨ L.Reopens S) := by
  induction l using List.reverseRecOn with
  | nil => exact absurd rfl hne
  | append_singleton l e ih =>
      rw [offerAll_concat]
      rcases eq_or_ne l [] with rfl | hl₀
      · refine ⟨e, by simp, rfl, fun u hu _ => ?_, fun h => .inl (List.mem_singleton.1 h).symm⟩
        rw [List.mem_singleton.1 hu]
      obtain ⟨h, hmem, heq, hlate, hheld⟩ := ih (fun e he => hl e (List.mem_append_left _ he)) hl₀
      have hS : h ∈ S := hl h (List.mem_append_left _ hmem)
      have he : e ∈ S := hl e (by simp)
      rw [heq]
      by_cases ht : L.Admits h e ∧ L.version h < L.version e
      · refine ⟨e, by simp, offer_of_taken ht.1 ht.2, fun u hu hp => ?_, fun hmem' => ?_⟩
        · rcases List.mem_append.1 hu with hu | hu
          · exact (hlate u hu hp).trans ht.2.le
          · rw [List.mem_singleton.1 hu]
        · rcases List.mem_append.1 hmem' with hmem' | hmem'
          · rcases hheld hmem' with rfl | hlocked | hreopens
            · exact absurd ht.2 (not_lt.2 (hm e he))
            · rcases eq_or_ne (L.value e) L.locked with helocked | helocked
              · exact .inr (.inl helocked)
              · exact .inr (.inr ⟨h, hS, e, he, hlocked, ht.1.2 hlocked, helocked, ht.2⟩)
            · exact .inr (.inr hreopens)
          · exact .inl (List.mem_singleton.1 hmem').symm
      · refine ⟨h, List.mem_append_left _ hmem, offer_of_not ht, fun u hu hp => ?_,
          fun hmem' => ?_⟩
        · rcases List.mem_append.1 hu with hu | hu
          · exact hlate u hu hp
          · obtain rfl := List.mem_singleton.1 hu
            have hadmits : L.Admits h u := ⟨fun h' => absurd h' (hf h hS), fun _ => hp⟩
            exact not_lt.1 fun hv => ht ⟨hadmits, hv⟩
        · rcases List.mem_append.1 hmem' with hmem' | hmem'
          · exact hheld hmem'
          · obtain rfl := List.mem_singleton.1 hmem'
            by_cases hlocked : L.value h = L.locked
            · exact .inr (.inl hlocked)
            · have hadmits : L.Admits h m :=
                ⟨fun h' => absurd h' (hf h hS), fun h' => absurd h' hlocked⟩
              exact .inl (hinj h hS m hmS
                (le_antisymm (hm h hS) (not_lt.1 fun hv => ht ⟨hadmits, hv⟩)))

include hm hinj in
/-- **A settled set ends at the value of its newest event**, whatever the order of the
offers and however often each is repeated. -/
theorem value_offerAll (hmS : m ∈ S) (hs : L.Settled S m) (hl : ∀ e, e ∈ l ↔ e ∈ S) :
    ∃ h, L.offerAll l = some h ∧ L.value h = L.value m := by
  have hml : m ∈ l := (hl m).2 hmS
  have hne : l ≠ [] := List.ne_nil_of_mem hml
  by_cases hf : L.value m = L.final
  · obtain ⟨h, -, heq, hh⟩ := offerAll_of_final hm hinj hmS hf (fun e => (hl e).1) hne
    exact ⟨h, heq, by rw [hh hml]⟩
  · have hf' : ∀ e ∈ S, L.value e ≠ L.final := fun e he h => hf (hs.final e he h)
    obtain ⟨h, hmem, heq, hlate, hh⟩ :=
      offerAll_of_not_final hm hinj hf' hmS (fun e => (hl e).1) hne
    refine ⟨h, heq, ?_⟩
    rcases hh hml with rfl | hh
    · rfl
    · exact hs.late h ((hl h).1 hmem) (fun u hu => hlate u ((hl u).2 hu)) hh

end Settled

/-! ## Every other set -/

section Unsettled

variable [DecidableEq ε] {w s u : ε}

/-- The offers a lock turns away, but for one of them. -/
def shut (L : Latch ε ν α) (w : ε) (l : List ε) : List ε :=
  l.filter fun e => ¬ L.Passes e ∧ e ≠ w

/-- The offers a lock lets through, and the one that was left out. -/
def through (L : Latch ε ν α) (w : ε) (l : List ε) : List ε :=
  l.filter fun e => ¬ (¬ L.Passes e ∧ e ≠ w)

omit [LinearOrder ν] in
theorem shut_append_through_perm : (L.shut w l ++ L.through w l).Perm l := by
  simpa only [shut, through, decide_not] using
    List.filter_append_perm (fun e => decide (¬ L.Passes e ∧ e ≠ w)) l

theorem le_of_mem_through (hlate : L.Late S w) (hl : ∀ e ∈ l, e ∈ S) (he : e ∈ L.through w l) :
    L.version e ≤ L.version w := by
  obtain ⟨hel, hp⟩ := List.mem_filter.1 he
  have hp : ¬ (¬ L.Passes e ∧ e ≠ w) := of_decide_eq_true hp
  by_cases hpass : L.Passes e
  · exact hlate e (hl e hel) hpass
  · rw [not_not.1 fun h => hp ⟨hpass, h⟩]

omit [LinearOrder ν] in
theorem mem_through (hl : e ∈ l) (hp : L.Passes e ∨ e = w) : e ∈ L.through w l :=
  List.mem_filter.2 ⟨hl, decide_eq_true fun h => hp.elim h.1 h.2⟩

/-- A locked event turns the shut offers away. -/
theorem foldl_offer_shut (hs : L.value s = L.locked) :
    (L.shut w l).foldl L.offer (some s) = some s :=
  foldl_offer_of_not fun e he ht => by
    have hshut : ¬ L.Passes e ∧ e ≠ w := of_decide_eq_true (List.mem_filter.1 he).2
    exact hshut.1 (ht.1.2 hs)

/-- **The order that ends at `w`:** lock, let everything the lock turns away be turned
away, open, and then offer `w` before the rest. -/
theorem exists_perm_of_reopens (hinj : ∀ e ∈ S, ∀ e' ∈ S,
    L.version e = L.version e' → e = e') (hf : ∀ e ∈ S, L.value e ≠ L.final) (hs : s ∈ S)
    (hu : u ∈ S) (hw : w ∈ S) (hlocked : L.value s = L.locked) (hp : L.Passes u)
    (hopen : L.value u ≠ L.locked) (hlt : L.version s < L.version u) (hlate : L.Late S w) :
    ∃ l : List ε, l.Perm S ∧ L.offerAll l = some w := by
  have hus : u ≠ s := fun h => absurd (h ▸ hlt) (lt_irrefl _)
  have huw : L.version u ≤ L.version w := hlate u hu hp
  have hws : w ≠ s := fun h => absurd (hlt.trans_le (h ▸ huw)) (lt_irrefl _)
  have hrest : ∀ e ∈ S.erase s, e ∈ S := fun e => List.mem_of_mem_erase
  set A := L.shut w (S.erase s) with hA
  set B := L.through w (S.erase s) with hB
  have huB : u ∈ B := mem_through ((List.mem_erase_of_ne hus).2 hu) (.inl hp)
  have hwB : w ∈ B := mem_through ((List.mem_erase_of_ne hws).2 hw) (.inr rfl)
  have hperm : (s :: (A ++ B)).Perm S :=
    (shut_append_through_perm.cons s).trans (List.perm_cons_erase hs).symm
  have hadmits : L.Admits s u := ⟨fun h => absurd h (hf s hs), fun _ => hp⟩
  -- nothing that is offered after `w` is newer
  have hstays : ∀ l : List ε, (∀ e ∈ l, e ∈ B) → l.foldl L.offer (some w) = some w :=
    fun l hl => foldl_offer_of_not fun e he ht =>
      absurd ht.2 (not_lt.2 (le_of_mem_through hlate hrest (hl e he)))
  by_cases heq : w = u
  · refine ⟨s :: (A ++ w :: B.erase w), ?_, ?_⟩
    · exact (((List.perm_cons_erase hwB).symm.append_left A).cons s).trans hperm
    · rw [offerAll, List.foldl_cons, offer_none, List.foldl_append, foldl_offer_shut hlocked,
        List.foldl_cons, offer_of_taken (heq ▸ hadmits) (heq ▸ hlt)]
      exact hstays _ fun e => List.mem_of_mem_erase
  · have hwR : w ∈ B.erase u := (List.mem_erase_of_ne heq).2 hwB
    have hlt' : L.version u < L.version w :=
      huw.lt_of_ne fun h => heq (hinj w hw u hu h.symm)
    have hadmits' : L.Admits u w := ⟨fun h => absurd h (hf u hu), fun h => absurd h hopen⟩
    refine ⟨s :: (A ++ u :: w :: (B.erase u).erase w), ?_, ?_⟩
    · have hB' : (u :: w :: (B.erase u).erase w).Perm B :=
        ((List.perm_cons_erase hwR).symm.cons u).trans (List.perm_cons_erase huB).symm
      exact ((hB'.append_left A).cons s).trans hperm
    · rw [offerAll, List.foldl_cons, offer_none, List.foldl_append, foldl_offer_shut hlocked,
        List.foldl_cons, offer_of_taken hadmits hlt, List.foldl_cons, offer_of_taken hadmits' hlt']
      exact hstays _ fun e he => List.mem_of_mem_erase (List.mem_of_mem_erase he)

/-- **A set that is not settled has an order that ends elsewhere**, with no event offered
twice. -/
theorem exists_perm_value_ne (hm : ∀ e ∈ S, L.version e ≤ L.version m)
    (hinj : ∀ e ∈ S, ∀ e' ∈ S, L.version e = L.version e' → e = e') (hmS : m ∈ S)
    (hns : ¬ L.Settled S m) :
    ∃ l : List ε, l.Perm S ∧ ∃ h, L.offerAll l = some h ∧ L.value h ≠ L.value m := by
  by_cases hfinal : ∀ d ∈ S, L.value d = L.final → L.value m = L.final
  · obtain ⟨w, hw, hlate, hw', hne⟩ : ∃ w ∈ S, L.Late S w ∧
        (L.value w = L.locked ∨ L.Reopens S) ∧ L.value w ≠ L.value m := by
      by_contra hcon
      exact hns ⟨hfinal, fun w hw hlate h => not_not.1 fun hne => hcon ⟨w, hw, hlate, h, hne⟩⟩
    have hmf : L.value m ≠ L.final := fun hf => hne (by
      rw [hinj w hw m hmS (le_antisymm (hm w hw) (hlate m hmS (.inr hf)))])
    have hf : ∀ e ∈ S, L.value e ≠ L.final := fun e he h => hmf (hfinal e he h)
    by_cases hlocked : L.value w = L.locked
    · refine ⟨w :: S.erase w, (List.perm_cons_erase hw).symm, w, ?_, hne⟩
      rw [offerAll, List.foldl_cons, offer_none]
      refine foldl_offer_of_not fun e he ht => ?_
      exact absurd ht.2 (not_lt.2 (hlate e (List.mem_of_mem_erase he) (ht.1.2 hlocked)))
    · obtain ⟨s, hs, u, hu, hsl, hp, hopen, hlt⟩ := hw'.resolve_left hlocked
      obtain ⟨l, hperm, heq⟩ :=
        exists_perm_of_reopens hinj hf hs hu hw hsl hp hopen hlt hlate
      exact ⟨l, hperm, w, heq, hne⟩
  · obtain ⟨d, hd, hdf, hmf⟩ : ∃ d ∈ S, L.value d = L.final ∧ L.value m ≠ L.final := by
      by_contra hcon
      exact hfinal fun d hd hdf => not_not.1 fun hmf => hcon ⟨d, hd, hdf, hmf⟩
    obtain ⟨h, heq, hh⟩ := value_foldl_offer_final (l := S.erase d) hdf
    exact ⟨d :: S.erase d, (List.perm_cons_erase hd).symm, h, heq, hh ▸ hmf.symm⟩

end Unsettled

end Latch
end Library
