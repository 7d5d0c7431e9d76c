/-
# A collapse, exactly

`Outbox.Recovery` says what collapsing some channels does to every row, whatever the order of
the channels.  What one call of `coalesce_pending` does is more: the newest row that waits for
an incident is the only one that still does, and it has the newest marker of its group, on
whichever row that was.

**Proved here.**  The groups are worked through one after the other on the queue they are read
from, but each of them reads and writes its own rows alone (`foldl_coalesceGroup_find?`), so
the queue after all of them is known row by row.  `coalescePending_exact` has the
whole contract: winners, losers, markers, the rest of the queue, the number that is
returned, and that a second call finds nothing to do.
-/

import PulseGraph.Outbox.Recovery

namespace PulseGraph

open Library (Table)

variable {K : Type}

/-! ## The contract -/

/-- Row `k` waits for the incident on the channel. -/
structure Waits (channel : Channel) (q : Table ℕ OutboxRow) (x : String) (k : ℕ) (r : OutboxRow) : Prop where
  row : q.find? k = some r
  pending : isPendingFor channel x r = true

/-- Row `j` is the newest that waits for the incident on the channel. -/
structure NewestWaiting (channel : Channel) (q : Table ℕ OutboxRow) (x : String) (j : ℕ) : Prop where
  waits : ∃ w, Waits channel q x j w
  newest : ∀ k r, Waits channel q x k r → k ≤ j

/-- The newest marker on a row that waits for the incident: the rows after it have none. -/
def NewestMarker (channel : Channel) (q : Table ℕ OutboxRow) (x : String) : Option FallbackMarker → Prop
  | none => ∀ k r, Waits channel q x k r → r.payload.deliveredViaFallback = none
  | some via => ∃ k r, Waits channel q x k r ∧ r.payload.deliveredViaFallback = some via ∧
      ∀ k' r', Waits channel q x k' r' → k < k' → r'.payload.deliveredViaFallback = none

/-- A row with another marker, or with none. -/
def OutboxRow.withMarker (via : Option FallbackMarker) (r : OutboxRow) : OutboxRow :=
  { r with payload := { r.payload with deliveredViaFallback := via } }

/-- The row is superseded, and was not. -/
def newlySuperseded (q : Table ℕ OutboxRow) (k : ℕ) (r : OutboxRow) : Bool :=
  r.status = .superseded && !(q.find? k).any fun r₀ => r₀.status = .superseded

/-- **Collapsing a channel** takes the queue `q` to the queue `q'` and returns `n`. -/
structure Coalesced (channel : Channel) (q : Table ℕ OutboxRow) (n : ℕ) (q' : Table ℕ OutboxRow) : Prop where
  one : ∀ x, (∃ k r, Waits channel q x k r) → ∃! j, ∃ w, Waits channel q' x j w
  newest : ∀ x j w, Waits channel q' x j w → NewestWaiting channel q x j
  winner : ∀ x j r, NewestWaiting channel q x j → q.find? j = some r →
    ∃ via, NewestMarker channel q x via ∧ q'.find? j = some (r.withMarker via)
  loser : ∀ x j k r, NewestWaiting channel q x j → Waits channel q x k r → k ≠ j → q'.find? k = some (r.supersede j)
  others : ∀ k r, q.find? k = some r → ¬ (r.channel = channel ∧ r.status = .pending) → q'.find? k = some r
  nothing : ∀ k, q.find? k = none → q'.find? k = none
  count : n = q'.count (newlySuperseded q)

section Groups

variable {q q' : Table ℕ OutboxRow} {channel : Channel} {db : Database K} {x y : String}

theorem Waits.unique {k : ℕ} {r : OutboxRow} (h : Waits channel q x k r) (h' : Waits channel q y k r) :
    x = y := by
  obtain ⟨-, -, hx⟩ := isPendingFor_iff.1 h.pending
  obtain ⟨-, -, hy⟩ := isPendingFor_iff.1 h'.pending
  exact hx.symm.trans hy

theorem NewestWaiting.unique {j j' : ℕ} (h : NewestWaiting channel q x j) (h' : NewestWaiting channel q x j') :
    j = j' := by
  obtain ⟨w, hw⟩ := h.waits
  obtain ⟨w', hw'⟩ := h'.waits
  exact le_antisymm (h'.newest j w hw) (h.newest j' w' hw')

/-- The rows that wait have a newest one. -/
theorem exists_newest {k : ℕ} {r : OutboxRow} (h : Waits channel q x k r) : ∃ j, NewestWaiting channel q x j := by
  have hmem : ∀ {k r}, (k, r) ∈ q.select (fun _ r => isPendingFor channel x r) ↔ Waits channel q x k r := by
    intro k r
    rw [Table.mem_select]
    exact ⟨fun h => ⟨h.1, h.2⟩, fun h => ⟨h.row, h.pending⟩⟩
  have hne : (q.select (fun _ r => isPendingFor channel x r)).map Prod.fst ≠ [] :=
    List.ne_nil_of_mem (List.mem_map.2 ⟨(k, r), hmem.2 h, rfl⟩)
  obtain ⟨⟨j, w⟩, hw, hj⟩ := List.mem_map.1 (Table.foldr_max_mem hne)
  refine ⟨j, ⟨w, hmem.1 hw⟩, fun k' r' h' => ?_⟩
  have hin : k' ∈ (q.select fun _ r => isPendingFor channel x r).map Prod.fst :=
    List.mem_map.2 ⟨(k', r'), hmem.2 h', rfl⟩
  have hle := Table.le_foldr_max hin
  rwa [← hj] at hle

/-- The first in an order of numbers from the greatest down has the greatest. -/
theorem le_of_firstBy {α : Type*} {l : List (ℕ × α)} {r : ℕ × α}
    (h : firstBy (fun a b => decide (b.1 < a.1)) l = some r) {s : ℕ × α} (hs : s ∈ l) : s.1 ≤ r.1 := by
  induction l generalizing r with
  | nil => simp at hs
  | cons a l ih =>
      rw [firstBy] at h
      cases hrest : firstBy (fun a b => decide (b.1 < a.1)) l with
      | none =>
          have hnil : l = [] := by
            cases l with
            | nil => rfl
            | cons b l =>
                rw [firstBy] at hrest
                split at hrest <;> simp at hrest
          rw [hnil, List.mem_singleton] at hs
          rw [hrest] at h
          obtain rfl := Option.some.inj h
          rw [hs]
      | some b =>
          rw [hrest] at h
          obtain rfl := Option.some.inj h
          rcases List.mem_cons.1 hs with rfl | hs
          · split_ifs with hlt
            · exact (of_decide_eq_true hlt).le
            · exact le_refl _
          · have hb := ih hrest hs
            split_ifs with hlt
            · exact hb
            · exact hb.trans (not_lt.1 fun h => hlt (decide_eq_true h))

/-- `coalesce_pending` reads the newest marker of the group. -/
theorem carriedMarker_newest : NewestMarker channel q x (carriedMarker channel x q) := by
  have hmem : ∀ {k r}, (k, r) ∈ (q.select fun _ r => isPendingFor channel x r &&
      r.payload.deliveredViaFallback.isSome) ↔
      Waits channel q x k r ∧ r.payload.deliveredViaFallback.isSome = true := by
    intro k r
    rw [Table.mem_select, Bool.and_eq_true]
    exact ⟨fun h => ⟨⟨h.1, h.2.1⟩, h.2.2⟩, fun h => ⟨h.1.row, h.1.pending, h.2⟩⟩
  unfold carriedMarker
  cases hfirst : firstBy (fun a b => decide (b.1 < a.1)) (q.select fun _ r => isPendingFor channel x r &&
      r.payload.deliveredViaFallback.isSome) with
  | none =>
      intro k r hr
      by_contra hsome
      have hin := hmem.2 ⟨hr, Option.isSome_iff_ne_none.2 hsome⟩
      cases hl : (q.select fun _ r => isPendingFor channel x r && r.payload.deliveredViaFallback.isSome) with
      | nil => rw [hl] at hin; exact List.not_mem_nil hin
      | cons a l =>
          rw [hl, firstBy] at hfirst
          split at hfirst <;> simp at hfirst
  | some w =>
      obtain ⟨k, r⟩ := w
      obtain ⟨hr, hsome⟩ := hmem.1 (firstBy_mem hfirst)
      obtain ⟨via, hvia⟩ := Option.isSome_iff_exists.1 hsome
      show NewestMarker channel q x r.payload.deliveredViaFallback
      rw [hvia]
      refine ⟨k, r, hr, hvia, fun k' r' hr' hlt => ?_⟩
      by_contra hsome'
      have hin := hmem.2 ⟨hr', Option.isSome_iff_ne_none.2 hsome'⟩
      exact absurd (le_of_firstBy hfirst hin) (not_le.2 hlt)

/-- There is one newest marker. -/
theorem NewestMarker.unique {via via' : Option FallbackMarker} (h : NewestMarker channel q x via)
    (h' : NewestMarker channel q x via') : via = via' := by
  cases via with
  | none =>
      cases via' with
      | none => rfl
      | some v' =>
          obtain ⟨k, r, hr, hv, -⟩ := h'
          rw [h k r hr] at hv
          cases hv
  | some v =>
      obtain ⟨k, r, hr, hv, hlast⟩ := h
      cases via' with
      | none =>
          rw [h' k r hr] at hv
          cases hv
      | some v' =>
          obtain ⟨k', r', hr', hv', hlast'⟩ := h'
          rcases lt_trichotomy k k' with hlt | rfl | hlt
          · rw [hlast k' r' hr' hlt] at hv'
            cases hv'
          · obtain rfl := Option.some.inj (hr.row.symm.trans hr'.row)
            rw [← hv, ← hv']
          · rw [hlast' k r hr hlt] at hv
            cases hv

/-- The marker is read off the rows that wait for the incident. -/
theorem NewestMarker.congr {via : Option FallbackMarker}
    (hq : ∀ k r, Waits channel q' x k r ↔ Waits channel q x k r) (h : NewestMarker channel q x via) :
    NewestMarker channel q' x via := by
  cases via with
  | none => exact fun k r hr => h k r ((hq k r).1 hr)
  | some via =>
      obtain ⟨k, r, hr, hv, hlast⟩ := h
      exact ⟨k, r, (hq k r).2 hr, hv, fun k' r' hr' => hlast k' r' ((hq k' r').1 hr')⟩

theorem carriedMarker_congr (hq : ∀ k r, Waits channel q' x k r ↔ Waits channel q x k r) :
    carriedMarker channel x q' = carriedMarker channel x q :=
  carriedMarker_newest.unique (carriedMarker_newest.congr hq)

/-- The groups of a collapse have a newest row. -/
theorem newest_of_mem {j : ℕ} (h : (x, j) ∈ coalesceGroups channel db) : NewestWaiting channel db.outbox x j := by
  obtain ⟨⟨w, hw, hp⟩, hmax⟩ := mem_coalesceGroups h
  exact ⟨⟨w, hw, hp⟩, fun k r hr => hmax k r hr.row hr.pending⟩

/-- Each incident has one group. -/
theorem coalesceGroups_nodup (channel : Channel) (db : Database K) :
    ((coalesceGroups channel db).map Prod.fst).Nodup := by
  unfold coalesceGroups
  dsimp only
  generalize hids : (List.map (fun r : ℕ × OutboxRow => r.2.incidentId)
    (db.outbox.select fun _ r => r.channel = channel && r.status = .pending)).dedup = ids
  have hnodup : ids.Nodup := hids ▸ List.nodup_dedup _
  rw [List.map_filterMap]
  refine hnodup.filterMap fun a b z ha hb => ?_
  simp only [Option.mem_def, Option.map_eq_some_iff] at ha hb
  obtain ⟨g, hg, rfl⟩ := ha
  obtain ⟨g', hg', hfst⟩ := hb
  split_ifs at hg
  split_ifs at hg'
  obtain rfl := Option.some.inj hg
  obtain rfl := Option.some.inj hg'
  exact hfst.symm

/-- Where one row at most waits for each incident there is nothing to collapse. -/
theorem coalesceGroups_eq_nil (h : OneWaits channel db.outbox) : coalesceGroups channel db = [] := by
  refine List.eq_nil_iff_forall_not_mem.2 fun ⟨x, j⟩ hmem => ?_
  unfold coalesceGroups at hmem
  dsimp only at hmem
  obtain ⟨x', -, hx⟩ := List.mem_filterMap.1 hmem
  split_ifs at hx with hlen
  generalize hl : ((db.outbox.select fun _ r => r.channel = channel && r.status = .pending).filter
    fun r => r.2.incidentId = x') = l at hlen
  have hwaits : ∀ {k r}, (k, r) ∈ l → db.outbox.find? k = some r ∧ isPendingFor channel x' r = true := by
    intro k r hr
    rw [← hl, List.mem_filter, Table.mem_select] at hr
    simp only [Bool.and_eq_true, decide_eq_true_eq] at hr
    exact ⟨hr.1.1, isPendingFor_iff.2 ⟨hr.1.2.1, hr.1.2.2, hr.2⟩⟩
  have hnodup : (l.map Prod.fst).Nodup := by
    rw [← hl]
    exact (List.filter_sublist.map Prod.fst).nodup (Table.nodup_select _ _)
  clear hl hx
  rcases l with _ | ⟨⟨k, r⟩, _ | ⟨⟨k', r'⟩, l⟩⟩
  · simp at hlen
  · simp at hlen
  · obtain ⟨hr, hp⟩ := hwaits List.mem_cons_self
    obtain ⟨hr', hp'⟩ := hwaits (List.mem_cons_of_mem _ List.mem_cons_self)
    have hkk := h x' k r k' r' hr hp hr' hp'
    simp [hkk] at hnodup

end Groups

/-! ## One group after the other -/

section Loop

variable {q : Table ℕ OutboxRow} {channel : Channel} {db : Database K} {x y : String}
  {s : ℕ × Table ℕ OutboxRow} {j k : ℕ} {r : OutboxRow}

/-- A group takes its marker to its winner. -/
theorem coalesceGroup_winner (hr : s.2.find? j = some r) (hp : isPendingFor channel x r = true) :
    ∃ via, NewestMarker channel s.2 x via ∧
      (coalesceGroup channel s (x, j)).2.find? j = some (r.withMarker via) := by
  refine ⟨carriedMarker channel x s.2, carriedMarker_newest, ?_⟩
  unfold coalesceGroup
  dsimp only
  rw [Table.find?_update]
  cases hvia : carriedMarker channel x s.2 with
  | none =>
      dsimp only
      -- no row of the group has a marker, so the winner's own is none
      have hnone : NewestMarker channel s.2 x none := hvia ▸ carriedMarker_newest
      have hown : r.withMarker none = r := by
        unfold OutboxRow.withMarker
        rw [← hnone j r ⟨hr, hp⟩]
      rw [hr, hown]
      simp
  | some via =>
      dsimp only
      rw [Table.find?_modify, if_pos rfl, hr]
      simp only [Option.map_some, lt_irrefl, decide_false, Bool.and_false, Bool.false_eq_true, if_false]
      rfl

/-- It supersedes its other rows. -/
theorem coalesceGroup_loser (hr : s.2.find? k = some r) (hp : isPendingFor channel x r = true) (hlt : k < j) :
    (coalesceGroup channel s (x, j)).2.find? k = some (r.supersede j) := by
  obtain ⟨r₁, hr₁, hfind⟩ := @find?_coalesceGroup channel s x j k r hr
  obtain rfl : r₁ = r := hr₁.resolve_right fun h => absurd h.1 hlt.ne
  rw [hfind, hp, decide_eq_true hlt]
  rfl

/-- It leaves the rows of the other incidents alone. -/
theorem coalesceGroup_other {w : OutboxRow} (hw : s.2.find? j = some w) (hwx : w.incidentId = x)
    (hr : s.2.find? k = some r) (hrx : r.incidentId ≠ x) :
    (coalesceGroup channel s (x, j)).2.find? k = some r := by
  obtain ⟨r₁, hr₁, hfind⟩ := @find?_coalesceGroup channel s x j k r hr
  have hkj : k ≠ j := by
    rintro rfl
    obtain rfl := Option.some.inj (hw.symm.trans hr)
    exact hrx hwx
  obtain rfl : r₁ = r := hr₁.resolve_right fun h => hkj h.1
  have hnot : isPendingFor channel x r₁ = false := by
    rw [Bool.eq_false_iff]
    exact fun hp => hrx (isPendingFor_iff.1 hp).2.2
  rw [hfind, hnot]
  rfl

/-- It keeps the incident of every row. -/
theorem coalesceGroup_incidentId (hr : s.2.find? k = some r) :
    ∃ r', (coalesceGroup channel s (x, j)).2.find? k = some r' ∧ r'.incidentId = r.incidentId := by
  obtain ⟨r₁, hr₁, hfind⟩ := @find?_coalesceGroup channel s x j k r hr
  refine ⟨_, hfind, ?_⟩
  have hid : r₁.incidentId = r.incidentId := by
    rcases hr₁ with rfl | ⟨-, via, rfl⟩
    · rfl
    · rfl
  split_ifs
  · exact hid
  · exact hid

/-- What waits for another incident still does, and nothing else. -/
theorem coalesceGroup_waits {w : OutboxRow} (hw : s.2.find? j = some w) (hwx : w.incidentId = x)
    (hy : y ≠ x) (k : ℕ) (r : OutboxRow) :
    Waits channel (coalesceGroup channel s (x, j)).2 y k r ↔ Waits channel s.2 y k r := by
  constructor
  · intro ⟨hr, hp⟩
    obtain ⟨r₀, hr₀, hp₀, -⟩ := coalesceGroup_source hr hp
    have hid := (isPendingFor_iff.1 hp₀).2.2
    have hkept := @coalesceGroup_other channel x s j k r₀ w hw hwx hr₀ fun h => hy (hid.symm.trans h)
    obtain rfl := Option.some.inj (hr.symm.trans hkept)
    exact ⟨hr₀, hp₀⟩
  · intro ⟨hr, hp⟩
    have hid := (isPendingFor_iff.1 hp).2.2
    exact ⟨coalesceGroup_other hw hwx hr fun h => hy (hid.symm.trans h), hp⟩

/-- A group writes what it reads of its own rows alone. -/
theorem coalesceGroup_congr {s' : ℕ × Table ℕ OutboxRow} (hr : s.2.find? k = some r)
    (hr' : s'.2.find? k = some r) (hq : ∀ k r, Waits channel s'.2 y k r ↔ Waits channel s.2 y k r) :
    (coalesceGroup channel s' (y, j)).2.find? k = (coalesceGroup channel s (y, j)).2.find? k := by
  unfold coalesceGroup
  dsimp only
  rw [carriedMarker_congr hq]
  cases carriedMarker channel y s.2 with
  | none =>
      dsimp only
      rw [Table.find?_update, Table.find?_update, hr, hr']
  | some via =>
      dsimp only
      rw [Table.find?_update, Table.find?_update, Table.find?_modify, Table.find?_modify]
      by_cases hk : k = j
      · rw [if_pos hk, if_pos hk, ← hk, hr, hr']
      · rw [if_neg hk, if_neg hk, hr, hr']

/-- **The groups do not meet**: after all of them a row is as the group of its incident alone
leaves it. -/
theorem foldl_coalesceGroup_find? {gs : List (String × ℕ)} (hnodup : (gs.map Prod.fst).Nodup)
    (hwins : ∀ x j, (x, j) ∈ gs → ∃ w, s.2.find? j = some w ∧ w.incidentId = x)
    (hr : s.2.find? k = some r) :
    (∀ j, (r.incidentId, j) ∈ gs → (gs.foldl (coalesceGroup channel) s).2.find? k =
      (coalesceGroup channel s (r.incidentId, j)).2.find? k) ∧
    (r.incidentId ∉ gs.map Prod.fst → (gs.foldl (coalesceGroup channel) s).2.find? k = some r) := by
  induction gs generalizing s r with
  | nil => exact ⟨fun j hj => absurd hj List.not_mem_nil, fun _ => hr⟩
  | cons g gs ih =>
      obtain ⟨x, j⟩ := g
      obtain ⟨hx, hnodup⟩ := List.nodup_cons.1 hnodup
      obtain ⟨w, hw, hwx⟩ := hwins x j List.mem_cons_self
      have hwins' : ∀ y i, (y, i) ∈ gs →
          ∃ w, (coalesceGroup channel s (x, j)).2.find? i = some w ∧ w.incidentId = y := by
        intro y i hi
        obtain ⟨v, hv, hvy⟩ := hwins y i (List.mem_cons_of_mem _ hi)
        obtain ⟨v', hv', hid⟩ := @coalesceGroup_incidentId channel x s j i v hv
        exact ⟨v', hv', hid.trans hvy⟩
      obtain ⟨r₁, hr₁, hid⟩ := @coalesceGroup_incidentId channel x s j k r hr
      obtain ⟨hin, hout⟩ := ih hnodup hwins' hr₁
      by_cases hrx : r.incidentId = x
      · -- the group of the row is this one, and none comes after it
        have hrest := hout (by rw [hid, hrx]; exact hx)
        constructor
        · intro i hi
          obtain rfl : i = j := by
            rcases List.mem_cons.1 hi with heq | hi
            · exact (Prod.mk.inj heq).2
            · exact absurd (List.mem_map.2 ⟨_, hi, hrx⟩) hx
          rw [List.foldl_cons, hrest, hrx, hr₁]
        · intro hnot
          exact absurd (List.mem_map.2 ⟨_, List.mem_cons_self, hrx.symm⟩) hnot
      · have hkept := @coalesceGroup_other channel x s j k r w hw hwx hr hrx
        obtain rfl := Option.some.inj (hr₁.symm.trans hkept)
        constructor
        · intro i hi
          have hi : (r₁.incidentId, i) ∈ gs := by
            rcases List.mem_cons.1 hi with heq | hi
            · exact absurd (Prod.mk.inj heq).1 hrx
            · exact hi
          rw [List.foldl_cons, hin i hi]
          exact coalesceGroup_congr hr hkept fun k r => coalesceGroup_waits hw hwx hrx k r
        · intro hnot
          rw [List.foldl_cons]
          exact hout fun h => hnot (List.mem_cons_of_mem _ h)

theorem foldl_coalesceGroup_none {gs : List (String × ℕ)} (hk : s.2.find? k = none) :
    (gs.foldl (coalesceGroup channel) s).2.find? k = none := by
  induction gs generalizing s with
  | nil => exact hk
  | cons g gs ih => exact ih (find?_coalesceGroup_none hk)

/-- The rows superseded so far are counted, and what waits for an incident did so at the start. -/
structure CountsSuperseded (channel : Channel) (q : Table ℕ OutboxRow) (s : ℕ × Table ℕ OutboxRow) : Prop where
  count : s.1 = s.2.count (newlySuperseded q)
  waited : ∀ x k r, Waits channel s.2 x k r → ∃ r₀, Waits channel q x k r₀

/-- None is superseded at the start that was not. -/
theorem newlySuperseded_start : q.count (newlySuperseded q) = 0 := by
  unfold Table.count
  rw [List.countP_eq_zero]
  rintro ⟨k, r⟩ hmem
  rw [newlySuperseded, Table.find?_eq_some_iff.2 hmem]
  simp

/-- A group counts the rows it supersedes. -/
theorem CountsSuperseded.step (h : CountsSuperseded channel q s) (g : String × ℕ) :
    CountsSuperseded channel q (coalesceGroup channel s g) := by
  obtain ⟨x, j⟩ := g
  refine ⟨?_, fun y k r hr => ?_⟩
  · -- the marker changes no status
    obtain ⟨marked, heq, hcount, hwaited⟩ : ∃ marked, coalesceGroup channel s (x, j) =
        (s.1 + marked.count (fun k r => isPendingFor channel x r && decide (k < j)),
          marked.update fun k r => if isPendingFor channel x r && decide (k < j) then r.supersede j else r) ∧
        marked.count (newlySuperseded q) = s.2.count (newlySuperseded q) ∧
        ∀ k r, Waits channel marked x k r → ∃ r₀, Waits channel q x k r₀ := by
      unfold coalesceGroup
      dsimp only
      cases carriedMarker channel x s.2 with
      | none => exact ⟨s.2, rfl, rfl, h.waited x⟩
      | some via =>
          refine ⟨s.2.modify j (OutboxRow.markFallback via), rfl, ?_, fun k r ⟨hrow, hp⟩ => ?_⟩
          · rw [Table.count_eq_sum, Table.count_eq_sum]
            refine Table.sum_update fun k r => ?_
            by_cases hk : k = j
            · rw [if_pos hk]
              rfl
            · rw [if_neg hk]
          · rw [Table.find?_modify] at hrow
            split_ifs at hrow with hk
            · obtain ⟨r₁, hr₁, rfl⟩ := Option.map_eq_some_iff.1 hrow
              exact hk ▸ h.waited x j r₁ ⟨hr₁, hp⟩
            · exact h.waited x k r ⟨hrow, hp⟩
    rw [heq]
    dsimp only
    rw [h.count, ← hcount]
    refine (Table.count_update (fun k r hr hl => ?_) fun k r hl => ?_).symm
    · obtain ⟨hp, -⟩ := Bool.and_eq_true_iff.1 hl
      obtain ⟨r₀, hr₀⟩ := hwaited k r ⟨hr, hp⟩
      have hpending := (isPendingFor_iff.1 hp).2.1
      have hpending₀ := (isPendingFor_iff.1 hr₀.pending).2.1
      constructor
      · simp [newlySuperseded, hpending]
      · rw [if_pos hl]
        simp [newlySuperseded, OutboxRow.supersede, hr₀.row, hpending₀]
    · rw [hl]
      rfl
  · obtain ⟨r₀, hr₀, hp₀, -⟩ := coalesceGroup_source hr.row hr.pending
    exact h.waited y k r₀ ⟨hr₀, hp₀⟩

end Loop

/-! ## The whole call -/

section Exact

variable {channel : Channel} {db : Database K} {x : String} {j k : ℕ} {r : OutboxRow}

/-- A row that waits where no other does is no group. -/
theorem not_mem_coalesceGroups (hr : Waits channel db.outbox x k r)
    (hout : x ∉ (coalesceGroups channel db).map Prod.fst) {k' : ℕ} {r' : OutboxRow}
    (hr' : Waits channel db.outbox x k' r') : k' = k := by
  by_contra hne
  obtain ⟨j, hj⟩ := exists_mem_coalesceGroups hr.row hr.pending hr'.row hr'.pending (Ne.symm hne)
  exact hout (List.mem_map.2 ⟨_, hj, rfl⟩)

/-- **After a collapse** the row of a group is what its group alone leaves, and the others are as
they were. -/
theorem coalescePending_find? (hr : db.outbox.find? k = some r) :
    (∀ j, (r.incidentId, j) ∈ coalesceGroups channel db → (coalescePending channel db).2.outbox.find? k =
      (coalesceGroup channel (0, db.outbox) (r.incidentId, j)).2.find? k) ∧
    (r.incidentId ∉ (coalesceGroups channel db).map Prod.fst →
      (coalescePending channel db).2.outbox.find? k = some r) := by
  unfold coalescePending
  refine @foldl_coalesceGroup_find? channel (0, db.outbox) k r _ (coalesceGroups_nodup channel db)
    (fun x j hj => ?_) hr
  obtain ⟨w, hw⟩ := (newest_of_mem hj).waits
  exact ⟨w, hw.row, (isPendingFor_iff.1 hw.pending).2.2⟩

/-- The winner has the newest marker. -/
theorem coalescePending_winner (h : NewestWaiting channel db.outbox x j) (hr : db.outbox.find? j = some r) :
    ∃ via, NewestMarker channel db.outbox x via ∧
      (coalescePending channel db).2.outbox.find? j = some (r.withMarker via) := by
  obtain ⟨w, hw⟩ := h.waits
  obtain rfl := Option.some.inj (hr.symm.trans hw.row)
  obtain ⟨-, -, rfl⟩ := isPendingFor_iff.1 hw.pending
  obtain ⟨hin, hout⟩ := @coalescePending_find? _ channel _ _ _ hr
  by_cases hgroup : r.incidentId ∈ (coalesceGroups channel db).map Prod.fst
  · obtain ⟨⟨y, i⟩, hi, hy⟩ := List.mem_map.1 hgroup
    obtain rfl : y = r.incidentId := hy
    obtain rfl := (newest_of_mem hi).unique h
    rw [hin i hi]
    exact @coalesceGroup_winner channel _ (0, db.outbox) i r hr hw.pending
  · -- nothing else waits for the incident
    refine ⟨r.payload.deliveredViaFallback, ?_, hout hgroup⟩
    cases hvia : r.payload.deliveredViaFallback with
    | none =>
        intro k' r' hr'
        obtain rfl := not_mem_coalesceGroups hw hgroup hr'
        obtain rfl := Option.some.inj (hr.symm.trans hr'.row)
        exact hvia
    | some via =>
        refine ⟨j, r, hw, hvia, fun k' r' hr' hlt => ?_⟩
        exact absurd (not_mem_coalesceGroups hw hgroup hr') (ne_of_gt hlt)

/-- The losers are superseded by it. -/
theorem coalescePending_loser (h : NewestWaiting channel db.outbox x j) (hr : Waits channel db.outbox x k r)
    (hne : k ≠ j) : (coalescePending channel db).2.outbox.find? k = some (r.supersede j) := by
  obtain ⟨-, -, rfl⟩ := isPendingFor_iff.1 hr.pending
  obtain ⟨w, hw⟩ := h.waits
  obtain ⟨i, hi⟩ := exists_mem_coalesceGroups hr.row hr.pending hw.row hw.pending hne
  obtain rfl := (newest_of_mem hi).unique h
  rw [(coalescePending_find? hr.row).1 i hi]
  exact @coalesceGroup_loser channel _ (0, db.outbox) i k r hr.row hr.pending (lt_of_le_of_ne (h.newest k r hr) hne)

/-- What does not wait on the channel is left alone. -/
theorem coalescePending_others (hr : db.outbox.find? k = some r)
    (hn : ¬ (r.channel = channel ∧ r.status = .pending)) :
    (coalescePending channel db).2.outbox.find? k = some r := by
  obtain ⟨r', hr', hcol, hsame⟩ := (coalescePending_collapse channel db).row k r hr
  rw [hr']
  cases hcol with
  | same => rfl
  | winner via hp =>
      rcases hsame with hsame | hch
      · rw [hsame]
      · exact absurd ⟨hch, hp⟩ hn
  | loser hp hlt _ _ _ =>
      rcases hsame with hsame | hch
      · rw [hsame]
      · exact absurd ⟨hch, hp⟩ hn

/-- The winner still waits. -/
theorem waits_coalescePending (h : NewestWaiting channel db.outbox x j) :
    ∃ w, Waits channel (coalescePending channel db).2.outbox x j w := by
  obtain ⟨r, hr⟩ := h.waits
  obtain ⟨via, -, hfind⟩ := coalescePending_winner h hr.row
  refine ⟨r.withMarker via, hfind, ?_⟩
  obtain ⟨hch, hp, hx⟩ := isPendingFor_iff.1 hr.pending
  exact isPendingFor_iff.2 ⟨hch, hp, hx⟩

/-- It is the only one that does. -/
theorem newest_of_waits {w : OutboxRow} (h : Waits channel (coalescePending channel db).2.outbox x j w) :
    NewestWaiting channel db.outbox x j := by
  obtain ⟨r, hr, hp⟩ := (coalescePending_collapse channel db).waits h.row h.pending
  obtain ⟨i, hi⟩ := exists_newest ⟨hr, hp⟩
  obtain ⟨v, hv⟩ := waits_coalescePending hi
  obtain rfl := coalescePending_oneWaits channel db x j w i v h.row h.pending hv.row hv.pending
  exact hi

/-- **`coalesce_pending` is exact**, writes the queue alone, and a second call finds nothing to do. -/
theorem coalescePending_exact (channel : Channel) (db : Database K) :
    Coalesced channel db.outbox (coalescePending channel db).1 (coalescePending channel db).2.outbox ∧
      (coalescePending channel db).2 = { db with outbox := (coalescePending channel db).2.outbox } ∧
      coalescePending channel (coalescePending channel db).2 = (0, (coalescePending channel db).2) := by
  refine ⟨?_, rfl, ?_⟩
  · constructor
    · rintro x ⟨k, r, hr⟩
      obtain ⟨j, hj⟩ := exists_newest hr
      exact ⟨j, waits_coalescePending hj, fun i ⟨w, hw⟩ => (newest_of_waits hw).unique hj⟩
    · exact fun x j w hw => newest_of_waits hw
    · exact fun x j r hj hr => coalescePending_winner hj hr
    · exact fun x j k r hj hr hne => coalescePending_loser hj hr hne
    · exact fun k r hr hn => coalescePending_others hr hn
    · exact fun k hk => foldl_coalesceGroup_none hk
    · refine @CountsSuperseded.count channel _ _ (List.foldlRecOn
        (motive := CountsSuperseded channel db.outbox) _ _ ⟨?_, fun x k r hr => ⟨r, hr⟩⟩
        fun s hs g _ => hs.step g)
      exact newlySuperseded_start.symm
  · have hnil : coalesceGroups channel (coalescePending channel db).2 = [] :=
      coalesceGroups_eq_nil (coalescePending_oneWaits channel db)
    unfold coalescePending at hnil ⊢
    dsimp only at hnil ⊢
    rw [hnil]
    rfl

end Exact

end PulseGraph
