/-
# Computations that may fail

What a successful computation in `Except` (or `Option`) was made of, and the invariant rules of
a loop whose body may fail and of one that cannot.
-/

import Mathlib.Data.List.Basic

namespace Library

variable {ε ε' α β σ : Type}

/-- `if p: raise e`. -/
def raiseIf (p : Prop) [Decidable p] (e : ε) : Except ε Unit := if p then .error e else .ok ()

theorem raiseIf_eq_ok {p : Prop} [Decidable p] {e : ε} {u : Unit} : raiseIf p e = .ok u ↔ ¬ p := by
  unfold raiseIf
  split_ifs with h <;> simp [h]

theorem raiseIf_eq_error {p : Prop} [Decidable p] {e e' : ε} : raiseIf p e = .error e' ↔ p ∧ e = e' := by
  unfold raiseIf
  split_ifs with h <;> simp [h]

/-- A sequence succeeds exactly when both its parts do. -/
theorem bind_eq_ok {x : Except ε α} {f : α → Except ε β} {b : β} :
    (x >>= f) = .ok b ↔ ∃ a, x = .ok a ∧ f a = .ok b := by
  cases x with
  | error e => simp [bind, Except.bind]
  | ok a => simp [bind, Except.bind]

/-- A sequence fails with the error of the part that fails. -/
theorem bind_eq_error {x : Except ε α} {f : α → Except ε β} {e : ε} :
    (x >>= f) = .error e ↔ x = .error e ∨ ∃ a, x = .ok a ∧ f a = .error e := by
  cases x with
  | error e' => simp [bind, Except.bind]
  | ok a => simp [bind, Except.bind]

/-- Renaming an error leaves a success. -/
theorem mapError_eq_ok {f : ε → ε'} {x : Except ε α} {a : α} : x.mapError f = .ok a ↔ x = .ok a := by
  cases x with
  | error e => simp [Except.mapError]
  | ok b => simp [Except.mapError]

/-- A renamed error is none that no error is renamed to. -/
theorem mapError_ne {f : ε → ε'} {x : Except ε α} {e' : ε'} (h : ∀ e, f e ≠ e') : x.mapError f ≠ .error e' := by
  cases x with
  | error e => exact fun heq => h e (Except.error.inj heq)
  | ok b => exact nofun

theorem toOption_eq_some {x : Except ε α} {a : α} : x.toOption = some a ↔ x = .ok a := by
  cases x with
  | error e => simp [Except.toOption]
  | ok b => simp [Except.toOption]

/-- A check of the result of a computation that may fail. -/
theorem toOption_any_eq_true {x : Except ε α} {p : α → Bool} :
    x.toOption.any p = true ↔ ∃ a, x = .ok a ∧ p a = true := by
  cases x with
  | error e => simp [Except.toOption]
  | ok a => simp [Except.toOption]

/-- A check of every element of a list, by evaluation. -/
theorem forall_mem_of_all {p : α → Prop} [DecidablePred p] {l : List α}
    (h : (l.all fun a => decide (p a)) = true) : ∀ a ∈ l, p a :=
  fun a ha => of_decide_eq_true (List.all_eq_true.1 h a ha)

/-- A failed traversal failed at one of its elements. -/
theorem mapM_eq_error {f : α → Except ε β} {l : List α} {e : ε} (h : l.mapM f = .error e) :
    ∃ a ∈ l, f a = .error e := by
  induction l with
  | nil => cases h
  | cons a l ih =>
      rw [List.mapM_cons] at h
      rcases bind_eq_error.1 h with h | ⟨b, -, h⟩
      · exact ⟨a, List.mem_cons_self, h⟩
      · rcases bind_eq_error.1 h with h | ⟨bs, -, h⟩
        · obtain ⟨x, hx, he⟩ := ih h
          exact ⟨x, List.mem_cons_of_mem a hx, he⟩
        · cases h

/-- What a traversal returns came from one of its elements. -/
theorem mem_mapM_ok {f : α → Except ε β} {l : List α} {bs : List β} {b : β} (h : l.mapM f = .ok bs)
    (hb : b ∈ bs) : ∃ a ∈ l, f a = .ok b := by
  induction l generalizing bs with
  | nil =>
      obtain rfl : [] = bs := Except.ok.inj h
      exact absurd hb List.not_mem_nil
  | cons a l ih =>
      rw [List.mapM_cons] at h
      obtain ⟨b₀, h₀, h⟩ := bind_eq_ok.1 h
      obtain ⟨bs₀, hs₀, h⟩ := bind_eq_ok.1 h
      obtain rfl : b₀ :: bs₀ = bs := Except.ok.inj h
      rcases List.mem_cons.1 hb with rfl | hb
      · exact ⟨a, List.mem_cons_self, h₀⟩
      · obtain ⟨a', ha', hf⟩ := ih hs₀ hb
        exact ⟨a', List.mem_cons_of_mem a ha', hf⟩

/-- The same of a traversal that fails without an error. -/
theorem mem_mapM_some {f : α → Option β} {l : List α} {bs : List β} {b : β} (h : l.mapM f = some bs)
    (hb : b ∈ bs) : ∃ a ∈ l, f a = some b := by
  induction l generalizing bs with
  | nil =>
      obtain rfl : [] = bs := Option.some.inj h
      exact absurd hb List.not_mem_nil
  | cons a l ih =>
      rw [List.mapM_cons, Option.bind_eq_bind, Option.bind_eq_some_iff] at h
      obtain ⟨b₀, h₀, h⟩ := h
      obtain ⟨bs₀, hs₀, h⟩ := Option.bind_eq_some_iff.1 h
      obtain rfl : b₀ :: bs₀ = bs := Option.some.inj h
      rcases List.mem_cons.1 hb with rfl | hb
      · exact ⟨a, List.mem_cons_self, h₀⟩
      · obtain ⟨a', ha', hf⟩ := ih hs₀ hb
        exact ⟨a', List.mem_cons_of_mem a ha', hf⟩

/-- Every element of such a traversal has a result, and the result is there. -/
theorem mapM_some_of_mem {f : α → Option β} {l : List α} {bs : List β} {a : α} (h : l.mapM f = some bs)
    (ha : a ∈ l) : ∃ b, f a = some b := by
  induction l generalizing bs with
  | nil => exact absurd ha List.not_mem_nil
  | cons a₀ l ih =>
      rw [List.mapM_cons, Option.bind_eq_bind, Option.bind_eq_some_iff] at h
      obtain ⟨b₀, h₀, h⟩ := h
      obtain ⟨bs₀, hs₀, -⟩ := Option.bind_eq_some_iff.1 h
      rcases List.mem_cons.1 ha with rfl | ha
      · exact ⟨b₀, h₀⟩
      · exact ih hs₀ ha

/-- A traversal gives one result for each element, in order. -/
theorem forall₂_of_mapM_some {f : α → Option β} {l : List α} {bs : List β} (h : l.mapM f = some bs) :
    List.Forall₂ (fun a b => f a = some b) l bs := by
  induction l generalizing bs with
  | nil =>
      obtain rfl : [] = bs := Option.some.inj h
      exact .nil
  | cons a l ih =>
      rw [List.mapM_cons, Option.bind_eq_bind, Option.bind_eq_some_iff] at h
      obtain ⟨b₀, h₀, h⟩ := h
      obtain ⟨bs₀, hs₀, h⟩ := Option.bind_eq_some_iff.1 h
      obtain rfl : b₀ :: bs₀ = bs := Option.some.inj h
      exact .cons h₀ (ih hs₀)

theorem mem_of_mapM_some {f : α → Option β} {l : List α} {bs : List β} {a : α} {b : β} (h : l.mapM f = some bs)
    (ha : a ∈ l) (hb : f a = some b) : b ∈ bs := by
  induction l generalizing bs with
  | nil => exact absurd ha List.not_mem_nil
  | cons a₀ l ih =>
      rw [List.mapM_cons, Option.bind_eq_bind, Option.bind_eq_some_iff] at h
      obtain ⟨b₀, h₀, h⟩ := h
      obtain ⟨bs₀, hs₀, h⟩ := Option.bind_eq_some_iff.1 h
      obtain rfl : b₀ :: bs₀ = bs := Option.some.inj h
      rcases List.mem_cons.1 ha with rfl | ha
      · rw [Option.some.inj (hb.symm.trans h₀)]
        exact List.mem_cons_self
      · exact List.mem_cons_of_mem _ (ih hs₀ ha)

/-- A traversal none of whose steps fails. -/
theorem mapM_eq_pure {m : Type → Type} [Monad m] [LawfulMonad m] {f : α → m β} {g : α → β}
    {l : List α} (h : ∀ a ∈ l, f a = pure (g a)) : l.mapM f = pure (l.map g) := by
  induction l with
  | nil => rfl
  | cons a l ih =>
      rw [List.mapM_cons, h a List.mem_cons_self, ih fun b hb => h b (List.mem_cons_of_mem _ hb)]
      simp

/-- A traversal that keeps what it accepts. -/
theorem eq_of_mapM_ok {f : α → Except ε α} {l l' : List α} (hf : ∀ a b, f a = .ok b → b = a)
    (h : l.mapM f = .ok l') : l' = l := by
  induction l generalizing l' with
  | nil => exact (Except.ok.inj h).symm
  | cons a l ih =>
      rw [List.mapM_cons] at h
      obtain ⟨b, hb, h⟩ := bind_eq_ok.1 h
      obtain ⟨bs, hbs, h⟩ := bind_eq_ok.1 h
      obtain rfl : b :: bs = l' := Except.ok.inj h
      rw [hf a b hb, ih hbs]

/-- A traversal returns one result for each element. -/
theorem length_of_mapM_ok {f : α → Except ε β} {l : List α} {bs : List β} (h : l.mapM f = .ok bs) :
    bs.length = l.length := by
  induction l generalizing bs with
  | nil =>
      obtain rfl : [] = bs := Except.ok.inj h
      rfl
  | cons a l ih =>
      rw [List.mapM_cons] at h
      obtain ⟨b₀, -, h⟩ := bind_eq_ok.1 h
      obtain ⟨bs₀, hs₀, h⟩ := bind_eq_ok.1 h
      obtain rfl : b₀ :: bs₀ = bs := Except.ok.inj h
      rw [List.length_cons, List.length_cons, ih hs₀]

/-- Where a check keeps what it has kept, so does a traversal. -/
theorem mapM_kept {f : α → Except ε α} {l l' : List α} (hf : ∀ a b, f a = .ok b → f b = .ok b)
    (h : l.mapM f = .ok l') : l'.mapM f = .ok l' := by
  refine (mapM_eq_pure (g := id) fun b hb => ?_).trans (congrArg Except.ok (List.map_id _))
  obtain ⟨a, -, ha⟩ := mem_mapM_ok h hb
  exact hf a b ha

/-- The same of a value that may be missing. -/
theorem optionMapM_kept {f : α → Except ε α} {o o' : Option α} (hf : ∀ a b, f a = .ok b → f b = .ok b)
    (h : o.mapM f = .ok o') : o'.mapM f = .ok o' := by
  cases o with
  | none =>
      obtain rfl : none = o' := Except.ok.inj h
      rfl
  | some a =>
      obtain ⟨b, hb, h⟩ := bind_eq_ok.1 h
      obtain rfl : some b = o' := Except.ok.inj h
      exact bind_eq_ok.2 ⟨b, hf a b hb, rfl⟩

/-- A traversal that returns its list has kept every element. -/
theorem mapM_self_of_mem {f : α → Except ε α} {l : List α} {a : α} (h : l.mapM f = .ok l) (ha : a ∈ l) :
    f a = .ok a := by
  induction l with
  | nil => exact absurd ha List.not_mem_nil
  | cons b l ih =>
      rw [List.mapM_cons] at h
      obtain ⟨b', hb, h⟩ := bind_eq_ok.1 h
      obtain ⟨bs, hbs, h⟩ := bind_eq_ok.1 h
      obtain ⟨rfl, rfl⟩ : b' = b ∧ bs = l := List.cons.inj (Except.ok.inj h)
      rcases List.mem_cons.1 ha with rfl | ha
      · exact hb
      · exact ih hbs ha

/-- The same of a value that may be missing. -/
theorem optionMapM_self {f : α → Except ε α} {o : Option α} {a : α} (h : o.mapM f = .ok o) (ha : o = some a) :
    f a = .ok a := by
  subst ha
  obtain ⟨b, hb, h⟩ := bind_eq_ok.1 h
  obtain rfl : b = a := Option.some.inj (Except.ok.inj h)
  exact hb

/-- A value that may be missing, changed and then checked. -/
theorem optionMapM_map {f : α → β} {g : α → σ} {check : β → Except ε σ} {o : Option α}
    (h : ∀ a, o = some a → check (f a) = .ok (g a)) : (o.map f).mapM check = .ok (o.map g) := by
  cases o with
  | none => rfl
  | some a => exact bind_eq_ok.2 ⟨g a, h a rfl, rfl⟩

/-- Every element of a traversal that succeeds has a result. -/
theorem mapM_ok_of_mem {f : α → Except ε β} {l : List α} {bs : List β} {a : α}
    (h : l.mapM f = .ok bs) (ha : a ∈ l) : ∃ b, f a = .ok b := by
  induction l generalizing bs with
  | nil => exact absurd ha List.not_mem_nil
  | cons a₀ l ih =>
      rw [List.mapM_cons] at h
      obtain ⟨b₀, h₀, h⟩ := bind_eq_ok.1 h
      obtain ⟨bs₀, hs₀, -⟩ := bind_eq_ok.1 h
      rcases List.mem_cons.1 ha with rfl | ha
      · exact ⟨b₀, h₀⟩
      · exact ih hs₀ ha

/-- **The rule of a loop that may fail.**  What holds at the start and is kept by
every successful iteration holds after a loop that succeeds. -/
theorem foldlM_induct {f : σ → α → Except ε σ} {P : σ → Prop} {l : List α} {s s' : σ}
    (h : l.foldlM f s = .ok s') (h0 : P s) (hs : ∀ s a s', a ∈ l → P s → f s a = .ok s' → P s') :
    P s' := by
  induction l generalizing s with
  | nil =>
      obtain rfl : s = s' := Except.ok.inj h
      exact h0
  | cons a l ih =>
      rw [List.foldlM_cons] at h
      obtain ⟨s₁, h₁, h₂⟩ := bind_eq_ok.1 h
      exact ih h₂ (hs s a s₁ List.mem_cons_self h0 h₁)
        fun s b s' hb => hs s b s' (List.mem_cons_of_mem a hb)

/-- Every iteration of a loop that succeeds succeeded. -/
theorem foldlM_ok_of_mem {f : σ → α → Except ε σ} {l : List α} {s s' : σ} {a : α} (h : l.foldlM f s = .ok s')
    (ha : a ∈ l) : ∃ s₁ s₂, f s₁ a = .ok s₂ := by
  induction l generalizing s with
  | nil => exact absurd ha List.not_mem_nil
  | cons b l ih =>
      rw [List.foldlM_cons] at h
      obtain ⟨s₁, h₁, h₂⟩ := bind_eq_ok.1 h
      rcases List.mem_cons.1 ha with rfl | ha
      · exact ⟨s, s₁, h₁⟩
      · exact ih h₂ ha

/-- **A loop of checks** succeeds exactly when every check does. -/
theorem forM_eq_ok {f : α → Except ε Unit} {l : List α} {u : Unit} :
    l.forM f = .ok u ↔ ∀ a ∈ l, f a = .ok () := by
  induction l with
  | nil => exact iff_of_true rfl fun a ha => absurd ha List.not_mem_nil
  | cons b l ih =>
      rw [List.forall_mem_cons, ← ih]
      exact bind_eq_ok.trans ⟨fun ⟨_, h₁, h₂⟩ => ⟨h₁, h₂⟩, fun ⟨h₁, h₂⟩ => ⟨(), h₁, h₂⟩⟩

/-- A loop of checks that fails failed at one of them. -/
theorem forM_eq_error {f : α → Except ε Unit} {l : List α} {e : ε} (h : l.forM f = .error e) :
    ∃ a ∈ l, f a = .error e := by
  induction l with
  | nil => cases h
  | cons b l ih =>
      rcases bind_eq_error.1 h with h | ⟨_, -, h⟩
      · exact ⟨b, List.mem_cons_self, h⟩
      · obtain ⟨a, ha, he⟩ := ih h
        exact ⟨a, List.mem_cons_of_mem b ha, he⟩

/-- Every check of a loop of checks that succeeds succeeded. -/
theorem forM_ok_of_mem {f : α → Except ε Unit} {l : List α} {a : α} (h : l.forM f = .ok ()) (ha : a ∈ l) :
    f a = .ok () :=
  forM_eq_ok.1 h a ha

/-- A loop whose body never fails where an invariant holds, and keeps it. -/
theorem foldlM_ok {f : σ → α → Except ε σ} {I : σ → Prop} {l : List α} {s : σ} (h0 : I s)
    (hs : ∀ s a, I s → ∃ s', f s a = .ok s' ∧ I s') : ∃ s', l.foldlM f s = .ok s' ∧ I s' := by
  induction l generalizing s with
  | nil => exact ⟨s, rfl, h0⟩
  | cons a l ih =>
      obtain ⟨s₁, h₁, hI⟩ := hs s a h0
      obtain ⟨s', h', hI'⟩ := ih hI
      refine ⟨s', ?_, hI'⟩
      rw [List.foldlM_cons]
      exact bind_eq_ok.2 ⟨s₁, h₁, h'⟩

/-- The same with the number of elements that were worked off. -/
theorem foldlM_steps {f : σ → α → Except ε σ} {P : ℕ → σ → Prop} {l : List α} {s s' : σ}
    (h : l.foldlM f s = .ok s') (h0 : P 0 s)
    (hs : ∀ n a s s', l[n]? = some a → P n s → f s a = .ok s' → P (n + 1) s') : P l.length s' := by
  induction l generalizing s P with
  | nil =>
      obtain rfl : s = s' := Except.ok.inj h
      exact h0
  | cons a l ih =>
      rw [List.foldlM_cons] at h
      obtain ⟨s₁, h₁, h₂⟩ := bind_eq_ok.1 h
      exact @ih (fun n => P (n + 1)) _ h₂ (hs 0 a s s₁ rfl h0 h₁) fun n b t t' hb => hs (n + 1) b t t' hb

/-- **A loop that works each place off once.**  Where an iteration changes only the places it hits,
and no two iterations hit the same place, each place that is hit is changed as by its own
iteration, and the others are as they were. -/
theorem foldlM_once {κ τ : Type} {f : σ → α → Except ε σ} {read : σ → κ → τ} {hits : α → κ → Prop}
    {R : κ → τ → τ → Prop} {l : List α} {s s' : σ} (h : l.foldlM f s = .ok s')
    (hstep : ∀ s a s', a ∈ l → f s a = .ok s' → ∀ k,
      (hits a k → R k (read s k) (read s' k)) ∧ (¬ hits a k → read s' k = read s k))
    (hdisjoint : l.Pairwise fun a b => ∀ k, hits a k → ¬ hits b k) (k : κ) :
    ((∃ a ∈ l, hits a k) → R k (read s k) (read s' k)) ∧
      ((∀ a ∈ l, ¬ hits a k) → read s' k = read s k) := by
  induction l generalizing s with
  | nil =>
      obtain rfl : s = s' := Except.ok.inj h
      exact ⟨by simp, fun _ => rfl⟩
  | cons a l ih =>
      rw [List.foldlM_cons] at h
      obtain ⟨s₁, h₁, h₂⟩ := bind_eq_ok.1 h
      obtain ⟨hhere, hlater⟩ := List.pairwise_cons.1 hdisjoint
      obtain ⟨hhit, hmiss⟩ := hstep s a s₁ List.mem_cons_self h₁ k
      obtain ⟨hsome, hnone⟩ := ih h₂ (fun s b s' hb => hstep s b s' (List.mem_cons_of_mem a hb)) hlater
      constructor
      · rintro ⟨b, hb, hbk⟩
        rcases List.mem_cons.1 hb with rfl | hb
        · rw [hnone fun c hc => hhere c hc k hbk]
          exact hhit hbk
        · have hak : ¬ hits a k := fun hak => hhere b hb k hak hbk
          rw [← hmiss hak]
          exact hsome ⟨b, hb, hbk⟩
      · intro hall
        rw [hnone fun b hb => hall b (List.mem_cons_of_mem a hb)]
        exact hmiss (hall a List.mem_cons_self)

/-- **What one iteration establishes and no iteration destroys** holds after the loop. -/
theorem foldl_establishes {f : σ → α → σ} {P : σ → Prop} {l : List α} {s : σ} {a : α} (ha : a ∈ l)
    (hest : ∀ s, P (f s a)) (hkeep : ∀ s b, P s → P (f s b)) : P (l.foldl f s) := by
  have hkept : ∀ (l : List α) s, P s → P (l.foldl f s) := by
    intro l
    induction l with
    | nil => exact fun _ => id
    | cons b l ih => exact fun s hs => ih _ (hkeep s b hs)
  induction l generalizing s with
  | nil => exact absurd ha List.not_mem_nil
  | cons b l ih =>
      rcases List.mem_cons.1 ha with rfl | ha
      · exact hkept l _ (hest s)
      · exact ih ha

/-! ## Which errors can be raised -/

/-- Whatever the computation raises has the property. -/
def Raises (P : ε → Prop) (x : Except ε α) : Prop := ∀ e, x = .error e → P e

section Raises

variable {P : ε → Prop}

theorem raises_pure {a : α} : Raises P (pure a : Except ε α) := nofun

theorem raises_throw {e : ε} (h : P e) : Raises P (throw e : Except ε α) := fun _ heq => Except.error.inj heq ▸ h

theorem raises_raiseIf {p : Prop} [Decidable p] {e : ε} (h : P e) : Raises P (raiseIf p e) :=
  fun _ heq => (raiseIf_eq_error.1 heq).2 ▸ h

/-- **A sequence** raises what its parts do. -/
theorem raises_bind {x : Except ε α} {f : α → Except ε β} (hx : Raises P x) (hf : ∀ a, Raises P (f a)) :
    Raises P (x >>= f) := by
  intro e heq
  rcases bind_eq_error.1 heq with h | ⟨a, -, h⟩
  · exact hx e h
  · exact hf a e h

/-- **A loop** raises what its iterations do. -/
theorem raises_foldlM {f : σ → α → Except ε σ} {l : List α} {s : σ} (hf : ∀ s a, Raises P (f s a)) :
    Raises P (l.foldlM f s) := by
  induction l generalizing s with
  | nil => exact raises_pure
  | cons a l ih => exact raises_bind (hf s a) fun _ => ih

/-- So does a loop of checks. -/
theorem raises_forM {f : α → Except ε Unit} {l : List α} (hf : ∀ a, Raises P (f a)) : Raises P (l.forM f) := by
  intro e heq
  obtain ⟨a, -, ha⟩ := forM_eq_error heq
  exact hf a e ha

/-- And a traversal. -/
theorem raises_mapM {f : α → Except ε β} {l : List α} (hf : ∀ a, Raises P (f a)) : Raises P (l.mapM f) := by
  intro e heq
  obtain ⟨a, -, ha⟩ := mapM_eq_error heq
  exact hf a e ha

end Raises

end Library
