namespace TreeMarkup

theorem bind_eq_ok_iff {ε α β : Type} {x : Except ε α} {f : α → Except ε β} {b : β} :
    (x >>= f) = .ok b ↔ ∃ a, x = .ok a ∧ f a = .ok b := by
  constructor
  · intro h
    cases x with
    | error e => cases h
    | ok a => exact ⟨a, rfl, h⟩
  · rintro ⟨a, rfl, h⟩
    exact h

section

variable {ε α β : Type}

theorem nil_append_of_except (x : Except ε (List α)) :
    (do return (← .ok []) ++ (← x) : Except ε (List α)) = x := by
  cases x <;> rfl

theorem append_assoc_of_except (x y z : Except ε (List α)) :
    (do
      let c ← (do return (← x) ++ (← y))
      return c ++ (← z) : Except ε (List α)) = do
      let a ← x
      let c ← (do return (← y) ++ (← z))
      return a ++ c := by
  cases x with
  | error e => rfl
  | ok a => cases y with
    | error e => rfl
    | ok b => cases z with
      | error e => rfl
      | ok c => exact congrArg Except.ok (List.append_assoc a b c)

theorem map_append_of_except {f : List α → List β} (hf : ∀ a b, f (a ++ b) = f a ++ f b)
    (x y : Except ε (List α)) :
    (do return (← x) ++ (← y) : Except ε (List α)).map f =
      do return (← x.map f) ++ (← y.map f) := by
  cases x with
  | error e => rfl
  | ok a => cases y with
    | error e => rfl
    | ok b => exact congrArg Except.ok (hf a b)

end

variable {ε σ α β : Type} {x : ExceptT ε (StateM σ) α} {f : α → ExceptT ε (StateM σ) β}
  {g : ε → ExceptT ε (StateM σ) α} {s s' : σ}

theorem run_bind (x : ExceptT ε (StateM σ) α) (f : α → ExceptT ε (StateM σ) β) (s : σ) :
    (x >>= f).run s =
      match x.run s with
      | (.ok a, s') => (f a).run s'
      | (.error e, s') => (.error e, s') := by
  change (match x.run s with
    | (r, s') => (match r with
      | .ok a => (f a).run
      | .error e => (pure (.error e) : StateM σ (Except ε β))) s') = _
  rcases x.run s with ⟨_ | _, _⟩ <;> rfl

theorem run_tryCatch (x : ExceptT ε (StateM σ) α) (g : ε → ExceptT ε (StateM σ) α) (s : σ) :
    (tryCatch x g).run s =
      match x.run s with
      | (.ok a, s') => (.ok a, s')
      | (.error e, s') => (g e).run s' := by
  change (match x.run s with
    | (r, s') => (match r with
      | .ok a => (pure (.ok a) : StateM σ (Except ε α))
      | .error e => (g e).run) s') = _
  rcases x.run s with ⟨_ | _, _⟩ <;> rfl

theorem run_ofExcept (r : Except ε α) (s : σ) :
    (ofExcept r : ExceptT ε (StateM σ) α).run s = (r, s) := by
  cases r <;> rfl

theorem run_get_bind (f : σ → ExceptT ε (StateM σ) β) (s : σ) : (get >>= f).run s = (f s).run s := by
  rw [run_bind]
  rfl

theorem run_bind_eq_ok {b : β} (h : (x >>= f).run s = (.ok b, s')) :
    ∃ a s₁, x.run s = (.ok a, s₁) ∧ (f a).run s₁ = (.ok b, s') := by
  rw [run_bind] at h
  rcases hx : x.run s with ⟨_ | a, s₁⟩
  · rw [hx] at h
    cases h
  · rw [hx] at h
    exact ⟨a, s₁, rfl, h⟩

theorem run_seq_eq_ok_iff {x : ExceptT ε (StateM σ) Unit} {y : ExceptT ε (StateM σ) β} {b : β} :
    (x >>= fun _ ↦ y).run s = (.ok b, s') ↔
      ∃ s₁, x.run s = (.ok (), s₁) ∧ y.run s₁ = (.ok b, s') := by
  constructor
  · intro h
    obtain ⟨_, s₁, hx, hy⟩ := run_bind_eq_ok h
    exact ⟨s₁, hx, hy⟩
  · rintro ⟨s₁, hx, hy⟩
    rw [run_bind, hx]
    exact hy

/-- Whatever comes of a computation, the states before and after it are related. -/
def Steps (R : σ → σ → Prop) (x : ExceptT ε (StateM σ) α) : Prop := ∀ s, R s (x.run s).2

variable {R : σ → σ → Prop}

theorem Steps.of_run (hx : Steps R x) {r : Except ε α} (h : x.run s = (r, s')) : R s s' := by
  have hs := hx s
  rw [h] at hs
  exact hs

theorem steps_bind (hR : ∀ {a b c}, R a b → R b c → R a c) (hx : Steps R x)
    (hf : ∀ a, Steps R (f a)) : Steps R (x >>= f) := by
  intro s
  have h := hx s
  rw [run_bind]
  rcases hr : x.run s with ⟨e | a, s₁⟩
  · rw [hr] at h
    exact h
  · rw [hr] at h
    exact hR h (hf a s₁)

theorem steps_tryCatch (hR : ∀ {a b c}, R a b → R b c → R a c) (hx : Steps R x)
    (hg : ∀ e, Steps R (g e)) : Steps R (tryCatch x g) := by
  intro s
  have h := hx s
  rw [run_tryCatch]
  rcases hr : x.run s with ⟨e | a, s₁⟩
  · rw [hr] at h
    exact hR h (hg e s₁)
  · rw [hr] at h
    exact h

end TreeMarkup
