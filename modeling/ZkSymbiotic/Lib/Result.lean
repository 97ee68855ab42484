import Mathlib.Logic.Basic
import Mathlib.Data.List.Forall2

/-!
# Fallible computations: when `Except` code returns `ok`

One lemma for each way to build a computation says when it returns `ok`; a program's own lemma is
then read off its text from top to bottom.

* `failIf c e`, `okOr e x`   early returns: on a condition, on a missing value;
* `bind_eq_ok`, `failIf_eq_ok`, `okOr_eq_ok`, `mapError_eq_ok`, `pure_eq_ok`   the inversions;
* `mapM_eq_ok`, `mem_of_mapM`, `map_of_mapM`   a loop over a list that stops at the first error;
* `bind_eq_error`, `failIf_eq_error`, `okOr_eq_error`, `mapError_eq_error`, `mapM_eq_error`   which
  error it is.
-/

namespace Except
universe u
variable {ε ε' α β : Type u}

/-- the early return `if c { return Err(e) }` -/
def failIf (c : Prop) [Decidable c] (e : ε) : Except ε Unit := if c then .error e else .ok ()

/-- `ok_or`: a missing value is the error `e` -/
def okOr (e : ε) : Option α → Except ε α
  | none => .error e
  | some a => .ok a

theorem bind_eq_ok {x : Except ε α} {f : α → Except ε β} {b : β} :
    (x >>= f) = .ok b ↔ ∃ a, x = .ok a ∧ f a = .ok b := by
  cases x with
  | error e => simp [bind, Except.bind]
  | ok a => simp [bind, Except.bind]

theorem pure_eq_ok {a b : α} : (pure a : Except ε α) = .ok b ↔ a = b := by
  simp [pure, Except.pure]

theorem ok_bind (a : α) (f : α → Except ε β) : (Except.ok a >>= f) = f a := rfl

theorem okOr_some (e : ε) (a : α) : okOr e (some a) = .ok a := rfl

theorem failIf_false {c : Prop} [Decidable c] {e : ε} (h : ¬ c) : failIf c e = .ok () := if_neg h

theorem failIf_eq_ok {c : Prop} [Decidable c] {e : ε} {u : Unit} :
    failIf c e = .ok u ↔ ¬ c := by
  unfold failIf
  by_cases h : c
  · simp [h]
  · simp [h]

theorem mapError_eq_ok {f : ε → ε'} {x : Except ε α} {a : α} :
    x.mapError f = .ok a ↔ x = .ok a := by
  cases x with
  | error e => simp [Except.mapError]
  | ok b => simp [Except.mapError]

theorem okOr_eq_ok {e : ε} {x : Option α} {a : α} : okOr e x = .ok a ↔ x = some a := by
  cases x with
  | none => simp [okOr]
  | some b => simp [okOr]

theorem mapM_eq_ok {f : α → Except ε β} {l : List α} {r : List β} :
    l.mapM f = .ok r ↔ List.Forall₂ (fun a b => f a = .ok b) l r := by
  induction l generalizing r with
  | nil => rw [List.mapM_nil, pure_eq_ok, List.forall₂_nil_left_iff, eq_comm]
  | cons a l ih =>
    rw [List.mapM_cons, bind_eq_ok, List.forall₂_cons_left_iff]
    constructor
    · intro ⟨b, hb, h⟩
      obtain ⟨bs, hbs, h⟩ := bind_eq_ok.mp h
      exact ⟨b, bs, hb, ih.mp hbs, (pure_eq_ok.mp h).symm⟩
    · rintro ⟨b, bs, hb, hbs, rfl⟩
      exact ⟨b, hb, bind_eq_ok.mpr ⟨bs, ih.mpr hbs, rfl⟩⟩

/-- what the loop returns comes from its list -/
theorem mem_of_mapM {f : α → Except ε β} {l : List α} {r : List β} (h : l.mapM f = .ok r) {b : β}
    (hb : b ∈ r) : ∃ a ∈ l, f a = .ok b := by
  have hall := mapM_eq_ok.mp h
  induction hall with
  | nil => cases hb
  | cons hab hrest ih =>
    rcases List.mem_cons.mp hb with rfl | hb
    · exact ⟨_, List.mem_cons_self, hab⟩
    · obtain ⟨a, ha, hf⟩ := ih (mapM_eq_ok.mpr hrest) hb
      exact ⟨a, List.mem_cons_of_mem _ ha, hf⟩

/-- where the loop returns, its body did on each element -/
theorem ok_of_mapM {f : α → Except ε β} {l : List α} {r : List β} (h : l.mapM f = .ok r) {a : α}
    (ha : a ∈ l) : ∃ b, f a = .ok b := by
  have hall := mapM_eq_ok.mp h
  induction hall with
  | nil => cases ha
  | cons hab hrest ih =>
    rcases List.mem_cons.mp ha with rfl | ha
    · exact ⟨_, hab⟩
    · exact ih (mapM_eq_ok.mpr hrest) ha

/-- a field that the loop's body copies -/
theorem map_of_mapM {γ : Type*} {f : α → Except ε β} {g : β → γ} {k : α → γ}
    (hf : ∀ a b, f a = .ok b → g b = k a) {l : List α} {r : List β} (h : l.mapM f = .ok r) :
    r.map g = l.map k := by
  have hall := mapM_eq_ok.mp h
  induction hall with
  | nil => rfl
  | cons hab hrest ih => rw [List.map_cons, List.map_cons, hf _ _ hab, ih (mapM_eq_ok.mpr hrest)]

/-! ## which error -/

theorem bind_eq_error {x : Except ε α} {f : α → Except ε β} {e : ε} :
    (x >>= f) = .error e ↔ x = .error e ∨ ∃ a, x = .ok a ∧ f a = .error e := by
  cases x with
  | error e' => simp [bind, Except.bind]
  | ok a => simp [bind, Except.bind]

theorem failIf_eq_error {c : Prop} [Decidable c] {e e' : ε} :
    failIf c e = .error e' ↔ c ∧ e = e' := by
  unfold failIf
  by_cases h : c
  · simp [h]
  · simp [h]

theorem mapError_eq_error {f : ε → ε'} {x : Except ε α} {e' : ε'} :
    x.mapError f = .error e' ↔ ∃ e, x = .error e ∧ f e = e' := by
  cases x with
  | error e => simp [Except.mapError]
  | ok b => simp [Except.mapError]

theorem okOr_eq_error {e e' : ε} {x : Option α} : okOr e x = .error e' ↔ x = none ∧ e = e' := by
  cases x with
  | none => simp [okOr]
  | some a => simp [okOr]

theorem pure_ne_error {a : α} {e : ε} : (pure a : Except ε α) ≠ .error e := nofun

/-- the error of a loop is the one of the first element that has one -/
theorem mapM_eq_error {f : α → Except ε β} {l : List α} {e : ε} :
    l.mapM f = .error e ↔ ∃ done a rest, l = done ++ a :: rest ∧ (∀ b ∈ done, ∃ r, f b = .ok r) ∧
      f a = .error e := by
  induction l with
  | nil =>
    rw [List.mapM_nil]
    refine ⟨fun h => absurd h pure_ne_error, fun ⟨done, a, rest, hl, _⟩ => ?_⟩
    exact absurd hl (List.append_ne_nil_of_right_ne_nil done (List.cons_ne_nil a rest)).symm
  | cons a l ih =>
    rw [List.mapM_cons, bind_eq_error]
    constructor
    · rintro (ha | ⟨b, hb, h⟩)
      · exact ⟨[], a, l, rfl, fun _ hb => absurd hb List.not_mem_nil, ha⟩
      · rcases bind_eq_error.mp h with h | ⟨bs, _, h⟩
        · obtain ⟨done, a', rest, rfl, hdone, ha'⟩ := ih.mp h
          exact ⟨a :: done, a', rest, rfl, List.forall_mem_cons.mpr ⟨⟨b, hb⟩, hdone⟩, ha'⟩
        · exact absurd h pure_ne_error
    · rintro ⟨done, a', rest, hl, hdone, ha'⟩
      cases done with
      | nil =>
        obtain ⟨rfl, rfl⟩ := List.cons.inj hl
        exact .inl ha'
      | cons d done =>
        obtain ⟨rfl, rfl⟩ := List.cons.inj hl
        obtain ⟨⟨b, hb⟩, hrest⟩ := List.forall_mem_cons.mp hdone
        exact .inr ⟨b, hb, bind_eq_error.mpr (.inl (ih.mpr ⟨done, a', rest, rfl, hrest, ha'⟩))⟩

end Except
