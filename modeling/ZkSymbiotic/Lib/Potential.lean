import Mathlib.Algebra.BigOperators.Group.List.Basic
import Mathlib.Algebra.GroupWithZero.Nat
import ZkSymbiotic.Lib.Machine

/-!
# Potentials of machines

A potential pays for the steps of a run: what a step costs is taken out of the potential, or brought
in by the action.

* `Machine.run_cost_le`       a run costs at most the potential it starts with and what its actions
                              bring in;
* `Machine.run_countP_le`     the same where steps of two kinds are counted;
* `Machine.run_length_le`     where each step takes one out of it, the potential bounds the length;
* `Machine.exists_run_stuck`  and some run goes on until no step is possible.
-/

namespace Machine
variable {σ ε : Type*} {m : Machine σ ε} {Φ : σ → ℕ}

/-- **the amortized bound** -/
theorem run_cost_le {cost credit : ε → ℕ}
    (hstep : ∀ s a s', m s a = some s' → Φ s' + cost a ≤ Φ s + credit a) {as : List ε} :
    ∀ {s s' : σ}, m.run s as = some s' →
      Φ s' + (as.map cost).sum ≤ Φ s + (as.map credit).sum := by
  induction as with
  | nil =>
    intro s s' h
    rw [run_nil, Option.some.injEq] at h
    exact h ▸ Nat.le_refl _
  | cons a as ih =>
    intro s s' h
    obtain ⟨s₁, h1, h2⟩ := m.run_cons_some h
    have hfirst := hstep s a s₁ h1
    have hrest := ih h2
    rw [List.map_cons, List.map_cons, List.sum_cons, List.sum_cons]
    omega

theorem sum_map_toNat (p : ε → Bool) (n : ℕ) (as : List ε) :
    (as.map fun a => (p a).toNat * n).sum = as.countP p * n := by
  induction as with
  | nil => exact (Nat.zero_mul n).symm
  | cons a as ih =>
    rw [List.map_cons, List.sum_cons, ih, List.countP_cons, ← Nat.add_mul, Nat.add_comm]
    congr 2
    cases p a <;> rfl

/-- where every step of the kind `p` is paid by the steps of the kind `q`, with `n` each -/
theorem run_countP_le {p q : ε → Bool} {n : ℕ}
    (hstep : ∀ s a s', m s a = some s' → Φ s' + (p a).toNat ≤ Φ s + (q a).toNat * n)
    {as : List ε} {s s' : σ} (h : m.run s as = some s') :
    as.countP p ≤ Φ s + as.countP q * n := by
  have hcost : Φ s' + (as.map fun a => (p a).toNat * 1).sum
      ≤ Φ s + (as.map fun a => (q a).toNat * n).sum :=
    run_cost_le (by simpa only [Nat.mul_one] using hstep) h
  rw [sum_map_toNat, sum_map_toNat] at hcost
  omega

section
variable {P : ε → Prop}

/-- a run of actions each of which takes one out of the potential -/
theorem run_length_le (hstep : ∀ s a s', P a → m s a = some s' → Φ s' < Φ s) {as : List ε} :
    ∀ {s s' : σ}, (∀ a ∈ as, P a) → m.run s as = some s' → Φ s' + as.length ≤ Φ s := by
  induction as with
  | nil =>
    intro s s' _ h
    rw [run_nil, Option.some.injEq] at h
    exact h ▸ Nat.le_refl _
  | cons a as ih =>
    intro s s' hP h
    obtain ⟨s₁, h1, h2⟩ := m.run_cons_some h
    have hfirst := hstep s a s₁ (hP a List.mem_cons_self) h1
    have hrest := ih (fun b hb => hP b (List.mem_cons_of_mem a hb)) h2
    rw [List.length_cons]
    omega

/-- such actions can be taken until none is possible any more -/
theorem exists_run_stuck (hstep : ∀ s a s', P a → m s a = some s' → Φ s' < Φ s) (s : σ) :
    ∃ as s', (∀ a ∈ as, P a) ∧ m.run s as = some s' ∧ ∀ a, P a → m s' a = none := by
  induction hn : Φ s using Nat.strongRecOn generalizing s with
  | ind n ih =>
    by_cases hstuck : ∀ a, P a → m s a = none
    · exact ⟨[], s, fun _ ha => absurd ha List.not_mem_nil, rfl, hstuck⟩
    · push Not at hstuck
      obtain ⟨a, ha, hne⟩ := hstuck
      obtain ⟨s₁, h1⟩ := Option.ne_none_iff_exists'.mp hne
      have hlt := hstep s a s₁ ha h1
      obtain ⟨as, s', hP, hrun, hnone⟩ := ih (Φ s₁) (hn ▸ hlt) s₁ rfl
      refine ⟨a :: as, s', ?_, ?_, hnone⟩
      · intro b hb
        rcases List.mem_cons.mp hb with rfl | hb
        · exact ha
        · exact hP b hb
      · rw [run_cons, h1]
        exact hrun

end

end Machine
