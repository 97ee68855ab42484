import Mathlib.Algebra.Group.Basic
import Mathlib.Algebra.Group.Nat.Defs
import Mathlib.Tactic.NormNum
import ZkSymbiotic.Lib.Result

/-!
# Double and add

`Except.doubleAdd add double d base acc` reads the bits of `d` from the lowest on, doubles the base
at each and adds it to the accumulator where the bit is set.  `doubleAdd_stands`: where the states
stand for elements of an additive monoid and the two operations return what stands for the sum, the
loop returns what stands for `acc + d • base`.
-/

namespace Except
variable {ε σ G : Type} (add : σ → σ → Except ε σ) (double : σ → Except ε σ)

def doubleAdd (d : ℕ) (base acc : σ) : Except ε σ :=
  if d = 0 then .ok acc
  else do
    let acc ← (if d &&& 1 ≠ 0 then add acc base else .ok acc : Except ε σ)
    let base ← double base
    doubleAdd (d / 2) base acc
termination_by d
decreasing_by omega

variable {add double} [AddCommMonoid G] {R : σ → G → Prop}

theorem doubleAdd_stands
    (hadd : ∀ {s t P Q}, R s P → R t Q → ∃ u, add s t = .ok u ∧ R u (P + Q))
    (hdouble : ∀ {s P}, R s P → ∃ u, double s = .ok u ∧ R u (P + P)) (d : ℕ) :
    ∀ {base acc : σ} {P Q : G}, R base P → R acc Q →
      ∃ u, doubleAdd add double d base acc = .ok u ∧ R u (Q + d • P) := by
  induction d using Nat.strong_induction_on with
  | h d ih =>
    intro base acc P Q hbase hacc
    rw [doubleAdd]
    by_cases hd : d = 0
    · rw [if_pos hd, hd, zero_nsmul, add_zero]
      exact ⟨acc, rfl, hacc⟩
    rw [if_neg hd, Nat.and_one_is_mod]
    have hlt : d / 2 < d := Nat.div_lt_self (Nat.pos_of_ne_zero hd) (by norm_num)
    have hhalf : d • P = (d % 2) • P + (d / 2) • (P + P) := by
      rw [← two_nsmul, ← mul_nsmul, ← add_nsmul, Nat.mod_add_div]
    obtain ⟨base', hb, hbase'⟩ := hdouble hbase
    have hstep : ∃ acc', (if d % 2 ≠ 0 then add acc base else .ok acc : Except ε σ) = .ok acc' ∧
        R acc' (Q + (d % 2) • P) := by
      rcases Nat.mod_two_eq_zero_or_one d with h0 | h1
      · rw [if_neg (not_not.mpr h0), h0, zero_nsmul, add_zero]
        exact ⟨acc, rfl, hacc⟩
      · rw [if_pos (by omega), h1, one_nsmul]
        exact hadd hacc hbase
    obtain ⟨acc', ha, hacc'⟩ := hstep
    obtain ⟨u, hu, hR⟩ := ih _ hlt hbase' hacc'
    refine ⟨u, ?_, ?_⟩
    · rw [ha, ok_bind, hb, ok_bind, hu]
    · rw [hhalf, ← add_assoc]
      exact hR

end Except
