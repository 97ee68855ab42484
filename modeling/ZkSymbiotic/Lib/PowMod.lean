import Mathlib.NumberTheory.LucasPrimality
import Mathlib.Tactic.Ring

/-!
# Powers modulo a number, and Lucas's test

* `powMod n bits a k`   the power `a ^ k % n`, by squaring, for exponents below `2 ^ bits`;
* `powMod_eq`           which it is;
* `LucasTest`           Lucas's test with the exponentiations done by `powMod`, and
                        `prime_of_lucas`.
-/

/-- `a ^ k % n`, from the low `bits` bits of `k` -/
def powMod (n : ℕ) : ℕ → ℕ → ℕ → ℕ
  | 0, _, _ => 1 % n
  | bits + 1, a, k =>
    (if k % 2 = 0 then 1 else a) * powMod n bits (a * a % n) (k / 2) % n

theorem powMod_eq {n bits a k : ℕ} (h : k < 2^bits) : powMod n bits a k = a^k % n := by
  induction bits generalizing a k with
  | zero =>
    have hk : k = 0 := by simpa using h
    rw [hk, pow_zero, powMod]
  | succ bits ih =>
    have hhalf : k / 2 < 2^bits := by rw [pow_succ] at h; omega
    have hsq : (a * a % n)^(k / 2) % n = a^(2 * (k / 2)) % n := by
      rw [← Nat.pow_mod, pow_mul, pow_two]
    have hk := Nat.div_add_mod k 2
    rw [powMod, ih hhalf, hsq, Nat.mul_mod_mod]
    rcases Nat.mod_two_eq_zero_or_one k with h0 | h1
    · rw [if_pos h0, one_mul]
      congr 2
      omega
    · rw [if_neg (by omega), ← pow_succ']
      congr 2
      omega

/-- Lucas's test with the witness `a`, where `factors` are those of `p - 1` -/
def LucasTest (bits p a : ℕ) (factors : List ℕ) : Prop :=
  1 < p ∧ p ≤ 2^bits ∧ factors.prod = p - 1 ∧ powMod p bits a (p - 1) = 1 ∧
    ∀ q ∈ factors, powMod p bits a ((p - 1) / q) ≠ 1

instance (bits p a : ℕ) (factors : List ℕ) : Decidable (LucasTest bits p a factors) :=
  inferInstanceAs (Decidable (_ ∧ _))

/-- the factors in two lists: those one sees to be prime, and those with a test of their own -/
theorem prime_of_lucas (bits p a : ℕ) (small large : List ℕ)
    (h : LucasTest bits p a (small ++ large)) (hsmall : small.Forall Nat.Prime)
    (hlarge : large.Forall Nat.Prime) : p.Prime := by
  obtain ⟨hp, hbits, hprod, hone, hne⟩ := h
  have hprime : ∀ q ∈ small ++ large, q.Prime := by
    intro q hq
    rcases List.mem_append.mp hq with hq | hq
    · exact List.forall_iff_forall_mem.mp hsmall q hq
    · exact List.forall_iff_forall_mem.mp hlarge q hq
  have hpow : ∀ k : ℕ, (a : ZMod p)^k = 1 ↔ a^k % p = 1 := by
    intro k
    rw [← Nat.cast_pow, ← Nat.cast_one, ZMod.natCast_eq_natCast_iff', Nat.mod_eq_of_lt hp]
  refine lucas_primality p a ?_ fun q hq hdvd => ?_
  · rw [hpow, ← powMod_eq (show p - 1 < 2^bits by omega), hone]
  · have hmem : q ∈ small ++ large := by
      rw [← hprod, hq.prime.dvd_prod_iff] at hdvd
      obtain ⟨r, hr, hqr⟩ := hdvd
      exact (Nat.prime_dvd_prime_iff_eq hq (hprime r hr)).mp hqr ▸ hr
    have hlt : (p - 1) / q < 2^bits := by
      have := Nat.div_le_self (p - 1) q
      omega
    rw [Ne, hpow, ← powMod_eq hlt]
    exact hne q hmem
