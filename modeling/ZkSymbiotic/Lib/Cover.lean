import Mathlib.Data.List.Chain
import Mathlib.Order.Lattice

/-!
# Intervals that fit together

A list of closed intervals `[lo i, hi i]`, each of which begins where the one before it ends, covers
everything between its first and its last point: `exists_mem_of_chain`.
-/

variable {ι α : Type*} [LinearOrder α] {lo hi : ι → α}

theorem exists_mem_of_chain {l : List ι} : ∀ {first last : ι} {x : α},
    l.IsChain (fun i j => hi i = lo j) → l.head? = some first → l.getLast? = some last →
      lo first ≤ x → x ≤ hi last → ∃ i ∈ l, lo i ≤ x ∧ x ≤ hi i := by
  induction l with
  | nil => intro first last x _ hfirst; cases hfirst
  | cons i l ih =>
    intro first last x hchain hfirst hlast hlo hhi
    obtain rfl : i = first := Option.some.inj hfirst
    rcases le_or_gt x (hi i) with hx | hx
    · exact ⟨i, List.mem_cons_self, hlo, hx⟩
    · cases l with
      | nil =>
        obtain rfl : i = last := Option.some.inj hlast
        exact absurd hhi (not_le_of_gt hx)
      | cons j l =>
        rw [List.isChain_cons_cons] at hchain
        rw [List.getLast?_cons_cons] at hlast
        have hj : lo j ≤ x := hchain.1 ▸ le_of_lt hx
        obtain ⟨k, hk, hkx⟩ := ih hchain.2 rfl hlast hj hhi
        exact ⟨k, List.mem_cons_of_mem i hk, hkx⟩

/-- the intervals behind one of them cover everything from its end on, or it is the last one -/
theorem exists_mem_after {l r : List ι} {i last : ι} {x : α}
    (hchain : (l ++ i :: r).IsChain fun i j => hi i = lo j)
    (hlast : (l ++ i :: r).getLast? = some last) (hlo : hi i ≤ x) (hhi : x ≤ hi last) :
    x = hi i ∨ ∃ j ∈ r, lo j ≤ x ∧ x ≤ hi j := by
  have htail : (i :: r).IsChain fun i j => hi i = lo j := (List.isChain_append.mp hchain).2.1
  rw [List.getLast?_append_of_ne_nil _ (List.cons_ne_nil i r)] at hlast
  cases r with
  | nil =>
    obtain rfl : i = last := Option.some.inj hlast
    exact .inl (le_antisymm hhi hlo)
  | cons j r =>
    rw [List.isChain_cons_cons] at htail
    rw [List.getLast?_cons_cons] at hlast
    exact .inr (exists_mem_of_chain htail.2 rfl hlast (htail.1 ▸ hlo) hhi)

/-- where all intervals run forward, none of them ends after the last one -/
theorem hi_le_of_chain {l : List ι} : ∀ {last i : ι}, (∀ i ∈ l, lo i ≤ hi i) →
    l.IsChain (fun i j => hi i = lo j) → l.getLast? = some last → i ∈ l → hi i ≤ hi last := by
  induction l with
  | nil => intro last i _ _ _ hi; cases hi
  | cons k l ih =>
    intro last i hle hchain hlast hmem
    cases l with
    | nil =>
      obtain rfl : k = last := Option.some.inj hlast
      obtain rfl : i = k := List.mem_singleton.mp hmem
      exact le_refl _
    | cons j l =>
      rw [List.isChain_cons_cons] at hchain
      rw [List.getLast?_cons_cons] at hlast
      have hle' : ∀ i ∈ j :: l, lo i ≤ hi i := fun i h => hle i (List.mem_cons_of_mem k h)
      rcases List.mem_cons.mp hmem with rfl | h
      · have hj : hi j ≤ hi last := ih hle' hchain.2 hlast List.mem_cons_self
        rw [hchain.1]
        exact le_trans (hle' j List.mem_cons_self) hj
      · exact ih hle' hchain.2 hlast h
