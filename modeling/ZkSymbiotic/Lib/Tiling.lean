import Mathlib.Data.Set.Lattice
import Mathlib.Order.CompletePartialOrder
import Mathlib.Order.Interval.Set.Basic

/-!
# Segments that tile an initial segment

A list of closed segments of numbers, the latest one first.

* `Tiles`            all run forward, they are disjoint, and they cover what the latest one ends;
* `tiles_cons_iff`   the next segment has to begin behind the latest one, and to run forward.
-/

structure Segment where
  start : Nat
  fin : Nat

namespace Segment

def points (r : Segment) : Set Nat := Set.Icc r.start r.fin

def covered (segments : List Segment) : Set Nat := {n | ∃ r ∈ segments, n ∈ r.points}

theorem covered_cons (r : Segment) (segments : List Segment) :
    covered (r :: segments) = r.points ∪ covered segments := by
  ext n
  show (∃ r' ∈ r :: segments, n ∈ r'.points) ↔ n ∈ r.points ∨ ∃ r' ∈ segments, n ∈ r'.points
  simp only [List.mem_cons, or_and_right, exists_or, exists_eq_left]

theorem disjoint_covered {r : Segment} {segments : List Segment} :
    Disjoint r.points (covered segments) ↔ ∀ r' ∈ segments, Disjoint r.points r'.points := by
  simp only [Set.disjoint_left]
  constructor
  · intro h r' hr' n hn hn'
    exact h hn ⟨r', hr', hn'⟩
  · rintro h n hn ⟨r', hr', hn'⟩
    exact h r' hr' hn hn'

end Segment

open Segment

structure Tiles (segments : List Segment) : Prop where
  forward : ∀ r ∈ segments, r.start ≤ r.fin
  disjoint : segments.Pairwise fun r r' => Disjoint r.points r'.points
  union : ∀ last, segments.head? = some last → covered segments = Set.Iic last.fin

theorem tiles_nil : Tiles [] where
  forward := fun _ h => absurd h List.not_mem_nil
  disjoint := List.Pairwise.nil
  union := nofun

theorem tiles_singleton {r : Segment} (h : r.start = 0) : Tiles [r] where
  forward := by
    intro r' hr'
    obtain rfl := List.mem_singleton.mp hr'
    omega
  disjoint := List.pairwise_singleton _ _
  union := by
    intro last hlast
    obtain rfl := Option.some.inj hlast
    ext n
    rw [covered_cons]
    show (r.start ≤ n ∧ n ≤ r.fin) ∨ n ∈ covered [] ↔ n ≤ r.fin
    constructor
    · rintro (hn | ⟨_, hmem, _⟩)
      · exact hn.2
      · cases hmem
    · intro hn
      exact .inl ⟨by omega, hn⟩

/-- a segment behind `Iic m` that fills it up to its own end -/
theorem points_union_iff {r : Segment} {m : Nat} (hforward : r.start ≤ r.fin) :
    Disjoint r.points (Set.Iic m) ∧ r.points ∪ Set.Iic m = Set.Iic r.fin ↔ r.start = m + 1 := by
  constructor
  · rintro ⟨hdisjoint, hunion⟩
    have hlt : m < r.start := by
      by_contra hle
      exact Set.disjoint_left.mp hdisjoint ⟨le_refl _, hforward⟩ (not_lt.mp hle)
    by_contra hne
    -- the number behind `m` is left out
    have hmem : m + 1 ∈ r.points ∪ Set.Iic m := by
      rw [hunion]
      show m + 1 ≤ r.fin
      omega
    rcases hmem with ⟨hle, _⟩ | hle
    · omega
    · exact absurd hle (Nat.not_succ_le_self m)
  · intro hstart
    refine ⟨Set.disjoint_left.mpr ?_, ?_⟩
    · rintro n ⟨hn, _⟩ hle
      have hle : n ≤ m := hle
      omega
    · ext n
      show (r.start ≤ n ∧ n ≤ r.fin) ∨ n ≤ m ↔ n ≤ r.fin
      omega

theorem tiles_cons_iff {r last : Segment} {segments : List Segment}
    (h : Tiles (last :: segments)) :
    Tiles (r :: last :: segments) ↔ r.start = last.fin + 1 ∧ r.start ≤ r.fin := by
  have hunion := h.union last rfl
  constructor
  · intro htiles
    have hforward := htiles.forward r List.mem_cons_self
    have hdisjoint := disjoint_covered.mpr (List.pairwise_cons.mp htiles.disjoint).1
    have hcovered := htiles.union r rfl
    rw [covered_cons, hunion] at hcovered
    rw [hunion] at hdisjoint
    exact ⟨(points_union_iff hforward).mp ⟨hdisjoint, hcovered⟩, hforward⟩
  · rintro ⟨hstart, hforward⟩
    obtain ⟨hdisjoint, hcovered⟩ := (points_union_iff hforward).mpr hstart
    refine ⟨List.forall_mem_cons.mpr ⟨hforward, h.forward⟩, List.pairwise_cons.mpr ⟨?_, h.disjoint⟩,
      fun last' hlast' => ?_⟩
    · rw [← hunion] at hdisjoint
      exact disjoint_covered.mp hdisjoint
    · obtain rfl := Option.some.inj hlast'
      rw [covered_cons, hunion, hcovered]
