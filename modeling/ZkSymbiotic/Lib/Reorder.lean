import Mathlib.Data.List.Dedup
import Mathlib.Data.List.Perm.Basic
import Mathlib.Data.List.Sort
import ZkSymbiotic.Lib.Bytes
import ZkSymbiotic.Lib.Result

/-!
# Reordered lists

* `mergeSort_eq_of_perm`   elements with different keys are sorted into one list, in whichever order
                           they come;
* `eq_sortedMembers`       a sorted list without repetitions is known by its members;
* `Except.mapM_perm`       a loop over reordered elements: the same results reordered, or an error
                           in both orders;
* `FixedBytes.linearOrder` the lexicographic order of byte strings of one width is linear.
-/

/-! ## sorting by a key -/

section
variable {α κ : Type*} [LinearOrder κ] {key : α → κ} {l l' : List α}

theorem pairwise_mergeSort_key (key : α → κ) (l : List α) :
    (l.mergeSort fun a b => decide (key a ≤ key b)).Pairwise fun a b => key a ≤ key b := by
  have hsorted : (l.mergeSort fun a b => decide (key a ≤ key b)).Pairwise
      fun a b => decide (key a ≤ key b) = true := by
    apply List.pairwise_mergeSort
    · intro a b c hab hbc
      exact decide_eq_true (le_trans (of_decide_eq_true hab) (of_decide_eq_true hbc))
    · intro a b
      rw [Bool.or_eq_true, decide_eq_true_eq, decide_eq_true_eq]
      exact le_total (key a) (key b)
  exact hsorted.imp fun hab => of_decide_eq_true hab

theorem mergeSort_eq_of_perm (hkey : (l.map key).Nodup) (h : l.Perm l') :
    (l.mergeSort fun a b => decide (key a ≤ key b))
      = l'.mergeSort fun a b => decide (key a ≤ key b) := by
  have hperm : (l.mergeSort fun a b => decide (key a ≤ key b)).Perm
      (l'.mergeSort fun a b => decide (key a ≤ key b)) :=
    ((List.mergeSort_perm l _).trans h).trans (List.mergeSort_perm l' _).symm
  refine List.Perm.eq_of_pairwise (fun a b ha hb hab hba => ?_) (pairwise_mergeSort_key key l)
    (pairwise_mergeSort_key key l') hperm
  have ha' : a ∈ l := (List.mergeSort_perm l _).mem_iff.mp ha
  have hb' : b ∈ l := h.mem_iff.mpr ((List.mergeSort_perm l' _).mem_iff.mp hb)
  exact List.inj_on_of_nodup_map hkey ha' hb' (le_antisymm hab hba)

/-- sorted without repetitions, a list is strictly sorted -/
theorem pairwise_lt_of_nodup {l : List κ} (h : l.Pairwise (· ≤ ·)) (hl : l.Nodup) :
    l.Pairwise (· < ·) :=
  h.imp₂ (fun _ _ hle hne => lt_of_le_of_ne hle hne) hl

/-- the members of a list, sorted and each once -/
def sortedMembers (l : List κ) : List κ := l.dedup.mergeSort fun a b => decide (a ≤ b)

theorem mem_sortedMembers {l : List κ} {a : κ} : a ∈ sortedMembers l ↔ a ∈ l := by
  rw [sortedMembers, (List.mergeSort_perm _ _).mem_iff, List.mem_dedup]

/-- a sorted list without repetitions is known by its members -/
theorem eq_sortedMembers {l l' : List κ} (h : l.Pairwise (· ≤ ·)) (hl : l.Nodup)
    (hmem : ∀ a, a ∈ l ↔ a ∈ l') : l = sortedMembers l' := by
  have hnodup : (sortedMembers l').Nodup :=
    (List.mergeSort_perm _ _).nodup_iff.mpr (List.nodup_dedup l')
  have hsorted : (sortedMembers l').Pairwise (· ≤ ·) := pairwise_mergeSort_key id _
  refine List.Pairwise.eq_of_mem_iff (pairwise_lt_of_nodup h hl)
    (pairwise_lt_of_nodup hsorted hnodup) fun a => ?_
  rw [hmem, mem_sortedMembers]

end

/-! ## loops -/

/-- a loop whose only error is `e`, over the same elements in another order -/
theorem Except.mapM_perm {ε α β : Type} {f : α → Except ε β} {e : ε}
    (he : ∀ a e', f a = .error e' → e' = e) {l l' : List α} (h : l.Perm l') :
    (∃ r r', l.mapM f = .ok r ∧ l'.mapM f = .ok r' ∧ r.Perm r') ∨
      l.mapM f = .error e ∧ l'.mapM f = .error e := by
  have hok : ∀ {l l' : List α} {r : List β}, l.Perm l' → l.mapM f = .ok r →
      ∃ r', l'.mapM f = .ok r' ∧ r.Perm r' := by
    intro l l' r h hr
    obtain ⟨r', hr', hperm⟩ := List.perm_comp_forall₂ h.symm (Except.mapM_eq_ok.mp hr)
    exact ⟨r', Except.mapM_eq_ok.mpr hr', hperm.symm⟩
  have herror : ∀ {l : List α} {e' : ε}, l.mapM f = .error e' → e' = e := by
    intro l e' hl
    obtain ⟨_, a, _, _, _, ha⟩ := Except.mapM_eq_error.mp hl
    exact he a e' ha
  cases hl : l.mapM f with
  | ok r =>
    obtain ⟨r', hr', hperm⟩ := hok h hl
    exact .inl ⟨r, r', rfl, hr', hperm⟩
  | error e₁ =>
    cases hl' : l'.mapM f with
    | ok r' =>
      obtain ⟨r, hr, _⟩ := hok h.symm hl'
      rw [hl] at hr
      cases hr
    | error e₂ =>
      rw [herror hl, herror hl']
      exact .inr ⟨rfl, rfl⟩

/-! ## byte strings -/

instance FixedBytes.linearOrder (n : Nat) : LinearOrder (FixedBytes n) where
  le_refl a := List.le_refl a.bytes
  le_trans _ _ _ hab hbc := List.le_trans hab hbc
  le_antisymm _ _ hab hba := FixedBytes.bytes_inj (List.le_antisymm hab hba)
  le_total a b := List.le_total a.bytes b.bytes
  toDecidableLE := inferInstance
