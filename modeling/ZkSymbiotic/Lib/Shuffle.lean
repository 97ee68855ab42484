import Mathlib.Data.List.Perm.Basic

/-!
# Orders of unordered collections

* `Shuffle l`     an order in which a collection without a fixed order is gone through;
* `mem_order`     it goes through the elements of the collection;
* `exists_first`  each element comes first in some order.
-/

/-- an order in which a collection without a fixed order is gone through -/
structure Shuffle {α : Type} (l : List α) where
  order : List α
  perm : order.Perm l

namespace Shuffle
variable {α : Type} {l : List α}

def id (l : List α) : Shuffle l := ⟨l, List.Perm.refl l⟩

theorem mem_order (s : Shuffle l) {a : α} : a ∈ s.order ↔ a ∈ l := s.perm.mem_iff

theorem exists_first {a : α} (h : a ∈ l) :
    ∃ (s : Shuffle l) (rest : List α), s.order = a :: rest := by
  obtain ⟨before, after, rfl⟩ := List.append_of_mem h
  exact ⟨⟨a :: (before ++ after), List.perm_middle.symm⟩, before ++ after, rfl⟩

end Shuffle
