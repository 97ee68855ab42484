import Mathlib.Data.List.Infix

/-!
# Streaks

`HasStreak p k l`: somewhere in the list `k` elements in a row have the property `p`.

* `HasStreak.of_all`         a list all of whose elements have the property is a streak;
* `hasStreak_append_cons`    an element without the property ends a streak: where too few elements
                             stand in front of it, the streak is behind it.
-/

variable {α : Type*} {p : α → Prop} {k : Nat} {a : α} {l front rest : List α}

def HasStreak (p : α → Prop) (k : Nat) (l : List α) : Prop :=
  ∃ mid, mid <:+: l ∧ mid.length = k ∧ ∀ a ∈ mid, p a

theorem HasStreak.of_all (h : ∀ a ∈ l, p a) : HasStreak p l.length l :=
  ⟨l, List.infix_rfl, rfl, h⟩

theorem not_hasStreak_nil (hk : 0 < k) : ¬ HasStreak p k [] := by
  intro ⟨mid, hmid, hlen, _⟩
  obtain rfl := List.infix_nil.mp hmid
  exact absurd hlen (Nat.ne_of_lt hk)

/-- a longer prefix reaches the element behind the front -/
theorem mem_of_longer (h : l <+: front ++ a :: rest) (hlen : front.length < l.length) : a ∈ l := by
  have hget : l[front.length] = a := by
    rw [h.getElem hlen, List.getElem_append_right (Nat.le_refl _)]
    simp only [Nat.sub_self, List.getElem_cons_zero]
  exact hget ▸ List.getElem_mem hlen

theorem hasStreak_append_cons (hk : front.length < k) (ha : ¬ p a) :
    HasStreak p k (front ++ a :: rest) ↔ HasStreak p k rest := by
  constructor
  · induction front with
    | nil =>
      rintro ⟨mid, hmid, rfl, hp⟩
      rcases List.infix_cons_iff.mp hmid with hpre | hinfix
      · have hfront : mid <+: [] ++ a :: rest := hpre
        exact absurd (hp a (mem_of_longer hfront hk)) ha
      · exact ⟨mid, hinfix, rfl, hp⟩
    | cons b front ih =>
      rintro ⟨mid, hmid, rfl, hp⟩
      rcases List.infix_cons_iff.mp hmid with hpre | hinfix
      · have hfront : mid <+: (b :: front) ++ a :: rest := hpre
        exact absurd (hp a (mem_of_longer hfront hk)) ha
      · exact ih (Nat.lt_of_succ_lt hk) ⟨mid, hinfix, rfl, hp⟩
  · intro ⟨mid, hmid, hlen, hp⟩
    have hrest : rest <:+: front ++ a :: rest :=
      List.infix_append_of_infix_right (List.infix_cons List.infix_rfl)
    exact ⟨mid, hmid.trans hrest, hlen, hp⟩
