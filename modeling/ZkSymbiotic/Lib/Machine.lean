import Mathlib.Logic.Basic
import Mathlib.Data.List.Basic

/-!
# Machines: partial step functions, their runs and their invariants

A machine says for a state and an action whether the action is enabled and what the next state
is.  The environment's choices are part of the action, so a run is a list of actions.

* `Machine.run`          the state after a list of actions (`none`: some action was not enabled);
* `run_flatMap`          runs that fit together, end to start, are one run;
* `Machine.Reach`        reachability by some run; `Reach.inv` is the invariant rule, and
                         `run_inv_history` the one with the actions so far;
* `Machine.Takes`        a step of a run, with the state in which it is taken;
* `Machine.guard`        the steps of a machine that the environment is allowed to take;
* `Machine.Always P`     `P` holds in every state a run passes;
* `Machine.Steps G`      every step of a run meets `G`; `steps_congr` exchanges the condition;
* `always_iff_steps`     if, under an invariant, one step keeps `P` exactly when it meets `G`, then
                         a run stays in `P` exactly when all its steps meet `G`.
-/

/-- an action is not enabled (`none`) or leads to one next state -/
abbrev Machine (σ ε : Type*) := σ → ε → Option σ

namespace Machine
variable {σ ε : Type*} (m : Machine σ ε)

/-! ## runs -/

def run : σ → List ε → Option σ
  | s, [] => some s
  | s, a :: as => (m s a).bind fun s' => run s' as

theorem run_nil (s : σ) : m.run s [] = some s := rfl
theorem run_cons (s : σ) (a : ε) (as : List ε) :
    m.run s (a :: as) = (m s a).bind fun s' => m.run s' as := rfl

theorem run_cons_some {s s' : σ} {a : ε} {as : List ε} (h : m.run s (a :: as) = some s') :
    ∃ s₁, m s a = some s₁ ∧ m.run s₁ as = some s' := by
  rw [run_cons] at h
  exact Option.bind_eq_some_iff.mp h

theorem run_append (s : σ) (as bs : List ε) :
    m.run s (as ++ bs) = (m.run s as).bind fun s' => m.run s' bs := by
  induction as generalizing s with
  | nil => rfl
  | cons a as ih =>
    rw [List.cons_append, run_cons, run_cons, Option.bind_assoc]
    congr 1
    funext s'
    exact ih s'

theorem run_append_some {s s₁ : σ} {as : List ε} (h : m.run s as = some s₁) (bs : List ε) :
    m.run s (as ++ bs) = m.run s₁ bs := by
  rw [run_append, h]
  rfl

theorem run_concat {s₀ s s' : σ} {as : List ε} {a : ε} (h : m.run s₀ as = some s)
    (ha : m s a = some s') : m.run s₀ (as ++ [a]) = some s' := by
  rw [run_append_some m h, run_cons, ha]
  rfl

/-- runs that fit together, end to start, are one run -/
theorem run_flatMap {ι : Type*} {start final : ι → σ} {acts : ι → List ε} {l : List ι} :
    ∀ {first last : ι}, (∀ i ∈ l, m.run (start i) (acts i) = some (final i)) →
      l.IsChain (fun i j => final i = start j) → l.head? = some first → l.getLast? = some last →
      m.run (start first) (l.flatMap acts) = some (final last) := by
  induction l with
  | nil => intro first last _ _ hfirst _; cases hfirst
  | cons i l ih =>
    intro first last hrun hfit hfirst hlast
    obtain rfl : i = first := Option.some.inj hfirst
    rw [List.flatMap_cons, run_append, hrun i List.mem_cons_self]
    show m.run (final i) (l.flatMap acts) = some (final last)
    cases l with
    | nil =>
      obtain rfl : i = last := Option.some.inj hlast
      rfl
    | cons j l =>
      rw [List.isChain_cons_cons] at hfit
      rw [hfit.1]
      rw [List.getLast?_cons_cons] at hlast
      exact ih (fun k hk => hrun k (List.mem_cons_of_mem i hk)) hfit.2 rfl hlast

def Reach (s₀ s : σ) : Prop := ∃ as, m.run s₀ as = some s

theorem Reach.refl (s : σ) : m.Reach s s := ⟨[], rfl⟩

theorem Reach.step {s₀ s s' : σ} {a : ε} (h : m.Reach s₀ s) (ha : m s a = some s') :
    m.Reach s₀ s' := by
  obtain ⟨as, has⟩ := h
  exact ⟨as ++ [a], m.run_concat has ha⟩

/-! ## restricted environments -/

/-- the steps that meet `G` -/
def guard (G : σ → ε → Prop) [∀ s a, Decidable (G s a)] : Machine σ ε := fun s a =>
  if G s a then m s a else none

theorem guard_some {G : σ → ε → Prop} [∀ s a, Decidable (G s a)] {s s' : σ} {a : ε} :
    m.guard G s a = some s' ↔ G s a ∧ m s a = some s' := by
  unfold guard
  by_cases h : G s a
  · rw [if_pos h]
    exact ⟨fun hs => ⟨h, hs⟩, fun hs => hs.2⟩
  · rw [if_neg h]
    refine ⟨fun hs => ?_, fun hs => absurd hs.1 h⟩
    cases hs

/-- actions that meet `G` in every state run as before -/
theorem guard_run {G : σ → ε → Prop} [∀ s a, Decidable (G s a)] {as : List ε}
    (h : ∀ a ∈ as, ∀ s, G s a) : ∀ s : σ, (m.guard G).run s as = m.run s as := by
  induction as with
  | nil => intro s; rfl
  | cons a as ih =>
    intro s
    have hstep : m.guard G s a = m s a := if_pos (h a List.mem_cons_self s)
    rw [run_cons, run_cons, hstep]
    congr 1
    funext s'
    exact ih (fun b hb => h b (List.mem_cons_of_mem a hb)) s'

/-! ## invariants -/

variable {m} {I P : σ → Prop} {G : σ → ε → Prop}

/-- **the invariant rule**: what one step preserves a whole run preserves -/
theorem run_inv (hs : ∀ s a s', I s → m s a = some s' → I s') {as : List ε} :
    ∀ {s₀ s : σ}, I s₀ → m.run s₀ as = some s → I s := by
  induction as with
  | nil =>
    intro s₀ s h0 h
    rw [run_nil, Option.some.injEq] at h
    exact h ▸ h0
  | cons a as ih =>
    intro s₀ s h0 h
    obtain ⟨s₁, h1, h2⟩ := m.run_cons_some h
    exact ih (hs s₀ a s₁ h0 h1) h2

theorem Reach.inv (hs : ∀ s a s', I s → m s a = some s' → I s') {s₀ s : σ} (h0 : I s₀)
    (h : m.Reach s₀ s) : I s := by
  obtain ⟨as, has⟩ := h
  exact run_inv hs h0 has

/-- the invariant rule with the actions so far, from a state with a history -/
theorem run_inv_from {J : List ε → σ → Prop}
    (hs : ∀ as s a s', J as s → m s a = some s' → J (as ++ [a]) s') {as : List ε} :
    ∀ {before : List ε} {s₀ s : σ}, J before s₀ → m.run s₀ as = some s → J (before ++ as) s := by
  induction as with
  | nil =>
    intro before s₀ s h0 h
    rw [run_nil, Option.some.injEq] at h
    rw [List.append_nil]
    exact h ▸ h0
  | cons a as ih =>
    intro before s₀ s h0 h
    obtain ⟨s₁, h1, h2⟩ := m.run_cons_some h
    have hrest := ih (hs before s₀ a s₁ h0 h1) h2
    rwa [List.append_assoc] at hrest

/-- the invariant rule with the actions so far -/
theorem run_inv_history {J : List ε → σ → Prop}
    (hs : ∀ as s a s', J as s → m s a = some s' → J (as ++ [a]) s') {as : List ε} {s₀ s : σ}
    (h0 : J [] s₀) (h : m.run s₀ as = some s) : J as s := by
  have hrun := run_inv_from hs h0 h
  rwa [List.nil_append] at hrun

variable (m) in
/-- the run of `as` from `s₀` takes the step `a` in the state `s` -/
def Takes (s₀ : σ) (as : List ε) (s : σ) (a : ε) : Prop :=
  ∃ before after s', as = before ++ a :: after ∧ m.run s₀ before = some s ∧ m s a = some s'

theorem Takes.last {s₀ s s' : σ} {as : List ε} {a : ε} (h : m.run s₀ as = some s)
    (ha : m s a = some s') : m.Takes s₀ (as ++ [a]) s a :=
  ⟨as, [], s', rfl, h, ha⟩

theorem Takes.append {s₀ s : σ} {as : List ε} {a : ε} (h : m.Takes s₀ as s a) (bs : List ε) :
    m.Takes s₀ (as ++ bs) s a := by
  obtain ⟨before, after, s', rfl, hrun, hstep⟩ := h
  exact ⟨before, after ++ bs, s', List.append_assoc before (a :: after) bs, hrun, hstep⟩

/-- an action of a run is taken in some state -/
theorem exists_takes {s₀ s : σ} {as : List ε} {a : ε} (h : m.run s₀ as = some s) (ha : a ∈ as) :
    ∃ s₁, m.Takes s₀ as s₁ a := by
  obtain ⟨before, after, rfl⟩ := List.append_of_mem ha
  rw [run_append] at h
  obtain ⟨s₁, hbefore, hafter⟩ := Option.bind_eq_some_iff.mp h
  obtain ⟨s₂, hstep, _⟩ := m.run_cons_some hafter
  exact ⟨s₁, before, after, s₂, rfl, hbefore, hstep⟩

/-- and an invariant holds in that state -/
theorem Takes.inv (hs : ∀ s a s', I s → m s a = some s' → I s') {s₀ s : σ} {as : List ε} {a : ε}
    (h0 : I s₀) (h : m.Takes s₀ as s a) : I s := by
  obtain ⟨before, _, _, _, hrun, _⟩ := h
  exact run_inv hs h0 hrun

/-! ## properties of all states and of all steps of a run -/

variable (m)

/-- `P` holds in every state that the run of `as` passes, first and last included -/
def Always (P : σ → Prop) : σ → List ε → Prop
  | s, [] => P s
  | s, a :: as => P s ∧ ∀ s', m s a = some s' → Always P s' as

/-- every step of the run of `as` meets `G` -/
def Steps (G : σ → ε → Prop) : σ → List ε → Prop
  | _, [] => True
  | s, a :: as => G s a ∧ ∀ s', m s a = some s' → Steps G s' as

variable {m}

theorem Always.first {s : σ} {as : List ε} (h : m.Always P s as) : P s := by
  cases as with
  | nil => exact h
  | cons a as => exact h.1

theorem Always.last {as : List ε} : ∀ {s s' : σ}, m.Always P s as → m.run s as = some s' →
    P s' := by
  induction as with
  | nil =>
    intro s s' h hr
    rw [run_nil, Option.some.injEq] at hr
    exact hr ▸ h
  | cons a as ih =>
    intro s s' h hr
    obtain ⟨s₁, h1, h2⟩ := m.run_cons_some hr
    exact ih (h.2 s₁ h1) h2

theorem Always.mono {Q : σ → Prop} (hPQ : ∀ s, P s → Q s) (as : List ε) :
    ∀ {s : σ}, m.Always P s as → m.Always Q s as := by
  induction as with
  | nil => intro s h; exact hPQ s h
  | cons a as ih => intro s h; exact ⟨hPQ s h.1, fun s' h' => ih (h.2 s' h')⟩

/-- actions that meet `G` in every state make steps that do -/
theorem Steps.of_forall {as : List ε} (h : ∀ a ∈ as, ∀ s, G s a) : ∀ s : σ, m.Steps G s as := by
  induction as with
  | nil => intro s; exact trivial
  | cons a as ih =>
    intro s
    exact ⟨h a List.mem_cons_self s, fun s' _ =>
      ih (fun b hb => h b (List.mem_cons_of_mem a hb)) s'⟩

theorem Steps.append {bs as : List ε} : ∀ {s : σ}, m.Steps G s as →
    (∀ s', m.run s as = some s' → m.Steps G s' bs) → m.Steps G s (as ++ bs) := by
  induction as with
  | nil => intro s _ hbs; exact hbs s rfl
  | cons a as ih =>
    intro s has hbs
    refine ⟨has.1, fun s' hs' => ih (has.2 s' hs') fun s₁ hs₁ => hbs s₁ ?_⟩
    rw [run_cons, hs']
    exact hs₁

/-- actions that meet `G` in every state, in front of steps that meet it -/
theorem Steps.of_forall_append {as bs : List ε} (has : ∀ a ∈ as, ∀ s, G s a) {s s' : σ}
    (hr : m.run s as = some s') (hbs : m.Steps G s' bs) : m.Steps G s (as ++ bs) := by
  refine Steps.append (Steps.of_forall has s) fun s₁ hs₁ => ?_
  obtain rfl := Option.some.inj (hr.symm.trans hs₁)
  exact hbs

/-- conditions that agree on every step agree on every run -/
theorem steps_congr {G' : σ → ε → Prop} (h : ∀ s a, G s a ↔ G' s a) (as : List ε) :
    ∀ {s : σ}, m.Steps G s as ↔ m.Steps G' s as := by
  induction as with
  | nil => exact Iff.rfl
  | cons a as ih =>
    intro s
    exact and_congr (h s a) (forall_congr' fun _ => imp_congr_right fun _ => ih)

/-- a run whose steps meet `G` stays in what such steps preserve -/
theorem Steps.always (hs : ∀ s a s', I s → G s a → m s a = some s' → I s') (as : List ε) :
    ∀ {s : σ}, I s → m.Steps G s as → m.Always I s as := by
  induction as with
  | nil => intro s h _; exact h
  | cons a as ih =>
    intro s h hG
    exact ⟨h, fun s' h' => ih (hs s a s' h hG.1 h') (hG.2 s' h')⟩

/-- **exact conditions on runs**: if one step keeps `P` exactly when it meets `G`, then a run stays
in `P` exactly when all its steps meet `G` -/
theorem always_iff_steps (hI : ∀ s a s', I s → m s a = some s' → I s')
    (hPG : ∀ s a s', I s → P s → m s a = some s' → (P s' ↔ G s a)) {as : List ε} :
    ∀ {s s' : σ}, I s → P s → m.run s as = some s' →
      (m.Always P s as ↔ m.Steps G s as) := by
  induction as with
  | nil => intro s s' _ hP _; exact ⟨fun _ => trivial, fun _ => hP⟩
  | cons a as ih =>
    intro s s' hIs hP hr
    obtain ⟨s₁, h1, h2⟩ := m.run_cons_some hr
    have hI1 : I s₁ := hI s a s₁ hIs h1
    have hiff : P s₁ ↔ G s a := hPG s a s₁ hIs hP h1
    constructor
    · intro ⟨_, hrest⟩
      have hP1 : P s₁ := (hrest s₁ h1).first
      refine ⟨hiff.mp hP1, fun s₂ h => ?_⟩
      obtain rfl : s₁ = s₂ := Option.some.inj (h1.symm.trans h)
      exact (ih hI1 hP1 h2).mp (hrest s₁ h1)
    · intro ⟨hG, hrest⟩
      have hP1 : P s₁ := hiff.mpr hG
      refine ⟨hP, fun s₂ h => ?_⟩
      obtain rfl : s₁ = s₂ := Option.some.inj (h1.symm.trans h)
      exact (ih hI1 hP1 h2).mpr (hrest s₁ h1)

end Machine
