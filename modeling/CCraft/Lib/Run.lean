import Mathlib.Data.Option.Basic

/-!
# Runs of labelled step functions

A system is given by a step function that takes a state and a label and answers
with the next state, or with {lit}`none` when the label is not enabled.  All the
nondeterminism of a system sits in its labels, so a list of labels has at most
one execution and a statement about every list of labels is a statement about
every interleaving.

Main results:

- Theorem {lit}`always_of_guarded`: an inductive invariant holds in every state of
  a run whose steps all meet a guard.
- Theorem {lit}`always_iff_guarded_of_guarded`: when each step outside the guard breaks
  the property at once, the property holds along a run exactly when its steps meet
  the guard.
- Theorem {lit}`last_iff_guarded`: the same for the state a run ends in, when the property
  never comes back.
- Theorem {lit}`exists_violation`: when each step outside the guard can be
  continued to a violation, a run that is not guarded has a beginning that can.
- Theorems {lit}`guarded_of_guarded`, {lit}`guarded_congr` and {lit}`exists_unguarded`: the
  same for a property of the steps, which is a guard itself.
-/

namespace Runs

variable {σ α : Type*} {step : σ → α → Option σ} {s s' : σ} {a : α} {as : List α}

/-- Execute a list of labels from a state. -/
def run (step : σ → α → Option σ) : σ → List α → Option σ
  | s, [] => some s
  | s, a :: as => (step s a).bind fun s' => run step s' as

/-- The property holds in every state that the run goes through. -/
def Always (step : σ → α → Option σ) (P : σ → Prop) : σ → List α → Prop
  | s, [] => P s
  | s, a :: as => P s ∧ ∀ s', step s a = some s' → Always step P s' as

/-- Every step of the run is taken in a state that meets the guard for it. -/
def Guarded (step : σ → α → Option σ) (G : σ → α → Prop) : σ → List α → Prop
  | _, [] => True
  | s, a :: as => G s a ∧ ∀ s', step s a = some s' → Guarded step G s' as

@[simp]
theorem run_nil : run step s [] = some s :=
  rfl

theorem run_cons_eq_some {t : σ} :
    run step s (a :: as) = some t ↔ ∃ s', step s a = some s' ∧ run step s' as = some t := by
  simp [run, Option.bind_eq_some_iff]

theorem Always.head {P : σ → Prop} (h : Always step P s as) : P s := by
  cases as with
  | nil => exact h
  | cons a as => exact h.1

/-- A property that holds along a run holds in the state the run ends in. -/
theorem Always.last {P : σ → Prop} {t : σ} (h : Always step P s as)
    (hrun : run step s as = some t) : P t := by
  induction as generalizing s with
  | nil =>
    simp only [run_nil, Option.some.injEq] at hrun
    exact hrun ▸ h
  | cons a as ih =>
    obtain ⟨s', hstep, hrest⟩ := run_cons_eq_some.mp hrun
    exact ih (h.2 s' hstep) hrest

theorem Always.mono {P Q : σ → Prop} (himp : ∀ s, P s → Q s) (h : Always step P s as) :
    Always step Q s as := by
  induction as generalizing s with
  | nil => exact himp s h
  | cons a as ih => exact ⟨himp s h.1, fun s' hs' => ih (h.2 s' hs')⟩

theorem guarded_cons {G : σ → α → Prop} (h : step s a = some s') :
    Guarded step G s (a :: as) ↔ G s a ∧ Guarded step G s' as := by
  refine and_congr_right fun _ => ⟨fun hall => hall s' h, ?_⟩
  intro hguard u hu
  rw [Option.some.inj (hu.symm.trans h)]
  exact hguard

theorem guarded_cons_none {G : σ → α → Prop} (h : step s a = none) :
    Guarded step G s (a :: as) ↔ G s a := by
  refine and_iff_left ?_
  intro u hu
  rw [h] at hu
  cases hu

/-- Whether a run meets a guard can be computed. -/
instance decidableGuarded (step : σ → α → Option σ) (G : σ → α → Prop)
    [∀ s a, Decidable (G s a)] : ∀ s as, Decidable (Guarded step G s as)
  | _, [] => isTrue trivial
  | s, a :: as =>
    match h : step s a with
    | none => decidable_of_iff _ (guarded_cons_none h).symm
    | some s' =>
      have := decidableGuarded step G s' as
      decidable_of_iff _ (guarded_cons h).symm

/-- An invariant that every guarded step keeps holds along every guarded run. -/
theorem always_of_guarded {I : σ → Prop} {G : σ → α → Prop}
    (hkeep : ∀ s a s', I s → G s a → step s a = some s' → I s')
    (hinit : I s) (hguard : Guarded step G s as) : Always step I s as := by
  induction as generalizing s with
  | nil => exact hinit
  | cons a as ih =>
    refine ⟨hinit, ?_⟩
    intro s' hs'
    exact ih (hkeep s a s' hinit hguard.1 hs') (hguard.2 s' hs')

theorem guarded_of_forall {Q : α → Prop} (has : ∀ a ∈ as, Q a) :
    Guarded step (fun _ a => Q a) s as := by
  induction as generalizing s with
  | nil => trivial
  | cons a as ih => exact ⟨has a (by simp), fun s' _ => ih fun b hb => has b (by simp [hb])⟩

/-- The same when the guard looks at the labels only. -/
theorem always_of_forall {I : σ → Prop} {Q : α → Prop}
    (hkeep : ∀ s a s', I s → Q a → step s a = some s' → I s')
    (hinit : I s) (has : ∀ a ∈ as, Q a) : Always step I s as :=
  always_of_guarded hkeep hinit (guarded_of_forall has)

/-- The same with an assumption about the labels and a guard. -/
theorem always_of_forall_guarded {I : σ → Prop} {Q : α → Prop} {G : σ → α → Prop}
    (hkeep : ∀ s a s', I s → Q a → G s a → step s a = some s' → I s')
    (hinit : I s) (has : ∀ a ∈ as, Q a) (hguard : Guarded step G s as) : Always step I s as := by
  induction as generalizing s with
  | nil => exact hinit
  | cons a as ih =>
    refine ⟨hinit, ?_⟩
    intro s' hs'
    have hkept := hkeep s a s' hinit (has a List.mem_cons_self) hguard.1 hs'
    exact ih hkept (fun b hb => has b (List.mem_cons_of_mem a hb)) (hguard.2 s' hs')

/-- If, as long as an invariant holds, the steps that meet one guard keep it and meet
another one, then the runs that meet the first guard meet the second. -/
theorem guarded_of_guarded {I : σ → Prop} {G F : σ → α → Prop}
    (hkeep : ∀ s a s', I s → G s a → step s a = some s' → I s')
    (hsound : ∀ s a, I s → G s a → F s a)
    (hinit : I s) (hguard : Guarded step G s as) : Guarded step F s as := by
  induction as generalizing s with
  | nil => trivial
  | cons a as ih =>
    refine ⟨hsound s a hinit hguard.1, ?_⟩
    intro s' hs'
    exact ih (hkeep s a s' hinit hguard.1 hs') (hguard.2 s' hs')

/-- If two guards agree as long as an invariant holds, and the steps that meet them keep it,
then the same runs meet them. -/
theorem guarded_congr {I : σ → Prop} {G F : σ → α → Prop}
    (hkeep : ∀ s a s', I s → G s a → step s a = some s' → I s')
    (hiff : ∀ s a, I s → (F s a ↔ G s a)) (hinit : I s) :
    Guarded step F s as ↔ Guarded step G s as := by
  constructor
  · refine guarded_of_guarded ?_ (fun s a hI => (hiff s a hI).1) hinit
    intro s a s' hI hF hstep
    exact hkeep s a s' hI ((hiff s a hI).1 hF) hstep
  · exact guarded_of_guarded hkeep (fun s a hI => (hiff s a hI).2) hinit

/-- If, among the runs that meet an assumption, a step outside the guard breaks the
property at once, then a complete one keeps the property exactly when all its steps meet
the guard. -/
theorem always_iff_guarded_of_guarded {I P : σ → Prop} {G H : σ → α → Prop} {t : σ}
    (hkeep : ∀ s a s', I s → H s a → G s a → step s a = some s' → I s')
    (hsound : ∀ s, I s → P s)
    (hbreak : ∀ s a s', I s → H s a → ¬ G s a → step s a = some s' → ¬ P s')
    (hinit : I s) (hassume : Guarded step H s as) (hrun : run step s as = some t) :
    Always step P s as ↔ Guarded step G s as := by
  induction as generalizing s with
  | nil => exact ⟨fun _ => trivial, fun _ => hsound s hinit⟩
  | cons a as ih =>
    obtain ⟨s', hstep, hrest⟩ := run_cons_eq_some.mp hrun
    have hH : H s a := hassume.1
    have hsame : ∀ u, step s a = some u → u = s' :=
      fun u hu => Option.some.inj (hu.symm.trans hstep)
    have htail : G s a → (Always step P s' as ↔ Guarded step G s' as) := fun hG =>
      ih (hkeep s a s' hinit hH hG hstep) (hassume.2 s' hstep) hrest
    constructor
    · rintro ⟨-, halways⟩
      have hG : G s a := by
        by_contra hG
        exact hbreak s a s' hinit hH hG hstep (halways s' hstep).head
      refine ⟨hG, ?_⟩
      intro u hu
      rw [hsame u hu]
      exact (htail hG).mp (halways s' hstep)
    · rintro ⟨hG, hguard⟩
      refine ⟨hsound s hinit, ?_⟩
      intro u hu
      rw [hsame u hu]
      exact (htail hG).mpr (hguard s' hstep)

/-- The same when the assumption looks at the labels only. -/
theorem always_iff_guarded {I P : σ → Prop} {G : σ → α → Prop} {Q : α → Prop} {t : σ}
    (hkeep : ∀ s a s', I s → Q a → G s a → step s a = some s' → I s')
    (hsound : ∀ s, I s → P s)
    (hbreak : ∀ s a s', I s → Q a → ¬ G s a → step s a = some s' → ¬ P s')
    (hinit : I s) (has : ∀ a ∈ as, Q a) (hrun : run step s as = some t) :
    Always step P s as ↔ Guarded step G s as :=
  always_iff_guarded_of_guarded hkeep hsound hbreak hinit (guarded_of_forall has) hrun

/-- If a property is kept by exactly the steps that meet the guard, and never comes back,
then it holds at the end of a run exactly when all steps meet the guard. -/
theorem last_iff_guarded {I P : σ → Prop} {G : σ → α → Prop} {Q : α → Prop} {t : σ}
    (hkeep : ∀ s a s', I s → Q a → step s a = some s' → I s')
    (hexact : ∀ s a s', I s → Q a → step s a = some s' → (P s' ↔ P s ∧ G s a))
    (hinit : I s) (has : ∀ a ∈ as, Q a) (hrun : run step s as = some t) :
    P t ↔ P s ∧ Guarded step G s as := by
  induction as generalizing s with
  | nil =>
    simp only [run_nil, Option.some.injEq] at hrun
    simp [hrun, Guarded]
  | cons a as ih =>
    obtain ⟨s', hstep, hrest⟩ := run_cons_eq_some.mp hrun
    have ha : Q a := has a (by simp)
    have htail := ih (hkeep s a s' hinit ha hstep) (fun b hb => has b (by simp [hb])) hrest
    rw [htail, hexact s a s' hinit ha hstep, guarded_cons hstep, and_assoc]

/-- If every step outside the guard can be continued to a state that breaks the
property, then so can some beginning of a run that is not guarded. -/
theorem exists_violation {I P : σ → Prop} {G : σ → α → Prop} {t : σ}
    (hkeep : ∀ s a s', I s → G s a → step s a = some s' → I s')
    (hbreak : ∀ s a s', I s → ¬ G s a → step s a = some s' →
      ∃ cs u, run step s' cs = some u ∧ ¬ P u)
    (hinit : I s) (hrun : run step s as = some t) (hguard : ¬ Guarded step G s as) :
    ∃ bs cs u, bs <+: as ∧ run step s (bs ++ cs) = some u ∧ ¬ P u := by
  induction as generalizing s with
  | nil => exact absurd trivial hguard
  | cons a as ih =>
    obtain ⟨s', hstep, hrest⟩ := run_cons_eq_some.mp hrun
    by_cases hG : G s a
    · have htail : ¬ Guarded step G s' as := by
        intro htail
        refine hguard ⟨hG, ?_⟩
        intro u hu
        rw [Option.some.inj (hu.symm.trans hstep)]
        exact htail
      obtain ⟨bs, cs, u, hbs, hu, hP⟩ := ih (hkeep s a s' hinit hG hstep) hrest htail
      refine ⟨a :: bs, cs, u, List.cons_prefix_cons.mpr ⟨rfl, hbs⟩, ?_, hP⟩
      exact run_cons_eq_some.mpr ⟨s', hstep, hu⟩
    · obtain ⟨cs, u, hu, hP⟩ := hbreak s a s' hinit hG hstep
      refine ⟨[a], cs, u, List.cons_prefix_cons.mpr ⟨rfl, List.nil_prefix⟩, ?_, hP⟩
      exact run_cons_eq_some.mpr ⟨s', hstep, hu⟩

/-- If every step outside the guard can be continued to a run that does not meet another
guard, then so can some beginning of a run that is not guarded. -/
theorem exists_unguarded {I : σ → Prop} {G F : σ → α → Prop} {t : σ}
    (hkeep : ∀ s a s', I s → G s a → step s a = some s' → I s')
    (hbreak : ∀ s a s', I s → ¬ G s a → step s a = some s' →
      ∃ cs, ¬ Guarded step F s (a :: cs))
    (hinit : I s) (hrun : run step s as = some t) (hguard : ¬ Guarded step G s as) :
    ∃ bs cs, bs <+: as ∧ ¬ Guarded step F s (bs ++ cs) := by
  induction as generalizing s with
  | nil => exact absurd trivial hguard
  | cons a as ih =>
    obtain ⟨s', hstep, hrest⟩ := run_cons_eq_some.mp hrun
    by_cases hG : G s a
    · have htail : ¬ Guarded step G s' as := by
        intro htail
        exact hguard ((guarded_cons hstep).2 ⟨hG, htail⟩)
      obtain ⟨bs, cs, hbs, hF⟩ := ih (hkeep s a s' hinit hG hstep) hrest htail
      refine ⟨a :: bs, cs, List.cons_prefix_cons.mpr ⟨rfl, hbs⟩, ?_⟩
      intro hall
      exact hF (hall.2 s' hstep)
    · obtain ⟨cs, hF⟩ := hbreak s a s' hinit hG hstep
      exact ⟨[a], cs, List.cons_prefix_cons.mpr ⟨rfl, List.nil_prefix⟩, hF⟩

end Runs
