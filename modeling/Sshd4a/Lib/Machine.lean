import Mathlib.Data.List.Basic

/-!
# Runs of a labelled transition system

A system is a partial step function `σ → ε → Option σ`: the label carries every choice the
environment makes, `none` says the label is not enabled. A run is the fold of the step
function over a list of labels.

`Along` is how a property of a run is stated: `Along step Ok s es` says that `Ok` holds of
every state the run from `s` over `es` visits together with the label taken there. Both what
a run is assumed to do and what it is shown to do are `Along` statements, and the rules
below turn a one-step argument into one about the run: `Along.invariant` carries an invariant
to the end, `Along.imp` and `Along.congr` replace one step property by another under an
invariant. `run_refines` is for two systems: the runs of one, seen through a function, are the
runs of the other.
-/

namespace Machine

variable {σ ε : Type*} {step : σ → ε → Option σ}

/-- The state after a sequence of labels, if each was enabled where it was taken. -/
def run (step : σ → ε → Option σ) : σ → List ε → Option σ
  | s, [] => some s
  | s, e :: es =>
    match step s e with
    | some s' => run step s' es
    | none => none

/-- `Ok` holds of every visited state with the label taken in it. -/
def Along (step : σ → ε → Option σ) (Ok : σ → ε → Prop) : σ → List ε → Prop
  | _, [] => True
  | s, e :: es => Ok s e ∧ ∀ s', step s e = some s' → Along step Ok s' es

/-- A step property that can be decided can be decided along a run. -/
instance decidableAlong (Ok : σ → ε → Prop) [∀ s e, Decidable (Ok s e)] :
    ∀ s es, Decidable (Along step Ok s es)
  | _, [] => isTrue trivial
  | s, e :: es =>
    match h : step s e with
    | none => decidable_of_iff (Ok s e) ⟨fun hok => ⟨hok, fun t ht => by simp [h] at ht⟩, And.left⟩
    | some t =>
      have := decidableAlong Ok t es
      decidable_of_iff (Ok s e ∧ Along step Ok t es)
        ⟨fun hok => ⟨hok.1, fun t' ht' => Option.some.inj (h.symm.trans ht') ▸ hok.2⟩,
          fun hok => ⟨hok.1, hok.2 t h⟩⟩

@[simp] theorem run_nil (s : σ) : run step s [] = some s := rfl

theorem run_cons {s s' : σ} {e : ε} {es : List ε} (h : step s e = some s') :
    run step s (e :: es) = run step s' es := by
  simp [run, h]

theorem run_cons_eq_some {s t : σ} {e : ε} {es : List ε} :
    run step s (e :: es) = some t ↔ ∃ s', step s e = some s' ∧ run step s' es = some t := by
  cases hs : step s e with
  | none => simp [run, hs]
  | some u => simp [run, hs]

theorem run_append (s : σ) (es fs : List ε) :
    run step s (es ++ fs) = (run step s es).bind fun t => run step t fs := by
  induction es generalizing s with
  | nil => rfl
  | cons e es ih =>
    cases hs : step s e with
    | none => simp [run, hs]
    | some t =>
      rw [List.cons_append, run_cons hs, run_cons hs]
      exact ih t

theorem Along.of_forall {P : ε → Prop} {es : List ε} (h : ∀ e ∈ es, P e) (s : σ) :
    Along step (fun _ e => P e) s es := by
  induction es generalizing s with
  | nil => trivial
  | cons e es ih =>
    exact ⟨h e (by simp), fun t _ => ih (fun e he => h e (List.mem_cons_of_mem _ he)) t⟩

theorem Along.and {Ok Ok' : σ → ε → Prop} {s : σ} {es : List ε} (h : Along step Ok s es)
    (h' : Along step Ok' s es) : Along step (fun s e => Ok s e ∧ Ok' s e) s es := by
  induction es generalizing s with
  | nil => trivial
  | cons e es ih => exact ⟨⟨h.1, h'.1⟩, fun t hs => ih (h.2 t hs) (h'.2 t hs)⟩

/-- What holds along a run holds of the step taken after a part of it. -/
theorem Along.at_run {Ok : σ → ε → Prop} {s t : σ} {es fs : List ε} {e : ε}
    (h : Along step Ok s (es ++ e :: fs)) (hr : run step s es = some t) : Ok t e := by
  induction es generalizing s with
  | nil =>
    rw [run_nil, Option.some.injEq] at hr
    exact hr ▸ h.1
  | cons e' es ih =>
    cases hs : step s e' with
    | none => simp [run, hs] at hr
    | some u =>
      rw [run_cons hs] at hr
      exact ih (h.2 u hs) hr

/-- **The invariant rule**: what holds at the start and is kept by every step that meets
    `Ok` holds at the end of every run whose steps all do. -/
theorem Along.invariant {Ok : σ → ε → Prop} {I : σ → Prop}
    (keep : ∀ s e s', I s → Ok s e → step s e = some s' → I s')
    {s s' : σ} {es : List ε} (h : Along step Ok s es) (hi : I s)
    (hr : run step s es = some s') : I s' := by
  induction es generalizing s with
  | nil =>
    rw [run_nil, Option.some.injEq] at hr
    exact hr ▸ hi
  | cons e es ih =>
    cases hs : step s e with
    | none => simp [run, hs] at hr
    | some t =>
      rw [run_cons hs] at hr
      exact ih (h.2 t hs) (keep s e t hi h.1 hs) hr

/-- What every step keeps holds at the end of every run. -/
theorem run_invariant {I : σ → Prop} (keep : ∀ s e s', I s → step s e = some s' → I s')
    {s s' : σ} {es : List ε} (hi : I s) (hr : run step s es = some s') : I s' :=
  (Along.of_forall (P := fun _ => True) (fun _ _ => trivial) s).invariant
    (fun s e s' hs _ => keep s e s' hs) hi hr

/-- Replace the step property by a consequence of it, with an invariant at hand. -/
theorem Along.imp {Ok Ok' : σ → ε → Prop} {I : σ → Prop}
    (keep : ∀ s e s', I s → Ok s e → step s e = some s' → I s')
    (imp : ∀ s e, I s → Ok s e → Ok' s e) {s : σ} {es : List ε}
    (h : Along step Ok s es) (hi : I s) : Along step Ok' s es := by
  induction es generalizing s with
  | nil => trivial
  | cons e es ih =>
    exact ⟨imp s e hi h.1, fun t hs => ih (h.2 t hs) (keep s e t hi h.1 hs)⟩

/-- Exchange the step property for an equivalent one, with an invariant that every step
    keeps. -/
theorem Along.congr {Ok Ok' : σ → ε → Prop} {I : σ → Prop}
    (keep : ∀ s e s', I s → step s e = some s' → I s')
    (iff : ∀ s e, I s → (Ok s e ↔ Ok' s e)) {s : σ} (hi : I s) (es : List ε) :
    Along step Ok s es ↔ Along step Ok' s es :=
  ⟨fun h => h.imp (I := I) (fun s e s' hs _ => keep s e s' hs) (fun s e hs => (iff s e hs).mp) hi,
   fun h => h.imp (I := I) (fun s e s' hs _ => keep s e s' hs) (fun s e hs => (iff s e hs).mpr) hi⟩

/-- **The exact condition of an invariant.** If, where the invariant holds, a condition on the
    step says exactly whether it holds afterwards, then a run that starts with it keeps it
    after every step exactly if every step meets the condition. -/
theorem Along.after_iff {Ok : σ → ε → Prop} {I : σ → Prop}
    (iff : ∀ s e, I s → ((∀ s', step s e = some s' → I s') ↔ Ok s e)) {s : σ} (hi : I s)
    (es : List ε) :
    Along step (fun s e => ∀ s', step s e = some s' → I s') s es ↔ Along step Ok s es := by
  induction es generalizing s with
  | nil => exact Iff.rfl
  | cons e es ih =>
    constructor
    · intro h
      exact ⟨(iff s e hi).mp h.1, fun t hs => (ih (h.1 t hs)).mp (h.2 t hs)⟩
    · intro h
      have hafter := (iff s e hi).mpr h.1
      exact ⟨hafter, fun t hs => (ih (hafter t hs)).mpr (h.2 t hs)⟩

/-- **The refinement rule**: if, where the invariant holds, a step of the one system shows as the
    step of the other with the same label, then so do the runs, those that end early included. -/
theorem run_refines {τ : Type*} {step' : τ → ε → Option τ} {I : σ → Prop} (view : σ → τ)
    (keep : ∀ s e s', I s → step s e = some s' → I s')
    (commutes : ∀ s e, I s → (step s e).map view = step' (view s) e) {s : σ} (hi : I s)
    (es : List ε) : (run step s es).map view = run step' (view s) es := by
  induction es generalizing s with
  | nil => rfl
  | cons e es ih =>
    have hstep := commutes s e hi
    cases hs : step s e with
    | none =>
      rw [hs, Option.map_none] at hstep
      simp only [run, hs, ← hstep, Option.map_none]
    | some t =>
      rw [hs, Option.map_some] at hstep
      rw [run_cons hs, run_cons hstep.symm]
      exact ih (keep s e t hi hs)

end Machine
