import Mathlib.Logic.Basic

/-! # Runs of a labelled transition function

`step s l` is the state after the step `l`, or `none` where `l` is not enabled in `s`. A run is
the list of its labels. `Along` is about the log that a run writes.
-/

namespace Execution

variable {σ ι : Type}

def exec (step : σ → ι → Option σ) : σ → List ι → Option σ
  | s, [] => some s
  | s, l :: ls => (step s l).bind fun s' => exec step s' ls

variable {step : σ → ι → Option σ}

/-- What holds at the start and is kept by the labels of a run holds at its end. -/
theorem exec_invariant_of_labels {ok : ι → Prop} {P : σ → Prop}
    (hStep : ∀ s l s', ok l → P s → step s l = some s' → P s') {s s' : σ} {ls : List ι}
    (hLabels : ∀ l ∈ ls, ok l) (hInit : P s) (h : exec step s ls = some s') : P s' := by
  induction ls generalizing s with
  | nil =>
    cases h
    exact hInit
  | cons l ls ih =>
    obtain ⟨next, hNext, hRest⟩ := Option.bind_eq_some_iff.mp h
    have hOk := List.forall_mem_cons.mp hLabels
    exact ih hOk.2 (hStep s l next hOk.1 hInit hNext) hRest

/-- What holds at the start and is kept by every step holds at the end of every run. -/
theorem exec_invariant {P : σ → Prop} (hStep : ∀ s l s', P s → step s l = some s' → P s')
    {s s' : σ} {ls : List ι} (hInit : P s) (h : exec step s ls = some s') : P s' :=
  exec_invariant_of_labels (fun s l s' _ => hStep s l s') (fun _ _ => trivial) hInit h

theorem exec_append {s s' : σ} {ls ls' : List ι} :
    exec step s (ls ++ ls') = some s' ↔
      ∃ mid, exec step s ls = some mid ∧ exec step mid ls' = some s' := by
  induction ls generalizing s with
  | nil => simp [exec]
  | cons l ls ih =>
    simp only [List.cons_append, exec, Option.bind_eq_some_iff, ih]
    constructor
    · rintro ⟨next, hNext, mid, hMid, hRest⟩
      exact ⟨mid, ⟨next, hNext, hMid⟩, hRest⟩
    · rintro ⟨mid, ⟨next, hNext, hMid⟩, hRest⟩
      exact ⟨next, hNext, mid, hMid, hRest⟩

theorem exec_snoc {s s' : σ} {ls : List ι} {l : ι} :
    exec step s (ls ++ [l]) = some s' ↔
      ∃ mid, exec step s ls = some mid ∧ step mid l = some s' := by
  simp [exec_append, exec]

theorem exec_middle {s s' : σ} {before after : List ι} {l : ι}
    (h : exec step s (before ++ l :: after) = some s') :
    ∃ mid next, exec step s before = some mid ∧ step mid l = some next ∧
      exec step next after = some s' := by
  obtain ⟨mid, hBefore, hRest⟩ := exec_append.mp h
  obtain ⟨next, hStep, hAfter⟩ := Option.bind_eq_some_iff.mp hRest
  exact ⟨mid, next, hBefore, hStep, hAfter⟩

def restrict (ok : σ → ι → Prop) [∀ s l, Decidable (ok s l)] (step : σ → ι → Option σ) (s : σ)
    (l : ι) : Option σ :=
  if ok s l then step s l else none

theorem restrict_eq_some {ok : σ → ι → Prop} [∀ s l, Decidable (ok s l)] {s s' : σ} {l : ι} :
    restrict ok step s l = some s' ↔ ok s l ∧ step s l = some s' := by
  by_cases hOk : ok s l
  · rw [restrict, if_pos hOk]
    exact (and_iff_right hOk).symm
  · rw [restrict, if_neg hOk]
    exact ⟨nofun, fun h => absurd h.1 hOk⟩

theorem exec_restrict_cons {ok : σ → ι → Prop} [∀ s l, Decidable (ok s l)] {s mid s' : σ} {l : ι}
    {ls : List ι} (hOk : ok s l) (hStep : step s l = some mid)
    (hRest : exec (restrict ok step) mid ls = some s') :
    exec (restrict ok step) s (l :: ls) = some s' :=
  Option.bind_eq_some_iff.mpr ⟨mid, restrict_eq_some.mpr ⟨hOk, hStep⟩, hRest⟩

theorem exec_of_exec_restrict {ok : σ → ι → Prop} [∀ s l, Decidable (ok s l)] {s s' : σ}
    {ls : List ι} (h : exec (restrict ok step) s ls = some s') : exec step s ls = some s' := by
  induction ls generalizing s with
  | nil => exact h
  | cons l ls ih =>
    obtain ⟨next, hNext, hRest⟩ := Option.bind_eq_some_iff.mp h
    exact Option.bind_eq_some_iff.mpr ⟨next, (restrict_eq_some.mp hNext).2, ih hRest⟩

/-- A run of the restricted steps is a run whose labels are allowed where they are taken. -/
theorem exec_restrict_iff {ok : σ → ι → Prop} [∀ s l, Decidable (ok s l)] {s s' : σ}
    {ls : List ι} :
    exec (restrict ok step) s ls = some s' ↔
      exec step s ls = some s' ∧
        ∀ before l after mid, ls = before ++ l :: after → exec step s before = some mid →
          ok mid l := by
  constructor
  · intro h
    refine ⟨exec_of_exec_restrict h, ?_⟩
    rintro before l after mid rfl hBefore
    obtain ⟨mid', next, hMid, hNext, _⟩ := exec_middle h
    obtain rfl := Option.some.inj (hBefore.symm.trans (exec_of_exec_restrict hMid))
    exact (restrict_eq_some.mp hNext).1
  · rintro ⟨h, hOk⟩
    induction ls generalizing s with
    | nil => exact h
    | cons l ls ih =>
      obtain ⟨next, hNext, hRest⟩ := Option.bind_eq_some_iff.mp h
      refine exec_restrict_cons (hOk [] l ls s rfl rfl) hNext (ih hRest ?_)
      rintro before label after mid rfl hBefore
      exact hOk (l :: before) label after mid rfl
        (Option.bind_eq_some_iff.mpr ⟨next, hNext, hBefore⟩)

/-- A step that is matched by steps of another system, time after time. -/
theorem exec_simulates {τ κ : Type} {step' : τ → κ → Option τ} {R : σ → τ → Prop}
    (hStep : ∀ s l s' t, R s t → step s l = some s' →
      ∃ ls' t', exec step' t ls' = some t' ∧ R s' t') {s s' : σ} {t : τ} {ls : List ι}
    (hStart : R s t) (h : exec step s ls = some s') :
    ∃ ls' t', exec step' t ls' = some t' ∧ R s' t' := by
  induction ls generalizing s t with
  | nil =>
    cases h
    exact ⟨[], t, rfl, hStart⟩
  | cons l ls ih =>
    obtain ⟨next, hNext, hRest⟩ := Option.bind_eq_some_iff.mp h
    obtain ⟨first, mid, hFirst, hMid⟩ := hStep s l next t hStart hNext
    obtain ⟨later, t', hLater, hEnd⟩ := ih hMid hRest
    exact ⟨first ++ later, t', exec_append.mpr ⟨mid, hFirst, hLater⟩, hEnd⟩

theorem restrict_true (step : σ → ι → Option σ) : restrict (fun _ _ => True) step = step := by
  funext s l
  rw [restrict, if_pos trivial]

/-- Every event of a log has the property `P` in relation to the events before it. -/
def Along {ε : Type} (P : List ε → ε → Prop) (log : List ε) : Prop :=
  ∀ before event after, log = before ++ event :: after → P before event

@[simp] theorem along_nil {ε : Type} (P : List ε → ε → Prop) : Along P [] := by
  intro before event after h
  simp at h

@[simp] theorem along_cons {ε : Type} {P : List ε → ε → Prop} {event : ε} {log : List ε} :
    Along P (event :: log) ↔ P [] event ∧ Along (fun before => P (event :: before)) log := by
  constructor
  · intro h
    refine ⟨h [] event log rfl, ?_⟩
    rintro before e after rfl
    exact h (event :: before) e after rfl
  · rintro ⟨hFirst, hLog⟩ (_ | ⟨first, before⟩) e after hEq
    · cases hEq
      exact hFirst
    · obtain ⟨rfl, rfl⟩ := List.cons.inj hEq
      exact hLog before e after rfl

theorem along_snoc {ε : Type} {P : List ε → ε → Prop} {log : List ε} {event : ε} :
    Along P (log ++ [event]) ↔ Along P log ∧ P log event := by
  induction log generalizing P with
  | nil => simp
  | cons first log ih => rw [List.cons_append, along_cons, along_cons, ih, and_assoc]

end Execution
