import Mathlib.Logic.Basic

/-!
# Runs of calls and their refinement

An implementation takes calls one at a time, may fail on one, and hands something back for each
(`step : σ → ι → Option (σ × List ο)`); its specification applies the same calls to an abstract
state (`apply : α → ι → α × List ο`). A step that, from a state of an invariant and on a call the
callers' contract allows, succeeds, keeps the invariant, and agrees with the specification through
an abstraction function `abs`, does so over every run of allowed calls: the run succeeds and hands
back, call after call, what the specification does.

Without a specification, an invariant of the state and of what the run has handed back so far,
kept by every allowed call without failing, holds at the end of every run whose calls are each
allowed where they are made (`Admits`, `run_invariant`).
-/

namespace Refinement

variable {σ α ι ο : Type}

/-- The calls in order, with everything they hand back; `none` as soon as one fails. -/
def run (step : σ → ι → Option (σ × List ο)) (s : σ) : List ι → Option (σ × List ο)
  | [] => some (s, [])
  | c :: cs => (step s c).bind fun r =>
    (run step r.1 cs).map fun rest => (rest.1, r.2 ++ rest.2)

def runSpec (apply : α → ι → α × List ο) (a : α) : List ι → α × List ο
  | [] => (a, [])
  | c :: cs =>
    let rest := runSpec apply (apply a c).1 cs
    (rest.1, (apply a c).2 ++ rest.2)

/-- Each call is allowed in the abstract state the run has reached. -/
def Allowed (allowed : α → ι → Prop) (apply : α → ι → α × List ο) : α → List ι → Prop
  | _, [] => True
  | a, c :: cs => allowed a c ∧ Allowed allowed apply (apply a c).1 cs

/-- Each call is allowed in the state the run has reached; a call that fails ends the check. -/
def Admits (allowed : σ → ι → Bool) (step : σ → ι → Option (σ × List ο)) : σ → List ι → Bool
  | _, [] => true
  | s, c :: cs => allowed s c && (step s c).all fun r => Admits allowed step r.1 cs

section Simulation

variable {step : σ → ι → Option (σ × List ο)} {apply : α → ι → α × List ο}
  {allowed : α → ι → Prop} {inv : σ → Prop} {abs : σ → α}

/-- One step, from a state of the invariant and on an allowed call, is the specification's. -/
def StepRefines (step : σ → ι → Option (σ × List ο)) (apply : α → ι → α × List ο)
    (allowed : α → ι → Prop) (inv : σ → Prop) (abs : σ → α) : Prop :=
  ∀ s c, inv s → allowed (abs s) c →
    ∃ t, step s c = some (t, (apply (abs s) c).2) ∧ inv t ∧ abs t = (apply (abs s) c).1

theorem run_refines (h : StepRefines step apply allowed inv abs) :
    ∀ (cs : List ι) (s : σ), inv s → Allowed allowed apply (abs s) cs →
      ∃ t, run step s cs = some (t, (runSpec apply (abs s) cs).2) ∧ inv t ∧
        abs t = (runSpec apply (abs s) cs).1
  | [], s, hs, _ => ⟨s, rfl, hs, rfl⟩
  | c :: cs, s, hs, ⟨hc, hcs⟩ => by
    obtain ⟨t, hstep, ht, habs⟩ := h s c hs hc
    rw [← habs] at hcs
    obtain ⟨u, hrun, hu, habs'⟩ := run_refines h cs t ht hcs
    refine ⟨u, ?_, hu, ?_⟩
    · simp only [run, hstep, Option.bind_some, hrun, Option.map_some, runSpec, habs]
    · simp only [habs', runSpec, habs]

end Simulation

section Invariant

variable {step : σ → ι → Option (σ × List ο)} {allowed : σ → ι → Bool}
  {inv : σ → List ο → Prop}

theorem run_invariant (h : ∀ s out c, inv s out → allowed s c = true →
      ∃ t o, step s c = some (t, o) ∧ inv t (out ++ o)) :
    ∀ (cs : List ι) (s : σ) (out : List ο), inv s out → Admits allowed step s cs = true →
      ∃ t o, run step s cs = some (t, o) ∧ inv t (out ++ o)
  | [], s, out, hs, _ => ⟨s, [], rfl, by rwa [List.append_nil]⟩
  | c :: cs, s, out, hs, hcs => by
    simp only [Admits, Bool.and_eq_true] at hcs
    obtain ⟨hc, hrest⟩ := hcs
    obtain ⟨t, o, hstep, ht⟩ := h s out c hs hc
    rw [hstep, Option.all_some] at hrest
    obtain ⟨u, o', hrun, hu⟩ := run_invariant h cs t (out ++ o) ht hrest
    refine ⟨u, o ++ o', ?_, ?_⟩
    · simp only [run, hstep, Option.bind_some, hrun, Option.map_some]
    · rwa [← List.append_assoc]

end Invariant

end Refinement
