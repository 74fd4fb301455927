import Mathlib.Data.List.Basic

/-!
# Runs of an iterator

An iterator is a state with a `next` function that returns an item, or nothing, together with
the state after the call. `Steps next s l t` says that from `s` the calls of `next` yield the
items `l` in order and reach `t`; `Yields next s l` says moreover that the call at `t` yields
nothing, so that `l` is everything the iterator yields. `advanceBy` is the loop that calls
`next` a given number of times and fails at the first call that yields nothing.
-/

namespace Iterator

variable {σ α : Type} (next : σ → Option α × σ)

inductive Steps : σ → List α → σ → Prop
  | nil (s : σ) : Steps s [] s
  | cons {s s' t : σ} {a : α} {l : List α} :
      next s = (some a, s') → Steps s' l t → Steps s (a :: l) t

def Yields (s : σ) (l : List α) : Prop := ∃ t, Steps next s l t ∧ (next t).1 = none

def advanceBy : Nat → σ → Option σ
  | 0, s => some s
  | n + 1, s =>
    match next s with
    | (some _, s') => advanceBy n s'
    | (none, _) => none

variable {next} {s t : σ} {l : List α}

theorem Steps.advanceBy (h : Steps next s l t) : advanceBy next l.length s = some t := by
  induction h with
  | nil s => rfl
  | cons hs _ ih => simp [Iterator.advanceBy, hs, ih]

theorem steps_of_advanceBy {n : Nat} (h : advanceBy next n s = some t) :
    ∃ l, Steps next s l t ∧ l.length = n := by
  induction n generalizing s with
  | zero =>
    obtain rfl : s = t := Option.some.inj h
    exact ⟨[], .nil s, rfl⟩
  | succ n ih =>
    unfold Iterator.advanceBy at h
    rcases hs : next s with ⟨_ | a, s'⟩
    · rw [hs] at h
      cases h
    · rw [hs] at h
      obtain ⟨l, hl, hlen⟩ := ih h
      exact ⟨a :: l, .cons hs hl, by simp [hlen]⟩

end Iterator
