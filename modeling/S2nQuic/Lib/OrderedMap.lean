import Mathlib

/-!
# Ordered maps over natural keys

An ordered map (a `BTreeMap`) from natural keys, as the partial function `Nat → Option V` it
reads. Its entries between two keys are listed in ascending order by `entries`, and a removal of
a range of keys is `eraseRange`. The least and greatest keys of a range that satisfy a test are
what `find?` returns over `List.range'` and over its reverse.
-/

namespace OrderedMap

variable {V : Type}

def entries (f : Nat → Option V) (lo n : Nat) : List (Nat × V) :=
  (List.range' lo n).filterMap fun q => (f q).map (q, ·)

def eraseRange (f : Nat → Option V) (a b : Nat) : Nat → Option V :=
  fun q => if a ≤ q ∧ q ≤ b then none else f q

variable {f g : Nat → Option V} {lo n : Nat}

theorem mem_entries {q : Nat} {v : V} :
    (q, v) ∈ entries f lo n ↔ lo ≤ q ∧ q < lo + n ∧ f q = some v := by
  simp only [entries, List.mem_filterMap, List.mem_range'_1, Option.map_eq_some_iff,
    Prod.mk.injEq]
  constructor
  · rintro ⟨q', ⟨hlo, hhi⟩, v', hv', rfl, rfl⟩
    exact ⟨hlo, hhi, hv'⟩
  · rintro ⟨hlo, hhi, hv⟩
    exact ⟨q, ⟨hlo, hhi⟩, v, hv, rfl, rfl⟩

theorem pairwise_entries : ((entries f lo n).map Prod.fst).Pairwise (· < ·) := by
  rw [entries, List.map_filterMap, List.pairwise_filterMap]
  apply (List.pairwise_lt_range' (s := lo) (n := n)).imp
  intro a b hab c hc d hd
  simp only [Option.map_map, Option.map_eq_some_iff, Function.comp_apply] at hc hd
  obtain ⟨_, -, rfl⟩ := hc
  obtain ⟨_, -, rfl⟩ := hd
  exact hab

theorem entries_eq_nil (h : ∀ q, lo ≤ q → q < lo + n → f q = none) : entries f lo n = [] := by
  rw [entries, List.filterMap_eq_nil_iff]
  intro q hq
  rw [h q (List.mem_range'_1.mp hq).1 (List.mem_range'_1.mp hq).2, Option.map_none]

theorem entries_add (m : Nat) : entries f lo (n + m) = entries f lo n ++ entries f (lo + n) m := by
  rw [entries, List.range'_append_1.symm, List.filterMap_append]
  rfl

theorem entries_eq_of_none_outside {lo' n' : Nat} (hlo : lo ≤ lo') (hhi : lo' + n' ≤ lo + n)
    (h : ∀ q, lo ≤ q → q < lo + n → (q < lo' ∨ lo' + n' ≤ q) → f q = none) :
    entries f lo n = entries f lo' n' := by
  obtain ⟨a, rfl⟩ : ∃ a, lo' = lo + a := ⟨lo' - lo, by omega⟩
  obtain ⟨b, hb⟩ : ∃ b, lo + n = lo + a + n' + b := ⟨lo + n - (lo + a + n'), by omega⟩
  have hleft : entries f lo a = [] :=
    entries_eq_nil fun q h1 h2 => h q h1 (by omega) (.inl h2)
  have hright : entries f (lo + (a + n')) b = [] :=
    entries_eq_nil fun q h1 h2 => h q (by omega) (by omega) (.inr (by omega))
  rw [show n = a + n' + b by omega, entries_add, entries_add, hleft, hright, List.nil_append,
    List.append_nil]

/-! ## The least and greatest key of a range -/

theorem find?_reverse_range'_eq_some {s k i : Nat} {p : Nat → Bool} :
    (List.range' s k).reverse.find? p = some i ↔
      p i = true ∧ i ∈ List.range' s k ∧ ∀ j, i < j → j < s + k → p j = false := by
  induction k generalizing s with
  | zero => simp
  | succ k ih =>
    rw [List.range'_1_concat, List.reverse_append, List.reverse_singleton, List.singleton_append,
      List.find?_cons]
    cases hp : p (s + k) with
    | true =>
      simp only [Option.some.injEq, List.mem_append, List.mem_singleton, List.mem_range'_1]
      constructor
      · rintro rfl
        exact ⟨hp, .inr rfl, fun j h1 h2 => by omega⟩
      · rintro ⟨-, hi, hgt⟩
        rcases hi with ⟨-, hlt⟩ | rfl
        · rw [hgt (s + k) hlt (by omega)] at hp
          exact absurd hp Bool.false_ne_true
        · rfl
    | false =>
      rw [ih]
      simp only [List.mem_append, List.mem_range'_1, List.mem_singleton]
      constructor
      · rintro ⟨hpi, hi, hgt⟩
        refine ⟨hpi, .inl hi, fun j h1 h2 => ?_⟩
        rcases Nat.lt_or_ge j (s + k) with h | h
        · exact hgt j h1 h
        · rwa [show j = s + k by omega]
      · rintro ⟨hpi, hi | rfl, hgt⟩
        · exact ⟨hpi, hi, fun j h1 h2 => hgt j h1 (by omega)⟩
        · rw [hp] at hpi
          exact absurd hpi Bool.false_ne_true

end OrderedMap
