import Mathlib.Data.Finset.Insert

/-!
# Windows of bits below a maximum

A replay window keeps one bit for each of the `w` values just below the largest value seen so
far. `Records bits off M A` says that bit `d` is set exactly when `M - (d + off)` lies in `A`;
`off` is `1` when the maximum itself is kept outside the bits. Raising the maximum shifts the
bits towards the higher positions, and accepting a value sets its bit.
-/

namespace BitWindow

variable {w : Nat}

theorem getLsbD_or_twoPow (x : BitVec w) {k d : Nat} (hd : d < w) :
    (x ||| (1#w <<< k)).getLsbD d = (x.getLsbD d || decide (d = k)) := by
  simp only [BitVec.getLsbD_or, BitVec.getLsbD_shiftLeft, BitVec.getLsbD_one]
  by_cases hdk : d = k <;> simp [hdk, hd] <;> omega

/-- Bit `d` of the window and its meaning. -/
def Records (bits : BitVec w) (off M : Nat) (A : Finset Nat) : Prop :=
  ∀ d < w, bits.getLsbD d = true ↔ d + off ≤ M ∧ M - (d + off) ∈ A

variable {bits : BitVec w} {off M M' p : Nat} {A : Finset Nat}

theorem records_zero (hA : ∀ a ∈ A, a + off + w ≤ M) : Records (0 : BitVec w) off M A := by
  intro d hd
  have hz : (0 : BitVec w).getLsbD d = false := by simp
  simp only [hz, Bool.false_eq_true, false_iff, not_and]
  intro hle hmem
  have := hA _ hmem
  omega

theorem Records.shiftLeft (h : Records bits off M A) (hA : ∀ a ∈ A, a + off ≤ M)
    (hM : M ≤ M') : Records (bits <<< (M' - M)) off M' A := by
  intro d hd
  simp only [BitVec.getLsbD_shiftLeft, hd, decide_true, Bool.true_and, Bool.and_eq_true,
    Bool.not_eq_true', decide_eq_false_iff_not, Nat.not_lt]
  constructor
  · rintro ⟨hle, hbit⟩
    obtain ⟨h₁, h₂⟩ := (h (d - (M' - M)) (by omega)).mp hbit
    refine ⟨by omega, ?_⟩
    rwa [show M' - (d + off) = M - (d - (M' - M) + off) by omega]
  · rintro ⟨h₁, h₂⟩
    -- a recorded value is at most `M - off`, so its bit was at or past the shift
    have := hA _ h₂
    refine ⟨by omega, (h (d - (M' - M)) (by omega)).mpr ⟨by omega, ?_⟩⟩
    rwa [show M - (d - (M' - M) + off) = M' - (d + off) by omega]

theorem Records.mark (h : Records bits off M A) (hp : p + off ≤ M) :
    Records (bits ||| (1#w <<< (M - (p + off)))) off M (insert p A) := by
  intro d hd
  rw [getLsbD_or_twoPow bits hd, Bool.or_eq_true, h d hd, Finset.mem_insert, decide_eq_true_eq]
  constructor
  · rintro (⟨h₁, h₂⟩ | h₁)
    · exact ⟨h₁, .inr h₂⟩
    · exact ⟨by omega, .inl (by omega)⟩
  · rintro ⟨h₁, h₂ | h₂⟩
    · exact .inr (by omega)
    · exact .inl ⟨h₁, h₂⟩

theorem Records.getLsbD_iff (h : Records bits off M A) (hp : p + off ≤ M)
    (hw : M - (p + off) < w) : bits.getLsbD (M - (p + off)) = true ↔ p ∈ A := by
  rw [h _ hw, show M - (M - (p + off) + off) = p by omega]
  exact ⟨fun h' => h'.2, fun h' => ⟨by omega, h'⟩⟩

end BitWindow
