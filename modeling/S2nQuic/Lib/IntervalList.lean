import Mathlib

/-!
# Canonical lists of closed intervals

A list of closed intervals `[lo, hi]` of natural numbers denotes the union of its intervals
(`toSet`). It is canonical when every interval is nonempty and each one lies before every
later one with at least one missing value between them (`Before`). The spec operations
`insert`, `remove` and `inter` take canonical lists to canonical lists and denote the union
with an interval, the difference with an interval and the intersection of two lists.
-/

namespace IntervalList

/-- A type whose values are closed intervals of natural numbers. -/
class IntervalLike (α : Type) where
  lo : α → Nat
  hi : α → Nat
  ofBounds : Nat → Nat → α
  lo_ofBounds : ∀ a b, lo (ofBounds a b) = a
  hi_ofBounds : ∀ a b, hi (ofBounds a b) = b
  ofBounds_lo_hi : ∀ a, ofBounds (lo a) (hi a) = a

attribute [simp] IntervalLike.lo_ofBounds IntervalLike.hi_ofBounds IntervalLike.ofBounds_lo_hi

open IntervalLike

variable {α : Type} [IntervalLike α]

/-- `a` ends at least two values before `b` starts. -/
def Before (a b : α) : Prop := hi a + 1 < lo b

instance : DecidableRel (Before (α := α)) := fun _ _ => Nat.decLt _ _

def toSet : List α → Set Nat
  | [] => ∅
  | i :: l => Set.Icc (lo i) (hi i) ∪ toSet l

structure Canonical (l : List α) : Prop where
  valid : ∀ i ∈ l, lo i ≤ hi i
  sorted : l.Pairwise Before

@[simp] theorem toSet_nil : toSet ([] : List α) = ∅ := rfl

@[simp] theorem toSet_cons (i : α) (l : List α) :
    toSet (i :: l) = Set.Icc (lo i) (hi i) ∪ toSet l := rfl

theorem mem_toSet {l : List α} {v : Nat} : v ∈ toSet l ↔ ∃ i ∈ l, lo i ≤ v ∧ v ≤ hi i := by
  induction l with
  | nil => simp
  | cons i l ih => simp [ih]

@[simp] theorem toSet_append (l₁ l₂ : List α) : toSet (l₁ ++ l₂) = toSet l₁ ∪ toSet l₂ := by
  induction l₁ with
  | nil => simp
  | cons i l ih => simp [ih, Set.union_assoc]

@[simp] theorem canonical_nil : Canonical ([] : List α) := ⟨by simp, List.Pairwise.nil⟩

theorem canonical_cons {i : α} {l : List α} :
    Canonical (i :: l) ↔ lo i ≤ hi i ∧ (∀ j ∈ l, Before i j) ∧ Canonical l := by
  constructor
  · intro h
    obtain ⟨hall, hl⟩ := List.pairwise_cons.mp h.sorted
    exact ⟨h.valid i (by simp), hall, ⟨fun j hj => h.valid j (by simp [hj]), hl⟩⟩
  · rintro ⟨hi, hall, hl⟩
    refine ⟨fun j hj => ?_, List.pairwise_cons.mpr ⟨hall, hl.sorted⟩⟩
    rcases List.mem_cons.mp hj with rfl | hj
    · exact hi
    · exact hl.valid j hj

theorem canonical_append {l₁ l₂ : List α} :
    Canonical (l₁ ++ l₂) ↔ Canonical l₁ ∧ Canonical l₂ ∧ ∀ a ∈ l₁, ∀ b ∈ l₂, Before a b := by
  induction l₁ with
  | nil => simp
  | cons i l ih =>
    simp only [List.cons_append, canonical_cons, ih, List.mem_append, List.mem_cons]
    constructor
    · rintro ⟨hv, hb, h₁, h₂, hab⟩
      exact ⟨⟨hv, fun j hj => hb j (.inl hj), h₁⟩, h₂,
        fun a ha b hb' => ha.elim (fun h => h ▸ hb b (.inr hb')) (fun h => hab a h b hb')⟩
    · rintro ⟨⟨hv, hb, h₁⟩, h₂, hab⟩
      exact ⟨hv, fun j hj => hj.elim (hb j) (hab i (.inl rfl) j), h₁, h₂,
        fun a ha b hb' => hab a (.inr ha) b hb'⟩

theorem Before.trans_le {a b c : α} (hab : Before a b) (hbc : lo b ≤ lo c) : Before a c := by
  unfold Before at *; omega

theorem Before.of_hi_le {a b c : α} (hbc : Before b c) (hab : hi a ≤ hi b) : Before a c := by
  unfold Before at *; omega

theorem not_mem_tail_of_le {i : α} {l : List α} (h : Canonical (i :: l)) {v : Nat}
    (hv : v ≤ hi i + 1) : v ∉ toSet l := by
  rw [mem_toSet]
  rintro ⟨j, hj, hlo, -⟩
  have := (canonical_cons.mp h).2.1 j hj
  unfold Before at this
  omega

/-! ## Union with an interval -/

theorem Icc_union_of_touching {a b : α} (hab : ¬ Before a b) (hba : ¬ Before b a) :
    Set.Icc (lo a) (hi a) ∪ Set.Icc (lo b) (hi b) =
      Set.Icc (min (lo a) (lo b)) (max (hi a) (hi b)) := by
  unfold Before at hab hba
  ext v
  simp only [Set.mem_union, Set.mem_Icc]
  omega

/-- The canonical list of `toSet l ∪ [lo a, hi a]`: intervals before `a` are kept, those
touching it are merged into it, and the first interval after it ends the scan. -/
def insert : List α → α → List α
  | [], a => [a]
  | b :: l, a =>
    if Before b a then b :: insert l a
    else if Before a b then a :: b :: l
    else insert l (ofBounds (min (lo a) (lo b)) (max (hi a) (hi b)))

theorem before_of_mem_insert {b : α} :
    ∀ {l : List α} {a : α}, Before b a → (∀ c ∈ l, Before b c) →
      ∀ x ∈ insert l a, Before b x
  | [], a, hba, _, x, hx => by
    simp only [insert, List.mem_singleton] at hx
    exact hx ▸ hba
  | c :: l, a, hba, hl, x, hx => by
    unfold insert at hx
    split_ifs at hx with hca hac
    · rcases List.mem_cons.mp hx with rfl | hx
      · exact hl _ (by simp)
      · exact before_of_mem_insert hba (fun d hd => hl d (by simp [hd])) x hx
    · rcases List.mem_cons.mp hx with rfl | hx
      · exact hba
      · exact hl x hx
    · refine before_of_mem_insert ?_ (fun d hd => hl d (by simp [hd])) x hx
      have := hl c (by simp)
      unfold Before at *
      simp only [lo_ofBounds]
      omega

theorem insert_spec :
    ∀ {l : List α} {a : α}, Canonical l → lo a ≤ hi a →
      Canonical (insert l a) ∧ toSet (insert l a) = toSet l ∪ Set.Icc (lo a) (hi a)
  | [], a, _, ha => by
    refine ⟨canonical_cons.mpr ⟨ha, by simp, canonical_nil⟩, ?_⟩
    simp [insert]
  | b :: l, a, hl, ha => by
    obtain ⟨hb, hbl, hl'⟩ := canonical_cons.mp hl
    unfold insert
    split_ifs with hba hab
    · obtain ⟨hc, hs⟩ := insert_spec hl' ha
      refine ⟨canonical_cons.mpr ⟨hb, before_of_mem_insert hba hbl, hc⟩, ?_⟩
      rw [toSet_cons, toSet_cons, hs, Set.union_assoc]
    · refine ⟨canonical_cons.mpr ⟨ha, ?_, hl⟩, ?_⟩
      · intro j hj
        rcases List.mem_cons.mp hj with rfl | hj
        · exact hab
        · have := hbl j hj
          exact hab.trans_le (by unfold Before at this; omega)
      · simp only [toSet_cons]
        rw [Set.union_comm (Set.Icc (lo b) (hi b) ∪ toSet l)]
    · have hm : lo (ofBounds (min (lo a) (lo b)) (max (hi a) (hi b)) : α) ≤
          hi (ofBounds (min (lo a) (lo b)) (max (hi a) (hi b)) : α) := by
        simp only [lo_ofBounds, hi_ofBounds]; omega
      obtain ⟨hc, hs⟩ := insert_spec hl' hm
      refine ⟨hc, ?_⟩
      rw [hs, lo_ofBounds, hi_ofBounds, ← Icc_union_of_touching hab hba, toSet_cons]
      ext v
      simp only [Set.mem_union]
      tauto

theorem insert_cons_of_touching {a b : α} {l : List α} (hba : ¬ Before b a) (hab : ¬ Before a b) :
    insert (b :: l) a = insert l (ofBounds (min (lo a) (lo b)) (max (hi a) (hi b))) := by
  rw [insert, if_neg hba, if_neg hab]

theorem insert_of_before {a b : α} {l : List α} (ha : lo a ≤ hi a) (hb : lo b ≤ hi b)
    (h : Before a b) : insert (b :: l) a = a :: b :: l := by
  have hba : ¬ Before b a := by unfold Before at *; omega
  simp [insert, hba, h]

theorem insert_of_forall_before {a : α} {l : List α} (ha : lo a ≤ hi a) (hl : Canonical l)
    (h : ∀ c ∈ l, Before a c) : insert l a = a :: l := by
  cases l with
  | nil => rfl
  | cons c l => exact insert_of_before ha (hl.valid c (by simp)) (h c (by simp))

theorem insert_of_sub {a b : α} {l : List α} (h : Canonical (b :: l)) (ha : lo a ≤ hi a)
    (hlo : lo b ≤ lo a) (hhi : hi a ≤ hi b) : insert (b :: l) a = b :: l := by
  obtain ⟨hb, hbl, hl⟩ := canonical_cons.mp h
  have hba : ¬ Before b a := by unfold Before; omega
  have hab : ¬ Before a b := by unfold Before; omega
  rw [insert_cons_of_touching hba hab, Nat.min_eq_right hlo, Nat.max_eq_right hhi,
    ofBounds_lo_hi]
  exact insert_of_forall_before hb hl hbl

theorem insert_append_of_before {a : α} :
    ∀ (pre l : List α), (∀ x ∈ pre, Before x a) → insert (pre ++ l) a = pre ++ insert l a
  | [], _, _ => rfl
  | b :: pre, l, h => by
    have hrest := insert_append_of_before pre l (fun x hx => h x (by simp [hx]))
    simp [insert, h b (by simp), hrest]

theorem length_insert_le : ∀ (l : List α) (a : α), (insert l a).length ≤ l.length + 1
  | [], _ => by simp [insert]
  | b :: l, a => by
    unfold insert
    split_ifs
    · simpa using length_insert_le l a
    · simp
    · have := length_insert_le l (ofBounds (min (lo a) (lo b)) (max (hi a) (hi b)))
      simp only [List.length_cons]
      omega

theorem length_insert_eq_iff :
    ∀ {l : List α} {a : α}, Canonical l →
      ((insert l a).length = l.length + 1 ↔ ∀ b ∈ l, Before a b ∨ Before b a)
  | [], a, _ => by simp [insert]
  | b :: l, a, hl => by
    obtain ⟨hb, hbl, hl'⟩ := canonical_cons.mp hl
    unfold insert
    split_ifs with hba hab
    · -- `b` stays in front, the rest of the list decides
      simp only [List.length_cons, Nat.add_right_cancel_iff, length_insert_eq_iff hl',
        List.forall_mem_cons, hba, or_true, true_and]
    · -- `a` goes in front of `b`, and so before everything after it
      refine ⟨fun _ => ?_, fun _ => by simp⟩
      intro c hc
      rcases List.mem_cons.mp hc with rfl | hc
      · exact .inl hab
      · exact .inl (hab.trans_le (by have := hbl c hc; unfold Before at this; omega))
    · -- `a` touches `b`: the merged interval takes `b`'s slot
      have := length_insert_le l (ofBounds (min (lo a) (lo b)) (max (hi a) (hi b)))
      simp only [List.length_cons, List.forall_mem_cons, hab, hba, or_self, false_and,
        iff_false]
      omega

/-! ## Difference with an interval -/

theorem lt_of_mem_tail {i : α} {l : List α} (h : Canonical (i :: l)) {v : Nat}
    (hv : v ∈ toSet l) : hi i + 1 < v := by
  by_contra hlt
  exact not_mem_tail_of_le h (by omega) hv

/-- The parts of `b` outside `a`. -/
def cut (b a : α) : List α :=
  (if lo b < lo a then [ofBounds (lo b) (lo a - 1)] else []) ++
    (if hi a < hi b then [ofBounds (hi a + 1) (hi b)] else [])

/-- The canonical list of `toSet l \ [lo a, hi a]`: intervals before `a` are kept, those
meeting it are cut, and the first interval after it ends the scan. -/
def remove : List α → α → List α
  | [], _ => []
  | b :: l, a =>
    if hi b < lo a then b :: remove l a
    else if hi a < lo b then b :: l
    else cut b a ++ remove l a

section Cut

variable {b a : α} (h₁ : lo a ≤ hi b) (h₂ : lo b ≤ hi a)
include h₁ h₂

theorem sub_of_mem_cut {x : α} (hx : x ∈ cut b a) : lo b ≤ lo x ∧ hi x ≤ hi b := by
  unfold cut at hx
  rcases List.mem_append.mp hx with hx | hx
  · -- the part below `a`
    split_ifs at hx
    · rw [List.mem_singleton.mp hx, lo_ofBounds, hi_ofBounds]; omega
    · cases hx
  · -- the part above `a`
    split_ifs at hx
    · rw [List.mem_singleton.mp hx, lo_ofBounds, hi_ofBounds]; omega
    · cases hx

omit h₁ h₂ in
theorem canonical_cut (ha : lo a ≤ hi a) : Canonical (cut b a) := by
  unfold cut
  split_ifs with hlo hhi hhi
  · refine canonical_cons.mpr ⟨by simp only [lo_ofBounds, hi_ofBounds]; omega, ?_,
      canonical_cons.mpr ⟨by simp only [lo_ofBounds, hi_ofBounds]; omega, by simp, canonical_nil⟩⟩
    intro j hj
    rw [List.mem_singleton.mp hj]
    simp only [Before, lo_ofBounds, hi_ofBounds]
    omega
  · exact canonical_cons.mpr ⟨by simp only [lo_ofBounds, hi_ofBounds]; omega, by simp,
      canonical_nil⟩
  · exact canonical_cons.mpr ⟨by simp only [lo_ofBounds, hi_ofBounds]; omega, by simp,
      canonical_nil⟩
  · exact canonical_nil

theorem toSet_cut : toSet (cut b a) = Set.Icc (lo b) (hi b) \ Set.Icc (lo a) (hi a) := by
  ext v
  unfold cut
  split_ifs <;> simp only [List.singleton_append, List.nil_append, toSet_cons, toSet_nil,
    Set.union_empty, Set.mem_union, Set.mem_Icc, Set.mem_sdiff, lo_ofBounds, hi_ofBounds,
    Set.mem_empty_iff_false] <;> grind

end Cut

theorem sub_of_mem_remove {a : α} :
    ∀ {l : List α} {x : α}, x ∈ remove l a → ∃ c ∈ l, lo c ≤ lo x ∧ hi x ≤ hi c
  | [], x, hx => by simp [remove] at hx
  | b :: l, x, hx => by
    unfold remove at hx
    split_ifs at hx
    · rcases List.mem_cons.mp hx with rfl | hx
      · exact ⟨x, by simp, le_rfl, le_rfl⟩
      · obtain ⟨c, hc, h⟩ := sub_of_mem_remove hx
        exact ⟨c, by simp [hc], h⟩
    · exact ⟨x, hx, le_rfl, le_rfl⟩
    · rcases List.mem_append.mp hx with hx | hx
      · exact ⟨b, by simp, sub_of_mem_cut (by omega) (by omega) hx⟩
      · obtain ⟨c, hc, h⟩ := sub_of_mem_remove hx
        exact ⟨c, by simp [hc], h⟩

theorem remove_spec {a : α} (ha : lo a ≤ hi a) :
    ∀ {l : List α}, Canonical l →
      Canonical (remove l a) ∧ toSet (remove l a) = toSet l \ Set.Icc (lo a) (hi a)
  | [], _ => by simp [remove]
  | b :: l, hl => by
    obtain ⟨hb, hbl, hl'⟩ := canonical_cons.mp hl
    obtain ⟨hc, hs⟩ := remove_spec ha hl'
    have hafter : ∀ x ∈ remove l a, Before b x := by
      intro x hx
      obtain ⟨c, hc, hlo, -⟩ := sub_of_mem_remove hx
      exact (hbl c hc).trans_le hlo
    unfold remove
    split_ifs with hba hab
    · refine ⟨canonical_cons.mpr ⟨hb, hafter, hc⟩, ?_⟩
      rw [toSet_cons, toSet_cons, hs]
      ext v
      simp only [Set.mem_union, Set.mem_sdiff, Set.mem_Icc]
      grind
    · refine ⟨hl, ?_⟩
      ext v
      simp only [Set.mem_sdiff, Set.mem_Icc]
      constructor
      · intro hv
        refine ⟨hv, fun ⟨_, hva⟩ => ?_⟩
        rcases hv with hv | hv
        · exact absurd hv.1 (by omega)
        · exact absurd (lt_of_mem_tail hl hv) (by omega)
      · exact fun h => h.1
    · have h₁ : lo a ≤ hi b := by omega
      have h₂ : lo b ≤ hi a := by omega
      refine ⟨canonical_append.mpr ⟨canonical_cut ha, hc, fun x hx y hy => ?_⟩, ?_⟩
      · exact (hafter y hy).of_hi_le (sub_of_mem_cut h₁ h₂ hx).2
      · rw [toSet_append, toSet_cut h₁ h₂, hs, toSet_cons, Set.union_sdiff_distrib]

theorem remove_append_of_lt {a : α} :
    ∀ (pre l : List α), (∀ x ∈ pre, hi x < lo a) → remove (pre ++ l) a = pre ++ remove l a
  | [], _, _ => rfl
  | b :: pre, l, h => by
    have hrest := remove_append_of_lt pre l (fun x hx => h x (by simp [hx]))
    simp [remove, h b (by simp), hrest]

theorem remove_of_forall_lt {a : α} {l : List α} (ha : lo a ≤ hi a) (hl : Canonical l)
    (h : ∀ c ∈ l, hi a < lo c) : remove l a = l := by
  cases l with
  | nil => rfl
  | cons c l =>
    have hc := hl.valid c (by simp)
    have hca : ¬ hi c < lo a := by have := h c (by simp); omega
    simp [remove, hca, h c (by simp)]

theorem remove_cons_of_meets {a b : α} {l : List α} (h₁ : lo a ≤ hi b) (h₂ : lo b ≤ hi a) :
    remove (b :: l) a = cut b a ++ remove l a := by
  rw [remove, if_neg (by omega), if_neg (by omega)]

theorem remove_cons_of_meets_head {a b : α} {l : List α} (ha : lo a ≤ hi a)
    (hl : Canonical (b :: l)) (h₁ : lo a ≤ hi b) (h₂ : lo b ≤ hi a) (he : hi a ≤ hi b) :
    remove (b :: l) a = cut b a ++ l := by
  obtain ⟨-, hbl, hl'⟩ := canonical_cons.mp hl
  rw [remove_cons_of_meets h₁ h₂, remove_of_forall_lt ha hl' fun c hc => ?_]
  have := hbl c hc
  unfold Before at this
  omega

theorem length_remove_le {a : α} (ha : lo a ≤ hi a) :
    ∀ {l : List α}, Canonical l → (remove l a).length ≤ l.length + 1
  | [], _ => by simp [remove]
  | b :: l, hl => by
    obtain ⟨hb, hbl, hl'⟩ := canonical_cons.mp hl
    have ih := length_remove_le ha hl'
    unfold remove
    split_ifs with h₁ h₂
    · simpa using ih
    · simp
    · -- `b` is cut; only an `a` inside `b` leaves two pieces, and then nothing after is touched
      by_cases hin : hi a < hi b
      · have hrest : remove l a = l := remove_of_forall_lt ha hl'
          (fun c hc => by have := hbl c hc; unfold Before at this; omega)
        have hcut : (cut b a).length ≤ 2 := by unfold cut; split_ifs <;> simp
        simp only [List.length_append, hrest, List.length_cons]
        omega
      · have hcut : (cut b a).length ≤ 1 := by unfold cut; split_ifs <;> simp
        simp only [List.length_append, List.length_cons]
        omega

/-! ## Intersection -/

/-- The canonical list of `toSet as ∩ toSet bs`: the lists are walked together, the
interval that ends first is dropped and the other one is cut to start past it. -/
def inter : List α → List α → List α
  | [], _ => []
  | _ :: _, [] => []
  | a :: as, b :: bs =>
    if hi a < lo b then inter as (b :: bs)
    else if hi b < lo a then inter (a :: as) bs
    else ofBounds (max (lo a) (lo b)) (min (hi a) (hi b)) ::
      if hi a < hi b then inter as (ofBounds (hi a + 1) (hi b) :: bs)
      else if hi b < hi a then inter (ofBounds (hi b + 1) (hi a) :: as) bs
      else inter as bs
termination_by as bs => as.length + bs.length

@[simp] theorem inter_nil_right (as : List α) : inter as [] = [] := by
  cases as <;> rw [inter]

theorem inter_cons_of_hi_lt {a b : α} {as bs : List α} (h : hi a < lo b) :
    inter (a :: as) (b :: bs) = inter as (b :: bs) := by
  rw [inter, if_pos h]

theorem inter_cons_of_lt_lo {a b : α} {as bs : List α} (h₁ : ¬ hi a < lo b) (h : hi b < lo a) :
    inter (a :: as) (b :: bs) = inter (a :: as) bs := by
  rw [inter, if_neg h₁, if_pos h]

theorem inter_cons_of_overlap {a b : α} {as bs : List α} (h₁ : ¬ hi a < lo b)
    (h₂ : ¬ hi b < lo a) :
    inter (a :: as) (b :: bs) = ofBounds (max (lo a) (lo b)) (min (hi a) (hi b)) ::
      if hi a < hi b then inter as (ofBounds (hi a + 1) (hi b) :: bs)
      else if hi b < hi a then inter (ofBounds (hi b + 1) (hi a) :: as) bs
      else inter as bs := by
  rw [inter, if_neg h₁, if_neg h₂]

theorem canonical_trim {b : α} {l : List α} (h : Canonical (b :: l)) {x : Nat}
    (hx : x ≤ hi b) : Canonical (ofBounds x (hi b) :: l) := by
  obtain ⟨-, hbl, hl⟩ := canonical_cons.mp h
  refine canonical_cons.mpr ⟨by simp [hx], fun j hj => ?_, hl⟩
  have := hbl j hj
  unfold Before at *
  simpa using this

theorem lo_of_mem_inter :
    ∀ {as bs : List α} {y : α}, y ∈ inter as bs →
      (∃ c ∈ as, lo c ≤ lo y) ∧ (∃ d ∈ bs, lo d ≤ lo y)
  | [], _, y, hy => by simp [inter] at hy
  | _ :: _, [], y, hy => by simp at hy
  | a :: as, b :: bs, y, hy => by
    unfold inter at hy
    split_ifs at hy with hab hba hlt hgt
    · obtain ⟨⟨c, hc, h⟩, hd⟩ := lo_of_mem_inter hy
      exact ⟨⟨c, by simp [hc], h⟩, hd⟩
    · obtain ⟨hc, ⟨d, hd, h⟩⟩ := lo_of_mem_inter hy
      exact ⟨hc, ⟨d, by simp [hd], h⟩⟩
    all_goals
      rcases List.mem_cons.mp hy with rfl | hy
      · exact ⟨⟨a, by simp, by simp⟩, ⟨b, by simp, by simp⟩⟩
    · obtain ⟨⟨c, hc, h⟩, ⟨d, hd, h'⟩⟩ := lo_of_mem_inter hy
      refine ⟨⟨c, by simp [hc], h⟩, ?_⟩
      rcases List.mem_cons.mp hd with rfl | hd
      · exact ⟨b, by simp, by simp at h'; omega⟩
      · exact ⟨d, by simp [hd], h'⟩
    · obtain ⟨⟨c, hc, h⟩, ⟨d, hd, h'⟩⟩ := lo_of_mem_inter hy
      refine ⟨?_, ⟨d, by simp [hd], h'⟩⟩
      rcases List.mem_cons.mp hc with rfl | hc
      · exact ⟨a, by simp, by simp at h; omega⟩
      · exact ⟨c, by simp [hc], h⟩
    · obtain ⟨⟨c, hc, h⟩, ⟨d, hd, h'⟩⟩ := lo_of_mem_inter hy
      exact ⟨⟨c, by simp [hc], h⟩, ⟨d, by simp [hd], h'⟩⟩
termination_by as bs => as.length + bs.length

theorem inter_spec :
    ∀ {as bs : List α}, Canonical as → Canonical bs →
      Canonical (inter as bs) ∧ toSet (inter as bs) = toSet as ∩ toSet bs
  | [], _, _, _ => by simp [inter]
  | _ :: _, [], _, _ => by simp
  | a :: as, b :: bs, ha, hb => by
    obtain ⟨ha₀, hal, has⟩ := canonical_cons.mp ha
    obtain ⟨hb₀, hbl, hbs⟩ := canonical_cons.mp hb
    have hta : ∀ v ∈ toSet as, hi a + 1 < v := fun v hv => lt_of_mem_tail ha hv
    have htb : ∀ v ∈ toSet bs, hi b + 1 < v := fun v hv => lt_of_mem_tail hb hv
    unfold inter
    split_ifs with hab hba hlt hgt
    · obtain ⟨hc, hs⟩ := inter_spec has hb
      refine ⟨hc, ?_⟩
      rw [hs]
      ext v
      simp only [toSet_cons, Set.mem_inter_iff, Set.mem_union, Set.mem_Icc]
      grind
    · obtain ⟨hc, hs⟩ := inter_spec ha hbs
      refine ⟨hc, ?_⟩
      rw [hs]
      ext v
      simp only [toSet_cons, Set.mem_inter_iff, Set.mem_union, Set.mem_Icc]
      grind
    · -- `a` ends first: the rest of `b` is kept for the next intervals of `as`
      obtain ⟨hc, hs⟩ := inter_spec has (canonical_trim hb (x := hi a + 1) (by omega))
      refine ⟨canonical_cons.mpr ⟨by simp; omega, fun y hy => ?_, hc⟩, ?_⟩
      · obtain ⟨⟨c, hc', hcy⟩, -⟩ := lo_of_mem_inter hy
        have := hal c hc'
        unfold Before at *
        simp only [hi_ofBounds]
        omega
      · rw [toSet_cons, hs]
        ext v
        simp only [toSet_cons, Set.mem_inter_iff, Set.mem_union, Set.mem_Icc, lo_ofBounds,
          hi_ofBounds]
        grind
    · -- `b` ends first
      obtain ⟨hc, hs⟩ := inter_spec (canonical_trim ha (x := hi b + 1) (by omega)) hbs
      refine ⟨canonical_cons.mpr ⟨by simp; omega, fun y hy => ?_, hc⟩, ?_⟩
      · obtain ⟨-, ⟨d, hd', hdy⟩⟩ := lo_of_mem_inter hy
        have := hbl d hd'
        unfold Before at *
        simp only [hi_ofBounds]
        omega
      · rw [toSet_cons, hs]
        ext v
        simp only [toSet_cons, Set.mem_inter_iff, Set.mem_union, Set.mem_Icc, lo_ofBounds,
          hi_ofBounds]
        grind
    · -- both end together
      obtain ⟨hc, hs⟩ := inter_spec has hbs
      refine ⟨canonical_cons.mpr ⟨by simp; omega, fun y hy => ?_, hc⟩, ?_⟩
      · obtain ⟨⟨c, hc', hcy⟩, -⟩ := lo_of_mem_inter hy
        have := hal c hc'
        unfold Before at *
        simp only [hi_ofBounds]
        omega
      · rw [toSet_cons, hs]
        ext v
        simp only [toSet_cons, Set.mem_inter_iff, Set.mem_union, Set.mem_Icc, lo_ofBounds,
          hi_ofBounds]
        grind
termination_by as bs => as.length + bs.length

/-! ## Positions in a canonical list -/

section Positions

variable {l : List α}

theorem Canonical.before_getElem (h : Canonical l) {i j : Nat} (hi : i < l.length)
    (hj : j < l.length) (hij : i < j) : Before l[i] l[j] :=
  List.pairwise_iff_getElem.mp h.sorted i j hi hj hij

theorem mem_toSet_iff_getElem {v : Nat} :
    v ∈ toSet l ↔ ∃ (j : Nat) (hj : j < l.length), lo l[j] ≤ v ∧ v ≤ hi l[j] := by
  rw [mem_toSet]
  constructor
  · rintro ⟨i, hi, hv⟩
    obtain ⟨j, hj, rfl⟩ := List.getElem_of_mem hi
    exact ⟨j, hj, hv⟩
  · rintro ⟨j, hj, hv⟩
    exact ⟨l[j], List.getElem_mem hj, hv⟩

end Positions

theorem two_mul_length_le : ∀ {l : List α} {s M : Nat}, Canonical l →
    (∀ i ∈ l, s ≤ lo i ∧ hi i ≤ M) → 2 * l.length ≤ M + 2 - s
  | [], _, _, _, _ => by simp
  | i :: l, s, M, h, hb => by
    obtain ⟨hi₀, hbef, hl⟩ := canonical_cons.mp h
    obtain ⟨hs, hM⟩ := hb i (by simp)
    have ih := two_mul_length_le (s := hi i + 2) (M := M) hl fun j hj =>
      ⟨by have := hbef j hj; unfold Before at this; omega, (hb j (by simp [hj])).2⟩
    simp only [List.length_cons]
    omega

/-! ## Size and runs -/

theorem toSet_finite (l : List α) : (toSet l).Finite := by
  induction l with
  | nil => simp
  | cons i l ih => exact (Set.finite_Icc _ _).union ih

theorem disjoint_head_tail {i : α} {l : List α} (h : Canonical (i :: l)) :
    Disjoint (Set.Icc (lo i) (hi i)) (toSet l) := by
  rw [Set.disjoint_left]
  intro v hv hv'
  have := lt_of_mem_tail h hv'
  exact absurd hv.2 (by omega)

theorem ncard_toSet {l : List α} (h : Canonical l) :
    (toSet l).ncard = (l.map fun i => hi i + 1 - lo i).sum := by
  induction l with
  | nil => simp
  | cons i l ih =>
    rw [toSet_cons, Set.ncard_union_eq (disjoint_head_tail h) (Set.finite_Icc _ _)
      (toSet_finite l), Set.ncard_Icc_nat, ih (canonical_cons.mp h).2.2, List.map_cons,
      List.sum_cons]

/-- The values of `s` that start a maximal run of `s`. -/
def runStarts (s : Set Nat) : Set Nat := {v | v ∈ s ∧ (v = 0 ∨ v - 1 ∉ s)}

theorem runStarts_cons {i : α} {l : List α} (h : Canonical (i :: l)) :
    runStarts (toSet (i :: l)) = Insert.insert (lo i) (runStarts (toSet l)) := by
  have hi₀ := (canonical_cons.mp h).1
  have htail : ∀ v ∈ toSet l, hi i + 1 < v := fun v hv => lt_of_mem_tail h hv
  ext v
  simp only [runStarts, toSet_cons, Set.mem_ofPred_eq, Set.mem_union, Set.mem_Icc,
    Set.mem_insert_iff]
  grind

theorem ncard_runStarts {l : List α} (h : Canonical l) :
    (runStarts (toSet l)).ncard = l.length := by
  induction l with
  | nil => simp [runStarts]
  | cons i l ih =>
    have hnot : lo i ∉ runStarts (toSet l) := fun hv =>
      absurd (lt_of_mem_tail h hv.1) (by have := (canonical_cons.mp h).1; omega)
    have hfin : (runStarts (toSet l)).Finite :=
      (toSet_finite l).subset fun _ hv => hv.1
    rw [runStarts_cons h, Set.ncard_insert_of_notMem hnot hfin, ih (canonical_cons.mp h).2.2,
      List.length_cons]

/-! ## Uniqueness of the canonical form -/

theorem lo_le_of_mem_toSet {i : α} {l : List α} (h : Canonical (i :: l)) {v : Nat}
    (hv : v ∈ toSet (i :: l)) : lo i ≤ v := by
  rcases hv with hv | hv
  · exact hv.1
  · have := lt_of_mem_tail h hv
    have := (canonical_cons.mp h).1
    omega

theorem succ_hi_not_mem {i : α} {l : List α} (h : Canonical (i :: l)) :
    hi i + 1 ∉ toSet (i :: l) := by
  rintro (hv | hv)
  · exact absurd hv.2 (by omega)
  · exact not_mem_tail_of_le h le_rfl hv

theorem toSet_tail {i : α} {l : List α} (h : Canonical (i :: l)) :
    toSet l = toSet (i :: l) \ Set.Icc (lo i) (hi i) := by
  rw [toSet_cons, Set.union_sdiff_cancel_left]
  exact Set.disjoint_iff.mp (disjoint_head_tail h)

def firstRun (s : Set Nat) : Set Nat := {v | v ∈ s ∧ ∀ w, sInf s ≤ w → w ≤ v → w ∈ s}

theorem sInf_toSet {i : α} {l : List α} (h : Canonical (i :: l)) : sInf (toSet (i :: l)) = lo i :=
  le_antisymm (Nat.sInf_le (.inl ⟨le_rfl, (canonical_cons.mp h).1⟩))
    (le_csInf ⟨lo i, .inl ⟨le_rfl, (canonical_cons.mp h).1⟩⟩ fun _ hv => lo_le_of_mem_toSet h hv)

theorem firstRun_toSet {i : α} {l : List α} (h : Canonical (i :: l)) :
    firstRun (toSet (i :: l)) = Set.Icc (lo i) (hi i) := by
  ext v
  simp only [firstRun, sInf_toSet h, Set.mem_ofPred_eq, Set.mem_Icc]
  constructor
  · rintro ⟨hv, hrun⟩
    refine ⟨lo_le_of_mem_toSet h hv, ?_⟩
    -- a run past the end of `i` would contain the missing value `hi i + 1`
    by_contra hgt
    exact succ_hi_not_mem h (hrun _ (by have := (canonical_cons.mp h).1; omega) (by omega))
  · rintro ⟨h₁, h₂⟩
    exact ⟨.inl ⟨h₁, h₂⟩, fun w hw₁ hw₂ => .inl ⟨hw₁, by omega⟩⟩

theorem eq_of_toSet_eq : ∀ {l₁ l₂ : List α}, Canonical l₁ → Canonical l₂ →
    toSet l₁ = toSet l₂ → l₁ = l₂
  | [], [], _, _, _ => rfl
  | [], b :: l, _, h₂, h => by
    have hb : lo b ∈ toSet (b :: l) := .inl ⟨le_rfl, (canonical_cons.mp h₂).1⟩
    rw [← h] at hb
    exact absurd hb (by simp)
  | a :: l, [], h₁, _, h => by
    have ha : lo a ∈ toSet (a :: l) := .inl ⟨le_rfl, (canonical_cons.mp h₁).1⟩
    rw [h] at ha
    exact absurd ha (by simp)
  | a :: r₁, b :: r₂, h₁, h₂, h => by
    have ha := (canonical_cons.mp h₁).1
    have hb := (canonical_cons.mp h₂).1
    have hlo : lo a = lo b := by
      have hba : lo b ≤ lo a := lo_le_of_mem_toSet h₂ (h ▸ .inl ⟨le_rfl, ha⟩)
      have hab : lo a ≤ lo b := lo_le_of_mem_toSet h₁ (h.symm ▸ .inl ⟨le_rfl, hb⟩)
      omega
    have hhi : hi a = hi b := by
      rcases Nat.lt_trichotomy (hi a) (hi b) with hlt | heq | hlt
      · exact absurd (h ▸ .inl ⟨by omega, hlt⟩) (succ_hi_not_mem h₁)
      · exact heq
      · exact absurd (h.symm ▸ .inl ⟨by omega, hlt⟩) (succ_hi_not_mem h₂)
    have hab : a = b := by rw [← ofBounds_lo_hi a, ← ofBounds_lo_hi b, hlo, hhi]
    subst hab
    have hr : toSet r₁ = toSet r₂ := by rw [toSet_tail h₁, toSet_tail h₂, h]
    rw [eq_of_toSet_eq (canonical_cons.mp h₁).2.2 (canonical_cons.mp h₂).2.2 hr]

theorem insert_eq_self {l : List α} {a : α} (hl : Canonical l) (ha : lo a ≤ hi a)
    (hsub : Set.Icc (lo a) (hi a) ⊆ toSet l) : insert l a = l := by
  obtain ⟨hc, hs⟩ := insert_spec hl ha
  exact eq_of_toSet_eq hc hl (by rw [hs, Set.union_eq_left.mpr hsub])

theorem remove_eq_self {l : List α} {a : α} (hl : Canonical l) (ha : lo a ≤ hi a)
    (hdis : Disjoint (toSet l) (Set.Icc (lo a) (hi a))) : remove l a = l := by
  obtain ⟨hc, hs⟩ := remove_spec ha hl
  exact eq_of_toSet_eq hc hl (by rw [hs, hdis.sdiff_eq_left])

theorem inter_congr_left {as as' bs : List α} (ha : Canonical as) (ha' : Canonical as')
    (hb : Canonical bs) (h : toSet as ∩ toSet bs = toSet as' ∩ toSet bs) :
    inter as bs = inter as' bs := by
  obtain ⟨hc, hs⟩ := inter_spec ha hb
  obtain ⟨hc', hs'⟩ := inter_spec ha' hb
  exact eq_of_toSet_eq hc hc' (by rw [hs, hs', h])

theorem inter_self {as : List α} (ha : Canonical as) : inter as as = as := by
  obtain ⟨hc, hs⟩ := inter_spec ha ha
  exact eq_of_toSet_eq hc ha (by rw [hs, Set.inter_self])

theorem inter_congr_right {as bs bs' : List α} (ha : Canonical as) (hb : Canonical bs)
    (hb' : Canonical bs') (h : toSet as ∩ toSet bs = toSet as ∩ toSet bs') :
    inter as bs = inter as bs' := by
  obtain ⟨hc, hs⟩ := inter_spec ha hb
  obtain ⟨hc', hs'⟩ := inter_spec ha hb'
  exact eq_of_toSet_eq hc hc' (by rw [hs, hs', h])

section Trim

variable {a : α} {as bs : List α} {x : Nat}

theorem inter_trim_left (ha : Canonical (a :: as)) (hb : Canonical bs) (hlo : lo a ≤ x)
    (hx : x ≤ hi a) (hv : ∀ v ∈ toSet bs, lo a ≤ v → x ≤ v) :
    inter (a :: as) bs = inter (ofBounds x (hi a) :: as) bs := by
  refine inter_congr_left ha (canonical_trim ha hx) hb ?_
  ext v
  simp only [Set.mem_inter_iff, toSet_cons, Set.mem_union, Set.mem_Icc, lo_ofBounds,
    hi_ofBounds]
  constructor
  · rintro ⟨hva | hva, hvb⟩
    · exact ⟨.inl ⟨hv v hvb hva.1, hva.2⟩, hvb⟩
    · exact ⟨.inr hva, hvb⟩
  · rintro ⟨hva | hva, hvb⟩
    · exact ⟨.inl ⟨by omega, hva.2⟩, hvb⟩
    · exact ⟨.inr hva, hvb⟩

theorem inter_drop_left (ha : Canonical (a :: as)) (hb : Canonical bs)
    (hv : ∀ v ∈ toSet bs, v < lo a ∨ hi a < v) : inter (a :: as) bs = inter as bs := by
  refine inter_congr_left ha (canonical_cons.mp ha).2.2 hb ?_
  ext v
  simp only [Set.mem_inter_iff, toSet_cons, Set.mem_union, Set.mem_Icc]
  constructor
  · rintro ⟨hva | hva, hvb⟩
    · exact absurd (hv v hvb) (by omega)
    · exact ⟨hva, hvb⟩
  · rintro ⟨hva, hvb⟩
    exact ⟨.inr hva, hvb⟩

theorem inter_trim_right {b : α} (ha : Canonical as) (hb : Canonical (b :: bs)) (hlo : lo b ≤ x)
    (hx : x ≤ hi b) (hv : ∀ v ∈ toSet as, lo b ≤ v → x ≤ v) :
    inter as (b :: bs) = inter as (ofBounds x (hi b) :: bs) := by
  refine inter_congr_right ha hb (canonical_trim hb hx) ?_
  ext v
  simp only [Set.mem_inter_iff, toSet_cons, Set.mem_union, Set.mem_Icc, lo_ofBounds,
    hi_ofBounds]
  constructor
  · rintro ⟨hva, hvb | hvb⟩
    · exact ⟨hva, .inl ⟨hv v hva hvb.1, hvb.2⟩⟩
    · exact ⟨hva, .inr hvb⟩
  · rintro ⟨hva, hvb | hvb⟩
    · exact ⟨hva, .inl ⟨by omega, hvb.2⟩⟩
    · exact ⟨hva, .inr hvb⟩

end Trim

end IntervalList
