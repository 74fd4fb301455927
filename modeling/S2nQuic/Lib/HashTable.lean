import Mathlib

/-!
# Hash tables keyed by a projection

A hash table whose values are found by a key they carry, as `hashbrown::HashTable` is used with
an `eq` closure on that key: at most one value for each key. What is read of such a table is
which values it holds, so it is the list of its values with no two keys equal. A lookup or a
removal by a predicate takes the first value the predicate holds of; under a key test that is
the one value of the key.
-/

/-- The values of a hash table keyed by `key`, no two with the same key. -/
structure HashTable (α κ : Type) (key : α → κ) where
  values : List α
  nodup : (values.map key).Nodup

namespace HashTable

variable {α κ : Type} {key : α → κ}

def empty : HashTable α κ key := ⟨[], List.nodup_nil⟩

/-- `find_entry(hash, eq)` then `remove`: the table without the first value `p` holds of, and
that value. -/
def remove (t : HashTable α κ key) (p : α → Bool) : HashTable α κ key × Option α :=
  (⟨t.values.eraseP p, t.nodup.sublist (List.eraseP_sublist.map key)⟩, t.values.find? p)

@[simp] theorem values_empty : (empty : HashTable α κ key).values = [] := rfl

theorem key_injOn (t : HashTable α κ key) {a b : α} (ha : a ∈ t.values) (hb : b ∈ t.values)
    (h : key a = key b) : a = b :=
  List.inj_on_of_nodup_map t.nodup ha hb h

theorem nodup_values (t : HashTable α κ key) : t.values.Nodup :=
  List.Nodup.of_map key t.nodup

theorem length_le_of_subset (t : HashTable α κ key) {l : List α} (h : ∀ a ∈ t.values, a ∈ l) :
    t.values.length ≤ l.length :=
  (t.nodup_values.subperm h).length_le

/-! ## Removal -/

theorem mem_of_mem_remove {t : HashTable α κ key} {p : α → Bool} {b : α}
    (h : b ∈ (t.remove p).1.values) : b ∈ t.values :=
  List.mem_of_mem_eraseP h

theorem mem_remove_of_not {t : HashTable α κ key} {p : α → Bool} {b : α} (hp : ¬p b = true)
    (hb : b ∈ t.values) : b ∈ (t.remove p).1.values :=
  (List.mem_eraseP_of_neg hp).mpr hb

theorem not_mem_remove {t : HashTable α κ key} {p : α → Bool} {b : α}
    (huniq : ∀ c ∈ t.values, ∀ d ∈ t.values, p c = true → p d = true → c = d) (hp : p b = true) :
    b ∉ (t.remove p).1.values := by
  intro hb
  have hbt := mem_of_mem_remove hb
  obtain ⟨a, l₁, l₂, hl₁, ha, hsplit, herase⟩ := List.exists_of_eraseP hbt hp
  simp only [remove, herase, List.mem_append] at hb
  rcases hb with hb | hb
  · exact hl₁ b hb hp
  · have hat : a ∈ t.values := by simp [hsplit]
    have hnodup := t.nodup_values
    rw [hsplit, List.nodup_append, List.nodup_cons] at hnodup
    exact hnodup.2.1.1 (huniq a hat b hbt ha hp ▸ hb)

/-! ## Insertion -/

variable [DecidableEq κ]

/-- The values after `entry` with `a`: the value of `a`'s key becomes `a` (`Occupied`), or `a`
is added (`Vacant`). -/
def insertValues (key : α → κ) (values : List α) (a : α) : List α :=
  if values.any (fun b => key b = key a) then values.map (fun b => if key b = key a then a else b)
  else values ++ [a]

theorem nodup_insertValues {values : List α} (h : (values.map key).Nodup) (a : α) :
    ((insertValues key values a).map key).Nodup := by
  unfold insertValues
  split_ifs with hany
  · -- a replacement keeps every key where it was
    have hkeys : (values.map fun b => if key b = key a then a else b).map key = values.map key := by
      rw [List.map_map]
      apply List.map_congr_left
      intro b _
      by_cases hb : key b = key a <;> simp [hb]
    rwa [hkeys]
  · have hfresh : key a ∉ values.map key := by
      simp only [List.any_eq_true, decide_eq_true_eq, not_exists, not_and] at hany
      simpa [List.mem_map] using hany
    rw [List.map_append, List.map_singleton, List.nodup_append]
    refine ⟨h, List.nodup_singleton _, ?_⟩
    intro x hx y hy
    rw [List.mem_singleton] at hy
    rintro rfl
    exact hfresh (hy ▸ hx)

/-- `entry(hash, eq)` then `mem::replace` on `Occupied` or `insert` on `Vacant`: the table
holding `a`, and the value it replaced. -/
def insert (t : HashTable α κ key) (a : α) : HashTable α κ key × Option α :=
  (⟨insertValues key t.values a, nodup_insertValues t.nodup a⟩,
    t.values.find? (fun b => key b = key a))

theorem mem_insert {t : HashTable α κ key} {a b : α} :
    b ∈ (t.insert a).1.values ↔ b = a ∨ (b ∈ t.values ∧ key b ≠ key a) := by
  simp only [insert, insertValues]
  split_ifs with hany
  · simp only [List.mem_map]
    constructor
    · rintro ⟨c, hc, rfl⟩
      by_cases hca : key c = key a
      · simp [hca]
      · simp [hca, hc]
    · rintro (rfl | ⟨hb, hba⟩)
      · obtain ⟨c, hc, hca⟩ := List.any_eq_true.mp hany
        exact ⟨c, hc, if_pos (by simpa using hca)⟩
      · exact ⟨b, hb, by simp [hba]⟩
  · have hfresh : ∀ c ∈ t.values, key c ≠ key a := by
      simpa [List.any_eq_true] using hany
    simp only [List.mem_append, List.mem_singleton]
    constructor
    · rintro (hb | rfl)
      · exact .inr ⟨hb, hfresh b hb⟩
      · exact .inl rfl
    · rintro (rfl | ⟨hb, -⟩)
      · exact .inr rfl
      · exact .inl hb

theorem insert_snd_eq_none {t : HashTable α κ key} {a : α} :
    (t.insert a).2 = none ↔ ∀ b ∈ t.values, key b ≠ key a := by
  simp [insert, List.find?_eq_none]

theorem mem_of_insert_snd {t : HashTable α κ key} {a prev : α} (h : (t.insert a).2 = some prev) :
    prev ∈ t.values ∧ key prev = key a :=
  ⟨List.mem_of_find?_eq_some h, by simpa using List.find?_some h⟩

theorem not_mem_remove_key {t : HashTable α κ key} {k : κ} {b : α} (hb : key b = k) :
    b ∉ (t.remove (fun c => key c = k)).1.values :=
  not_mem_remove (fun c hc d hd hck hdk => t.key_injOn hc hd (by simp_all)) (by simpa using hb)

end HashTable
