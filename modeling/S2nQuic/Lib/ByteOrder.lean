import Mathlib

/-!
# Fixed-width byte orders

A natural number written as `n` bytes, least significant first (`leBytes`) or most
significant first (`beBytes`), and read back (`ofLeBytes`, `ofBeBytes`). Bytes are
`UInt8`; every writer keeps the value modulo `2 ^ (8 * n)`. The bitwise `or` of two
values is the bytewise `or` of their bytes, which is what byte-swapped constants in
an encoder rely on.
-/

namespace ByteOrder

def leBytes : Nat → Nat → List UInt8
  | 0, _ => []
  | n + 1, v => UInt8.ofNat v :: leBytes n (v / 2 ^ 8)

def beBytes (n v : Nat) : List UInt8 := (leBytes n v).reverse

def ofLeBytes : List UInt8 → Nat
  | [] => 0
  | b :: bs => b.toNat + 2 ^ 8 * ofLeBytes bs

def ofBeBytes (bs : List UInt8) : Nat := ofLeBytes bs.reverse

@[simp] theorem leBytes_zero (v : Nat) : leBytes 0 v = [] := rfl

theorem leBytes_succ (n v : Nat) :
    leBytes (n + 1) v = UInt8.ofNat v :: leBytes n (v / 2 ^ 8) := rfl

@[simp] theorem ofLeBytes_nil : ofLeBytes [] = 0 := rfl

@[simp] theorem ofLeBytes_cons (b : UInt8) (bs : List UInt8) :
    ofLeBytes (b :: bs) = b.toNat + 2 ^ 8 * ofLeBytes bs := rfl

@[simp] theorem length_leBytes (n v : Nat) : (leBytes n v).length = n := by
  induction n generalizing v with
  | zero => rfl
  | succ n ih => simp [leBytes_succ, ih]

@[simp] theorem length_beBytes (n v : Nat) : (beBytes n v).length = n := by
  simp [beBytes]

theorem toNat_ofNat_byte (v : Nat) : (UInt8.ofNat v).toNat = v % 2 ^ 8 := by
  simp [UInt8.toNat_ofNat']

theorem ofLeBytes_leBytes (n v : Nat) : ofLeBytes (leBytes n v) = v % 2 ^ (8 * n) := by
  induction n generalizing v with
  | zero => simp [Nat.mod_one]
  | succ n ih =>
    rw [leBytes_succ, ofLeBytes_cons, ih, toNat_ofNat_byte,
      show 8 * (n + 1) = 8 + 8 * n by omega, Nat.pow_add, Nat.mod_mul]

theorem ofBeBytes_beBytes (n v : Nat) : ofBeBytes (beBytes n v) = v % 2 ^ (8 * n) := by
  simp [ofBeBytes, beBytes, ofLeBytes_leBytes]

theorem ofLeBytes_lt (bs : List UInt8) : ofLeBytes bs < 2 ^ (8 * bs.length) := by
  induction bs with
  | nil => simp
  | cons b bs ih =>
    have hb : b.toNat < 2 ^ 8 := b.toNat_lt
    rw [ofLeBytes_cons, List.length_cons, show 8 * (bs.length + 1) = 8 + 8 * bs.length by omega,
      Nat.pow_add]
    have : 2 ^ 8 * ofLeBytes bs + 2 ^ 8 ≤ 2 ^ 8 * 2 ^ (8 * bs.length) := by
      rw [← Nat.mul_succ]; exact Nat.mul_le_mul_left _ ih
    omega

theorem leBytes_ofLeBytes (bs : List UInt8) : leBytes bs.length (ofLeBytes bs) = bs := by
  induction bs with
  | nil => rfl
  | cons b bs ih =>
    have hb : b.toNat < 2 ^ 8 := b.toNat_lt
    have hdiv : (b.toNat + 2 ^ 8 * ofLeBytes bs) / 2 ^ 8 = ofLeBytes bs := by omega
    have hbyte : UInt8.ofNat (b.toNat + 2 ^ 8 * ofLeBytes bs) = b := by
      apply UInt8.toNat_inj.mp
      rw [toNat_ofNat_byte]
      omega
    rw [List.length_cons, leBytes_succ, ofLeBytes_cons, hdiv, ih, hbyte]

theorem leBytes_lor (n a b : Nat) :
    leBytes n (a ||| b) = List.zipWith (· ||| ·) (leBytes n a) (leBytes n b) := by
  induction n generalizing a b with
  | zero => rfl
  | succ n ih =>
    have hbyte : UInt8.ofNat (a ||| b) = UInt8.ofNat a ||| UInt8.ofNat b := by
      apply UInt8.toNat_inj.mp
      rw [UInt8.toNat_or, toNat_ofNat_byte, toNat_ofNat_byte, toNat_ofNat_byte, Nat.or_mod_two_pow]
    rw [leBytes_succ, leBytes_succ, leBytes_succ, Nat.or_div_two_pow, ih, hbyte, List.zipWith_cons_cons]

theorem beBytes_lor (n a b : Nat) :
    beBytes n (a ||| b) = List.zipWith (· ||| ·) (beBytes n a) (beBytes n b) := by
  rw [beBytes, leBytes_lor, beBytes, beBytes, List.reverse_zipWith (by simp)]

theorem beBytes_succ (n v : Nat) :
    beBytes (n + 1) v = beBytes n (v / 2 ^ 8) ++ [UInt8.ofNat v] := by
  simp [beBytes, leBytes_succ]

theorem beBytes_add (m n v : Nat) :
    beBytes (m + n) v = beBytes m (v / 2 ^ (8 * n)) ++ beBytes n v := by
  induction n generalizing v with
  | zero => simp [beBytes]
  | succ n ih =>
    rw [← Nat.add_assoc, beBytes_succ, ih, beBytes_succ, Nat.div_div_eq_div_mul, ← Nat.pow_add,
      List.append_assoc, show 8 + 8 * n = 8 * (n + 1) by omega]

theorem take_beBytes (m n v : Nat) :
    (beBytes (m + n) v).take m = beBytes m (v / 2 ^ (8 * n)) := by
  rw [beBytes_add, List.take_left' (by simp)]

theorem land_clear_low (v k : Nat) (hv : v < 2 ^ 64) (hk : k ≤ 64) :
    v &&& (2 ^ 64 - 1 - (2 ^ k - 1)) = v / 2 ^ k * 2 ^ k := by
  have hmask : 2 ^ 64 - 1 - (2 ^ k - 1) = (2 ^ (64 - k) - 1) * 2 ^ k := by
    have h1 : 2 ^ 64 = 2 ^ (64 - k) * 2 ^ k := by rw [← Nat.pow_add]; congr 1; omega
    have h2 : 1 ≤ 2 ^ k := Nat.one_le_two_pow
    rw [h1, Nat.sub_mul, Nat.one_mul]; omega
  rw [hmask]
  apply Nat.eq_of_testBit_eq
  intro i
  rw [Nat.testBit_and, Nat.testBit_mul_two_pow, Nat.testBit_mul_two_pow,
    Nat.testBit_two_pow_sub_one, Nat.testBit_div_two_pow]
  by_cases hki : k ≤ i
  · by_cases hi : i < 64
    · simp [hki, show i - k < 64 - k by omega, Nat.sub_add_cancel hki]
    · have hlt : v < 2 ^ i := lt_of_lt_of_le hv (Nat.pow_le_pow_right (by omega) (by omega))
      simp [hki, show ¬ i - k < 64 - k by omega, Nat.sub_add_cancel hki,
        Nat.testBit_eq_false_of_lt hlt]
  · simp [hki]

theorem ldiff_two_pow_sub_one (v k : Nat) : Nat.ldiff v (2 ^ k - 1) = v / 2 ^ k * 2 ^ k := by
  apply Nat.eq_of_testBit_eq
  intro i
  rw [Nat.testBit_ldiff, Nat.testBit_two_pow_sub_one, Nat.testBit_mul_two_pow,
    Nat.testBit_div_two_pow]
  by_cases hki : k ≤ i
  · simp [hki, Nat.not_lt.mpr hki, Nat.sub_add_cancel hki]
  · simp [hki, Nat.lt_of_not_le hki]

end ByteOrder
