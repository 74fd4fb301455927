import S2nQuic.Varint
import S2nQuic.Lib.BitWindow

/-!
# The dc replay filter (`path/secret/receiver.rs`)

`State` keeps the largest key id authenticated so far, `u64::MAX` before the first one, and a
bitset of `WINDOW = 896` bits whose bit `i` records the key id `max - i`. `post_authentication`
raises the maximum, shifts the bits by its growth (clearing them once the growth passes the
window), and accepts a key id in the window whose bit is clear. Calls hold the mutex, so the
model takes them one after another.

Over any sequence of calls the filter answers exactly what the key ids accepted so far and the
largest key id seen dictate. `minimum_unseen_key_id` is one more than the largest key id seen,
which is not a `KeyId` once `VarInt::MAX` has been seen: its `unwrap` then panics.
-/

namespace S2nQuic.Dc.Receiver
open Varint BitWindow

def WINDOW : Nat := 896

def U64_MAX : UInt64 := 0xFFFFFFFFFFFFFFFF

inductive Error
  | alreadyExists
  | unknown
  deriving DecidableEq, Repr

structure State where
  maxSeenKeyId : UInt64
  seen : BitVec WINDOW

namespace State

def new : State := ⟨U64_MAX, 0⟩

/-- `minimum_unseen_key_id`; `none` is the panic of `unwrap` past `VarInt::MAX`. -/
def minimumUnseenKeyId (self : State) : Option VarInt :=
  -- the initial `u64::MAX` wraps to zero
  VarInt.new (self.maxSeenKeyId + 1).toNat

/-- `BitSlice::shift_right` of `bitvec`: bit `i` moves to `i + count`; the first `count` bits are
cleared, all of them once `count` reaches the length. -/
def shiftRight (seen : BitVec WINDOW) (count : Nat) : BitVec WINDOW := seen <<< count

def maxima (maxSeenKeyId keyId : UInt64) : UInt64 × UInt64 :=
  if maxSeenKeyId = U64_MAX then (0, keyId) else (maxSeenKeyId, max maxSeenKeyId keyId)

/-- The bits after the maximum grew by `delta`: cleared past the window, shifted otherwise. -/
def slide (seen : BitVec WINDOW) (delta : UInt64) : BitVec WINDOW :=
  if delta.toNat > WINDOW then 0 else shiftRight seen delta.toNat

/-- `post_authentication`. The new maximum and the shifted bits are stored before the key id is
looked up, so a refused key id still moves the window. -/
def postAuthentication (self : State) (keyId : VarInt) : State × Except Error Unit :=
  let keyId : UInt64 := UInt64.ofNat keyId.val
  let newMax := (maxima self.maxSeenKeyId keyId).2
  let seen := slide self.seen (newMax - (maxima self.maxSeenKeyId keyId).1)
  -- `usize::try_from` and `get_mut` both refuse an index past the window
  let idx := (newMax - keyId).toNat
  if idx < WINDOW then
    if seen.getLsbD idx then (⟨newMax, seen⟩, .error .alreadyExists)
    else (⟨newMax, seen ||| (BitVec.ofNat WINDOW 1 <<< idx)⟩, .ok ())
  else (⟨newMax, seen⟩, .error .unknown)

/-- `post_authentication` over a sequence of key ids: the state after, and the key ids it
accepted, in order. -/
def postAuthenticationAll (self : State) : List VarInt → State × List Nat
  | [] => (self, [])
  | k :: ks =>
    let (self', result) := self.postAuthentication k
    let (self'', accepted) := self'.postAuthenticationAll ks
    (self'', match result with
      | .ok _ => k.val :: accepted
      | .error _ => accepted)

/-! ## What the filter answers -/

/-- The largest key id seen once `k` has been seen too. -/
def largest : Option Nat → Nat → Nat
  | none, k => k
  | some M, k => max M k

def maxSeen (m : Option Nat) : List VarInt → Option Nat
  | [] => m
  | k :: ks => maxSeen (some (largest m k.val)) ks

/-- The answer the accepted key ids dictate, with `M` the largest key id seen including `k`. -/
def expected (accepted : Finset Nat) (M k : Nat) : Except Error Unit :=
  if M - k < WINDOW then (if k ∈ accepted then .error .alreadyExists else .ok ())
  else .error .unknown

def accept (accepted : Finset Nat) (k : Nat) : Except Error Unit → Finset Nat
  | .ok _ => insert k accepted
  | .error _ => accepted

/-- Before the first call the state is the initial one; afterwards `max_seen_key_id` is the
largest key id seen and the bits record the accepted key ids below it. -/
def Represents (self : State) (accepted : Finset Nat) : Option Nat → Prop
  | none => self.maxSeenKeyId = U64_MAX ∧ self.seen = 0 ∧ accepted = ∅
  | some M => self.maxSeenKeyId.toNat = M ∧ M ≤ maxVarintValue ∧ (∀ a ∈ accepted, a ≤ M) ∧
      Records self.seen 0 M accepted

theorem represents_new : new.Represents ∅ none := ⟨rfl, rfl, rfl⟩

theorem le_largest (m : Option Nat) (k : Nat) : k ≤ largest m k := by
  cases m <;> simp [largest]

variable {self : State} {A : Finset Nat} {m : Option Nat}

theorem toNat_ofNat_keyId (k : VarInt) : (UInt64.ofNat k.val).toNat = k.val :=
  UInt64.toNat_ofNat_of_lt' (lt_trans k.val_lt (by decide))

theorem Represents.maxima (h : self.Represents A m) (k : VarInt) :
    (maxima self.maxSeenKeyId (UInt64.ofNat k.val)).2.toNat = largest m k.val ∧
      (maxima self.maxSeenKeyId (UInt64.ofNat k.val)).1.toNat ≤ largest m k.val ∧
      (∀ a ∈ A, a ≤ (maxima self.maxSeenKeyId (UInt64.ofNat k.val)).1.toNat) ∧
      Records self.seen 0 (maxima self.maxSeenKeyId (UInt64.ofNat k.val)).1.toNat A := by
  cases m with
  | none =>
    obtain ⟨hmax, hseen, rfl⟩ := h
    rw [State.maxima, if_pos hmax, hseen]
    exact ⟨toNat_ofNat_keyId k, Nat.zero_le _, by simp, records_zero (by simp)⟩
  | some M =>
    obtain ⟨hmax, hM, hA, hrec⟩ := h
    have hne : self.maxSeenKeyId ≠ U64_MAX := by
      intro he
      rw [he] at hmax
      unfold maxVarintValue at hM
      simp [U64_MAX] at hmax
      omega
    rw [State.maxima, if_neg hne]
    refine ⟨?_, ?_, by rwa [hmax], by rwa [hmax]⟩
    · simp only [UInt64.toNat_max, hmax, toNat_ofNat_keyId, largest]
    · rw [hmax]
      exact le_max_left _ _

theorem records_slide {seen : BitVec WINDOW} {P M : UInt64} (hPM : P.toNat ≤ M.toNat)
    (hA : ∀ a ∈ A, a ≤ P.toNat) (h : Records seen 0 P.toNat A) :
    Records (slide seen (M - P)) 0 M.toNat A := by
  have hd : (M - P).toNat = M.toNat - P.toNat :=
    UInt64.toNat_sub_of_le M P (UInt64.le_iff_toNat_le.mpr hPM)
  unfold slide
  split_ifs with hgt
  · -- the growth passed the window: every accepted key id is out of it
    refine records_zero fun a ha => ?_
    have := hA a ha
    rw [hd] at hgt
    omega
  · rw [hd, shiftRight]
    exact h.shiftLeft (by simpa using hA) hPM

theorem Represents.postAuthentication (h : self.Represents A m) (k : VarInt) :
    (self.postAuthentication k).2 = expected A (largest m k.val) k.val ∧
      (self.postAuthentication k).1.Represents (accept A k.val (self.postAuthentication k).2)
        (some (largest m k.val)) := by
  obtain ⟨hmax, hle, hA, hrec⟩ := h.maxima k
  have hslide := records_slide (by rw [hmax]; exact hle) hA hrec
  rw [hmax] at hslide
  have hkM := le_largest m k.val
  have hM : largest m k.val ≤ maxVarintValue := by
    cases m with
    | none => exact k.le_max
    | some M => exact max_le h.2.1 k.le_max
  have hA' : ∀ a ∈ A, a ≤ largest m k.val := fun a ha => (hA a ha).trans hle
  have hidx : ((State.maxima self.maxSeenKeyId (UInt64.ofNat k.val)).2 - UInt64.ofNat k.val).toNat =
      largest m k.val - k.val := by
    have hle' : UInt64.ofNat k.val ≤ (State.maxima self.maxSeenKeyId (UInt64.ofNat k.val)).2 := by
      rw [UInt64.le_iff_toNat_le, hmax, toNat_ofNat_keyId]
      exact hkM
    rw [UInt64.toNat_sub_of_le _ _ hle', hmax, toNat_ofNat_keyId]
  unfold State.postAuthentication
  dsimp only
  rw [hidx]
  by_cases hw : largest m k.val - k.val < WINDOW
  · -- in the window, the bit of `k` says whether it was accepted
    have hbit := hslide.getLsbD_iff (p := k.val) (by simpa using hkM) (by simpa using hw)
    rw [Nat.add_zero] at hbit
    rw [if_pos hw]
    by_cases hk : k.val ∈ A
    · rw [if_pos (hbit.mpr hk)]
      exact ⟨by simp [expected, hw, hk], hmax, hM, hA', hslide⟩
    · rw [if_neg (fun hb => hk (hbit.mp hb))]
      refine ⟨by simp [expected, hw, hk], hmax, hM, fun a ha => ?_, ?_⟩
      · rcases Finset.mem_insert.mp ha with rfl | ha
        · exact hkM
        · exact hA' a ha
      · simpa [accept] using hslide.mark (p := k.val) (by simpa using hkM)
  · rw [if_neg hw]
    exact ⟨by simp [expected, hw], hmax, hM, hA', hslide⟩

theorem Represents.minimumUnseenKeyId (h : self.Represents A m) :
    self.minimumUnseenKeyId = VarInt.new (m.elim 0 (· + 1)) := by
  unfold State.minimumUnseenKeyId
  cases m with
  | none =>
    rw [h.1]
    rfl
  | some M =>
    obtain ⟨hmax, hM, -⟩ := h
    have : (self.maxSeenKeyId + 1).toNat = M + 1 := by
      rw [UInt64.toNat_add, hmax, UInt64.toNat_one]
      unfold maxVarintValue at hM
      omega
    rw [this]
    rfl

theorem Represents.postAuthenticationAll : ∀ {self : State} {A : Finset Nat} {m : Option Nat}
    (ks : List VarInt), self.Represents A m →
      (self.postAuthenticationAll ks).1.Represents (A ∪ (self.postAuthenticationAll ks).2.toFinset)
          (maxSeen m ks) ∧
        (∀ v ∈ (self.postAuthenticationAll ks).2, v ∉ A) ∧ (self.postAuthenticationAll ks).2.Nodup
  | _, _, _, [], h => by simpa [State.postAuthenticationAll, maxSeen] using h
  | self, A, m, k :: ks, h => by
    obtain ⟨hres, h'⟩ := h.postAuthentication k
    simp only [State.postAuthenticationAll, maxSeen]
    cases hr : (self.postAuthentication k).2 with
    | ok u =>
      rw [hr] at hres h'
      have hnew : k.val ∉ A := by
        intro hk
        unfold expected at hres
        split_ifs at hres
      obtain ⟨hrun, hfresh, hnodup⟩ := Represents.postAuthenticationAll ks h'
      refine ⟨?_, ?_, ?_⟩
      · simpa [accept, Finset.insert_union, Finset.union_insert] using hrun
      · intro v hv
        rcases List.mem_cons.mp hv with rfl | hv
        · exact hnew
        · exact fun hA => hfresh v hv (Finset.mem_insert_of_mem hA)
      · exact List.nodup_cons.mpr ⟨fun hk => hfresh _ hk (Finset.mem_insert_self _ _), hnodup⟩
    | error e =>
      rw [hr] at h'
      exact Represents.postAuthenticationAll ks h'

/-- After any sequence of calls from the initial state, a call answers `Ok` exactly for a key id
in the window of the largest one seen (itself included) that was not accepted before,
`AlreadyExists` for one that was, and `Unknown` outside the window; no key id is accepted twice;
and `minimum_unseen_key_id` is `VarInt::new` of one more than the largest key id seen, zero before
any call. -/
theorem postAuthentication_answers_expected (history : List VarInt) (k : VarInt) :
    let run : State × List Nat := new.postAuthenticationAll history
    (run.1.postAuthentication k).2 = expected run.2.toFinset (largest (maxSeen none history) k.val)
        k.val ∧
      run.2.Nodup ∧ run.1.minimumUnseenKeyId = VarInt.new ((maxSeen none history).elim 0 (· + 1)) := by
  obtain ⟨h, -, hnodup⟩ := represents_new.postAuthenticationAll history
  rw [Finset.empty_union] at h
  exact ⟨(h.postAuthentication k).1, hnodup, h.minimumUnseenKeyId⟩

/-- Once `VarInt::MAX` has been accepted, `minimum_unseen_key_id` panics: one more than it is not
a `KeyId`. -/
theorem minimumUnseenKeyId_panics_after_max :
    (new.postAuthentication VarInt.MAX).2 = .ok () ∧
      (new.postAuthentication VarInt.MAX).1.minimumUnseenKeyId = none := by
  obtain ⟨hres, h⟩ := represents_new.postAuthentication VarInt.MAX
  refine ⟨by rw [hres]; rfl, ?_⟩
  rw [h.minimumUnseenKeyId]
  rfl

end State

end S2nQuic.Dc.Receiver
