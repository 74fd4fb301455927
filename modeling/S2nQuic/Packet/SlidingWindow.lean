import S2nQuic.Packet.Number

/-!
# Duplicate detection (`packet/number/sliding_window.rs`)

`SlidingWindow` keeps the largest packet number received (the right edge) and a 128-bit window
whose bit `d - 1` records the packet number `d` below the right edge (RFC 4303 3.4.3). A packet
number at least `WINDOW_WIDTH = 129` below the edge is too old; one in the window is a duplicate
when its bit is set; one past the edge shifts the window.

All packet numbers of one window are of one space (`checked_distance` asserts it), so the model
reads their values only. Over any run of `insert`, the window answers exactly what the set of
packet numbers accepted so far dictates. `insert_with_evicted` also returns the packet numbers a
slide pushed out of the window unreceived, as an `EvictedSet` whose iterator walks a shadow right
edge up the set bits; it yields exactly those, in ascending order.
-/

namespace S2nQuic.Packet
open Varint

def WINDOW_WIDTH : Nat := 1 + 16 * 8

inductive SlidingWindowError
  | duplicate
  | tooOld
  deriving DecidableEq, Repr

inductive WindowPosition
  | left
  | right (delta : Nat)
  | rightEdge
  | within (delta : Nat)
  | empty
  deriving DecidableEq, Repr

structure SlidingWindow where
  window : BitVec 128
  rightEdge : Option PacketNumber

/-- The packet numbers an insertion slid out of the window: bit `i` of `window` stands for the
packet number `i + 1` below `right_edge`, which is never in the set. -/
structure EvictedSet where
  window : BitVec 128
  rightEdge : PacketNumber

/-- `EvictedSet::default()`: the empty window under `PacketNumber::default()`, packet number 0 of
the initial space. -/
def EvictedSet.default : EvictedSet :=
  ⟨0, PacketNumberSpace.initial.newPacketNumber ⟨0, Nat.zero_le _⟩⟩

/-- `PacketNumber::checked_distance`: `self - rhs`, when it does not underflow. -/
def PacketNumber.checkedDistance (self rhs : PacketNumber) : Option Nat :=
  if rhs.asU64 ≤ self.asU64 then some (self.asU64 - rhs.asU64) else none

namespace SlidingWindow

def default : SlidingWindow := ⟨0, none⟩

def windowPosition (self : SlidingWindow) (packetNumber : PacketNumber) : WindowPosition :=
  match self.rightEdge with
  | some rightEdge =>
    match rightEdge.checkedDistance packetNumber with
    | some 0 => .rightEdge
    | some delta => if delta ≥ WINDOW_WIDTH then .left else .within delta
    -- the `expect` cannot fail: the packet number is past the right edge
    | none => .right ((packetNumber.checkedDistance rightEdge).getD 0)
  | none => .empty

def insertWithEvictedInner (self : SlidingWindow) (packetNumber : PacketNumber) :
    SlidingWindow × Except SlidingWindowError EvictedSet :=
  match self.windowPosition packetNumber with
  | .left => (self, .error .tooOld)
  | .rightEdge => (self, .error .duplicate)
  | .right delta =>
    let (window, removed) : BitVec 128 × BitVec 128 :=
      if delta < WINDOW_WIDTH then
        -- keep only the bits that the shift drops
        let removedMask : BitVec 128 :=
          if delta = 128 then BitVec.allOnes 128
          else ~~~(BitVec.allOnes 128 >>> (delta % 128))
        let removed := ~~~self.window &&& removedMask
        -- `checked_shl` fails on a shift by the full width
        let window : BitVec 128 := if delta < 128 then self.window <<< delta else 0
        (window ||| (1#128 <<< (delta - 1)), removed)
      else (0, ~~~self.window)
    match self.rightEdge with
    | some prevRightEdge => (⟨window, some packetNumber⟩, .ok ⟨removed, prevRightEdge⟩)
    -- `right_edge` is set in this branch, so the `assert!(removed == 0)` arm is never taken
    | none => (⟨window, some packetNumber⟩, .ok EvictedSet.default)
  | .within delta =>
    let mask : BitVec 128 := 1#128 <<< (delta - 1)
    let duplicate := self.window &&& mask ≠ 0
    let self' : SlidingWindow := { self with window := self.window ||| mask }
    if duplicate then (self', .error .duplicate) else (self', .ok EvictedSet.default)
  | .empty => ({ self with rightEdge := some packetNumber }, .ok EvictedSet.default)

def insert (self : SlidingWindow) (packetNumber : PacketNumber) :
    SlidingWindow × Except SlidingWindowError Unit :=
  let (self', result) := self.insertWithEvictedInner packetNumber
  (self', result.map fun _ => ())

def check (self : SlidingWindow) (packetNumber : PacketNumber) : Except SlidingWindowError Unit :=
  match self.windowPosition packetNumber with
  | .left => .error .tooOld
  | .rightEdge => .error .duplicate
  | .right _ | .empty => .ok ()
  | .within delta =>
    let mask : BitVec 128 := 1#128 <<< (delta - 1)
    if self.window &&& mask ≠ 0 then .error .duplicate else .ok ()

end SlidingWindow

/-! ## Iterating the evicted set -/

/-- `u128::leading_zeros`. -/
def leadingZeros (w : BitVec 128) : Nat := if w = 0 then 128 else 127 - w.toNat.log2

theorem reverse_shiftLeft {n : Nat} (w : BitVec n) (s : Nat) :
    (w <<< s).reverse = w.reverse >>> s := by
  apply BitVec.eq_of_getLsbD_eq
  intro i _
  rw [BitVec.getLsbD_reverse, BitVec.getMsbD_shiftLeft, BitVec.getLsbD_ushiftRight,
    BitVec.getLsbD_reverse, Nat.add_comm]

theorem toNat_reverse_ne_zero {n : Nat} {w : BitVec n} (hw : w ≠ 0) : w.reverse.toNat ≠ 0 := by
  intro h
  exact hw (BitVec.reverse_eq_zero_iff.mp (BitVec.eq_of_toNat_eq (by simpa using h)))

theorem toNat_reverse_shiftLeft_lt {n : Nat} {w : BitVec n} (hw : w ≠ 0) {s : Nat} (hs : 1 ≤ s) :
    (w <<< s).reverse.toNat < w.reverse.toNat := by
  rw [reverse_shiftLeft, BitVec.toNat_ushiftRight, Nat.shiftRight_eq_div_pow]
  exact Nat.div_lt_self (Nat.pos_of_ne_zero (toNat_reverse_ne_zero hw))
    (Nat.one_lt_two_pow (by omega))

theorem toNat_reverse_shiftOut_lt {w : BitVec 128} (hw : w ≠ 0) {s : Nat} (hs : 1 ≤ s) :
    (if s = 128 then 0 else w <<< s).reverse.toNat < w.reverse.toNat := by
  split_ifs
  · have h0 : (0 : BitVec 128).reverse = 0 := BitVec.reverse_eq_zero_iff.mpr rfl
    rw [h0]
    exact Nat.pos_of_ne_zero (toNat_reverse_ne_zero hw)
  · exact toNat_reverse_shiftLeft_lt hw hs

namespace EvictedSet

/-- `Iterator::next`: the highest set bit is the smallest packet number left. The shadow right
edge moves up until that bit is the one `WINDOW_WIDTH` below it, and the bit leaves the window;
a bit standing below packet number 0 is skipped. `none` is the overflow panic of the `VarInt`
addition. -/
def next (self : EvictedSet) : Option (Option PacketNumber × EvictedSet) :=
  if _hw : self.window = 0 then some (none, self)
  else
    let shift := leadingZeros self.window + 1
    match self.rightEdge.asVarint.checkedAdd (VarInt.fromU32 (UInt32.ofNat shift)) with
    | none => none
    | some edge =>
      let rightEdge := self.rightEdge.space.newPacketNumber edge
      let window : BitVec 128 := if shift = 128 then 0 else self.window <<< shift
      match edge.checkedSub (VarInt.fromU32 (UInt32.ofNat WINDOW_WIDTH)) with
      | some leftEdge =>
        some (some (rightEdge.space.newPacketNumber leftEdge), ⟨window, rightEdge⟩)
      | none => next ⟨window, rightEdge⟩
-- each pass shifts the highest set bit out; the measure is a pair so that reduction does not
-- unfold `next` through a `Nat` fixpoint
termination_by (self.window.reverse.toNat, 0)
decreasing_by exact Prod.Lex.left _ _ (toNat_reverse_shiftOut_lt _hw (by omega))

theorem next_decreases {self rest : EvictedSet} {pn : PacketNumber}
    (h : self.next = some (some pn, rest)) :
    rest.window.reverse.toNat < self.window.reverse.toNat := by
  fun_induction next with
  | case1 => cases h
  | case2 => cases h
  | case3 self hw shift edge _ rightEdge window leftEdge _ =>
    cases h
    exact toNat_reverse_shiftOut_lt hw (by omega)
  | case4 self hw shift edge _ rightEdge window _ ih =>
    exact lt_trans (ih h) (toNat_reverse_shiftOut_lt hw (by omega))

/-- The packet numbers iterating the set yields, in order; `none` if a step panics. -/
def toList (self : EvictedSet) : Option (List PacketNumber) :=
  match _h : self.next with
  | none => none
  | some (none, _) => some []
  | some (some pn, rest) => (toList rest).map (pn :: ·)
termination_by self.window.reverse.toNat
decreasing_by exact next_decreases _h

end EvictedSet

namespace SlidingWindow

/-- `insert_with_evicted`; the `check_insert_result` of debug builds only asserts. -/
def insertWithEvicted (self : SlidingWindow) (packetNumber : PacketNumber) :
    SlidingWindow × Except SlidingWindowError EvictedSet :=
  self.insertWithEvictedInner packetNumber

/-! ## Positions and bits -/

variable {self : SlidingWindow} {pn r : PacketNumber}

theorem windowPosition_of_edge (h : self.rightEdge = some r) :
    self.windowPosition pn =
      if pn.asU64 ≤ r.asU64 then
        if r.asU64 = pn.asU64 then .rightEdge
        else if WINDOW_WIDTH ≤ r.asU64 - pn.asU64 then .left else .within (r.asU64 - pn.asU64)
      else .right (pn.asU64 - r.asU64) := by
  unfold windowPosition
  rw [h]
  dsimp only
  by_cases hle : pn.asU64 ≤ r.asU64
  · rw [if_pos hle]
    simp only [PacketNumber.checkedDistance, if_pos hle]
    by_cases heq : r.asU64 = pn.asU64
    · simp [heq]
    · rw [if_neg heq]
      obtain ⟨k, hk⟩ : ∃ k, r.asU64 - pn.asU64 = k + 1 := ⟨r.asU64 - pn.asU64 - 1, by omega⟩
      rw [hk]
      rfl
  · rw [if_neg hle]
    simp [PacketNumber.checkedDistance, hle, show r.asU64 ≤ pn.asU64 by omega]

theorem and_mask_ne_zero (x : BitVec 128) {k : Nat} (hk : k < 128) :
    x &&& (1#128 <<< k) ≠ 0 ↔ x.getLsbD k = true := by
  rw [← BitVec.twoPow_eq, BitVec.and_twoPow]
  have hne : BitVec.twoPow 128 k ≠ 0#128 := by
    intro h
    have := congrArg (fun b => b.getLsbD k) h
    simp [hk] at this
  cases hx : x.getLsbD k <;> simp [hne]

theorem getLsbD_or_mask (x : BitVec 128) {k d : Nat} (hd : d < 128) :
    (x ||| (1#128 <<< k)).getLsbD d = (x.getLsbD d || decide (d = k)) := by
  simp only [BitVec.getLsbD_or, BitVec.getLsbD_shiftLeft, BitVec.getLsbD_one]
  by_cases hdk : d = k <;> simp [hdk, hd] <;> omega

theorem or_mask_of_getLsbD {x : BitVec 128} {k : Nat} (h : x.getLsbD k = true) :
    x ||| (1#128 <<< k) = x := by
  apply BitVec.eq_of_getLsbD_eq
  intro j hj
  rw [getLsbD_or_mask _ hj]
  by_cases hjk : j = k
  · subst hjk
    simp [h]
  · simp [hjk]

theorem getLsbD_slide (x : BitVec 128) {delta d : Nat} (h₁ : 1 ≤ delta) (h₂ : delta ≤ 128)
    (hd : d < 128) :
    ((if delta < 128 then x <<< delta else 0) ||| (1#128 <<< (delta - 1))).getLsbD d =
      ((decide (delta ≤ d) && x.getLsbD (d - delta)) || decide (d = delta - 1)) := by
  rw [getLsbD_or_mask _ hd]
  split_ifs with h
  · simp only [BitVec.getLsbD_shiftLeft, hd, decide_true, Bool.true_and]
    by_cases hdd : delta ≤ d
    · simp [hdd, show ¬ d < delta by omega]
    · simp [hdd, show d < delta by omega]
  · -- a slide by the full width keeps only the old right edge
    have : ¬ delta ≤ d := by omega
    simp [this]

theorem check_eq_insert (self : SlidingWindow) (pn : PacketNumber) :
    self.check pn = (self.insert pn).2 := by
  unfold check insert insertWithEvictedInner
  cases self.windowPosition pn with
  | left | rightEdge | empty => rfl
  | right delta =>
    dsimp only
    cases self.rightEdge <;> rfl
  | within delta =>
    dsimp only
    split_ifs <;> rfl

/-! ## One insertion, by the position of the packet number -/

theorem insert_of_empty (h : self.rightEdge = none) :
    self.insert pn = ({ self with rightEdge := some pn }, .ok ()) := by
  simp [insert, insertWithEvictedInner, windowPosition, h, Except.map]

theorem insert_of_rightEdge (h : self.rightEdge = some r) (he : r.asU64 = pn.asU64) :
    self.insert pn = (self, .error .duplicate) := by
  simp [insert, insertWithEvictedInner, windowPosition_of_edge h, he, Except.map]

theorem insert_of_left (h : self.rightEdge = some r) (hl : pn.asU64 + WINDOW_WIDTH ≤ r.asU64) :
    self.insert pn = (self, .error .tooOld) := by
  have hW : 0 < WINDOW_WIDTH := by decide
  simp [insert, insertWithEvictedInner, windowPosition_of_edge h, show pn.asU64 ≤ r.asU64 by omega,
    show r.asU64 ≠ pn.asU64 by omega, show WINDOW_WIDTH ≤ r.asU64 - pn.asU64 by omega, Except.map]

theorem insert_of_within (h : self.rightEdge = some r) (h₁ : pn.asU64 < r.asU64)
    (h₂ : r.asU64 < pn.asU64 + WINDOW_WIDTH) :
    self.insert pn =
      if self.window.getLsbD (r.asU64 - pn.asU64 - 1) then (self, .error .duplicate)
      else (⟨self.window ||| (1#128 <<< (r.asU64 - pn.asU64 - 1)), self.rightEdge⟩, .ok ()) := by
  have hk : r.asU64 - pn.asU64 - 1 < 128 := by unfold WINDOW_WIDTH at h₂; omega
  simp only [insert, insertWithEvictedInner, windowPosition_of_edge h, if_pos h₁.le,
    if_neg (show r.asU64 ≠ pn.asU64 by omega), if_neg (show ¬ WINDOW_WIDTH ≤ r.asU64 - pn.asU64 by omega)]
  by_cases hb : self.window.getLsbD (r.asU64 - pn.asU64 - 1) = true
  · -- the bit is already set, so setting it again changes nothing
    rw [if_pos ((and_mask_ne_zero _ hk).mpr hb), if_pos hb, or_mask_of_getLsbD hb]
    rfl
  · rw [if_neg (fun hne => hb ((and_mask_ne_zero _ hk).mp hne)), if_neg hb]
    rfl

theorem insert_of_right (h : self.rightEdge = some r) (hlt : r.asU64 < pn.asU64) :
    self.insert pn =
      (⟨if pn.asU64 - r.asU64 < WINDOW_WIDTH then
          (if pn.asU64 - r.asU64 < 128 then self.window <<< (pn.asU64 - r.asU64) else 0) |||
            (1#128 <<< (pn.asU64 - r.asU64 - 1))
        else 0, some pn⟩, .ok ()) := by
  simp only [insert, insertWithEvictedInner, windowPosition_of_edge h,
    if_neg (show ¬ pn.asU64 ≤ r.asU64 by omega), h]
  split_ifs <;> rfl

/-! ## The window records the accepted packet numbers -/

/-- What the packet numbers accepted so far dictate: too old at `WINDOW_WIDTH` or more below the
largest, a duplicate when accepted before, accepted otherwise. -/
def expected (accepted : Finset Nat) (pn : Nat) : Except SlidingWindowError Unit :=
  if h : accepted.Nonempty then
    if pn + WINDOW_WIDTH ≤ accepted.max' h then .error .tooOld
    else if pn ∈ accepted then .error .duplicate else .ok ()
  else .ok ()

def accept (accepted : Finset Nat) (pn : Nat) : Except SlidingWindowError Unit → Finset Nat
  | .ok _ => Insert.insert pn accepted
  | .error _ => accepted

/-- Before the first packet number nothing is accepted; afterwards the right edge is the largest
accepted one, and bit `d` of the window records the one `d + 1` below it. -/
def Represents (self : SlidingWindow) (accepted : Finset Nat) : Prop :=
  match self.rightEdge with
  | none => accepted = ∅ ∧ self.window = 0
  | some r => r.asU64 ∈ accepted ∧ (∀ v ∈ accepted, v ≤ r.asU64) ∧
      ∀ d < 128, (self.window.getLsbD d = true ↔ d + 1 ≤ r.asU64 ∧ r.asU64 - (d + 1) ∈ accepted)

theorem represents_default : default.Represents ∅ := ⟨rfl, rfl⟩

variable {A : Finset Nat}

theorem expected_of_edge {e : Nat} (hmem : e ∈ A) (hmax : ∀ v ∈ A, v ≤ e) (p : Nat) :
    expected A p =
      if p + WINDOW_WIDTH ≤ e then .error .tooOld
      else if p ∈ A then .error .duplicate else .ok () := by
  have hne : A.Nonempty := ⟨e, hmem⟩
  have hmax' : A.max' hne = e := le_antisymm (A.max'_le hne e hmax) (A.le_max' e hmem)
  rw [expected, dif_pos hne, hmax']

theorem bits_slide {w : BitVec 128} {e p : Nat} (hmem : e ∈ A) (hmax : ∀ v ∈ A, v ≤ e)
    (hbits : ∀ d < 128, (w.getLsbD d = true ↔ d + 1 ≤ e ∧ e - (d + 1) ∈ A)) (hlt : e < p) :
    ∀ d < 128, ((if p - e < WINDOW_WIDTH then
          (if p - e < 128 then w <<< (p - e) else 0) ||| (1#128 <<< (p - e - 1))
        else 0).getLsbD d = true ↔ d + 1 ≤ p ∧ p - (d + 1) ∈ Insert.insert p A) := by
  intro d hd
  have habove : ∀ v, e < v → v ∉ A := fun v hv hA => absurd (hmax v hA) (by omega)
  simp only [Finset.mem_insert]
  by_cases hW : p - e < WINDOW_WIDTH
  · rw [if_pos hW, getLsbD_slide w (by omega) (by unfold WINDOW_WIDTH at hW; omega) hd]
    simp only [Bool.or_eq_true, Bool.and_eq_true, decide_eq_true_eq]
    by_cases hd₁ : d = p - e - 1
    · subst hd₁
      have : p - (p - e - 1 + 1) = e := by omega
      simp only [this, or_true, true_iff]
      exact ⟨by omega, .inr hmem⟩
    by_cases hd₂ : p - e ≤ d
    · -- an old bit, moved up by the slide
      have hv : e - (d - (p - e) + 1) = p - (d + 1) := by omega
      rw [hbits (d - (p - e)) (by omega), hv]
      constructor
      · rintro (⟨-, h₁, h₂⟩ | h)
        · exact ⟨by omega, .inr h₂⟩
        · omega
      · rintro ⟨h₁, h | h⟩
        · omega
        · exact .inl ⟨hd₂, by omega, h⟩
    · -- between the old and the new edge nothing was accepted
      simp only [hd₂, false_and, hd₁, or_self, false_iff, not_and, not_or]
      exact fun _ => ⟨by omega, habove _ (by omega)⟩
  · -- a slide past the whole window clears it
    have hz : (0 : BitVec 128).getLsbD d = false := by simp
    rw [if_neg hW, hz]
    simp only [Bool.false_eq_true, false_iff, not_and, not_or]
    exact fun _ => ⟨by omega, habove _ (by unfold WINDOW_WIDTH at hW; omega)⟩

theorem bits_mark {w : BitVec 128} {e p : Nat}
    (hbits : ∀ d < 128, (w.getLsbD d = true ↔ d + 1 ≤ e ∧ e - (d + 1) ∈ A)) (hlt : p < e) :
    ∀ d < 128, ((w ||| (1#128 <<< (e - p - 1))).getLsbD d = true ↔
      d + 1 ≤ e ∧ e - (d + 1) ∈ Insert.insert p A) := by
  intro d hd
  rw [getLsbD_or_mask w hd, Bool.or_eq_true, hbits d hd, Finset.mem_insert, decide_eq_true_eq]
  constructor
  · rintro (⟨h₁, h₂⟩ | h)
    · exact ⟨h₁, .inr h₂⟩
    · exact ⟨by omega, .inl (by omega)⟩
  · rintro ⟨h₁, h | h⟩
    · exact .inr (by omega)
    · exact .inl ⟨h₁, h⟩

theorem represents_of_edge (hr : self.rightEdge = some r) :
    self.Represents A ↔ r.asU64 ∈ A ∧ (∀ v ∈ A, v ≤ r.asU64) ∧
      ∀ d < 128, (self.window.getLsbD d = true ↔ d + 1 ≤ r.asU64 ∧ r.asU64 - (d + 1) ∈ A) := by
  unfold Represents
  rw [hr]

theorem represents_mk (w : BitVec 128) (r : PacketNumber) :
    (SlidingWindow.mk w (some r)).Represents A ↔ r.asU64 ∈ A ∧ (∀ v ∈ A, v ≤ r.asU64) ∧
      ∀ d < 128, (w.getLsbD d = true ↔ d + 1 ≤ r.asU64 ∧ r.asU64 - (d + 1) ∈ A) :=
  Iff.rfl

theorem Represents.insert (h : self.Represents A) (pn : PacketNumber) :
    (self.insert pn).2 = expected A pn.asU64 ∧
      (self.insert pn).1.Represents (accept A pn.asU64 (self.insert pn).2) ∧
      (∀ e, (self.insert pn).2 = .error e → (self.insert pn).1 = self) := by
  cases hr : self.rightEdge with
  | none =>
    obtain ⟨rfl, hw⟩ : A = ∅ ∧ self.window = 0 := by unfold Represents at h; rwa [hr] at h
    rw [insert_of_empty hr]
    refine ⟨by simp [expected], (represents_mk _ _).mpr ⟨Finset.mem_insert_self _ _,
      by simp [accept], fun d hd => ?_⟩, fun _ he => nomatch he⟩
    have hz : self.window.getLsbD d = false := by simp [hw]
    rw [hz]
    simp only [accept, Finset.mem_insert, Finset.notMem_empty, or_false, Bool.false_eq_true,
      false_iff, not_and]
    omega
  | some r =>
    obtain ⟨hmem, hmax, hbits⟩ := (represents_of_edge hr).mp h
    rw [expected_of_edge hmem hmax]
    rcases Nat.lt_or_ge r.asU64 pn.asU64 with hlt | hge
    · -- past the right edge: the window slides
      have hnot : pn.asU64 ∉ A := fun hp => absurd (hmax _ hp) (by omega)
      rw [insert_of_right hr hlt, if_neg (show ¬ pn.asU64 + WINDOW_WIDTH ≤ r.asU64 by omega),
        if_neg hnot]
      refine ⟨rfl, (represents_mk _ _).mpr ⟨Finset.mem_insert_self _ _, fun v hv => ?_,
        bits_slide hmem hmax hbits hlt⟩, fun _ he => nomatch he⟩
      rcases Finset.mem_insert.mp hv with rfl | hv
      · exact le_rfl
      · exact (hmax v hv).trans hlt.le
    rcases Nat.lt_or_ge pn.asU64 r.asU64 with hlt | hle
    · by_cases hold : pn.asU64 + WINDOW_WIDTH ≤ r.asU64
      · rw [insert_of_left hr hold, if_pos hold]
        exact ⟨rfl, h, fun _ _ => rfl⟩
      rw [insert_of_within hr hlt (by omega), if_neg hold]
      have hbit := hbits (r.asU64 - pn.asU64 - 1) (by unfold WINDOW_WIDTH at hold; omega)
      rw [show r.asU64 - (r.asU64 - pn.asU64 - 1 + 1) = pn.asU64 by omega] at hbit
      by_cases hp : pn.asU64 ∈ A
      · rw [if_pos (hbit.mpr ⟨by omega, hp⟩), if_pos hp]
        exact ⟨rfl, h, fun _ _ => rfl⟩
      · rw [if_neg (fun hb => hp (hbit.mp hb).2), if_neg hp, hr]
        refine ⟨rfl, (represents_mk _ _).mpr ⟨Finset.mem_insert_of_mem hmem,
          fun v hv => ?_, bits_mark hbits hlt⟩, fun _ he => nomatch he⟩
        rcases Finset.mem_insert.mp hv with rfl | hv
        · exact hlt.le
        · exact hmax v hv
    · -- the right edge itself
      have he : r.asU64 = pn.asU64 := by omega
      rw [insert_of_rightEdge hr he,
        if_neg (show ¬ pn.asU64 + WINDOW_WIDTH ≤ r.asU64 by unfold WINDOW_WIDTH; omega),
        if_pos (he ▸ hmem)]
      exact ⟨rfl, h, fun _ _ => rfl⟩

/-! ## Runs of insertions -/

/-- `insert` over a sequence of packet numbers: the window after, and the values of the packet
numbers it accepted, in order. -/
def insertAll (self : SlidingWindow) : List PacketNumber → SlidingWindow × List Nat
  | [] => (self, [])
  | pn :: pns =>
    let (self', result) := self.insert pn
    let (self'', accepted) := self'.insertAll pns
    (self'', match result with
      | .ok _ => pn.asU64 :: accepted
      | .error _ => accepted)

theorem Represents.insertAll : ∀ {self : SlidingWindow} {A : Finset Nat} (pns : List PacketNumber),
    self.Represents A →
      (self.insertAll pns).1.Represents (A ∪ (self.insertAll pns).2.toFinset) ∧
        (∀ v ∈ (self.insertAll pns).2, v ∉ A) ∧ (self.insertAll pns).2.Nodup
  | _, _, [], h => by simpa [SlidingWindow.insertAll] using h
  | self, A, pn :: pns, h => by
    obtain ⟨hres, h', -⟩ := h.insert pn
    simp only [SlidingWindow.insertAll]
    cases hr : (self.insert pn).2 with
    | ok u =>
      rw [hr] at hres h'
      have hnew : pn.asU64 ∉ A := by
        intro hp
        unfold expected at hres
        split_ifs at hres with hne
        exact hne ⟨_, hp⟩
      obtain ⟨hrun, hfresh, hnodup⟩ := Represents.insertAll pns h'
      refine ⟨?_, ?_, ?_⟩
      · simpa [accept, Finset.insert_union, Finset.union_insert] using hrun
      · intro v hv
        rcases List.mem_cons.mp hv with rfl | hv
        · exact hnew
        · exact fun hA => hfresh v hv (Finset.mem_insert_of_mem hA)
      · exact List.nodup_cons.mpr ⟨fun hp => hfresh _ hp (Finset.mem_insert_self _ _), hnodup⟩
    | error e =>
      rw [hr] at h'
      exact Represents.insertAll pns h'

/-- After any run of insertions from an empty window, `insert` answers what the packet numbers
accepted in the run dictate (too old at 129 or more below the largest, a duplicate when accepted
before, accepted otherwise), `check` predicts it, a refusal changes nothing, and the run accepted
no packet number twice. -/
theorem insert_answers_expected (history : List PacketNumber) (pn : PacketNumber) :
    let run : SlidingWindow × List Nat := default.insertAll history
    let accepted := run.2.toFinset
    (run.1.insert pn).2 = expected accepted pn.asU64 ∧ run.1.check pn = (run.1.insert pn).2 ∧
      (∀ e, (run.1.insert pn).2 = .error e → (run.1.insert pn).1 = run.1) ∧ run.2.Nodup := by
  obtain ⟨h, -, hnodup⟩ := represents_default.insertAll history
  rw [Finset.empty_union] at h
  obtain ⟨hres, -, hunchanged⟩ := h.insert pn
  exact ⟨hres, check_eq_insert _ pn, hunchanged, hnodup⟩

end SlidingWindow

/-! ## What an insertion evicts -/

namespace EvictedSet

/-- Bit `i` of the window stands for the packet number `i + 1` below the shadow right edge. -/
def Mem (self : EvictedSet) (q : Nat) : Prop :=
  ∃ i < 128, self.window.getLsbD i = true ∧ q + i + 1 = self.rightEdge.asU64

def Fits (self : EvictedSet) : Prop :=
  ∀ i < 128, self.window.getLsbD i = true → self.rightEdge.asU64 + 128 - i ≤ maxVarintValue

theorem highest_bit {w : BitVec 128} (hw : w ≠ 0) :
    leadingZeros w + 1 = 128 - w.toNat.log2 ∧ w.toNat.log2 < 128 ∧
      w.getLsbD w.toNat.log2 = true ∧ ∀ i, w.toNat.log2 < i → w.getLsbD i = false := by
  have hne : w.toNat ≠ 0 := fun h => hw (BitVec.eq_of_toNat_eq (by simpa using h))
  have hlt : w.toNat.log2 < 128 := (Nat.log2_lt hne).mpr w.isLt
  refine ⟨by unfold leadingZeros; rw [if_neg hw]; omega, hlt, ?_, fun i hi => ?_⟩
  · rw [← BitVec.testBit_toNat]
    exact Nat.testBit_log2 hne
  · rw [← BitVec.testBit_toNat]
    exact Nat.testBit_lt_two_pow
      (lt_of_lt_of_le Nat.lt_log2_self (Nat.pow_le_pow_right (by omega) hi))

theorem getLsbD_shiftOut (w : BitVec 128) {s j : Nat} (hj : j < 128) :
    (if s = 128 then 0 else w <<< s).getLsbD j = (decide (s ≤ j) && w.getLsbD (j - s)) := by
  split_ifs with hs
  · simp [hs, show ¬ 128 ≤ j by omega]
  · rw [BitVec.getLsbD_shiftLeft]
    by_cases hsj : s ≤ j
    · simp [hj, hsj, Nat.not_lt.mpr hsj]
    · simp [hsj, Nat.lt_of_not_le hsj]

theorem mem_shiftOut {w : BitVec 128} (hw : w ≠ 0) (re q : Nat) :
    (∃ j < 128, (if 128 - w.toNat.log2 = 128 then 0 else w <<< (128 - w.toNat.log2)).getLsbD j =
        true ∧ q + j + 1 = re + (128 - w.toNat.log2)) ↔
      (∃ i < 128, w.getLsbD i = true ∧ q + i + 1 = re) ∧ q + w.toNat.log2 + 1 ≠ re := by
  obtain ⟨-, hlt, -, habove⟩ := highest_bit hw
  constructor
  · rintro ⟨j, hj, hb, heq⟩
    rw [getLsbD_shiftOut w hj, Bool.and_eq_true, decide_eq_true_eq] at hb
    exact ⟨⟨j - (128 - w.toNat.log2), by omega, hb.2, by omega⟩, by omega⟩
  · rintro ⟨⟨i, hi, hb, heq⟩, hne⟩
    have hih : i < w.toNat.log2 := by
      rcases Nat.lt_or_ge w.toNat.log2 i with h | h
      · rw [habove i h] at hb; cases hb
      · omega
    refine ⟨i + (128 - w.toNat.log2), by omega, ?_, by omega⟩
    rw [getLsbD_shiftOut w (by omega), Nat.add_sub_cancel, hb]
    simp

theorem fits_shiftOut {self : EvictedSet} (hfits : self.Fits) {edge : VarInt}
    (hedge : edge.val = self.rightEdge.asU64 + (128 - self.window.toNat.log2)) :
    (⟨if 128 - self.window.toNat.log2 = 128 then 0
        else self.window <<< (128 - self.window.toNat.log2),
      self.rightEdge.space.newPacketNumber edge⟩ : EvictedSet).Fits := by
  intro j hj hb
  rw [getLsbD_shiftOut _ hj, Bool.and_eq_true, decide_eq_true_eq] at hb
  have := hfits (j - (128 - self.window.toNat.log2)) (by omega) hb.2
  show edge.val + 128 - j ≤ maxVarintValue
  omega

theorem pass_edge {self : EvictedSet} (hw : ¬self.window = 0) (hfits : self.Fits) :
    ∃ edge : VarInt, self.rightEdge.asVarint.checkedAdd
        (VarInt.fromU32 (UInt32.ofNat (leadingZeros self.window + 1))) = some edge ∧
      edge.val = self.rightEdge.asU64 + (128 - self.window.toNat.log2) := by
  obtain ⟨hs, hlt, hbit, -⟩ := highest_bit hw
  have hroom := hfits _ hlt hbit
  have hval : (VarInt.fromU32 (UInt32.ofNat (leadingZeros self.window + 1))).val =
      128 - self.window.toNat.log2 := by
    have hsize : UInt32.size = 2 ^ 32 := rfl
    rw [VarInt.fromU32_val, UInt32.toNat_ofNat_of_lt' (by omega), hs]
  have hsum : self.rightEdge.asVarint.val + (VarInt.fromU32
      (UInt32.ofNat (leadingZeros self.window + 1))).val ≤ maxVarintValue := by
    rw [hval]
    exact le_of_eq_of_le (by unfold PacketNumber.asVarint PacketNumber.asU64 at *; omega) hroom
  refine ⟨_, VarInt.checkedAdd_of_le hsum, ?_⟩
  show self.rightEdge.asVarint.val + _ = _
  rw [hval]
  rfl

theorem pass_rest {self : EvictedSet} (hw : ¬self.window = 0) (hfits : self.Fits) {edge : VarInt}
    (hedge : edge.val = self.rightEdge.asU64 + (128 - self.window.toNat.log2)) :
    let rest : EvictedSet := ⟨if leadingZeros self.window + 1 = 128 then 0
        else self.window <<< (leadingZeros self.window + 1),
      self.rightEdge.space.newPacketNumber edge⟩
    rest.Fits ∧
      ∀ q, rest.Mem q ↔ self.Mem q ∧ q + self.window.toNat.log2 + 1 ≠ self.rightEdge.asU64 := by
  intro rest
  simp only [rest, (highest_bit hw).1]
  refine ⟨fits_shiftOut hfits hedge, fun q => ?_⟩
  have hmem := mem_shiftOut hw self.rightEdge.asU64 q
  rw [← hedge] at hmem
  exact hmem

theorem next_spec (self : EvictedSet) : self.Fits →
    (∃ rest, self.next = some (none, rest) ∧ ∀ q, ¬ self.Mem q) ∨
    ∃ pn rest, self.next = some (some pn, rest) ∧ pn.space = self.rightEdge.space ∧
      self.Mem pn.asU64 ∧ (∀ q, self.Mem q → pn.asU64 ≤ q) ∧
      rest.rightEdge.space = self.rightEdge.space ∧ rest.Fits ∧
      ∀ q, rest.Mem q ↔ self.Mem q ∧ q ≠ pn.asU64 := by
  have hW : (VarInt.fromU32 (UInt32.ofNat WINDOW_WIDTH)).val = 129 := rfl
  fun_induction next with
  | case1 self hw =>
    intro _
    refine .inl ⟨self, rfl, fun q ⟨i, hi, hb, _⟩ => ?_⟩
    rw [hw] at hb
    simp at hb
  | case2 self hw shift hadd =>
    intro hfits
    obtain ⟨edge, hadd', -⟩ := pass_edge hw hfits
    exact absurd (hadd.symm.trans hadd') (by simp)
  | case3 self hw shift edge hadd rightEdge window leftEdge hsub =>
    intro hfits
    obtain ⟨edge', hadd', hedge⟩ := pass_edge hw hfits
    obtain rfl : edge = edge' := Option.some.inj (hadd.symm.trans hadd')
    obtain ⟨hle, hleft⟩ := VarInt.checkedSub_eq_some.mp hsub
    obtain ⟨hrfits, hrmem⟩ := pass_rest hw hfits hedge
    obtain ⟨-, hlt, hbit, habove⟩ := highest_bit hw
    rw [hW] at hle hleft
    have hpn : leftEdge.val + self.window.toNat.log2 + 1 = self.rightEdge.asU64 := by omega
    refine .inr ⟨_, _, rfl, rfl, ⟨_, hlt, hbit, hpn⟩, fun q ⟨i, hi, hb, heq⟩ => ?_, rfl, hrfits,
      fun q => ?_⟩
    · have hih : i ≤ self.window.toNat.log2 := by
        rcases Nat.lt_or_ge self.window.toNat.log2 i with h | h
        · rw [habove i h] at hb; cases hb
        · exact h
      show leftEdge.val ≤ q
      omega
    · refine (hrmem q).trans ?_
      show _ ↔ _ ∧ q ≠ leftEdge.val
      constructor <;> rintro ⟨hm, hne⟩ <;> exact ⟨hm, by omega⟩
  | case4 self hw shift edge hadd rightEdge window hsub ih =>
    intro hfits
    obtain ⟨edge', hadd', hedge⟩ := pass_edge hw hfits
    obtain rfl : edge = edge' := Option.some.inj (hadd.symm.trans hadd')
    have hlow := VarInt.checkedSub_eq_none.mp hsub
    obtain ⟨hrfits, hrmem⟩ := pass_rest hw hfits hedge
    rw [hW] at hlow
    have hsame : ∀ q, (⟨window, rightEdge⟩ : EvictedSet).Mem q ↔ self.Mem q := fun q =>
      (hrmem q).trans ⟨And.left, fun hm => ⟨hm, by omega⟩⟩
    rcases ih hrfits with ⟨rest, hnext, hnone⟩ | ⟨pn, rest, hnext, hsp, hm, hmin, hrsp, hf, hmem⟩
    · exact .inl ⟨rest, hnext, fun q hq => hnone q ((hsame q).mpr hq)⟩
    · refine .inr ⟨pn, rest, hnext, hsp, (hsame _).mp hm, fun q hq => hmin q ((hsame q).mpr hq),
        hrsp, hf, fun q => ?_⟩
      rw [hmem, hsame]

theorem toList_spec (self : EvictedSet) : self.Fits →
    ∃ L, self.toList = some L ∧ (L.map PacketNumber.asU64).Pairwise (· < ·) ∧
      ∀ q : PacketNumber, q ∈ L ↔ q.space = self.rightEdge.space ∧ self.Mem q.asU64 := by
  fun_induction toList with
  | case1 self hnext =>
    intro hfits
    rcases next_spec self hfits with ⟨_, h, _⟩ | ⟨_, _, h, _⟩ <;> rw [hnext] at h <;> cases h
  | case2 self rest hnext =>
    intro hfits
    rcases next_spec self hfits with ⟨_, _, hnone⟩ | ⟨_, _, h, _⟩
    · exact ⟨[], rfl, List.Pairwise.nil, fun q => by simp [hnone]⟩
    · rw [hnext] at h
      cases h
  | case3 self pn rest hnext ih =>
    intro hfits
    rcases next_spec self hfits with ⟨_, h, _⟩ | ⟨pn', rest', h, hsp, hm, hmin, hrsp, hf, hmem⟩
    · rw [hnext] at h
      cases h
    rw [hnext] at h
    obtain ⟨rfl, rfl⟩ : pn = pn' ∧ rest = rest' := by simpa using h
    obtain ⟨L, hL, hsorted, hmemL⟩ := ih hf
    refine ⟨pn :: L, by rw [hL]; rfl, ?_, fun q => ?_⟩
    · -- every later packet number is above `pn`
      refine List.pairwise_cons.mpr ⟨fun b hb => ?_, hsorted⟩
      obtain ⟨q, hq, rfl⟩ := List.mem_map.mp hb
      obtain ⟨hqm, hne⟩ := (hmem _).mp ((hmemL q).mp hq).2
      exact lt_of_le_of_ne (hmin _ hqm) (Ne.symm hne)
    · rw [List.mem_cons]
      constructor
      · rintro (rfl | hq)
        · exact ⟨hsp, hm⟩
        · obtain ⟨hqs, hqm⟩ := (hmemL q).mp hq
          exact ⟨hqs.trans hrsp, ((hmem _).mp hqm).1⟩
      · rintro ⟨hqs, hqm⟩
        by_cases hq : q.asU64 = pn.asU64
        · exact .inl (PacketNumber.ext_asU64 (hqs.trans hsp.symm) hq)
        · exact .inr ((hmemL q).mpr ⟨hqs.trans hrsp.symm, (hmem _).mpr ⟨hqm, hq⟩⟩)

theorem toList_default : EvictedSet.default.toList = some [] := by
  have hfits : EvictedSet.default.Fits := fun i _ hb => by simp [EvictedSet.default] at hb
  obtain ⟨L, hL, -, hmem⟩ := toList_spec _ hfits
  have hnil : L = [] := List.eq_nil_iff_forall_not_mem.mpr fun q hq => by
    obtain ⟨i, -, hb, -⟩ := ((hmem q).mp hq).2
    simp [EvictedSet.default] at hb
  rw [hL, hnil]

end EvictedSet

namespace SlidingWindow

variable {self : SlidingWindow} {pn q r : PacketNumber}

theorem insert_eq (self : SlidingWindow) (pn : PacketNumber) :
    self.insert pn = ((self.insertWithEvicted pn).1,
      (self.insertWithEvicted pn).2.map fun _ => ()) := rfl

theorem check_of_lt (h : self.rightEdge = some r) (hlt : q.asU64 < r.asU64) :
    self.check q = if WINDOW_WIDTH ≤ r.asU64 - q.asU64 then .error .tooOld
      else if self.window.getLsbD (r.asU64 - q.asU64 - 1) then .error .duplicate else .ok () := by
  rw [check_eq_insert]
  by_cases hold : WINDOW_WIDTH ≤ r.asU64 - q.asU64
  · rw [insert_of_left h (by omega), if_pos hold]
  · rw [insert_of_within h hlt (by omega), if_neg hold]
    split_ifs <;> rfl

theorem check_eq_tooOld (h : self.rightEdge = some r) :
    self.check q = .error .tooOld ↔ q.asU64 + WINDOW_WIDTH ≤ r.asU64 := by
  rw [check_eq_insert]
  rcases Nat.lt_or_ge r.asU64 q.asU64 with hlt | hge
  · rw [insert_of_right h hlt]
    simp only [reduceCtorEq, false_iff, not_le]
    omega
  rcases Nat.lt_or_ge q.asU64 r.asU64 with hlt | hle
  · by_cases hold : q.asU64 + WINDOW_WIDTH ≤ r.asU64
    · rw [insert_of_left h hold]
      simp [hold]
    · rw [insert_of_within h hlt (by omega)]
      split_ifs <;> simp [hold]
  · rw [insert_of_rightEdge h (by omega)]
    simp only [Except.error.injEq, reduceCtorEq, false_iff, not_le]
    unfold WINDOW_WIDTH
    omega

theorem evicted_of_le (h : self.rightEdge = some r) (hle : pn.asU64 ≤ r.asU64) {E : EvictedSet}
    (hE : (self.insertWithEvicted pn).2 = .ok E) : E = EvictedSet.default := by
  simp only [insertWithEvicted, insertWithEvictedInner, windowPosition_of_edge h, if_pos hle]
    at hE
  -- the branches at the edge and below the window answer errors; inside it, the empty set
  split_ifs at hE
  dsimp only at hE
  split_ifs at hE
  exact (Except.ok.inj hE).symm

theorem insertWithEvicted_of_right (h : self.rightEdge = some r) (hlt : r.asU64 < pn.asU64) :
    (self.insertWithEvicted pn).1.rightEdge = some pn ∧
      ∃ removed : BitVec 128, (self.insertWithEvicted pn).2 = .ok ⟨removed, r⟩ ∧
        ∀ i < 128, removed.getLsbD i =
          (!self.window.getLsbD i && decide (128 ≤ i + (pn.asU64 - r.asU64))) := by
  simp only [insertWithEvicted, insertWithEvictedInner, windowPosition_of_edge h,
    if_neg (show ¬ pn.asU64 ≤ r.asU64 by omega), h]
  refine ⟨trivial, _, rfl, fun i hi => ?_⟩
  rw [apply_ite Prod.snd]
  by_cases hW : pn.asU64 - r.asU64 < WINDOW_WIDTH
  · rw [if_pos hW]
    unfold WINDOW_WIDTH at hW
    by_cases h128 : pn.asU64 - r.asU64 = 128
    · -- a slide by 128 evicts every clear bit
      simp only [h128, if_true, BitVec.getLsbD_and, BitVec.getLsbD_not, BitVec.getLsbD_allOnes,
        hi, decide_true, Bool.true_and, Bool.and_true]
      rw [decide_eq_true (by omega), Bool.and_true]
    · rw [if_neg h128]
      simp only [BitVec.getLsbD_and, BitVec.getLsbD_not, BitVec.getLsbD_ushiftRight,
        BitVec.getLsbD_allOnes, hi, decide_true, Bool.true_and,
        Nat.mod_eq_of_lt (show pn.asU64 - r.asU64 < 128 by omega)]
      by_cases hdi : pn.asU64 - r.asU64 + i < 128 <;> simp [hdi] <;> omega
  · -- a slide past the whole window evicts every clear bit
    rw [if_neg hW]
    unfold WINDOW_WIDTH at hW
    simp only [BitVec.getLsbD_not, hi, decide_true, Bool.true_and]
    rw [decide_eq_true (show 128 ≤ i + (pn.asU64 - r.asU64) by omega), Bool.and_true]

theorem rightEdge_insert_of_le (h : self.rightEdge = some r) (hle : pn.asU64 ≤ r.asU64)
    (hok : (self.insert pn).2 = .ok ()) : (self.insert pn).1.rightEdge = some r := by
  rcases Nat.lt_or_ge pn.asU64 r.asU64 with hlt | hge
  · by_cases hold : pn.asU64 + WINDOW_WIDTH ≤ r.asU64
    · rw [insert_of_left h hold] at hok
      cases hok
    · rw [insert_of_within h hlt (by omega)] at hok ⊢
      split_ifs at hok ⊢
      exact h
  · rw [insert_of_rightEdge h (by omega)] at hok
    cases hok

/-- `insert_with_evicted` yields, in ascending order, exactly the packet numbers that the window
knew as not received and that the insertion makes too old: those at most `WINDOW_WIDTH` below
the old right edge whose `check` was `Ok` before and is `TooOld` after. -/
theorem insertWithEvicted_evicts_slid_past (S : SlidingWindow) (pn : PacketNumber) (E : EvictedSet)
    (h : (S.insertWithEvicted pn).2 = .ok E) :
    ∃ L, E.toList = some L ∧ (L.map PacketNumber.asU64).Pairwise (· < ·) ∧
      (S.rightEdge = none → L = []) ∧
      ∀ r, S.rightEdge = some r → ∀ q : PacketNumber, q ∈ L ↔
        q.space = r.space ∧ r.asU64 ≤ q.asU64 + WINDOW_WIDTH ∧ q.asU64 < r.asU64 ∧
          S.check q = .ok () ∧ (S.insertWithEvicted pn).1.check q = .error .tooOld := by
  have hins : (S.insert pn).2 = .ok () := by rw [insert_eq, h]; rfl
  cases hr : S.rightEdge with
  | none =>
    have hE : E = EvictedSet.default := by
      simp only [insertWithEvicted, insertWithEvictedInner, windowPosition, hr] at h
      exact (Except.ok.inj h).symm
    subst hE
    exact ⟨[], EvictedSet.toList_default, .nil, fun _ => rfl, fun r hr' => nomatch hr'⟩
  | some r =>
    rcases Nat.lt_or_ge r.asU64 pn.asU64 with hlt | hle
    · -- past the edge: the slide evicts the clear bits it pushes out of the window
      obtain ⟨hedge, removed, hres, hbits⟩ := insertWithEvicted_of_right hr hlt
      rw [hres] at h
      obtain rfl := Except.ok.inj h
      have hfits : EvictedSet.Fits ⟨removed, r⟩ := fun i hi hb => by
        rw [hbits i hi, Bool.and_eq_true, decide_eq_true_eq] at hb
        have := pn.value.le_max
        show r.asU64 + 128 - i ≤ maxVarintValue
        unfold PacketNumber.asU64 at *
        omega
      obtain ⟨L, hL, hsorted, hmem⟩ := EvictedSet.toList_spec _ hfits
      refine ⟨L, hL, hsorted, fun hn => absurd hn (Option.some_ne_none r), fun r' hr' q => ?_⟩
      obtain rfl : r = r' := Option.some.inj hr'
      rw [hmem q, check_eq_tooOld hedge]
      refine and_congr_right fun _ => ⟨fun ⟨i, hi, hb, heq⟩ => ?_, fun ⟨_, hq, hok, hold⟩ => ?_⟩
      · change q.asU64 + i + 1 = r.asU64 at heq
        rw [hbits i hi, Bool.and_eq_true, Bool.not_eq_true', decide_eq_true_eq] at hb
        have hq : q.asU64 < r.asU64 := by omega
        refine ⟨by unfold WINDOW_WIDTH; omega, hq, ?_, by unfold WINDOW_WIDTH; omega⟩
        rw [check_of_lt hr hq, if_neg (by unfold WINDOW_WIDTH; omega),
          show r.asU64 - q.asU64 - 1 = i by omega, hb.1]
        rfl
      · -- the packet number was in the window, not received, and the slide passes it
        rw [check_of_lt hr hq] at hok
        have hnear : ¬ WINDOW_WIDTH ≤ r.asU64 - q.asU64 := fun hf => by
          rw [if_pos hf] at hok
          cases hok
        rw [if_neg hnear] at hok
        have hbit : S.window.getLsbD (r.asU64 - q.asU64 - 1) = false := by
          cases hb : S.window.getLsbD (r.asU64 - q.asU64 - 1)
          · rfl
          · rw [hb, if_pos rfl] at hok
            cases hok
        unfold WINDOW_WIDTH at hnear hold
        refine ⟨r.asU64 - q.asU64 - 1, by omega, ?_, show _ = r.asU64 by omega⟩
        rw [hbits _ (by omega), hbit, decide_eq_true (show 128 ≤ r.asU64 - q.asU64 - 1 +
          (pn.asU64 - r.asU64) by omega)]
        rfl
    · -- at or below the edge: the empty set, and the edge stays
      obtain rfl := evicted_of_le hr hle h
      have hedge : (S.insertWithEvicted pn).1.rightEdge = some r :=
        rightEdge_insert_of_le hr hle hins
      refine ⟨[], EvictedSet.toList_default, .nil, fun _ => rfl, fun r' hr' q => ?_⟩
      obtain rfl : r = r' := Option.some.inj hr'
      simp only [List.not_mem_nil, false_iff, not_and]
      intro _ _ _ hok hold
      have := (check_eq_tooOld hr).mpr ((check_eq_tooOld hedge).mp hold)
      rw [hok] at this
      cases this

theorem insertWithEvicted_evicts_slid_past_71 :
    let S : SlidingWindow := ⟨0, some ⟨.initial, ⟨200, by decide⟩⟩⟩
    let pn : PacketNumber := ⟨.initial, ⟨201, by decide⟩⟩
    let E : EvictedSet := ⟨1#128 <<< 127, ⟨.initial, ⟨200, by decide⟩⟩⟩
    (S.insertWithEvicted pn).2 = .ok E ∧
      ∃ L, E.toList = some L ∧ (L.map PacketNumber.asU64).Pairwise (· < ·) ∧
        (S.rightEdge = none → L = []) ∧
        ∀ r, S.rightEdge = some r → ∀ q : PacketNumber, q ∈ L ↔
          q.space = r.space ∧ r.asU64 ≤ q.asU64 + WINDOW_WIDTH ∧ q.asU64 < r.asU64 ∧
            S.check q = .ok () ∧ (S.insertWithEvicted pn).1.check q = .error .tooOld := by
  intro S pn E
  obtain ⟨-, removed, hres, hbits⟩ := insertWithEvicted_of_right
    (show S.rightEdge = some ⟨.initial, ⟨200, by decide⟩⟩ from rfl)
    (show (⟨.initial, ⟨200, by decide⟩⟩ : PacketNumber).asU64 < pn.asU64 by decide)
  have hremoved : removed = 1#128 <<< 127 := BitVec.eq_of_getLsbD_eq fun i hi => by
    rw [hbits i hi]
    simp only [BitVec.getLsbD_shiftLeft, BitVec.getLsbD_one, hi]
    by_cases h127 : i = 127
    · simp [h127, S, pn, PacketNumber.asU64]
    · have hlt : i < 127 := by omega
      simp [hlt, S, pn, PacketNumber.asU64]
  have h : (S.insertWithEvicted pn).2 = .ok E := by rw [hres, hremoved]
  exact ⟨h, insertWithEvicted_evicts_slid_past S pn E h⟩

end SlidingWindow

end S2nQuic.Packet
