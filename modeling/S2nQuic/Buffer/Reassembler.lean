import S2nQuic.Varint

/-!
# The receive buffer's cursors

`Reassembler` (`s2n-quic-core/src/buffer/reassembler.rs`) as a receive stream's flow control
reads it: its `Cursors` (`start_offset`, how far the application has read; `max_recv_offset`,
the largest end of data written; `final_offset`, the final size once known) and the ranges of
offsets written to it. The bytes and the slots holding them are left out; `total_received_len`
is the end of the data held contiguously from `start_offset`, read off the ranges written.
-/

namespace S2nQuic.Buffer
open Varint

/-- `buffer::Error`; its `ReaderError` cannot arise from the infallible `Request` reader. -/
inductive Error
  | outOfRange
  | invalidFin
  deriving DecidableEq, Repr

structure Reassembler where
  startOffset : Nat
  maxRecvOffset : Nat
  finalOffset : Option Nat
  received : List (Nat × Nat)
  deriving DecidableEq, Repr

namespace Reassembler

/-- `Reassembler::new`, and what `reset` returns to: `Cursors::default()` and no slots. -/
def new : Reassembler := ⟨0, 0, none, []⟩

def finalSize (self : Reassembler) : Option Nat := self.finalOffset

def consumedLen (self : Reassembler) : Nat := self.startOffset

/-- One pass over the ranges written, extending a run of data that reaches `e`. -/
def extendRun (received : List (Nat × Nat)) (e : Nat) : Nat :=
  received.foldl (fun e r => if r.1 ≤ e ∧ e < r.2 then r.2 else e) e

/-- `total_received_len`: each pass that extends the run uses up a range, so as many passes as
there are ranges reach the end of the data held contiguously from the read offset. -/
def totalReceivedLen (self : Reassembler) : Nat :=
  Nat.iterate (extendRun self.received) self.received.length self.startOffset

def len (self : Reassembler) : Nat := self.totalReceivedLen - self.startOffset

def isWritingComplete (self : Reassembler) : Bool := self.finalSize = some self.totalReceivedLen

/-- `check_reader_fin`: once known, the final size cannot change, and no data may lie past
it. -/
def checkReaderFin (self : Reassembler) (bufferedOffset : Nat) (finalOffset : Option Nat) :
    Except Error Reassembler := do
  let checked : Except Error Reassembler := match finalOffset, self.finalOffset with
    | some actual, some expected =>
      if actual = expected then pure self else throw .invalidFin
    | some final, none =>
      if self.maxRecvOffset ≤ final then pure { self with finalOffset := some final }
      else throw .invalidFin
    | none, some expected => if bufferedOffset ≤ expected then pure self else throw .invalidFin
    | none, none => pure self
  let self ← checked
  pure { self with maxRecvOffset := max self.maxRecvOffset bufferedOffset }

/-- `write_at` (`isFin` false) and `write_at_fin` of `len` bytes at `offset`. `Request::new`
refuses data ending past the varint range; `skip_until` drops what was already read, and the
request still ends at the same offset. -/
def writeAt (self : Reassembler) (offset : VarInt) (len : Nat) (isFin : Bool) :
    Except Error Reassembler := do
  let some dataEnd := VarInt.new (offset.val + len) | throw .outOfRange
  let start := max offset.val self.startOffset
  let self ← self.checkReaderFin dataEnd.val (if isFin then some dataEnd.val else none)
  pure { self with
    received := if start < dataEnd.val then self.received ++ [(start, dataEnd.val)]
      else self.received }

/-- `skip`: advances the read offset, and the largest end received with it, past `len` bytes
never to be written. A zero-length skip does nothing. The slots below the new read offset are
dropped in the source; here the ranges stay, and `total_received_len` no longer reaches them. -/
def skip (self : Reassembler) (len : VarInt) : Except Error Reassembler := do
  if len.val = 0 then return self
  let some newStartOffset := VarInt.new (self.startOffset + len.val) | throw .outOfRange
  if let some finalSize := self.finalSize then
    if finalSize < newStartOffset.val then throw .invalidFin
  pure { self with
    maxRecvOffset := max self.maxRecvOffset newStartOffset.val,
    startOffset := newStartOffset.val }

def isReadingComplete (self : Reassembler) : Bool := self.finalSize = some self.startOffset

/-- `pop_watermarked`: a chunk of at most `watermark` bytes of the data held contiguously at the
read offset, and its length. Where the slots cut the data into chunks is left out; a reader
asking for less takes a shorter chunk. -/
def popWatermarked (self : Reassembler) (watermark : Nat) : Option (Nat × Reassembler) :=
  let n := min watermark self.len
  if n = 0 then none else some (n, { self with startOffset := self.startOffset + n })

/-! ## Bounds -/

theorem le_extendRun (received : List (Nat × Nat)) (e : Nat) : e ≤ extendRun received e := by
  induction received generalizing e with
  | nil => exact le_rfl
  | cons r rs ih =>
    simp only [extendRun, List.foldl_cons] at ih ⊢
    split_ifs with h
    · exact h.2.le.trans (ih r.2)
    · exact ih e

theorem extendRun_le {received : List (Nat × Nat)} {M e : Nat} (hM : ∀ r ∈ received, r.2 ≤ M)
    (he : e ≤ M) : extendRun received e ≤ M := by
  induction received generalizing e with
  | nil => exact he
  | cons r rs ih =>
    simp only [extendRun, List.foldl_cons] at ih ⊢
    have hrs : ∀ r ∈ rs, r.2 ≤ M := fun r' hr' => hM r' (List.mem_cons_of_mem _ hr')
    split_ifs
    · exact ih hrs (hM r List.mem_cons_self)
    · exact ih hrs he

theorem extendRun_mono (received : List (Nat × Nat)) {e e' : Nat} (h : e ≤ e') :
    extendRun received e ≤ extendRun received e' := by
  induction received generalizing e e' with
  | nil => exact h
  | cons r rs ih =>
    simp only [extendRun, List.foldl_cons] at ih ⊢
    apply ih
    split_ifs <;> omega

theorem extendRun_eq_or_covers (received : List (Nat × Nat)) (e : Nat) :
    extendRun received e = e ∨ ∃ r ∈ received, e < r.2 ∧ r.2 ≤ extendRun received e := by
  induction received generalizing e with
  | nil => exact .inl rfl
  | cons r rs ih =>
    simp only [extendRun, List.foldl_cons] at ih ⊢
    split_ifs with h
    · exact .inr ⟨r, List.mem_cons_self, h.2, le_extendRun rs r.2⟩
    · rcases ih e with heq | ⟨r', hr', h₁, h₂⟩
      · exact .inl heq
      · exact .inr ⟨r', List.mem_cons_of_mem _ hr', h₁, h₂⟩

/-- The ranges that end by `e`. -/
def covered (received : List (Nat × Nat)) (e : Nat) : Nat :=
  received.countP fun r => r.2 ≤ e

theorem covered_lt {received : List (Nat × Nat)} {e e' : Nat} (hle : e ≤ e')
    {r : Nat × Nat} (hr : r ∈ received) (h₁ : e < r.2) (h₂ : r.2 ≤ e') :
    covered received e < covered received e' := by
  induction received with
  | nil => cases hr
  | cons x xs ih =>
    have hmono : covered xs e ≤ covered xs e' :=
      List.countP_mono_left fun y _ hy => by simp only [decide_eq_true_eq] at hy ⊢; omega
    simp only [covered, List.countP_cons] at ih hmono ⊢
    rcases List.mem_cons.mp hr with rfl | hr
    · simp only [decide_eq_true_eq]
      rw [if_neg (by omega), if_pos h₂]
      omega
    · have := ih hr
      split_ifs <;> simp_all <;> omega

theorem extendRun_iterate_fixed (received : List (Nat × Nat)) (e : Nat) :
    extendRun received (Nat.iterate (extendRun received) received.length e) =
      Nat.iterate (extendRun received) received.length e := by
  -- after `j` passes the end is fixed, or covers at least `j` ranges
  have key : ∀ j, extendRun received (Nat.iterate (extendRun received) j e) =
      Nat.iterate (extendRun received) j e ∨
        j ≤ covered received (Nat.iterate (extendRun received) j e) := by
    intro j
    induction j with
    | zero => exact .inr (Nat.zero_le _)
    | succ j ih =>
      rw [Function.iterate_succ_apply']
      rcases extendRun_eq_or_covers received (Nat.iterate (extendRun received) j e) with
        heq | ⟨r, hr, h₁, h₂⟩
      · exact .inl (by rw [heq, heq])
      · rcases ih with hfix | hcount
        · rw [hfix] at h₂
          omega
        · exact .inr (Nat.succ_le_of_lt (hcount.trans_lt
            (covered_lt (le_extendRun _ _) hr h₁ h₂)))
  rcases key received.length with hfix | hall
  · exact hfix
  have hall' : ∀ r ∈ received, r.2 ≤ Nat.iterate (extendRun received) received.length e := by
    have := (List.countP_eq_length (l := received)).mp (le_antisymm List.countP_le_length hall)
    simpa using this
  exact le_antisymm (extendRun_le hall' le_rfl) (le_extendRun _ _)

theorem iterate_extendRun_of_le (received : List (Nat × Nat)) {e e' : Nat} (h : e ≤ e')
    (h' : e' ≤ Nat.iterate (extendRun received) received.length e) :
    Nat.iterate (extendRun received) received.length e' =
      Nat.iterate (extendRun received) received.length e := by
  have hfix := extendRun_iterate_fixed received e
  have hbelow : ∀ j, Nat.iterate (extendRun received) j e' ≤
      Nat.iterate (extendRun received) received.length e := by
    intro j
    induction j with
    | zero => exact h'
    | succ j ih =>
      rw [Function.iterate_succ_apply']
      exact (extendRun_mono received ih).trans hfix.le
  have habove : ∀ j, Nat.iterate (extendRun received) j e ≤
      Nat.iterate (extendRun received) j e' := by
    intro j
    induction j with
    | zero => exact h
    | succ j ih =>
      rw [Function.iterate_succ_apply', Function.iterate_succ_apply']
      exact extendRun_mono received ih
  exact le_antisymm (hbelow _) (habove _)

/-- The cursors' own invariant: the read offset and every range written lie within the largest
end received, itself within the final size once it is known. -/
structure WellFormed (buf : Reassembler) : Prop where
  start_le : buf.startOffset ≤ buf.maxRecvOffset
  received_le : ∀ r ∈ buf.received, r.2 ≤ buf.maxRecvOffset
  final_le : ∀ final, buf.finalOffset = some final → buf.maxRecvOffset ≤ final

theorem wellFormed_new : new.WellFormed := ⟨le_rfl, by simp [new], by simp [new]⟩

theorem startOffset_le_totalReceivedLen (self : Reassembler) :
    self.startOffset ≤ self.totalReceivedLen := by
  unfold totalReceivedLen
  generalize self.received.length = n
  induction n with
  | zero => exact le_rfl
  | succ n ih =>
    rw [Function.iterate_succ_apply']
    exact ih.trans (le_extendRun _ _)

theorem WellFormed.totalReceivedLen_le {self : Reassembler} (h : self.WellFormed) :
    self.totalReceivedLen ≤ self.maxRecvOffset := by
  unfold totalReceivedLen
  generalize self.received.length = n
  induction n with
  | zero => exact h.start_le
  | succ n ih =>
    rw [Function.iterate_succ_apply']
    exact extendRun_le h.received_le ih

/-! ## Writes -/

variable {self self' : Reassembler} {offset : VarInt} {len : Nat} {isFin : Bool}

theorem writeAt_ok (h : self.writeAt offset len isFin = .ok self') :
    ∃ dataEnd : VarInt, dataEnd.val = offset.val + len ∧
      self'.startOffset = self.startOffset ∧
      self'.maxRecvOffset = max self.maxRecvOffset dataEnd.val ∧
      (∀ r ∈ self'.received, r ∈ self.received ∨ r.2 = dataEnd.val) ∧
      (self'.finalOffset = self.finalOffset ∨
        self.finalOffset = none ∧ isFin ∧ self.maxRecvOffset ≤ dataEnd.val ∧
          self'.finalOffset = some dataEnd.val) ∧
      (∀ final, self'.finalOffset = some final → dataEnd.val ≤ final) := by
  unfold writeAt at h
  rcases hnew : VarInt.new (offset.val + len) with _ | dataEnd
  · rw [hnew] at h
    cases h
  rw [hnew] at h
  have hval : dataEnd.val = offset.val + len := VarInt.val_of_new_eq_some hnew
  obtain ⟨s₁, hc, hs⟩ := Codec.bind_eq_ok.mp h
  cases hs
  unfold checkReaderFin at hc
  obtain ⟨s₀, hm, hs₁⟩ := Codec.bind_eq_ok.mp hc
  cases hs₁
  -- the final-size check changes at most the final offset, to the end of a first FIN
  have key : s₀.startOffset = self.startOffset ∧ s₀.received = self.received ∧
      s₀.maxRecvOffset = self.maxRecvOffset ∧
      (s₀.finalOffset = self.finalOffset ∨ self.finalOffset = none ∧ isFin ∧
        self.maxRecvOffset ≤ dataEnd.val ∧ s₀.finalOffset = some dataEnd.val) ∧
      (∀ final, s₀.finalOffset = some final → dataEnd.val ≤ final) := by
    cases isFin <;> cases hf : self.finalOffset <;> simp only [hf, Bool.false_eq_true,
      if_false, if_true] at hm <;> (try split_ifs at hm with hle) <;> cases hm <;> simp_all
  obtain ⟨hstart, hrecv, hmax, hfin, hend⟩ := key
  refine ⟨dataEnd, hval, hstart, by simp [hmax], ?_, hfin, hend⟩
  intro r hr
  simp only at hr
  split_ifs at hr
  · rcases List.mem_append.mp hr with hr | hr
    · exact .inl (hrecv ▸ hr)
    · simp at hr
      exact .inr (by rw [hr])
  · exact .inl (hrecv ▸ hr)

theorem writeAt_of_final_lt {final : Nat} (hfinal : self.finalOffset = some final)
    (hend : final < offset.val + len) (hvar : offset.val + len ≤ maxVarintValue) :
    self.writeAt offset len isFin = .error .invalidFin := by
  have hnew := VarInt.new_of_le hvar
  have hne : offset.val + len ≠ final := by omega
  have hnle : ¬ offset.val + len ≤ final := by omega
  cases isFin <;> simp [writeAt, hnew, checkReaderFin, hfinal, hne, hnle] <;> rfl

theorem WellFormed.writeAt (h : self.WellFormed) (hw : self.writeAt offset len isFin = .ok self') :
    self'.WellFormed := by
  obtain ⟨dataEnd, -, hstart, hmax, hrecv, hfin, hend⟩ := writeAt_ok hw
  refine ⟨?_, ?_, ?_⟩
  · have := h.start_le
    omega
  · intro r hr
    rcases hrecv r hr with hr | hr
    · have := h.received_le r hr
      omega
    · omega
  · intro final hf
    have hle := hend final hf
    have hold : self.maxRecvOffset ≤ final := by
      rcases hfin with hfin | ⟨-, -, hle', hf'⟩
      · exact h.final_le final (hfin ▸ hf)
      · rw [hf] at hf'
        cases hf'
        exact hle'
    omega

theorem writeAt_of_max_lt (hvar : maxVarintValue < offset.val + len) :
    self.writeAt offset len isFin = .error .outOfRange := by
  simp [writeAt, VarInt.new_of_lt hvar]
  rfl

theorem writeAt_fin_of_ne {final : Nat} (hfinal : self.finalOffset = some final)
    (hne : offset.val + len ≠ final) (hvar : offset.val + len ≤ maxVarintValue) :
    self.writeAt offset len true = .error .invalidFin := by
  simp [writeAt, VarInt.new_of_le hvar, checkReaderFin, hfinal, hne]
  rfl

theorem writeAt_fin_of_lt_maxRecvOffset (hfinal : self.finalOffset = none)
    (hlt : offset.val + len < self.maxRecvOffset) (hvar : offset.val + len ≤ maxVarintValue) :
    self.writeAt offset len true = .error .invalidFin := by
  have hnle : ¬ self.maxRecvOffset ≤ offset.val + len := by omega
  simp [writeAt, VarInt.new_of_le hvar, checkReaderFin, hfinal, hnle]
  rfl

/- `write_fin_lowered_test`: a FIN at 16 after a byte at 32. -/
example : (new.writeAt ⟨32, by decide⟩ 1 false >>= fun b => b.writeAt ⟨16, by decide⟩ 0 true) =
    .error .invalidFin := by
  rfl

/-- What a write or skip ending at `dataEnd` against the final size is refused with: a request
past the varint range is refused with `OutOfRange` before the final size is looked at. -/
def finalSizeError (dataEnd : Nat) : Error :=
  if dataEnd ≤ maxVarintValue then .invalidFin else .outOfRange

theorem writeAt_eq_finalSizeError
    (hrej : offset.val + len ≤ maxVarintValue → self.writeAt offset len isFin = .error .invalidFin) :
    self.writeAt offset len isFin = .error (finalSizeError (offset.val + len)) := by
  by_cases hvar : offset.val + len ≤ maxVarintValue
  · simp only [finalSizeError, hvar, if_true]
    exact hrej hvar
  · simp only [finalSizeError, hvar, if_false]
    exact writeAt_of_max_lt (by omega)

/-! ## Skips -/

section Skip

variable {n : VarInt}

theorem skip_ok (h : self.skip n = .ok self') :
    self' = self ∨ (∀ final, self.finalOffset = some final → self.startOffset + n.val ≤ final) ∧
      self' = { self with
        maxRecvOffset := max self.maxRecvOffset (self.startOffset + n.val)
        startOffset := self.startOffset + n.val } := by
  unfold skip at h
  split_ifs at h with h0
  · exact .inl (Except.ok.inj h).symm
  rcases hnew : VarInt.new (self.startOffset + n.val) with _ | newStart
  · simp [hnew] at h
  have hval : newStart.val = self.startOffset + n.val := VarInt.val_of_new_eq_some hnew
  right
  rcases hf : self.finalOffset with _ | final
  · simp [hnew, finalSize, hf] at h
    cases h
    simp [hval]
  · simp [hnew, finalSize, hf] at h
    split_ifs at h with hlt
    · cases h
    · cases h
      refine ⟨fun final' hf' => ?_, by simp [hval]⟩
      cases hf'
      omega

theorem skip_of_final_lt {final : Nat} (h0 : n.val ≠ 0) (hfinal : self.finalOffset = some final)
    (hlt : final < self.startOffset + n.val) :
    self.skip n = .error (finalSizeError (self.startOffset + n.val)) := by
  by_cases hvar : self.startOffset + n.val ≤ maxVarintValue
  · simp [skip, h0, VarInt.new_of_le hvar, finalSize, hfinal, hlt, finalSizeError, hvar]
    rfl
  · have hlt' : maxVarintValue < self.startOffset + n.val := by omega
    simp [skip, h0, VarInt.new_of_lt hlt', finalSizeError, hvar]
    rfl

theorem WellFormed.skip (h : self.WellFormed) (hs : self.skip n = .ok self') :
    self'.WellFormed := by
  rcases skip_ok hs with rfl | ⟨hle, rfl⟩
  · exact h
  refine ⟨le_max_right _ _, fun r hr => (h.received_le r hr).trans (le_max_left _ _), ?_⟩
  intro final hf
  exact max_le (h.final_le final hf) (hle final hf)

end Skip

/-! ## Reads -/

theorem popWatermarked_eq_some {watermark n : Nat}
    (h : self.popWatermarked watermark = some (n, self')) :
    0 < n ∧ n ≤ self.len ∧ self' = { self with startOffset := self.startOffset + n } := by
  unfold popWatermarked at h
  dsimp only at h
  split_ifs at h with h0
  obtain ⟨rfl, rfl⟩ := Prod.mk.inj (Option.some.inj h)
  exact ⟨by omega, by omega, rfl⟩

theorem totalReceivedLen_popWatermarked {watermark n : Nat}
    (h : self.popWatermarked watermark = some (n, self')) :
    self'.totalReceivedLen = self.totalReceivedLen := by
  obtain ⟨-, hn, rfl⟩ := popWatermarked_eq_some h
  have hstart := self.startOffset_le_totalReceivedLen
  unfold len at hn
  unfold totalReceivedLen at hn hstart ⊢
  dsimp only
  exact iterate_extendRun_of_le self.received (Nat.le_add_right _ _) (by omega)

theorem WellFormed.popWatermarked {watermark n : Nat} (h : self.WellFormed)
    (hp : self.popWatermarked watermark = some (n, self')) : self'.WellFormed := by
  obtain ⟨-, hn, rfl⟩ := popWatermarked_eq_some hp
  have := h.totalReceivedLen_le
  have := self.startOffset_le_totalReceivedLen
  refine ⟨?_, h.received_le, h.final_le⟩
  simp only [len] at hn
  simp only
  omega

/-! ## Runs -/

/-- The calls that move the cursors. A call that fails leaves the reassembler as it was: every
check in the source precedes the update it guards (`reset` is left out). -/
inductive Op
  | writeAt (offset : VarInt) (len : Nat) (isFin : Bool)
  | skip (len : VarInt)
  | popWatermarked (watermark : Nat)

def Op.apply : Op → Reassembler → Reassembler
  | .writeAt offset len isFin, self =>
    match self.writeAt offset len isFin with
    | .ok self' => self'
    | .error _ => self
  | .skip len, self =>
    match self.skip len with
    | .ok self' => self'
    | .error _ => self
  | .popWatermarked watermark, self =>
    match self.popWatermarked watermark with
    | some (_, self') => self'
    | none => self

def run (self : Reassembler) : List Op → Reassembler
  | [] => self
  | op :: ops => (op.apply self).run ops

theorem Op.wellFormed_apply (h : self.WellFormed) (op : Op) : (op.apply self).WellFormed := by
  cases op with
  | writeAt offset len isFin =>
    simp only [Op.apply]
    split
    · next self' hw => exact h.writeAt hw
    · exact h
  | skip n =>
    simp only [Op.apply]
    split
    · next self' hs => exact h.skip hs
    · exact h
  | popWatermarked watermark =>
    simp only [Op.apply]
    split
    · next hp => exact h.popWatermarked hp
    · exact h

theorem Op.apply_finalOffset {final : Nat} (hfinal : self.finalOffset = some final) (op : Op) :
    (op.apply self).finalOffset = some final := by
  cases op with
  | writeAt offset len isFin =>
    simp only [Op.apply]
    split
    · next self' hw =>
      obtain ⟨-, -, -, -, -, hfin | ⟨hnone, -⟩, -⟩ := writeAt_ok hw
      · rw [hfin, hfinal]
      · rw [hfinal] at hnone
        cases hnone
    · exact hfinal
  | skip n =>
    simp only [Op.apply]
    split
    · next self' hs =>
      rcases skip_ok hs with rfl | ⟨-, rfl⟩
      · exact hfinal
      · exact hfinal
    · exact hfinal
  | popWatermarked watermark =>
    simp only [Op.apply]
    split
    · next hp =>
      obtain ⟨-, -, rfl⟩ := popWatermarked_eq_some hp
      exact hfinal
    · exact hfinal

theorem WellFormed.run (h : self.WellFormed) (ops : List Op) : (self.run ops).WellFormed := by
  induction ops generalizing self with
  | nil => exact h
  | cons op ops ih => exact ih (Op.wellFormed_apply h op)

/-- From `Reassembler::new`, every run of writes, skips and watermarked pops keeps the cursors in
order: the read offset at or below the largest offset received, every range written ending at or
below it, and that at or below the final size once it is known. -/
theorem run_new_offsets_ordered (ops : List Op) :
    (new.run ops).startOffset ≤ (new.run ops).maxRecvOffset ∧
      (∀ r ∈ (new.run ops).received, r.2 ≤ (new.run ops).maxRecvOffset) ∧
      ∀ final, (new.run ops).finalOffset = some final → (new.run ops).maxRecvOffset ≤ final :=
  have h := wellFormed_new.run ops
  ⟨h.start_le, h.received_le, h.final_le⟩

theorem run_finalOffset {final : Nat} (hfinal : self.finalOffset = some final) (ops : List Op) :
    (self.run ops).finalOffset = some final := by
  induction ops generalizing self with
  | nil => exact hfinal
  | cons op ops ih => exact ih (Op.apply_finalOffset hfinal op)

/-! ## The final size

"Once a final size for a stream is known, it cannot change" (RFC 9000, section 4.5, as the
source quotes it at `check_reader_fin`). -/

/-- The final-size rules at a reassembler: a final size once known stays through every run of
calls; a FIN at any other end, data past it and a skip past it are refused, as is a first FIN
below the largest end already received; and a reassembler read to its end has consumed exactly
its final size. -/
def FinalSizeRules (self : Reassembler) : Prop :=
  (∀ final, self.finalOffset = some final →
    (∀ ops, (self.run ops).finalOffset = some final) ∧
    (∀ (offset : VarInt) (len : Nat), offset.val + len ≠ final →
      self.writeAt offset len true = .error (finalSizeError (offset.val + len))) ∧
    (∀ (offset : VarInt) (len : Nat), final < offset.val + len →
      self.writeAt offset len false = .error (finalSizeError (offset.val + len))) ∧
    (∀ n : VarInt, final < self.startOffset + n.val →
      self.skip n = .error (finalSizeError (self.startOffset + n.val))) ∧
    (self.isReadingComplete = true → self.consumedLen = final)) ∧
  (self.finalOffset = none → ∀ (offset : VarInt) (len : Nat), offset.val + len < self.maxRecvOffset →
    self.writeAt offset len true = .error (finalSizeError (offset.val + len)))

theorem finalSize_rules (h : self.WellFormed) : self.FinalSizeRules := by
  refine ⟨fun final hfinal => ⟨run_finalOffset hfinal, ?_, ?_, ?_, ?_⟩, ?_⟩
  · intro offset len hne
    exact writeAt_eq_finalSizeError fun hvar => writeAt_fin_of_ne hfinal hne hvar
  · intro offset len hlt
    exact writeAt_eq_finalSizeError fun hvar => writeAt_of_final_lt hfinal hlt hvar
  · intro n hlt
    have hstart : self.startOffset ≤ final := h.start_le.trans (h.final_le final hfinal)
    exact skip_of_final_lt (by omega) hfinal hlt
  · intro hread
    simpa [isReadingComplete, finalSize, hfinal, consumedLen, eq_comm] using hread
  · intro hnone offset len hlt
    exact writeAt_eq_finalSizeError fun hvar => writeAt_fin_of_lt_maxRecvOffset hnone hlt hvar

theorem finalSize_rules_five :
    (⟨2, 5, some 5, [(0, 5)]⟩ : Reassembler).WellFormed ∧
      (⟨2, 5, some 5, [(0, 5)]⟩ : Reassembler).FinalSizeRules :=
  have h : (⟨2, 5, some 5, [(0, 5)]⟩ : Reassembler).WellFormed :=
    ⟨by decide, by decide, by simp⟩
  ⟨h, finalSize_rules h⟩

end Reassembler

end S2nQuic.Buffer
