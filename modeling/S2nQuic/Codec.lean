import S2nQuic.Lib.ByteOrder

/-!
# The `s2n-codec` buffers

`DecoderBuffer` is the unread suffix of the input; each decoder returns the value
and the buffer after it, or a `DecoderError`. Integers are read in network byte
order (`decoder_value_network_endian!`). `EncoderBuffer` is the byte slice with its
write cursor; `write_sized` lets a closure store bytes at the cursor and then moves
the cursor by the requested length, which is how the varint encoder's eight-byte
fast path writes past the bytes it accounts for.
-/

namespace S2nQuic.Codec
open ByteOrder

inductive DecoderError
  | unexpectedEof (len : Nat)
  | unexpectedBytes (len : Nat)
  | lengthCapacityExceeded
  | invariantViolation (msg : String)
  deriving DecidableEq, Repr

abbrev DecoderBuffer := List UInt8

abbrev DecoderBufferResult (α : Type) := Except DecoderError (α × DecoderBuffer)

def decodeSlice (buffer : DecoderBuffer) (count : Nat) : DecoderBufferResult DecoderBuffer :=
  if buffer.length < count then .error (.unexpectedEof count)
  else .ok (buffer.take count, buffer.drop count)

def skip (buffer : DecoderBuffer) (count : Nat) : Except DecoderError DecoderBuffer :=
  (decodeSlice buffer count).map Prod.snd

def peekByte (buffer : DecoderBuffer) (index : Nat) : Except DecoderError UInt8 :=
  match buffer[index]? with
  | some b => .ok b
  | none => .error (.unexpectedEof index)

/-- `decode::<uN>` for an unsigned integer of `size` bytes. -/
def decodeUInt (size : Nat) (buffer : DecoderBuffer) : DecoderBufferResult Nat :=
  match decodeSlice buffer size with
  | .ok (value, buffer) => .ok (ofBeBytes value, buffer)
  | .error err => .error err

theorem bind_eq_ok {ε α β : Type} {x : Except ε α} {f : α → Except ε β} {b : β} :
    x >>= f = .ok b ↔ ∃ a, x = .ok a ∧ f a = .ok b := by
  cases x <;> simp [bind, Except.bind]

@[simp] theorem ok_bind {ε α β : Type} (a : α) (f : α → Except ε β) :
    (Except.ok a : Except ε α) >>= f = f a := rfl

theorem decodeSlice_append (bs rest : List UInt8) :
    decodeSlice (bs ++ rest) bs.length = .ok (bs, rest) := by
  simp [decodeSlice]

theorem decodeSlice_short {buffer : DecoderBuffer} {count : Nat} (h : buffer.length < count) :
    decodeSlice buffer count = .error (.unexpectedEof count) := by
  simp [decodeSlice, h]

theorem decodeSlice_long {buffer : DecoderBuffer} {count : Nat} (h : count ≤ buffer.length) :
    decodeSlice buffer count = .ok (buffer.take count, buffer.drop count) := by
  simp [decodeSlice, Nat.not_lt.mpr h]

theorem decodeUInt_beBytes (size v : Nat) (rest : List UInt8) :
    decodeUInt size (beBytes size v ++ rest) = .ok (v % 2 ^ (8 * size), rest) := by
  have h := decodeSlice_append (beBytes size v) rest
  rw [length_beBytes] at h
  simp [decodeUInt, h, ofBeBytes_beBytes]

theorem decodeUInt_short {buffer : DecoderBuffer} {size : Nat} (h : buffer.length < size) :
    decodeUInt size buffer = .error (.unexpectedEof size) := by
  simp [decodeUInt, decodeSlice_short h]

theorem decodeUInt_long {buffer : DecoderBuffer} {size : Nat} (h : size ≤ buffer.length) :
    decodeUInt size buffer = .ok (ofBeBytes (buffer.take size), buffer.drop size) := by
  simp [decodeUInt, decodeSlice_long h]

/-- The cursor never passes the end of the slice (`set_position` asserts it). -/
structure EncoderBuffer where
  bytes : List UInt8
  position : Nat
  position_le : position ≤ bytes.length
  deriving DecidableEq

namespace EncoderBuffer

def capacity (e : EncoderBuffer) : Nat := e.bytes.length

def remainingCapacity (e : EncoderBuffer) : Nat := e.capacity - e.position

/-- The bytes written so far (`as_mut_slice`). -/
def asSlice (e : EncoderBuffer) : List UInt8 := e.bytes.take e.position

/-- `write_sized(len, write)` where `write` stores `src` from the cursor on. `none` is the
failed capacity assertion: the closure may not store past the end of the slice. -/
def writeSized (e : EncoderBuffer) (len : Nat) (src : List UInt8) : Option EncoderBuffer :=
  if h : len ≤ e.remainingCapacity ∧ src.length ≤ e.remainingCapacity then
    some ⟨e.bytes.take e.position ++ src ++ e.bytes.drop (e.position + src.length),
      e.position + len, by
        have := e.position_le
        simp only [remainingCapacity, capacity] at h
        simp only [List.length_append, List.length_take, List.length_drop]
        omega⟩
  else none

/-- `encode::<uN>`: `size` bytes in network byte order. -/
def encodeUInt (e : EncoderBuffer) (size v : Nat) : Option EncoderBuffer :=
  e.writeSized size (beBytes size v)

theorem writeSized_exists (e : EncoderBuffer) (len : Nat) (src : List UInt8)
    (hlen : len ≤ e.remainingCapacity) (hsrc : src.length ≤ e.remainingCapacity) :
    ∃ e', e.writeSized len src = some e' := by
  simp [writeSized, hlen, hsrc]

theorem asSlice_writeSized {e e' : EncoderBuffer} {len : Nat} {src : List UInt8}
    (h : e.writeSized len src = some e') (hle : len ≤ src.length) :
    e'.asSlice = e.asSlice ++ src.take len ∧ e'.position = e.position + len := by
  unfold writeSized at h
  split at h
  · cases h
    have hl : (e.bytes.take e.position).length = e.position := by
      simp [List.length_take, Nat.min_eq_left e.position_le]
    refine ⟨?_, rfl⟩
    simp only [asSlice]
    rw [List.append_assoc, List.take_append, List.take_of_length_le (by omega), hl,
      Nat.add_sub_cancel_left, List.take_append_of_le_length hle]
  · cases h

theorem bytes_writeSized {e e' : EncoderBuffer} {len : Nat} {src : List UInt8}
    (h : e.writeSized len src = some e') :
    e'.bytes = e.asSlice ++ src ++ e.bytes.drop (e.position + src.length) := by
  unfold writeSized at h
  split at h
  · cases h; rfl
  · cases h

end EncoderBuffer

end S2nQuic.Codec
