import Mathlib.Data.Nat.Notation

/-!
# Transport errors

`transport::Error` (`s2n-quic-core/src/transport/error.rs`): a QUIC error code, the type of the
frame that caused it and a static reason. Each named error starts with the frame type
`UNKNOWN_FRAME_TYPE` (zero) and an empty reason; `with_reason` and `with_frame_type` replace them.
Only the codes the modelled functions return are named here.
-/

namespace S2nQuic.Transport

structure TransportError where
  code : Nat
  frameType : Nat
  reason : String
  deriving DecidableEq, Repr

namespace TransportError

def new (code : Nat) : TransportError := ⟨code, 0, ""⟩

def withFrameType (self : TransportError) (frameType : Nat) : TransportError :=
  { self with frameType }

def withReason (self : TransportError) (reason : String) : TransportError :=
  { self with reason }

def FLOW_CONTROL_ERROR : TransportError := new 0x3

def STREAM_LIMIT_ERROR : TransportError := new 0x4

def FINAL_SIZE_ERROR : TransportError := new 0x6

@[simp] theorem code_withFrameType (self : TransportError) (frameType : Nat) :
    (self.withFrameType frameType).code = self.code := rfl

@[simp] theorem code_withReason (self : TransportError) (reason : String) :
    (self.withReason reason).code = self.code := rfl

end TransportError

end S2nQuic.Transport
