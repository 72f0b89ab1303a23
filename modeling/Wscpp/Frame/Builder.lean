import Wscpp.Frame.Wire

/-!
# The frame builders

Four functions write every frame the two implementations emit: `builder::build_into` and
`builder::build_close_into` of `frame/builder.cpp`, and `encode_into` (behind
`FrameBuilder::build_into_opcode`) and `FrameBuilder::build_close_into` of
`frame/builder.rs`.  A fifth, `FrameBuilder::build_into`, is the public builder of ws-rs, and
the only one that can set RSV2 and RSV3.  Each is transcribed here push by push.  The buffer
they reuse is an argument: all of them clear it first.  The random masking key is an argument
too.

Each function is then shown to produce the wire format: `encodeParts` with the shortest length
form (`Cpp.buildInto_eq`, `Cpp.buildCloseInto_eq`, `Rs.encodeInto_eq`,
`Rs.FrameBuilder.buildInto_eq`, `Rs.buildCloseInto_eq`).  The connection models only use these
equations, and `encoders_agree` follows from them.
-/

namespace Wscpp

open Words

/-- The key a header carries when the mask flag is set. -/
def keyIf (mask : Bool) (key : Key) : Option Key := if mask then some key else none

@[simp] lemma isSome_keyIf (mask : Bool) (key : Key) : (keyIf mask key).isSome = mask := by
  cases mask <;> rfl

lemma ofNat_and_ff (v : ℕ) : UInt8.ofNat (v &&& 0xFF) = UInt8.ofNat v := by
  apply UInt8.toNat_inj.mp
  rw [UInt8.toNat_ofNat', UInt8.toNat_ofNat', Nat.and_two_pow_sub_one_eq_mod (n := 8)]
  omega

/-! ## wscpp -/

namespace Cpp

/-- `append_payload_length`: the bytes pushed for the mask bit and the length. -/
def appendPayloadLength (out : List UInt8) (second : UInt8) (size : ℕ) : List UInt8 :=
  if size ≤ 125 then out ++ [second ||| UInt8.ofNat size]
  else if size ≤ 65535 then
    out ++ [second ||| 126] ++ [UInt8.ofNat ((size >>> 8) &&& 0xFF)] ++
      [UInt8.ofNat (size &&& 0xFF)]
  else
    out ++ [second ||| 127] ++ [UInt8.ofNat ((size >>> 56) &&& 0xFF)] ++
      [UInt8.ofNat ((size >>> 48) &&& 0xFF)] ++ [UInt8.ofNat ((size >>> 40) &&& 0xFF)] ++
      [UInt8.ofNat ((size >>> 32) &&& 0xFF)] ++ [UInt8.ofNat ((size >>> 24) &&& 0xFF)] ++
      [UInt8.ofNat ((size >>> 16) &&& 0xFF)] ++ [UInt8.ofNat ((size >>> 8) &&& 0xFF)] ++
      [UInt8.ofNat (size &&& 0xFF)]

/-- `builder::build_into`. -/
def buildInto (host : Endian) (out : List UInt8) (op : Opcode) (data : List UInt8)
    (fin mask : Bool) (maskingKey : Key) (rsv1 : Bool) : List UInt8 :=
  let out := out.take 0
  let first : UInt8 := 0
  let first := if fin then first ||| 0x80 else first
  let first := if rsv1 then first ||| 0x40 else first
  let first := first ||| op.toU8
  let out := out ++ [first]
  let second : UInt8 := 0
  let second := if mask then second ||| 0x80 else second
  let out := appendPayloadLength out second data.length
  let key := if mask then maskingKey else Key.zero
  let out := if mask then out ++ key.toList else out
  out ++ (if mask then applyMask host key data else data)

/-- `builder::build_close_into`: an empty reason goes through `build_into`, any other reason
through a copy of its code. -/
def buildCloseInto (host : Endian) (out : List UInt8) (statusCode : UInt16)
    (reason : List UInt8) (mask : Bool) (generated : Key) : List UInt8 :=
  let payload := [UInt8.ofNat ((statusCode.toNat >>> 8) &&& 0xFF),
    UInt8.ofNat (statusCode.toNat &&& 0xFF)]
  if reason.isEmpty then
    let key := if mask then generated else Key.zero
    buildInto host out .close payload true mask key false
  else
    let out := out.take 0
    let first : UInt8 := 0x80 ||| Opcode.close.toU8
    let out := out ++ [first]
    let payloadSize := 2 + reason.length
    let second : UInt8 := if mask then 0x80 else 0
    let out := appendPayloadLength out second payloadSize
    let key := if mask then generated else Key.zero
    let out := if mask then out ++ key.toList else out
    let body := payload ++ reason
    out ++ (if mask then applyMask host key body else body)

lemma appendPayloadLength_eq (out : List UInt8) (mask : Bool) (n : ℕ) :
    appendPayloadLength out (if mask then 0x80 else 0) n =
      out ++ secondByte mask ((LenForm.shortest n).code n) :: (LenForm.shortest n).bytes n := by
  simp only [appendPayloadLength, LenForm.shortest, ofNat_and_ff, secondByte]
  generalize (if mask then 0x80 else 0 : UInt8) = m
  split_ifs <;>
    simp [LenForm.code, LenForm.bytes, beBytes, leBytes, Nat.shiftRight_eq_div_pow,
      Nat.div_div_eq_div_mul]

/-- **`build_into` writes the wire format**, whatever the buffer held. -/
theorem buildInto_eq (host : Endian) (out : List UInt8) (op : Opcode) (data : List UInt8)
    (fin mask : Bool) (key : Key) (rsv1 : Bool) :
    buildInto host out op data fin mask key rsv1 =
      encodeParts fin rsv1 false false op.toU8 (.shortest data.length) (keyIf mask key) data := by
  have hfirst : (if rsv1 then (if fin then (0 : UInt8) ||| 0x80 else 0) ||| 0x40
      else if fin then (0 : UInt8) ||| 0x80 else 0) ||| op.toU8 =
      firstByte fin rsv1 false false op.toU8 := by
    cases fin <;> cases rsv1 <;> simp [firstByte]
  simp only [buildInto, List.take_zero, List.nil_append, hfirst]
  have hsecond : (if mask then (0 : UInt8) ||| 0x80 else 0) = if mask then 0x80 else 0 := by
    cases mask <;> rfl
  rw [hsecond, appendPayloadLength_eq, encodeParts, isSome_keyIf]
  cases mask <;>
    simp [keyIf, keyBytes, maskedWith, Cpp.applyMask, Mask.applyMask_eq]

/-- **`build_close_into` writes the wire format** on both of its branches. -/
theorem buildCloseInto_eq (host : Endian) (out : List UInt8) (code : UInt16)
    (reason : List UInt8) (mask : Bool) (key : Key) :
    buildCloseInto host out code reason mask key =
      encodeParts true false false false Opcode.close.toU8
        (.shortest (closeCodeBytes code ++ reason).length) (keyIf mask key)
        (closeCodeBytes code ++ reason) := by
  have hbytes : [UInt8.ofNat ((code.toNat >>> 8) &&& 0xFF), UInt8.ofNat (code.toNat &&& 0xFF)] =
      closeCodeBytes code := by
    rw [closeCodeBytes, ofNat_and_ff]
  have hlen : (closeCodeBytes code ++ reason).length = 2 + reason.length := by
    simp [closeCodeBytes]
    omega
  rw [buildCloseInto, hbytes]
  split
  · rename_i hempty
    rw [List.isEmpty_iff.mp hempty, buildInto_eq, List.append_nil]
    cases mask <;> rfl
  · simp only [List.take_zero, List.nil_append]
    rw [appendPayloadLength_eq, encodeParts, isSome_keyIf, hlen]
    have hfirst : (0x80 : UInt8) ||| Opcode.close.toU8 =
        firstByte true false false false Opcode.close.toU8 := by decide
    rw [hfirst]
    cases mask <;>
      simp [keyIf, keyBytes, maskedWith, Cpp.applyMask, Mask.applyMask_eq]

end Cpp

/-! ## ws-rs -/

namespace Rs

/-- `push_header`. -/
def pushHeader (out : List UInt8) (op : Opcode) (fin rsv1 mask : Bool) (len : ℕ) :
    List UInt8 :=
  let first := op.toU8 &&& 0x0F
  let first := if fin then first ||| 0x80 else first
  let first := if rsv1 then first ||| 0x40 else first
  let out := out ++ [first]
  let maskBit : UInt8 := if mask then 0x80 else 0
  if len < 126 then out ++ [maskBit ||| UInt8.ofNat len]
  else if len ≤ 0xFFFF then
    out ++ [maskBit ||| 126] ++ [UInt8.ofNat (len >>> 8)] ++ [UInt8.ofNat (len &&& 0xFF)]
  else
    -- `for i in (0..8).rev()`
    out ++ [maskBit ||| 127] ++
      ([7, 6, 5, 4, 3, 2, 1, 0].map fun i => UInt8.ofNat (len >>> (i * 8)))

/-- `encode_into`. -/
def encodeInto (out : List UInt8) (op : Opcode) (payload : List UInt8) (fin mask rsv1 : Bool)
    (generated : Key) : List UInt8 :=
  let out := out.take 0
  let out := pushHeader out op fin rsv1 mask payload.length
  if mask then
    let out := out ++ generated.toList
    out ++ applyMask generated payload
  else out ++ payload

/-- `FrameBuilder::build_into_opcode`. -/
def buildIntoOpcode (out : List UInt8) (op : Opcode) (data : List UInt8) (fin mask rsv1 : Bool)
    (generated : Key) : List UInt8 :=
  encodeInto out op data fin mask rsv1 generated

/-- `FrameBuilder::build_close_into`. -/
def buildCloseInto (out : List UInt8) (statusCode : UInt16) (reason : List UInt8) (mask : Bool)
    (generated : Key) : List UInt8 :=
  let out := out.take 0
  let payloadLen := 2 + reason.length
  let out := pushHeader out .close true false mask payloadLen
  let out := if mask then out ++ generated.toList else out
  let body := [UInt8.ofNat (statusCode.toNat >>> 8)] ++ [UInt8.ofNat (statusCode.toNat &&& 0xFF)]
    ++ reason
  out ++ (if mask then applyMask generated body else body)

/-- `FrameBuilder::build_opcode`, whose buffer is new. -/
def buildOpcode (op : Opcode) (data : List UInt8) (fin mask : Bool) (generated : Key) :
    List UInt8 :=
  encodeInto [] op data fin mask false generated

/-- `FrameBuilder`: the frame under construction.  The masking key is drawn when the frame is
built. -/
structure FrameBuilder where
  fin : Bool := true
  rsv1 : Bool := false
  rsv2 : Bool := false
  rsv3 : Bool := false
  opcode : Opcode := .text
  mask : Bool := false
  maskingKey : Key := Key.zero
  payload : List UInt8 := []
  deriving DecidableEq, Repr

/-- `FrameBuilder::build_into`: the payload is masked in place first, then the header is
written out once more, with all three reserved bits. -/
def FrameBuilder.buildInto (self : FrameBuilder) (generated : Key) (out : List UInt8) :
    List UInt8 :=
  let self := if self.mask then
      { self with maskingKey := generated, payload := applyMask generated self.payload }
    else self
  let out := out.take 0
  let first := self.opcode.toU8 &&& 0x0F
  let first := if self.fin then first ||| 0x80 else first
  let first := if self.rsv1 then first ||| 0x40 else first
  let first := if self.rsv2 then first ||| 0x20 else first
  let first := if self.rsv3 then first ||| 0x10 else first
  let out := out ++ [first]
  let len := self.payload.length
  let maskBit : UInt8 := if self.mask then 0x80 else 0
  let out :=
    if len < 126 then out ++ [maskBit ||| UInt8.ofNat len]
    else if len ≤ 0xFFFF then
      out ++ [maskBit ||| 126] ++ [UInt8.ofNat (len >>> 8)] ++ [UInt8.ofNat (len &&& 0xFF)]
    else
      out ++ [maskBit ||| 127] ++
        ([7, 6, 5, 4, 3, 2, 1, 0].map fun i => UInt8.ofNat (len >>> (i * 8)))
  let out := if self.mask then out ++ self.maskingKey.toList else out
  out ++ self.payload

/-- `FrameBuilder::build`. -/
def FrameBuilder.build (self : FrameBuilder) (generated : Key) : List UInt8 :=
  self.buildInto generated []

/-- The second header byte and the extended length, as `push_header` and
`FrameBuilder::build_into` both push them. -/
lemma pushLength_eq (out : List UInt8) (mask : Bool) {m : UInt8}
    (hm : m = if mask then 0x80 else 0) (n : ℕ) :
    (if n < 126 then out ++ [m ||| UInt8.ofNat n]
      else if n ≤ 0xFFFF then
        out ++ [m ||| 126] ++ [UInt8.ofNat (n >>> 8)] ++ [UInt8.ofNat (n &&& 0xFF)]
      else
        out ++ [m ||| 127] ++
          ([7, 6, 5, 4, 3, 2, 1, 0].map fun i => UInt8.ofNat (n >>> (i * 8)))) =
      out ++ secondByte mask ((LenForm.shortest n).code n) :: (LenForm.shortest n).bytes n := by
  simp only [LenForm.shortest, ofNat_and_ff, secondByte, ← hm]
  split_ifs <;>
    first
      | omega
      | simp [LenForm.code, LenForm.bytes, beBytes, leBytes, Nat.shiftRight_eq_div_pow,
          Nat.div_div_eq_div_mul]

lemma pushFirst_eq (op : Opcode) (fin rsv1 : Bool) :
    (if rsv1 then (if fin then (op.toU8 &&& 0x0F) ||| 0x80 else op.toU8 &&& 0x0F) ||| 0x40
      else if fin then (op.toU8 &&& 0x0F) ||| 0x80 else op.toU8 &&& 0x0F) =
      firstByte fin rsv1 false false op.toU8 := by
  cases op <;> cases fin <;> cases rsv1 <;> decide

lemma pushHeader_eq (op : Opcode) (fin rsv1 mask : Bool) (n : ℕ) :
    pushHeader [] op fin rsv1 mask n =
      firstByte fin rsv1 false false op.toU8 ::
        secondByte mask ((LenForm.shortest n).code n) :: (LenForm.shortest n).bytes n := by
  rw [pushHeader, pushFirst_eq, pushLength_eq _ mask rfl]
  rfl

/-- **`encode_into` writes the wire format.** -/
theorem encodeInto_eq (out : List UInt8) (op : Opcode) (payload : List UInt8)
    (fin mask rsv1 : Bool) (key : Key) :
    encodeInto out op payload fin mask rsv1 key =
      encodeParts fin rsv1 false false op.toU8 (.shortest payload.length) (keyIf mask key)
        payload := by
  simp only [encodeInto, List.take_zero, pushHeader_eq, encodeParts, isSome_keyIf]
  cases mask <;> simp [keyIf, keyBytes, maskedWith, Rs.applyMask, Mask.applyMask_eq]

/-- **`FrameBuilder::build_into` writes the wire format**, reserved bits included. -/
theorem FrameBuilder.buildInto_eq (b : FrameBuilder) (key : Key) (out : List UInt8) :
    b.buildInto key out =
      encodeParts b.fin b.rsv1 b.rsv2 b.rsv3 b.opcode.toU8 (.shortest b.payload.length)
        (keyIf b.mask key) b.payload := by
  obtain ⟨fin, rsv1, rsv2, rsv3, op, mask, old, payload⟩ := b
  -- Masking keeps the length, so both branches of the mask flag write the same header.
  have hlen : (applyMask key payload).length = payload.length := by
    rw [Rs.applyMask, Mask.applyMask_eq, Mask.length_xorKey]
  have hfirst : ∀ first, first = firstByte fin rsv1 false false op.toU8 →
      (if rsv3 then (if rsv2 then first ||| 0x20 else first) ||| 0x10
        else if rsv2 then first ||| 0x20 else first) =
        firstByte fin rsv1 rsv2 rsv3 op.toU8 := by
    rintro first rfl
    cases op <;> cases fin <;> cases rsv1 <;> cases rsv2 <;> cases rsv3 <;> decide
  cases mask
  · rw [FrameBuilder.buildInto]
    simp only [Bool.false_eq_true, if_false, List.take_zero, List.nil_append]
    rw [hfirst _ (pushFirst_eq op fin rsv1),
      pushLength_eq [firstByte fin rsv1 rsv2 rsv3 op.toU8] false (m := 0) rfl, encodeParts]
    simp [keyIf, keyBytes, maskedWith]
  · rw [FrameBuilder.buildInto]
    simp only [if_true, hlen, List.take_zero, List.nil_append]
    rw [hfirst _ (pushFirst_eq op fin rsv1),
      pushLength_eq [firstByte fin rsv1 rsv2 rsv3 op.toU8] true (m := 0x80) rfl,
      Rs.applyMask, Mask.applyMask_eq, encodeParts]
    simp [keyIf, keyBytes, maskedWith]

/-- **`build_close_into` writes the wire format.** -/
theorem buildCloseInto_eq (out : List UInt8) (code : UInt16) (reason : List UInt8)
    (mask : Bool) (key : Key) :
    buildCloseInto out code reason mask key =
      encodeParts true false false false Opcode.close.toU8
        (.shortest (closeCodeBytes code ++ reason).length) (keyIf mask key)
        (closeCodeBytes code ++ reason) := by
  have hlen : (closeCodeBytes code ++ reason).length = 2 + reason.length := by
    simp [closeCodeBytes]
    omega
  simp only [buildCloseInto, List.take_zero, pushHeader_eq, encodeParts, isSome_keyIf, hlen]
  cases mask <;>
    simp [keyIf, keyBytes, maskedWith, Rs.applyMask, Mask.applyMask_eq, closeCodeBytes]

end Rs

/-! ## Agreement -/

/-- **All encoders write the same bytes.**  Whatever the reused buffers held, and on either
host, the three data encoders agree on every frame they can all express, and the close
encoders write the generic encoding of a final CLOSE frame whose payload is the big-endian
status code and the reason. -/
theorem encoders_agree (host : Endian) (out out' out'' : List UInt8) :
    (∀ op payload fin rsv1 mask key,
      Rs.encodeInto out' op payload fin mask rsv1 key =
        Cpp.buildInto host out op payload fin mask key rsv1 ∧
      Rs.buildIntoOpcode out' op payload fin mask rsv1 key =
        Cpp.buildInto host out op payload fin mask key rsv1 ∧
      Rs.buildOpcode op payload fin mask key =
        Cpp.buildInto host out op payload fin mask key false ∧
      ∀ old, Rs.FrameBuilder.buildInto
          ⟨fin, rsv1, false, false, op, mask, old, payload⟩ key out'' =
        Cpp.buildInto host out op payload fin mask key rsv1) ∧
    ∀ (code : UInt16) reason mask key,
      Cpp.buildCloseInto host out code reason mask key =
        Cpp.buildInto host out' .close
          ([UInt8.ofNat (code.toNat / 256), UInt8.ofNat (code.toNat % 256)] ++ reason)
          true mask key false ∧
      Rs.buildCloseInto out code reason mask key =
        Rs.encodeInto out' .close
          ([UInt8.ofNat (code.toNat / 256), UInt8.ofNat (code.toNat % 256)] ++ reason)
          true mask false key := by
  constructor
  · intro op payload fin rsv1 mask key
    refine ⟨?_, ?_, ?_, ?_⟩
    · rw [Rs.encodeInto_eq, Cpp.buildInto_eq]
    · rw [Rs.buildIntoOpcode, Rs.encodeInto_eq, Cpp.buildInto_eq]
    · rw [Rs.buildOpcode, Rs.encodeInto_eq, Cpp.buildInto_eq]
    · intro old
      rw [Rs.FrameBuilder.buildInto_eq, Cpp.buildInto_eq]
  · intro code reason mask key
    rw [← closeCodeBytes_eq, Cpp.buildCloseInto_eq, Rs.buildCloseInto_eq, Cpp.buildInto_eq,
      Rs.encodeInto_eq]
    exact ⟨rfl, rfl⟩

end Wscpp
