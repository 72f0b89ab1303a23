import Wscpp.Frame.Mask

/-!
# Frames on the wire

This is the abstract layer of the frame format: RFC 6455 §5.2 as data, independent of either
implementation.  A `WireFrame` is one frame as it can stand on the wire, with its four flag
bits, its opcode nibble (reserved values included), the way its length is written, its
masking key if it has one, and its payload before masking.  `WireFrame.encode` is its byte
string.

A frame need not be valid.  Nothing ties the length form to the length beyond being able to
hold it, so a length may be written in more bytes than it needs; nothing restricts the flags
or the opcode.  The two decoders are compared with this format, the two encoders are shown to
produce it, and a frame's validity is a separate question (`Wscpp.Frame.Grammar`).
-/

namespace Wscpp

open Words

/-! ## How a length is written -/

/-- The three length encodings. -/
inductive LenForm
  | short
  | ext16
  | ext64
  deriving DecidableEq, Repr

namespace LenForm

/-- The 7-bit length field. -/
def code : LenForm → ℕ → ℕ
  | short, n => n
  | ext16, _ => 126
  | ext64, _ => 127

/-- The extended length bytes. -/
def bytes : LenForm → ℕ → List UInt8
  | short, _ => []
  | ext16, n => beBytes 2 n
  | ext64, n => beBytes 8 n

/-- The lengths a form can hold. -/
def Holds : LenForm → ℕ → Prop
  | short, n => n ≤ 125
  | ext16, n => n < 2 ^ 16
  | ext64, n => n < 2 ^ 64

instance (form : LenForm) (n : ℕ) : Decidable (form.Holds n) :=
  match form with
  | short => inferInstanceAs (Decidable (n ≤ 125))
  | ext16 => inferInstanceAs (Decidable (n < 2 ^ 16))
  | ext64 => inferInstanceAs (Decidable (n < 2 ^ 64))

/-- The shortest form of a length. -/
def shortest (n : ℕ) : LenForm :=
  if n ≤ 125 then short else if n ≤ 65535 then ext16 else ext64

lemma holds_shortest {n : ℕ} (h : n < 2 ^ 64) : (shortest n).Holds n := by
  rw [shortest]
  split_ifs with h1 h2
  · exact h1
  · exact Nat.lt_succ_of_le h2
  · exact h

lemma code_lt {form : LenForm} {n : ℕ} (h : form.Holds n) : form.code n < 128 := by
  cases form with
  | short => exact Nat.lt_of_le_of_lt h (by omega)
  | ext16 => exact (by decide : 126 < 128)
  | ext64 => exact (by decide : 127 < 128)

lemma code_shortest_lt (n : ℕ) : (shortest n).code n < 128 := by
  rw [shortest]
  split_ifs with h1 h2
  · exact Nat.lt_of_le_of_lt h1 (by decide)
  · exact (by decide : 126 < 128)
  · exact (by decide : 127 < 128)

lemma shortest_eq_of_code_eq {n m : ℕ}
    (h : (shortest n).code n = (shortest m).code m) : shortest n = shortest m := by
  simp only [shortest] at h ⊢
  split_ifs at h ⊢ <;> simp only [code] at h <;> first | rfl | omega

lemma eq_of_code_eq {form form' : LenForm} {n m : ℕ} (h : form.Holds n)
    (h' : form'.Holds m) (hcode : form.code n = form'.code m) : form = form' := by
  cases form <;> cases form' <;> simp only [code, Holds] at hcode h h' <;> first | rfl | omega

lemma length_bytes (form : LenForm) (n m : ℕ) :
    (form.bytes n).length = (form.bytes m).length := by
  cases form <;> simp [bytes]

end LenForm

/-! ## Header bytes -/

/-- The first header byte: flags and opcode nibble. -/
def firstByte (fin rsv1 rsv2 rsv3 : Bool) (op : UInt8) : UInt8 :=
  (if fin then 0x80 else 0) ||| (if rsv1 then 0x40 else 0) ||| (if rsv2 then 0x20 else 0) |||
    (if rsv3 then 0x10 else 0) ||| op

/-- The second header byte: mask bit and length field. -/
def secondByte (mask : Bool) (code : ℕ) : UInt8 :=
  (if mask then 0x80 else 0) ||| UInt8.ofNat code

/-- The flags and the nibble can be read back from the first byte. -/
lemma firstByte_bits (fin rsv1 rsv2 rsv3 : Bool) (op : UInt8) (h : op.toNat < 16) :
    (firstByte fin rsv1 rsv2 rsv3 op &&& 0x80 != 0) = fin ∧
    (firstByte fin rsv1 rsv2 rsv3 op &&& 0x40 != 0) = rsv1 ∧
    (firstByte fin rsv1 rsv2 rsv3 op &&& 0x20 != 0) = rsv2 ∧
    (firstByte fin rsv1 rsv2 rsv3 op &&& 0x10 != 0) = rsv3 ∧
    firstByte fin rsv1 rsv2 rsv3 op &&& 0x0F = op := by
  have table : ∀ (fin rsv1 rsv2 rsv3 : Bool) (n : Fin 16),
      (firstByte fin rsv1 rsv2 rsv3 (UInt8.ofNat n) &&& 0x80 != 0) = fin ∧
      (firstByte fin rsv1 rsv2 rsv3 (UInt8.ofNat n) &&& 0x40 != 0) = rsv1 ∧
      (firstByte fin rsv1 rsv2 rsv3 (UInt8.ofNat n) &&& 0x20 != 0) = rsv2 ∧
      (firstByte fin rsv1 rsv2 rsv3 (UInt8.ofNat n) &&& 0x10 != 0) = rsv3 ∧
      firstByte fin rsv1 rsv2 rsv3 (UInt8.ofNat n) &&& 0x0F = UInt8.ofNat n := by
    decide +kernel
  simpa using table fin rsv1 rsv2 rsv3 ⟨op.toNat, h⟩

/-- The mask bit and the length field can be read back from the second byte. -/
lemma secondByte_bits (mask : Bool) (code : ℕ) (h : code < 128) :
    (secondByte mask code &&& 0x80 != 0) = mask ∧
    (secondByte mask code &&& 0x7F).toNat = code := by
  have table : ∀ (mask : Bool) (n : Fin 128),
      (secondByte mask n &&& 0x80 != 0) = mask ∧ (secondByte mask n &&& 0x7F).toNat = n := by
    decide +kernel
  exact table mask ⟨code, h⟩

lemma eq_firstByte (b : UInt8) :
    b = firstByte (b &&& 0x80 != 0) (b &&& 0x40 != 0) (b &&& 0x20 != 0) (b &&& 0x10 != 0)
      (b &&& 0x0F) ∧ (b &&& 0x0F).toNat < 16 := by
  have table : ∀ n : Fin 256, UInt8.ofNat n =
      firstByte (UInt8.ofNat n &&& 0x80 != 0) (UInt8.ofNat n &&& 0x40 != 0)
        (UInt8.ofNat n &&& 0x20 != 0) (UInt8.ofNat n &&& 0x10 != 0) (UInt8.ofNat n &&& 0x0F) ∧
      (UInt8.ofNat n &&& 0x0F).toNat < 16 := by
    decide +kernel
  simpa using table ⟨b.toNat, b.toNat_lt⟩

lemma eq_secondByte (b : UInt8) :
    b = secondByte (b &&& 0x80 != 0) (b &&& 0x7F).toNat ∧ (b &&& 0x7F).toNat < 128 := by
  have table : ∀ n : Fin 256, UInt8.ofNat n =
      secondByte (UInt8.ofNat n &&& 0x80 != 0) (UInt8.ofNat n &&& 0x7F).toNat ∧
      (UInt8.ofNat n &&& 0x7F).toNat < 128 := by
    decide +kernel
  simpa using table ⟨b.toNat, b.toNat_lt⟩

/-! ## Frames -/

/-- A payload as it stands behind the header: masked if there is a key. -/
def maskedWith : Option Key → List UInt8 → List UInt8
  | none, payload => payload
  | some k, payload => Mask.xorKey k 0 payload

/-- The key bytes of a header. -/
def keyBytes : Option Key → List UInt8
  | none => []
  | some k => k.toList

@[simp] lemma length_maskedWith (key : Option Key) (payload : List UInt8) :
    (maskedWith key payload).length = payload.length := by
  cases key <;> simp [maskedWith]

@[simp] lemma maskedWith_maskedWith (key : Option Key) (payload : List UInt8) :
    maskedWith key (maskedWith key payload) = payload := by
  cases key <;> simp [maskedWith]

lemma length_keyBytes (key : Option Key) :
    (keyBytes key).length = if key.isSome then 4 else 0 := by
  cases key <;> rfl

/-- The byte string of a frame given by its parts. -/
def encodeParts (fin rsv1 rsv2 rsv3 : Bool) (op : UInt8) (form : LenForm) (key : Option Key)
    (payload : List UInt8) : List UInt8 :=
  firstByte fin rsv1 rsv2 rsv3 op :: secondByte key.isSome (form.code payload.length) ::
    (form.bytes payload.length ++ keyBytes key ++ maskedWith key payload)

/-- **A frame in the shortest form shows its opcode and its payload.** -/
lemma encodeParts_shortest_injective {fin rsv1 rsv2 rsv3 : Bool} {op op' : Opcode}
    {key : Option Key} {x y : List UInt8}
    (h : encodeParts fin rsv1 rsv2 rsv3 op.toU8 (.shortest x.length) key x =
      encodeParts fin rsv1 rsv2 rsv3 op'.toU8 (.shortest y.length) key y) : op = op' ∧ x = y := by
  simp only [encodeParts, List.cons.injEq, List.append_assoc] at h
  obtain ⟨hfirst, hsecond, hrest⟩ := h
  have hop : op = op' := by
    have hbits := (firstByte_bits fin rsv1 rsv2 rsv3 op.toU8 op.toU8_lt).2.2.2.2
    rw [hfirst, (firstByte_bits fin rsv1 rsv2 rsv3 op'.toU8 op'.toU8_lt).2.2.2.2] at hbits
    exact Opcode.toU8_injective hbits.symm
  have hcode : (LenForm.shortest x.length).code x.length =
      (LenForm.shortest y.length).code y.length := by
    have hbits := (secondByte_bits key.isSome _ (LenForm.code_shortest_lt x.length)).2
    rw [hsecond, (secondByte_bits key.isSome _ (LenForm.code_shortest_lt y.length)).2] at hbits
    exact hbits.symm
  rw [LenForm.shortest_eq_of_code_eq hcode] at hrest
  have hlen := LenForm.length_bytes (.shortest y.length) x.length y.length
  have hmasked := (List.append_inj (List.append_inj hrest hlen).2 rfl).2
  exact ⟨hop, by rw [← maskedWith_maskedWith key x, hmasked, maskedWith_maskedWith]⟩

/-- One frame as it can stand on the wire. -/
structure WireFrame where
  fin : Bool
  rsv1 : Bool
  rsv2 : Bool
  rsv3 : Bool
  /-- The opcode nibble, reserved values included. -/
  op : UInt8
  form : LenForm
  /-- The masking key, when the mask bit is set. -/
  key : Option Key
  /-- The payload before masking. -/
  payload : List UInt8
  op_lt : op.toNat < 16
  form_holds : form.Holds payload.length

namespace WireFrame

/-- The byte string of a frame. -/
def encode (f : WireFrame) : List UInt8 :=
  encodeParts f.fin f.rsv1 f.rsv2 f.rsv3 f.op f.form f.key f.payload

/-- The frame an endpoint emits: shortest length form, `RSV2 = RSV3 = 0`. -/
def emitted (fin rsv1 : Bool) (op : Opcode) (key : Option Key) (payload : List UInt8)
    (h : payload.length < 2 ^ 64) : WireFrame where
  fin := fin
  rsv1 := rsv1
  rsv2 := false
  rsv3 := false
  op := op.toU8
  form := .shortest payload.length
  key := key
  payload := payload
  op_lt := op.toU8_lt
  form_holds := LenForm.holds_shortest h

lemma encode_ne_nil (f : WireFrame) : f.encode ≠ [] := by
  simp [encode, encodeParts]

/-- Two frames with the same byte string have payloads of the same length. -/
lemma length_eq_of_encode_eq {f g : WireFrame} (h : f.encode = g.encode) :
    f.payload.length = g.payload.length := by
  simp only [encode, encodeParts, List.cons.injEq] at h
  obtain ⟨-, hsecond, hrest⟩ := h
  have hf := secondByte_bits f.key.isSome _ (LenForm.code_lt f.form_holds)
  have hg := secondByte_bits g.key.isSome _ (LenForm.code_lt g.form_holds)
  rw [hsecond] at hf
  have hkey : f.key.isSome = g.key.isSome := hf.1.symm.trans hg.1
  have hform : f.form = g.form :=
    LenForm.eq_of_code_eq f.form_holds g.form_holds (hf.2.symm.trans hg.2)
  have hbytes := LenForm.length_bytes g.form f.payload.length g.payload.length
  have hlen := congrArg List.length hrest
  simp only [List.length_append, length_keyBytes, length_maskedWith, hkey, hform, hbytes] at hlen
  omega

end WireFrame

/-- The opcode nibble of a byte string that is a frame. -/
def opcodeNibble : List UInt8 → Option UInt8
  | [] => none
  | b :: _ => some (b &&& 0x0F)

/-- Whether a byte string written to the wire is a CLOSE frame. -/
def isCloseFrame (bs : List UInt8) : Bool := opcodeNibble bs == some Opcode.close.toU8

lemma opcodeNibble_encodeParts (fin rsv1 rsv2 rsv3 : Bool) {op : UInt8} (h : op.toNat < 16)
    (form : LenForm) (key : Option Key) (payload : List UInt8) :
    opcodeNibble (encodeParts fin rsv1 rsv2 rsv3 op form key payload) = some op := by
  rw [encodeParts, opcodeNibble, (firstByte_bits fin rsv1 rsv2 rsv3 op h).2.2.2.2]

/-! ## CLOSE frames in what was written -/

/-- No frame of the list is a CLOSE frame. -/
def NoClose (frames : List (List UInt8)) : Prop := ∀ f ∈ frames, isCloseFrame f = false

instance (frames : List (List UInt8)) : Decidable (NoClose frames) :=
  inferInstanceAs (Decidable (∀ f ∈ frames, isCloseFrame f = false))

lemma noClose_nil : NoClose [] := by simp [NoClose]

lemma NoClose.append {frames : List (List UInt8)} {f : List UInt8} (h : NoClose frames)
    (hf : isCloseFrame f = false) : NoClose (frames ++ [f]) := by
  intro g hg
  rcases List.mem_append.mp hg with hg | hg
  · exact h g hg
  · rwa [List.mem_singleton.mp hg]

lemma isCloseFrame_encodeParts (fin rsv1 : Bool) (op : Opcode) (form : LenForm) (key : Option Key)
    (payload : List UInt8) :
    isCloseFrame (encodeParts fin rsv1 false false op.toU8 form key payload) = (op == .close) := by
  rw [isCloseFrame, opcodeNibble_encodeParts fin rsv1 false false op.toU8_lt]
  cases op <;> rfl

/-- Nothing follows a CLOSE frame. -/
def CloseIsLast (frames : List (List UInt8)) : Prop :=
  ∀ a f b, frames = a ++ f :: b → isCloseFrame f = true → b = []

lemma closeIsLast_append {out last : List (List UInt8)} (hout : NoClose out)
    (hlast : last.length ≤ 1) : CloseIsLast (out ++ last) := by
  intro a f b heq hclose
  rcases List.append_eq_append_iff.mp heq with ⟨d, -, hd⟩ | ⟨d, rfl, hd⟩
  · -- the CLOSE frame is in `last`
    have hlen := congrArg List.length hd
    simp only [List.length_append, List.length_cons] at hlen
    exact List.eq_nil_of_length_eq_zero (by omega)
  · cases d with
    | nil =>
        rw [List.nil_append] at hd
        have hlen := congrArg List.length hd
        simp only [List.length_cons] at hlen
        exact List.eq_nil_of_length_eq_zero (by omega)
    | cons g d =>
        simp only [List.cons_append, List.cons.injEq] at hd
        have := hout f (by rw [hd.1]; simp)
        rw [this] at hclose
        simp at hclose

lemma CloseIsLast.of_cons {f : List UInt8} {frames : List (List UInt8)}
    (h : CloseIsLast (f :: frames)) : CloseIsLast frames := fun a g b heq hclose =>
  h (f :: a) g b (by rw [heq, List.cons_append]) hclose

/-- When nothing follows a CLOSE frame, there is at most one. -/
lemma CloseIsLast.at_most_one {frames : List (List UInt8)} (h : CloseIsLast frames) :
    (frames.filter isCloseFrame).length ≤ 1 := by
  induction frames with
  | nil => simp
  | cons f frames ih =>
      by_cases hclose : isCloseFrame f = true
      · rw [h [] f frames rfl hclose, List.filter_cons_of_pos hclose]
        simp
      · rw [List.filter_cons_of_neg hclose]
        exact ih h.of_cons

end Wscpp
