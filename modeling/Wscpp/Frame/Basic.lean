import Mathlib.Data.List.Basic

/-!
# Frames

The data types both implementations share: opcodes (`frame/parser.hpp`, `frame/parser.rs`),
endpoint roles, masking keys, and the RFC 6455 §7.4 close codes
(`connection::impl::is_valid_close_code` and `close.rs`).

The two implementations read the opcode nibble differently.  wscpp casts any nibble into its
`enum class opcode : uint8_t` and rejects reserved values later; ws-rs maps it through
`Opcode::from_u8` and stops at a reserved value.  `Opcode` is the enumeration itself,
`Opcode.toU8` its discriminant and `Opcode.fromU8` the partial inverse.
-/

namespace Wscpp

/-! ## Opcodes -/

/-- RFC 6455 frame opcodes. -/
inductive Opcode
  | continuation
  | text
  | binary
  | close
  | ping
  | pong
  deriving DecidableEq, Repr

namespace Opcode

/-- The discriminant of the enumeration. -/
def toU8 : Opcode → UInt8
  | continuation => 0x0
  | text => 0x1
  | binary => 0x2
  | close => 0x8
  | ping => 0x9
  | pong => 0xA

/-- `Opcode::from_u8`. -/
def fromU8 (v : UInt8) : Option Opcode :=
  if v = 0x0 then some continuation
  else if v = 0x1 then some text
  else if v = 0x2 then some binary
  else if v = 0x8 then some close
  else if v = 0x9 then some ping
  else if v = 0xA then some pong
  else none

/-- Control frames: close, ping and pong. -/
def isControl : Opcode → Bool
  | close | ping | pong => true
  | continuation | text | binary => false

@[simp] lemma fromU8_toU8 (op : Opcode) : fromU8 op.toU8 = some op := by
  cases op <;> rfl

lemma toU8_injective {a b : Opcode} (h : a.toU8 = b.toU8) : a = b := by
  have := fromU8_toU8 a
  rw [h, fromU8_toU8] at this
  exact (Option.some.inj this).symm

lemma toU8_lt (op : Opcode) : op.toU8.toNat < 16 := by
  cases op <;> decide

/-- A nibble decodes to an opcode exactly when it is that opcode's discriminant. -/
lemma fromU8_eq_some {v : UInt8} {op : Opcode} : fromU8 v = some op ↔ v = op.toU8 := by
  constructor
  · intro h
    simp only [fromU8] at h
    split_ifs at h with h0 h1 h2 h8 h9 ha <;> cases h <;> assumption
  · rintro rfl
    exact fromU8_toU8 op

/-- The range test both implementations use for a defined opcode:
`op <= 2 || (op >= 8 && op <= 10)`. -/
lemma fromU8_isSome_iff (v : UInt8) :
    (fromU8 v).isSome ↔ v ≤ 0x02 ∨ (0x08 ≤ v ∧ v ≤ 0x0A) := by
  constructor
  · intro h
    obtain ⟨op, hop⟩ := Option.isSome_iff_exists.mp h
    rw [fromU8_eq_some.mp hop]
    cases op <;> decide
  · intro h
    have hv : v = 0x0 ∨ v = 0x1 ∨ v = 0x2 ∨ v = 0x8 ∨ v = 0x9 ∨ v = 0xA := by
      simp only [UInt8.le_iff_toNat_le, ← UInt8.toNat_inj] at h ⊢
      simp at h ⊢
      omega
    rcases hv with rfl | rfl | rfl | rfl | rfl | rfl <;> rfl

end Opcode

/-! ## Roles and keys -/

/-- Endpoint role: a client masks what it sends and expects unmasked frames, a server the
other way round. -/
inductive Role
  | client
  | server
  deriving DecidableEq, Repr

/-- The other end. -/
def Role.peer : Role → Role
  | .client => .server
  | .server => .client

/-- A four-byte masking key. -/
structure Key where
  b0 : UInt8
  b1 : UInt8
  b2 : UInt8
  b3 : UInt8
  deriving DecidableEq, Repr

namespace Key

/-- `{0, 0, 0, 0}`. -/
def zero : Key := ⟨0, 0, 0, 0⟩

/-- The key bytes in wire order. -/
def toList (k : Key) : List UInt8 := [k.b0, k.b1, k.b2, k.b3]

@[simp] lemma length_toList (k : Key) : k.toList.length = 4 := rfl

/-- `key[i & 3]`. -/
def byte (k : Key) (i : ℕ) : UInt8 :=
  match i % 4 with
  | 0 => k.b0
  | 1 => k.b1
  | 2 => k.b2
  | _ => k.b3

lemma byte_congr (k : Key) (i j : ℕ) (h : i % 4 = j % 4) : k.byte i = k.byte j := by
  simp [Key.byte, h]

lemma byte_eq_getD (k : Key) (i : ℕ) : k.byte i = k.toList.getD (i % 4) 0 := by
  have hi : i % 4 < 4 := Nat.mod_lt i (by omega)
  unfold byte
  generalize i % 4 = j at hi ⊢
  match j, hi with
  | 0, _ | 1, _ | 2, _ | 3, _ => rfl

end Key

/-! ## Close codes -/

/-- `is_valid_close_code`, the same cascade of range tests in `connection.cpp` and
`close.rs`. -/
def isValidCloseCode (code : UInt16) : Bool :=
  if code < 1000 then false
  else if 1000 ≤ code ∧ code ≤ 1003 then true
  else if 1004 ≤ code ∧ code ≤ 1006 then false
  else if 1007 ≤ code ∧ code ≤ 1011 then true
  else if 1012 ≤ code ∧ code ≤ 2999 then false
  else code ≤ 4999

/-- `sanitize_close_code` of `close.rs`: invalid outbound codes become 1002. -/
def sanitizeCloseCode (code : UInt16) : UInt16 :=
  if isValidCloseCode code then code else 1002

lemma isValidCloseCode_sanitize (code : UInt16) :
    isValidCloseCode (sanitizeCloseCode code) = true := by
  rw [sanitizeCloseCode]
  split
  · assumption
  · decide

@[simp] lemma sanitizeCloseCode_idem (code : UInt16) :
    sanitizeCloseCode (sanitizeCloseCode code) = sanitizeCloseCode code := by
  rw [sanitizeCloseCode, if_pos (isValidCloseCode_sanitize code)]

/-- The two payload bytes of a status code: `code >> 8` and `code & 0xFF`. -/
def closeCodeBytes (code : UInt16) : List UInt8 :=
  [UInt8.ofNat (code.toNat >>> 8), UInt8.ofNat (code.toNat &&& 0xFF)]

lemma closeCodeBytes_eq (code : UInt16) :
    closeCodeBytes code = [UInt8.ofNat (code.toNat / 256), UInt8.ofNat (code.toNat % 256)] := by
  rw [closeCodeBytes, Nat.shiftRight_eq_div_pow, Nat.and_two_pow_sub_one_eq_mod (n := 8)]

/-- The status code two payload bytes carry: `(b0 << 8) | b1`. -/
def closeCodeOf (b0 b1 : UInt8) : UInt16 :=
  UInt16.ofNat ((b0.toNat <<< 8) ||| b1.toNat)

/-- **The status code survives its rendering.** -/
lemma closeCodeOf_closeCodeBytes (code : UInt16) :
    closeCodeOf (UInt8.ofNat (code.toNat >>> 8)) (UInt8.ofNat (code.toNat &&& 0xFF)) = code := by
  have hc : code.toNat < 65536 := code.toNat_lt
  have hhi : (UInt8.ofNat (code.toNat >>> 8)).toNat = code.toNat / 256 := by
    rw [UInt8.toNat_ofNat', Nat.shiftRight_eq_div_pow]
    omega
  have hlo : (UInt8.ofNat (code.toNat &&& 0xFF)).toNat = code.toNat % 256 := by
    rw [UInt8.toNat_ofNat', Nat.and_two_pow_sub_one_eq_mod (n := 8)]
    omega
  apply UInt16.toNat_inj.mp
  rw [closeCodeOf, hhi, hlo, UInt16.toNat_ofNat',
    ← Nat.shiftLeft_add_eq_or_of_lt (i := 8) (by omega), Nat.shiftLeft_eq]
  omega

end Wscpp
