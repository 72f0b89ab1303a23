import Mathlib.Data.List.Induction
import Mathlib.Tactic.Ring

/-!
# Byte strings packed into machine words

A machine that copies bytes into a word, combines words bit by bit, and copies the bytes
back computes the same function as a loop over single bytes, whatever the byte order of the
machine.  This file is the arithmetic behind that statement: `load` and `store` between a
byte string and the number it denotes on a little-endian or big-endian host, their round
trip (`store_load`), and the two facts that make word-wide operations byte-wide ones
(`load_xor` and `load_and_eq_zero_iff`).

It also holds the big-endian fold `beFold` that network formats use for multi-byte lengths,
with its inverse `beBytes`.

Nothing here refers to a particular program.  Words are natural numbers; every operation
used on them is bitwise, so no width is needed beyond the number of bytes stored.
-/

namespace Wscpp.Words

/-- Byte order of the host. -/
inductive Endian
  | little
  | big
  deriving DecidableEq, Repr

/-! ## Little-endian values -/

/-- The number a byte string denotes, least significant byte first. -/
def leValue : List UInt8 → ℕ
  | [] => 0
  | b :: bs => b.toNat + 256 * leValue bs

/-- The `n` low bytes of a number, least significant first. -/
def leBytes : ℕ → ℕ → List UInt8
  | 0, _ => []
  | n + 1, v => UInt8.ofNat v :: leBytes n (v / 256)

@[simp] lemma length_leBytes (n v : ℕ) : (leBytes n v).length = n := by
  induction n generalizing v with
  | zero => rfl
  | succ n ih => simp [leBytes, ih]

lemma leBytes_leValue (bs : List UInt8) : leBytes bs.length (leValue bs) = bs := by
  induction bs with
  | nil => rfl
  | cons b bs ih =>
      have hb : b.toNat < 256 := b.toNat_lt
      have hhead : UInt8.ofNat (b.toNat + 256 * leValue bs) = b := by
        apply UInt8.toNat_inj.mp
        rw [UInt8.toNat_ofNat']
        omega
      have htail : (b.toNat + 256 * leValue bs) / 256 = leValue bs := by omega
      rw [List.length_cons, leValue, leBytes, hhead, htail, ih]

lemma leValue_append (a b : List UInt8) :
    leValue (a ++ b) = leValue a + 256 ^ a.length * leValue b := by
  induction a with
  | nil => simp [leValue]
  | cons x a ih =>
      rw [List.cons_append, leValue, ih, leValue, List.length_cons, pow_succ]
      ring

lemma leValue_lt (bs : List UInt8) : leValue bs < 256 ^ bs.length := by
  induction bs with
  | nil => simp [leValue]
  | cons b bs ih =>
      have hb : b.toNat < 256 := b.toNat_lt
      rw [leValue, List.length_cons, pow_succ]
      omega

/-- A bitwise operation acts on the low byte and on the rest separately. -/
lemma xor_byte {a b : ℕ} (ha : a < 256) (hb : b < 256) (x y : ℕ) :
    (a + 256 * x) ^^^ (b + 256 * y) = (a ^^^ b) + 256 * (x ^^^ y) := by
  have hab : a ^^^ b < 256 := Nat.xor_lt_two_pow (n := 8) ha hb
  have hmod : ((a + 256 * x) ^^^ (b + 256 * y)) % 2 ^ 8 = a ^^^ b := by
    rw [Nat.xor_mod_two_pow]
    congr 1 <;> omega
  have hdiv : ((a + 256 * x) ^^^ (b + 256 * y)) / 2 ^ 8 = x ^^^ y := by
    rw [Nat.xor_div_two_pow]
    congr 1 <;> omega
  omega

lemma and_byte {a b : ℕ} (ha : a < 256) (hb : b < 256) (x y : ℕ) :
    (a + 256 * x) &&& (b + 256 * y) = (a &&& b) + 256 * (x &&& y) := by
  have hab : a &&& b < 256 := Nat.and_lt_two_pow a (n := 8) hb
  have hmod : ((a + 256 * x) &&& (b + 256 * y)) % 2 ^ 8 = a &&& b := by
    rw [Nat.and_mod_two_pow]
    congr 1 <;> omega
  have hdiv : ((a + 256 * x) &&& (b + 256 * y)) / 2 ^ 8 = x &&& y := by
    rw [Nat.and_div_two_pow]
    congr 1 <;> omega
  omega

lemma leValue_xor : ∀ a b : List UInt8, a.length = b.length →
    leValue a ^^^ leValue b = leValue (List.zipWith (· ^^^ ·) a b)
  | [], [], _ => by simp [leValue]
  | x :: a, y :: b, h => by
      have hx : x.toNat < 256 := x.toNat_lt
      have hy : y.toNat < 256 := y.toNat_lt
      rw [leValue, leValue, xor_byte hx hy, leValue_xor a b (by simpa using h),
        List.zipWith_cons_cons, leValue, UInt8.toNat_xor]

/-- A repeated mask byte tests every byte of the word. -/
lemma leValue_and_replicate_eq_zero (m : UInt8) : ∀ bs : List UInt8,
    leValue bs &&& leValue (List.replicate bs.length m) = 0 ↔ ∀ b ∈ bs, b &&& m = 0
  | [] => by simp [leValue]
  | b :: bs => by
      have hb : b.toNat < 256 := b.toNat_lt
      have hm : m.toNat < 256 := m.toNat_lt
      have hbyte : b &&& m = 0 ↔ b.toNat &&& m.toNat = 0 := by
        rw [← UInt8.toNat_and]
        exact ⟨fun h => by simp [h], fun h => UInt8.toNat_inj.mp (by simpa using h)⟩
      rw [List.length_cons, List.replicate_succ, leValue, leValue, and_byte hb hm,
        List.forall_mem_cons, ← leValue_and_replicate_eq_zero m bs, hbyte]
      omega

/-! ## Loads and stores on a host of either byte order -/

/-- The word a host reads from a byte string. -/
def load : Endian → List UInt8 → ℕ
  | .little, bs => leValue bs
  | .big, bs => leValue bs.reverse

/-- The `n` bytes a host writes for a word. -/
def store : Endian → ℕ → ℕ → List UInt8
  | .little, n, v => leBytes n v
  | .big, n, v => (leBytes n v).reverse

/-- **Storing a loaded word gives the bytes back.** -/
lemma store_load (e : Endian) (bs : List UInt8) : store e bs.length (load e bs) = bs := by
  cases e with
  | little => exact leBytes_leValue bs
  | big =>
      have h := leBytes_leValue bs.reverse
      rw [List.length_reverse] at h
      rw [store, load, h, List.reverse_reverse]

/-- **A word-wide exclusive or is a byte-wide one**, on either byte order. -/
lemma load_xor (e : Endian) (a b : List UInt8) (h : a.length = b.length) :
    load e a ^^^ load e b = load e (List.zipWith (· ^^^ ·) a b) := by
  cases e with
  | little => exact leValue_xor a b h
  | big =>
      rw [load, load, load, leValue_xor _ _ (by simpa using h), List.reverse_zipWith h]

/-- Loading a string twice over is the word repeated in both halves. -/
lemma load_double (e : Endian) (k : List UInt8) :
    load e k ||| (load e k) <<< (8 * k.length) = load e (k ++ k) := by
  have hpow : (256 : ℕ) ^ k.length = 2 ^ (8 * k.length) := by
    rw [pow_mul]
    rfl
  have key : ∀ v : List UInt8, v.length = k.length →
      leValue v ||| (leValue v) <<< (8 * k.length) = leValue (v ++ v) := by
    intro v hv
    have hlt : leValue v < 2 ^ (8 * k.length) := by
      rw [← hpow, ← hv]
      exact leValue_lt v
    rw [Nat.or_comm, ← Nat.shiftLeft_add_eq_or_of_lt hlt, leValue_append, hv, hpow,
      Nat.shiftLeft_eq]
    ring
  cases e with
  | little => exact key k rfl
  | big => simpa [load] using key k.reverse (by simp)

lemma load_and_replicate_eq_zero (e : Endian) (m : UInt8) (bs : List UInt8) :
    load e bs &&& leValue (List.replicate bs.length m) = 0 ↔ ∀ b ∈ bs, b &&& m = 0 := by
  cases e with
  | little => exact leValue_and_replicate_eq_zero m bs
  | big => simpa [load] using leValue_and_replicate_eq_zero m bs.reverse

/-! ## Big-endian folds -/

/-- Shift-and-or accumulation of bytes, most significant first. -/
def beFold (bs : List UInt8) : ℕ :=
  bs.foldl (fun acc b => (acc <<< 8) ||| b.toNat) 0

/-- The `n` bytes of a number, most significant first. -/
def beBytes (n v : ℕ) : List UInt8 := (leBytes n v).reverse

@[simp] lemma length_beBytes (n v : ℕ) : (beBytes n v).length = n := by
  simp [beBytes]

lemma beFold_eq_leValue_reverse (bs : List UInt8) : beFold bs = leValue bs.reverse := by
  have step : ∀ (acc : ℕ) (b : UInt8), (acc <<< 8) ||| b.toNat = b.toNat + 256 * acc := by
    intro acc b
    rw [← Nat.shiftLeft_add_eq_or_of_lt (i := 8) b.toNat_lt, Nat.shiftLeft_eq]
    ring
  induction bs using List.reverseRecOn with
  | nil => rfl
  | append_singleton bs b ih =>
      rw [beFold] at ih ⊢
      rw [List.foldl_append, List.foldl_cons, List.foldl_nil, ih, step, List.reverse_append,
        List.reverse_singleton, List.singleton_append, leValue]

lemma beFold_lt (bs : List UInt8) : beFold bs < 256 ^ bs.length := by
  rw [beFold_eq_leValue_reverse]
  simpa using leValue_lt bs.reverse

lemma leValue_leBytes (n v : ℕ) : leValue (leBytes n v) = v % 256 ^ n := by
  induction n generalizing v with
  | zero => simp [leBytes, leValue, Nat.mod_one]
  | succ n ih =>
      have hbyte : (UInt8.ofNat v).toNat = v % 256 := UInt8.toNat_ofNat'
      rw [leBytes, leValue, ih, hbyte, pow_succ, Nat.mul_comm (256 ^ n) 256, Nat.mod_mul]

/-- **Reading back a big-endian rendering.** -/
lemma beFold_beBytes {n v : ℕ} (h : v < 256 ^ n) : beFold (beBytes n v) = v := by
  rw [beFold_eq_leValue_reverse, beBytes, List.reverse_reverse, leValue_leBytes,
    Nat.mod_eq_of_lt h]

lemma beBytes_beFold (bs : List UInt8) : beBytes bs.length (beFold bs) = bs := by
  rw [beFold_eq_leValue_reverse, beBytes]
  have h := leBytes_leValue bs.reverse
  rw [List.length_reverse] at h
  rw [h, List.reverse_reverse]

end Wscpp.Words
