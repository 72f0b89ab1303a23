import Mathlib.Algebra.Group.Nat.Defs
import Mathlib.Algebra.Ring.Int.Defs
import Mathlib.Data.List.Basic
import Mathlib.Data.List.Range

/-!
# Reading and writing a socket

`linux_socket::write` and `linux_socket::read_raw` move a buffer through calls that may transfer
less than they are asked for.  Both go round the same loop: ask for what is left, leave with an
error if the call failed, and add what it transferred to `total`.  `transferLoop` is this loop, and
beside the total it keeps a record of the moves, each with its place in the buffer.

What the calls return is a parameter, one for `::send` and `::recv`, which take a `size_t` and
return an `ssize_t`, and one for `SSL_write` and `SSL_read`, which take and return an `int`.
`Calls.Obeys` is what their documentation says about the results, and `Calls.Progress` says besides
that no call fails that is asked for something.  The casts to `int` are `toInt`.

The total is always the number of bytes that were transferred, and these are the front of the buffer
in order (`transferLoop_contiguous`).  All of it is transferred as long as the count of the calls
does not suffer from the cast (`transferLoop_complete`).  With TLS, a buffer of `2 ^ 31` bytes or
more always ends in a call that is asked for zero bytes or for a negative number of them
(`transferLoop_fails`).
-/

namespace Wscpp.Cpp.LinuxSocket

/-! ## The calls -/

/-- `static_cast<int>`. -/
def toInt (x : ℤ) : ℤ := x.bmod (2 ^ 32)

/-- The errors that `write` and `read_raw` report. -/
inductive SocketError
  | notConnected
  /-- What `ssl_error` makes of the result of a call. -/
  | ssl (result : ℤ)
  | errno
  | brokenPipe
  | connectionReset
  deriving DecidableEq, Repr

/-- What the calls of one transfer return: the `i`-th one, if it is asked for so many bytes. -/
structure Calls where
  ssl : Bool
  /-- `::send` or `::recv`. -/
  raw : ℕ → ℕ → ℤ
  /-- `SSL_write` or `SSL_read`. -/
  tls : ℕ → ℤ → ℤ

namespace Calls

variable (k : Calls)

/-- The `n` of the loop, with `left` bytes left. -/
def count (i left : ℕ) : ℤ := if k.ssl then k.tls i (toInt left) else toInt (k.raw i left)

/-- How many bytes the call transfers. -/
def moved (i left : ℕ) : ℕ := if k.ssl then (k.tls i (toInt left)).toNat else (k.raw i left).toNat

/-- The error for an `n` that is not positive; `onZero` is that of a plain call that gives 0. -/
def error (onZero : SocketError) (n : ℤ) : SocketError :=
  if k.ssl then .ssl n else if n < 0 then .errno else onZero

/-- What the calls are documented to return.  No call transfers more than it is asked for, a plain
call no more than `INT_MAX`; a plain call that fails gives -1, and a call with TLS fails if its
count is not positive. -/
structure Obeys : Prop where
  raw_ge : ∀ i n, -1 ≤ k.raw i n
  raw_le : ∀ i n, k.raw i n ≤ n
  raw_le_max : ∀ i n, k.raw i n ≤ 2 ^ 31 - 1
  tls_le : ∀ i n, 0 < n → k.tls i n ≤ n
  tls_fails : ∀ i n, n ≤ 0 → k.tls i n ≤ 0

/-- No call fails that is asked for something. -/
structure Progress : Prop extends k.Obeys where
  raw_pos : ∀ i n, 0 < n → 1 ≤ k.raw i n
  tls_pos : ∀ i n, 0 < n → 1 ≤ k.tls i n

end Calls

/-! ## The loop -/

/-- What a transfer comes to: the total and the error code that are returned, and for each call the
place in the buffer and how many bytes it transferred. -/
structure Transfer where
  total : ℕ
  error : Option SocketError
  moves : List (ℕ × ℕ)
  deriving DecidableEq, Repr

/-- The loop of `write`, and that of `read_raw`, which leaves after one call if `exact` is not
set. -/
def transferLoop (k : Calls) (onZero : SocketError) (exact : Bool) (size i total : ℕ) : Transfer :=
  if total < size then
    let n := k.count i (size - total)
    let move := (total, k.moved i (size - total))
    if n ≤ 0 then ⟨total, some (k.error onZero n), [move]⟩
    else if exact then
      let r := transferLoop k onZero exact size (i + 1) (total + n.toNat)
      { r with moves := move :: r.moves }
    else ⟨total + n.toNat, none, [move]⟩
  else ⟨total, none, []⟩
termination_by size - total
decreasing_by omega

/-- What the peer gets. -/
def sentBytes (data : List UInt8) (moves : List (ℕ × ℕ)) : List UInt8 :=
  moves.flatMap fun move => (data.drop move.1).take move.2

/-- `write`: what it returns, and the bytes sent. -/
def write (k : Calls) (isOpen : Bool) (data : List UInt8) :
    ℕ × Option SocketError × List UInt8 :=
  if !isOpen then (0, some .notConnected, [])
  else
    let r := transferLoop k .brokenPipe true data.length 0 0
    (r.total, r.error, sentBytes data r.moves)

/-- The buffer once the bytes of the stream from `taken` on are stored in it, and how many are taken
then. -/
def storeBytes (stream : ℕ → UInt8) : List (ℕ × ℕ) → ℕ → List UInt8 → List UInt8 × ℕ
  | [], taken, buffer => (buffer, taken)
  | (place, n) :: moves, taken, buffer =>
      storeBytes stream moves (taken + n)
        (buffer.take place ++ (List.range n).map (fun j => stream (taken + j)) ++
          buffer.drop (place + n))

/-- `read_raw`: what it returns, the buffer, and how many bytes are taken from the stream. -/
def readRaw (k : Calls) (exact : Bool) (stream : ℕ → UInt8) (buffer : List UInt8) :
    ℕ × Option SocketError × List UInt8 × ℕ :=
  let r := transferLoop k .connectionReset exact buffer.length 0 0
  (r.total, r.error, storeBytes stream r.moves 0 buffer)

/-- `read`. -/
def read (k : Calls) (isOpen : Bool) (stream : ℕ → UInt8) (buffer : List UInt8) :
    ℕ × Option SocketError × List UInt8 × ℕ :=
  if !isOpen then (0, some .notConnected, buffer, 0) else readRaw k true stream buffer

/-! ## The counts -/

lemma toInt_of_lt {x : ℤ} (hge : -2 ^ 31 ≤ x) (hlt : x < 2 ^ 31) : toInt x = x := by
  rw [toInt, Int.bmod_def]
  split <;> omega

lemma toInt_le (left : ℕ) : toInt left ≤ left := by
  rw [toInt, Int.bmod_def]
  split <;> omega

/-- A large number of which the cast leaves something is still large without what it leaves. -/
lemma large_of_toInt {left : ℕ} (hlarge : 2 ^ 31 ≤ left) (hpos : 0 < toInt left) :
    2 ^ 31 ≤ (left : ℤ) - toInt left := by
  rw [toInt, Int.bmod_def] at hpos ⊢
  split at hpos <;> split <;> omega

namespace Calls

variable {k : Calls}

/-- What is counted is what is transferred, and no more than what is left. -/
lemma Obeys.moved_eq (h : k.Obeys) (i left : ℕ) : k.moved i left = (k.count i left).toNat := by
  rw [moved, count]
  cases k.ssl with
  | true => rfl
  | false =>
      have hge := h.raw_ge i left
      have hle := h.raw_le_max i left
      simp only [Bool.false_eq_true, if_false]
      rw [toInt_of_lt (by omega) (by omega)]

lemma Obeys.count_le (h : k.Obeys) (i left : ℕ) : k.count i left ≤ left := by
  rw [count]
  cases k.ssl with
  | true =>
      simp only [if_true]
      by_cases hpos : 0 < toInt left
      · exact Int.le_trans (h.tls_le i _ hpos) (toInt_le left)
      · exact Int.le_trans (h.tls_fails i _ (Int.not_lt.mp hpos)) (Int.natCast_nonneg left)
  | false =>
      have hge := h.raw_ge i left
      have hle := h.raw_le_max i left
      simp only [Bool.false_eq_true, if_false]
      rw [toInt_of_lt (by omega) (by omega)]
      exact h.raw_le i left

/-- A call gets on, if the cast leaves the count alone. -/
lemma Progress.count_pos (h : k.Progress) (i : ℕ) {left : ℕ} (hleft : 0 < left)
    (hsmall : k.ssl = false ∨ left < 2 ^ 31) : 1 ≤ k.count i left := by
  rw [count]
  cases hssl : k.ssl with
  | true =>
      rcases hsmall with hplain | hlt
      · rw [hssl] at hplain
        cases hplain
      · simp only [if_true]
        rw [toInt_of_lt (by omega) (by omega)]
        exact h.tls_pos i left (by omega)
  | false =>
      have hle := h.raw_le_max i left
      have hpos := h.raw_pos i left hleft
      simp only [Bool.false_eq_true, if_false]
      rwa [toInt_of_lt (by omega) (by omega)]

lemma Obeys.large_left (h : k.Obeys) (hssl : k.ssl = true) (i : ℕ) {left : ℕ}
    (hlarge : 2 ^ 31 ≤ left) (hpos : 0 < k.count i left) :
    2 ^ 31 ≤ (left : ℤ) - k.count i left := by
  rw [count, hssl, if_pos rfl] at hpos ⊢
  by_cases hcount : 0 < toInt left
  · have hle := h.tls_le i _ hcount
    have hstill := large_of_toInt hlarge hcount
    omega
  · exact absurd (h.tls_fails i _ (Int.not_lt.mp hcount)) (by omega)

end Calls

/-! ## What is transferred -/

/-- Moves that go on where the one before ended, from `a` to `b`. -/
def Contiguous : ℕ → List (ℕ × ℕ) → ℕ → Prop
  | a, [], b => a = b
  | a, (place, n) :: moves, b => place = a ∧ Contiguous (a + n) moves b

lemma Contiguous.le {a b : ℕ} {moves : List (ℕ × ℕ)} (h : Contiguous a moves b) : a ≤ b := by
  induction moves generalizing a with
  | nil => exact Nat.le_of_eq h
  | cons move moves ih => exact (Nat.le_add_right a move.2).trans (ih h.2)

/-- **The total is what was transferred**, whether a call failed or not. -/
lemma transferLoop_contiguous {k : Calls} (hk : k.Obeys) (onZero : SocketError) (exact : Bool)
    {size total : ℕ} (i : ℕ) (htotal : total ≤ size) :
    Contiguous total (transferLoop k onZero exact size i total).moves
        (transferLoop k onZero exact size i total).total ∧
      (transferLoop k onZero exact size i total).total ≤ size := by
  fun_induction transferLoop k onZero exact size i total with
  | case1 i total hlt n move hfail =>
      refine ⟨⟨rfl, ?_⟩, htotal⟩
      show total + k.moved i (size - total) = total
      rw [hk.moved_eq, Int.toNat_of_nonpos hfail, Nat.add_zero]
  | case2 i total hlt n move hgo _ r ih =>
      have hle := hk.count_le i (size - total)
      obtain ⟨hrest, hsize⟩ := ih (by omega)
      refine ⟨⟨rfl, ?_⟩, hsize⟩
      rwa [hk.moved_eq]
  | case3 i total hlt n move hgo _ =>
      have hle := hk.count_le i (size - total)
      refine ⟨⟨rfl, ?_⟩, by dsimp only; omega⟩
      show total + k.moved i (size - total) = total + n.toNat
      rw [hk.moved_eq]
  | case4 i total hdone => exact ⟨rfl, htotal⟩

/-- **Everything is transferred** where the casts do no harm. -/
lemma transferLoop_complete {k : Calls} (hk : k.Progress) (onZero : SocketError)
    {size total : ℕ} (i : ℕ) (htotal : total ≤ size)
    (hsmall : k.ssl = false ∨ size - total < 2 ^ 31) :
    (transferLoop k onZero true size i total).error = none ∧
      (transferLoop k onZero true size i total).total = size := by
  fun_induction transferLoop k onZero true size i total with
  | case1 i total hlt n move hfail =>
      have hpos := hk.count_pos i (by omega) hsmall
      exact absurd hfail (by omega)
  | case2 i total hlt n move hgo _ r ih =>
      have hle := hk.toObeys.count_le i (size - total)
      exact ih (by omega) (hsmall.imp_right fun h => by omega)
  | case3 i total hlt n move hgo hexact => exact absurd rfl hexact
  | case4 i total hdone => exact ⟨rfl, by dsimp only; omega⟩

/-- **A large buffer is never transferred with TLS.** -/
lemma transferLoop_fails {k : Calls} (hk : k.Obeys) (hssl : k.ssl = true) (onZero : SocketError)
    {size total : ℕ} (i : ℕ) (hlarge : 2 ^ 31 ≤ size - total) :
    (transferLoop k onZero true size i total).error ≠ none := by
  fun_induction transferLoop k onZero true size i total with
  | case1 i total hlt n move hfail => simp
  | case2 i total hlt n move hgo _ r ih =>
      have hle := hk.count_le i (size - total)
      have hstill := hk.large_left hssl i hlarge (by omega)
      exact ih (by omega)
  | case3 i total hlt n move hgo hexact => exact absurd rfl hexact
  | case4 i total hdone => exact absurd hlarge (by omega)

/-- Contiguous moves send a piece of the buffer in order. -/
lemma sentBytes_of_contiguous (data : List UInt8) {a b : ℕ} {moves : List (ℕ × ℕ)}
    (h : Contiguous a moves b) : sentBytes data moves = (data.drop a).take (b - a) := by
  induction moves generalizing a with
  | nil =>
      obtain rfl : a = b := h
      simp [sentBytes]
  | cons move moves ih =>
      obtain ⟨place, n⟩ := move
      obtain ⟨rfl, hrest⟩ := h
      have hle := hrest.le
      have hsplit : b - place = n + (b - (place + n)) := by omega
      rw [sentBytes, List.flatMap_cons, ← sentBytes, ih hrest, hsplit, List.take_add,
        List.drop_drop]

/-- Contiguous moves fill a piece of the buffer in order. -/
lemma storeBytes_of_contiguous (stream : ℕ → UInt8) {a b : ℕ} {moves : List (ℕ × ℕ)}
    (h : Contiguous a moves b) (rest : List UInt8) :
    storeBytes stream moves a ((List.range a).map stream ++ rest) =
      ((List.range b).map stream ++ rest.drop (b - a), b) := by
  induction moves generalizing a rest with
  | nil =>
      obtain rfl : a = b := h
      simp [storeBytes]
  | cons move moves ih =>
      obtain ⟨place, n⟩ := move
      obtain ⟨rfl, hrest⟩ := h
      have hle := hrest.le
      have hfront : (List.range (place + n)).map stream =
          (List.range place).map stream ++ (List.range n).map fun j => stream (place + j) := by
        rw [List.range_add, List.map_append, List.map_map]
        rfl
      have htake : ((List.range place).map stream ++ rest).take place =
          (List.range place).map stream := List.take_left' (by simp)
      have hdrop : ((List.range place).map stream ++ rest).drop (place + n) = rest.drop n := by
        rw [← List.drop_drop, List.drop_left' (by simp)]
      have hcount : n + (b - (place + n)) = b - place := by omega
      rw [storeBytes, htake, hdrop, ← hfront, ih hrest, List.drop_drop, hcount]

/-- **What `write` has sent** is the front of the buffer, as much as it returns. -/
lemma write_sent {k : Calls} (hk : k.Obeys) (isOpen : Bool) (data : List UInt8) :
    (write k isOpen data).2.2 = data.take (write k isOpen data).1 ∧
      (write k isOpen data).1 ≤ data.length := by
  rw [write]
  split
  · exact ⟨rfl, Nat.zero_le _⟩
  · obtain ⟨hmoves, hle⟩ := transferLoop_contiguous hk .brokenPipe true 0 (Nat.zero_le data.length)
    refine ⟨?_, hle⟩
    exact sentBytes_of_contiguous data hmoves

/-- **What `read` has stored** is the front of the stream, as much as it returns, and no more is
taken from it. -/
lemma read_stored {k : Calls} (hk : k.Obeys) (isOpen : Bool) (stream : ℕ → UInt8)
    (buffer : List UInt8) :
    (read k isOpen stream buffer).2.2 =
        ((List.range (read k isOpen stream buffer).1).map stream ++
          buffer.drop (read k isOpen stream buffer).1, (read k isOpen stream buffer).1) ∧
      (read k isOpen stream buffer).1 ≤ buffer.length := by
  rw [read]
  split
  · exact ⟨rfl, Nat.zero_le _⟩
  · obtain ⟨hmoves, hle⟩ :=
      transferLoop_contiguous hk .connectionReset true 0 (Nat.zero_le buffer.length)
    refine ⟨?_, hle⟩
    exact storeBytes_of_contiguous stream hmoves buffer

/-- **When transfers are exact.**  For every buffer and every sequence of partial transfers in which
no call fails that is asked for something, `write` sends exactly the bytes of the buffer and returns
its size without an error, if and only if the socket is a plain one or the size is at most
`INT_MAX`; and so for `read` and the next bytes of the stream.  Whatever calls fail, the bytes
transferred are the front of the buffer or of the stream, in order, and as many as the total that is
returned. -/
theorem transfers_exact_iff {k : Calls} (hk : k.Obeys) (data : List UInt8) (stream : ℕ → UInt8)
    (buffer : List UInt8) :
    (k.Progress →
      (write k true data = (data.length, none, data) ↔
        k.ssl = false ∨ data.length ≤ 2 ^ 31 - 1) ∧
      (read k true stream buffer =
          (buffer.length, none, (List.range buffer.length).map stream, buffer.length) ↔
        k.ssl = false ∨ buffer.length ≤ 2 ^ 31 - 1)) ∧
    ∀ isOpen,
      ((write k isOpen data).2.2 = data.take (write k isOpen data).1 ∧
        (write k isOpen data).2.2.length = (write k isOpen data).1) ∧
      ((read k isOpen stream buffer).2.2.1 =
          (List.range (read k isOpen stream buffer).1).map stream ++
            buffer.drop (read k isOpen stream buffer).1 ∧
        (read k isOpen stream buffer).2.2.2 = (read k isOpen stream buffer).1) := by
  -- `INT_MAX` is the largest count that a call of SSL gets as it was given
  have hsize : ∀ size, (k.ssl = false ∨ size ≤ 2 ^ 31 - 1) ∨
      (k.ssl = true ∧ 2 ^ 31 ≤ size - 0) := by
    intro size
    cases k.ssl with
    | true => simp only [Bool.true_eq_false, false_or, true_and]; omega
    | false => exact .inl (.inl rfl)
  refine ⟨fun hprogress => ⟨⟨fun h => ?_, fun h => ?_⟩, ⟨fun h => ?_, fun h => ?_⟩⟩,
    fun isOpen => ⟨?_, ?_⟩⟩
  · -- beyond it the first call fails, with everything still to be sent
    refine (hsize data.length).resolve_right fun ⟨hssl, hlarge⟩ => ?_
    exact transferLoop_fails hk hssl .brokenPipe 0 hlarge (congrArg (fun r => r.2.1) h)
  · obtain ⟨herror, htotal⟩ := transferLoop_complete hprogress .brokenPipe 0
      (Nat.zero_le data.length) (h.imp_right fun hle => by omega)
    have hsent := (write_sent hk true data).1
    have hwrite : write k true data = (data.length, none, (write k true data).2.2) :=
      Prod.ext htotal (Prod.ext herror rfl)
    rw [hwrite] at hsent ⊢
    rw [hsent, List.take_length]
  · refine (hsize buffer.length).resolve_right fun ⟨hssl, hlarge⟩ => ?_
    exact transferLoop_fails hk hssl .connectionReset 0 hlarge (congrArg (fun r => r.2.1) h)
  · obtain ⟨herror, htotal⟩ := transferLoop_complete hprogress .connectionReset 0
      (Nat.zero_le buffer.length) (h.imp_right fun hle => by omega)
    have hstored := (read_stored hk true stream buffer).1
    have hread : read k true stream buffer =
        (buffer.length, none, (read k true stream buffer).2.2) :=
      Prod.ext htotal (Prod.ext herror rfl)
    rw [hread] at hstored ⊢
    rw [hstored, List.drop_length, List.append_nil]
  · obtain ⟨hsent, hle⟩ := write_sent hk isOpen data
    refine ⟨hsent, ?_⟩
    rw [hsent, List.length_take_of_le hle]
  · obtain ⟨hstored, -⟩ := read_stored hk isOpen stream buffer
    exact ⟨congrArg Prod.fst hstored, congrArg Prod.snd hstored⟩

/-- A TLS connection that transfers two bytes at a time. -/
def trickle : Calls where
  ssl := true
  raw := fun _ n => min n 2
  tls := fun _ n => if 0 < n then min n 2 else -1

lemma trickle_progress : trickle.Progress where
  raw_ge i n := by simp only [trickle]; omega
  raw_le i n := by simp only [trickle]; omega
  raw_le_max i n := by simp only [trickle]; omega
  tls_le i n hpos := by simp only [trickle, if_pos hpos]; omega
  tls_fails i n hneg := by simp only [trickle, if_neg (Int.not_lt.mpr hneg)]; decide
  raw_pos i n hpos := by simp only [trickle]; omega
  tls_pos i n hpos := by simp only [trickle, if_pos hpos]; omega

/-- Three bytes take two calls in each direction. -/
theorem transfers_exact_three :
    write trickle true [1, 2, 3] = (3, none, [1, 2, 3]) ∧
      read trickle true UInt8.ofNat [9, 9, 9] = (3, none, [0, 1, 2], 3) := by
  obtain ⟨hwrite, hread⟩ := (transfers_exact_iff trickle_progress.toObeys [1, 2, 3] UInt8.ofNat
    [9, 9, 9]).1 trickle_progress
  exact ⟨hwrite.mpr (.inr (by decide)), hread.mpr (.inr (by decide))⟩

/-- The first call for `2 ^ 31` bytes is asked for a negative number of them. -/
lemma transferLoop_trickle (onZero : SocketError) :
    transferLoop trickle onZero true (2 ^ 31) 0 0 = ⟨0, some (.ssl (-1)), [(0, 0)]⟩ := by
  have hcount : trickle.count 0 (2 ^ 31 - 0) = -1 := by decide
  have hmoved : trickle.moved 0 (2 ^ 31 - 0) = 0 := by decide
  rw [transferLoop, if_pos (by decide)]
  simp only [hcount, hmoved]
  rfl

/-- With TLS a buffer of `2 ^ 31` bytes is neither sent nor filled. -/
theorem transfer_of_two_gib_fails :
    (¬∀ (k : Calls) (data : List UInt8), k.Progress →
      write k true data = (data.length, none, data)) ∧
    (¬∀ (k : Calls) (stream : ℕ → UInt8) (buffer : List UInt8), k.Progress →
      read k true stream buffer =
        (buffer.length, none, (List.range buffer.length).map stream, buffer.length)) ∧
    (write trickle true (List.replicate (2 ^ 31) 0)).2.1 = some (.ssl (-1)) ∧
    (read trickle true UInt8.ofNat (List.replicate (2 ^ 31) 0)).2.1 = some (.ssl (-1)) := by
  have hlength : (List.replicate (2 ^ 31) (0 : UInt8)).length = 2 ^ 31 := List.length_replicate
  have hwrite : (write trickle true (List.replicate (2 ^ 31) 0)).2.1 = some (.ssl (-1)) := by
    rw [write, hlength, transferLoop_trickle]
    rfl
  have hread : (read trickle true UInt8.ofNat (List.replicate (2 ^ 31) 0)).2.1 =
      some (.ssl (-1)) := by
    rw [read, readRaw, hlength, transferLoop_trickle]
    rfl
  refine ⟨fun hall => ?_, fun hall => ?_, hwrite, hread⟩
  · rw [hall trickle _ trickle_progress] at hwrite
    cases hwrite
  · rw [hall trickle _ _ trickle_progress] at hread
    cases hread

end Wscpp.Cpp.LinuxSocket
