import Wscpp.Lib.Lines
import Wscpp.Lib.Utf8
import Mathlib.Data.List.DropRight

/-!
# HTTP header blocks

Both implementations parse the opening handshake with a `parse_http_headers` of their own.  The
one of wscpp (`handshake.cpp`) takes lines with `std::getline`, that is up to each line feed, and
then removes carriage returns; the one of ws-rs (`handshake.rs`) splits at CR LF.  Both stop at
the first empty line, skip a line without a colon, lower the names and keep the last value given
for a name.  They differ in what they trim: wscpp only the spaces before a value, ws-rs all white
space of Unicode before a value and around a name.

Text is a list of bytes here, a `std::string` as it is and a Rust `str` in its UTF-8 form.
`std::tolower` is that of the "C" locale.

A block that is rendered from a first line and a list of fields is parsed back by either, but for
what each trims from the values (`Cpp.parseHttpHeaders_render`, `Rs.parseHttpHeaders_render`),
whatever follows it.
-/

namespace Wscpp

open Lines Utf8

/-! ## Text -/

/-- Carriage return. -/
def cr : UInt8 := 0x0D

/-- Line feed. -/
def lf : UInt8 := 0x0A

/-- `"\r\n"`. -/
def crlf : List UInt8 := [cr, lf]

/-- `"\r\n\r\n"`. -/
def headersEnd : List UInt8 := crlf ++ crlf

/-- `':'`. -/
def colon : UInt8 := 0x3A

/-- `' '`. -/
def blank : UInt8 := 0x20

/-- The lower-case form of an ASCII letter; other bytes stay. -/
def lowerByte (b : UInt8) : UInt8 := if 0x41 ≤ b ∧ b ≤ 0x5A then b + 0x20 else b

/-- `to_lower` of wscpp and `to_ascii_lowercase` of Rust. -/
def toLower (s : List UInt8) : List UInt8 := s.map lowerByte

/-- Whether a text occurs in another: `find` against `npos`, and `contains`. -/
def occursIn (pattern s : List UInt8) : Bool := decide (pattern <:+: s)

/-! ## Header maps -/

/-- A map of header fields, the last insertion first. -/
abbrev Headers : Type := List (List UInt8 × List UInt8)

namespace Headers

/-- The empty map. -/
def empty : Headers := []

/-- `headers[name] = value`, `headers.insert(name, value)`. -/
def insert (headers : Headers) (name value : List UInt8) : Headers := (name, value) :: headers

/-- `headers.find(name)`, `headers.get(name)`. -/
def find (headers : Headers) (name : List UInt8) : Option (List UInt8) := List.lookup name headers

/-- The map that a list of fields gives, one inserted after the other, with what is done to the
values. -/
def ofFields (value : List UInt8 → List UInt8) (fields : List (List UInt8 × List UInt8)) :
    Headers :=
  (fields.map fun f => (toLower f.1, value f.2)).reverse

end Headers

/-- The loop of both parsers over the lines behind the first, with the test that ends it and what
is taken from one line. -/
def headerLines (ends : List UInt8 → Bool) (field : List UInt8 → Option (List UInt8 × List UInt8)) :
    List (List UInt8) → Headers → Headers
  | [], headers => headers
  | line :: lines, headers =>
      if ends line then headers
      else
        match field line with
        | none => headerLines ends field lines headers
        | some (name, value) => headerLines ends field lines (headers.insert name value)

section HeaderLines

variable {ends : List UInt8 → Bool} {field : List UInt8 → Option (List UInt8 × List UInt8)}

/-- Nothing behind the line that ends the block is looked at. -/
lemma headerLines_of_ends {line : List UInt8} (h : ends line = true)
    (lines more : List (List UInt8)) (headers : Headers) :
    headerLines ends field (lines ++ line :: more) headers =
      headerLines ends field (lines ++ [line]) headers := by
  induction lines generalizing headers with
  | nil => simp only [List.nil_append, headerLines, h, if_true]
  | cons l lines ih =>
      simp only [List.cons_append, headerLines]
      split
      · rfl
      · split
        · exact ih headers
        · exact ih _

/-- Lines that give one field each. -/
lemma headerLines_fields (line : List UInt8 × List UInt8 → List UInt8)
    (value : List UInt8 → List UInt8) {fields : List (List UInt8 × List UInt8)}
    (hfield : ∀ f ∈ fields,
      ends (line f) = false ∧ field (line f) = some (toLower f.1, value f.2))
    {last : List UInt8} (hlast : ends last = true) (more : List (List UInt8)) (headers : Headers) :
    headerLines ends field (fields.map line ++ last :: more) headers =
      Headers.ofFields value fields ++ headers := by
  induction fields generalizing headers with
  | nil => simp only [List.map_nil, List.nil_append, headerLines, hlast, if_true]; rfl
  | cons f fields ih =>
      obtain ⟨hends, hsome⟩ := hfield f (by simp)
      rw [List.map_cons, List.cons_append, headerLines, hends, hsome]
      simp only [Bool.false_eq_true, if_false]
      rw [ih (fun g hg => hfield g (List.mem_cons_of_mem _ hg))]
      simp [Headers.ofFields, Headers.insert]

end HeaderLines

/-! ## wscpp -/

namespace Cpp

/-- The lines that `std::getline` takes from a string, one after the other. -/
def getlines : List UInt8 → List (List UInt8)
  | [] => []
  | b :: s =>
      if b = lf then [] :: getlines s
      else
        match getlines s with
        | [] => [[b]]
        | line :: lines => (b :: line) :: lines

/-- `trim_crlf`. -/
def trimCrlf (s : List UInt8) : List UInt8 := s.rdropWhile fun b => b == cr || b == lf

/-- A line without the carriage return at its end. -/
def dropCr (line : List UInt8) : List UInt8 :=
  if line.getLast? = some cr then line.dropLast else line

/-- A value without the spaces at its front. -/
def dropBlanks (value : List UInt8) : List UInt8 := value.dropWhile (· == blank)

/-- The name and value on one line. -/
def headerField (line : List UInt8) : Option (List UInt8 × List UInt8) :=
  (splitFirst colon (dropCr line)).map fun r => (toLower (trimCrlf r.1), dropBlanks (trimCrlf r.2))

/-- The line that ends a block. -/
def endsHeaders (line : List UInt8) : Bool := line == [cr] || line.isEmpty

/-- `parse_http_headers`; nothing when it returns false. -/
def parseHttpHeaders (raw : List UInt8) : Option (List UInt8 × Headers) :=
  match getlines raw with
  | [] => none
  | requestLine :: lines =>
      some (dropCr requestLine, headerLines endsHeaders headerField lines .empty)

end Cpp

/-! ## ws-rs -/

namespace Rs

/-- The variants of `Error` an upgrade returns. -/
inductive UpgradeError
  | handshake (reason : String)
  | io
  deriving DecidableEq, Repr

/-- The characters of `char::is_whitespace`, by their code points. -/
def whiteSpaceChars : List Char :=
  ['\u0009', '\u000A', '\u000B', '\u000C', '\u000D', '\u0020', '\u0085', '\u00A0', '\u1680',
    '\u2000', '\u2001', '\u2002', '\u2003', '\u2004', '\u2005', '\u2006', '\u2007', '\u2008',
    '\u2009', '\u200A', '\u2028', '\u2029', '\u202F', '\u205F', '\u3000']

/-- Whether a byte string is one white-space character. -/
def isWhiteSpace (u : List UInt8) : Bool := (whiteSpaceChars.map String.utf8EncodeChar).contains u

/-- How many bytes the white-space character at the front of a text has, none being zero.  Such a
character has at most three. -/
def leadingWhite (s : List UInt8) : ℕ :=
  if isWhiteSpace (s.take 1) then 1
  else if isWhiteSpace (s.take 2) then 2
  else if isWhiteSpace (s.take 3) then 3
  else 0

/-- How many bytes the white-space character at the end of a text has, the text given backwards. -/
def trailingWhite (s : List UInt8) : ℕ :=
  if isWhiteSpace (s.take 1).reverse then 1
  else if isWhiteSpace (s.take 2).reverse then 2
  else if isWhiteSpace (s.take 3).reverse then 3
  else 0

/-- Dropping what `white` finds at the front, for at most so many times. -/
def dropWhite (white : List UInt8 → ℕ) : ℕ → List UInt8 → List UInt8
  | 0, s => s
  | n + 1, s => if white s = 0 then s else dropWhite white n (s.drop (white s))

/-- `str::trim_start`. -/
def trimStart (s : List UInt8) : List UInt8 := dropWhite leadingWhite s.length s

/-- `str::trim_end`. -/
def trimEnd (s : List UInt8) : List UInt8 :=
  (dropWhite trailingWhite s.length s.reverse).reverse

/-- `str::trim`. -/
def trim (s : List UInt8) : List UInt8 := trimEnd (trimStart s)

/-- The name and value on one line. -/
def headerField (line : List UInt8) : Option (List UInt8 × List UInt8) :=
  (splitFirst colon line).map fun r => (toLower (trim r.1), trimStart r.2)

/-- `parse_http_headers`. -/
def parseHttpHeaders (raw : List UInt8) : Except UpgradeError (List UInt8 × Headers) :=
  match splitPair cr lf raw with
  | [] => .error (.handshake "empty request")
  | requestLine :: lines =>
      .ok (requestLine, headerLines List.isEmpty headerField lines .empty)

end Rs

/-! ## Rendering -/

/-- A header line without its line break; behind the colon stands the second component, white space
included. -/
def rawLine (f : List UInt8 × List UInt8) : List UInt8 := f.1 ++ colon :: f.2

/-- The block of a first line and a list of such lines. -/
def renderRaw (first : List UInt8) (fields : List (List UInt8 × List UInt8)) : List UInt8 :=
  first ++ crlf ++ (fields.flatMap fun f => rawLine f ++ crlf) ++ crlf

/-- A header line with one space before the value. -/
def renderField (f : List UInt8 × List UInt8) : List UInt8 := f.1 ++ [colon, blank] ++ f.2

/-- The block of a first line and a list of fields. -/
def renderHeaders (first : List UInt8) (fields : List (List UInt8 × List UInt8)) : List UInt8 :=
  first ++ crlf ++ (fields.flatMap fun f => renderField f ++ crlf) ++ crlf

/-- A field that both parsers read back, but for the white space before its value. -/
structure PlainField (f : List UInt8 × List UInt8) : Prop where
  name_colon : colon ∉ f.1
  name_cr : cr ∉ f.1
  name_lf : lf ∉ f.1
  name_trim : Rs.trim f.1 = f.1
  value_cr : cr ∉ f.2
  value_lf : lf ∉ f.2

lemma PlainField.lf_notMem {f : List UInt8 × List UInt8} (h : PlainField f) :
    lf ∉ rawLine f := by
  have hcolon : lf ≠ colon := by decide
  simp [rawLine, h.name_lf, h.value_lf, hcolon]

lemma rawLine_ne_nil (f : List UInt8 × List UInt8) : rawLine f ≠ [] := by
  simp [rawLine]

/-- The field with a space before its value. -/
def spaced (f : List UInt8 × List UInt8) : List UInt8 × List UInt8 := (f.1, blank :: f.2)

lemma rawLine_spaced (f : List UInt8 × List UInt8) : rawLine (spaced f) = renderField f := by
  simp [rawLine, spaced, renderField]

lemma renderRaw_spaced (first : List UInt8) (fields : List (List UInt8 × List UInt8)) :
    renderRaw first (fields.map spaced) = renderHeaders first fields := by
  simp only [renderRaw, renderHeaders, List.flatMap_map, rawLine_spaced]

lemma PlainField.spaced {f : List UInt8 × List UInt8} (h : PlainField f) :
    PlainField (spaced f) where
  name_colon := h.name_colon
  name_cr := h.name_cr
  name_lf := h.name_lf
  name_trim := h.name_trim
  value_cr := by simpa [Wscpp.spaced, show cr ≠ blank by decide] using h.value_cr
  value_lf := by simpa [Wscpp.spaced, show lf ≠ blank by decide] using h.value_lf

lemma forall_spaced {fields : List (List UInt8 × List UInt8)}
    (h : ∀ f ∈ fields, PlainField f) : ∀ f ∈ fields.map spaced, PlainField f := by
  intro f hf
  obtain ⟨g, hg, rfl⟩ := List.mem_map.mp hf
  exact (h g hg).spaced

lemma Headers.ofFields_spaced {value : List UInt8 → List UInt8}
    (h : ∀ s, value (blank :: s) = value s) (fields : List (List UInt8 × List UInt8)) :
    Headers.ofFields value (fields.map spaced) = Headers.ofFields value fields := by
  simp only [Headers.ofFields, List.map_map, Function.comp_def, spaced, h]

namespace Rs

lemma trimStart_of_leadingWhite {s : List UInt8} (h : leadingWhite s = 0) : trimStart s = s := by
  unfold trimStart
  cases s.length with
  | zero => rfl
  | succ n => rw [dropWhite, if_pos h]

lemma trimStart_cons {b : UInt8} (h : isWhiteSpace [b] = true) (s : List UInt8) :
    trimStart (b :: s) = trimStart s := by
  have hwhite : leadingWhite (b :: s) = 1 := by
    rw [leadingWhite, if_pos]
    exact h
  rw [trimStart, List.length_cons, dropWhite, if_neg (by rw [hwhite]; decide), hwhite]
  rfl

lemma trimStart_blank (s : List UInt8) : trimStart (blank :: s) = trimStart s :=
  trimStart_cons (by decide) s

lemma headerField_raw {f : List UInt8 × List UInt8} (h : PlainField f) :
    headerField (rawLine f) = some (toLower f.1, trimStart f.2) := by
  rw [headerField, rawLine, splitFirst_append h.name_colon, Option.map_some, h.name_trim]

/-- The lines of a block, with whatever follows it. -/
lemma splitPair_raw {first : List UInt8} {fields : List (List UInt8 × List UInt8)}
    (hfirst : lf ∉ first) (hfields : ∀ f ∈ fields, PlainField f) (t : List UInt8) :
    splitPair cr lf (renderRaw first fields ++ t) =
      first :: (fields.map rawLine ++ [] :: splitPair cr lf t) := by
  have hpair : cr ≠ lf := by decide
  have hrest : ∀ fs : List (List UInt8 × List UInt8), (∀ f ∈ fs, PlainField f) →
      splitPair cr lf ((fs.flatMap fun f => rawLine f ++ crlf) ++ crlf ++ t) =
        fs.map rawLine ++ [] :: splitPair cr lf t := by
    intro fs hfs
    induction fs with
    | nil => exact splitPair_append hpair [] t
    | cons f fs ih =>
        have hline := splitPair_of_notMem (p := cr) (hfs f (by simp)).lf_notMem
        have hcut := splitPair_append hpair (rawLine f)
          ((fs.flatMap fun f => rawLine f ++ crlf) ++ crlf ++ t)
        rw [ih fun g hg => hfs g (List.mem_cons_of_mem _ hg), hline] at hcut
        simpa [crlf] using hcut
  have hcut := splitPair_append hpair first
    ((fields.flatMap fun f => rawLine f ++ crlf) ++ crlf ++ t)
  rw [hrest fields hfields, splitPair_of_notMem hfirst] at hcut
  simpa [renderRaw, crlf] using hcut

/-- A block ends with its first empty line. -/
lemma endsFirst_render {first : List UInt8} {fields : List (List UInt8 × List UInt8)}
    (hfirst : lf ∉ first) (hne : first ≠ []) (hfields : ∀ f ∈ fields, PlainField f) :
    EndsFirst headersEnd (renderHeaders first fields) := by
  have hlines : splitPair cr lf (renderHeaders first fields) =
      (first :: (fields.map spaced).map rawLine) ++ [[], []] := by
    have hrender := splitPair_raw hfirst (forall_spaced hfields) []
    rw [renderRaw_spaced, List.append_nil, splitPair] at hrender
    exact hrender
  refine endsFirst_of_splitPair (by decide) hlines ?_ ?_
  · simp [hne.symm, rawLine_ne_nil]
  · rcases fields.eq_nil_or_concat with rfl | ⟨fields, f, rfl⟩
    · exact ⟨first, by simp [renderHeaders, crlf]⟩
    · exact ⟨first ++ crlf ++ (fields.flatMap fun f => renderField f ++ crlf) ++ renderField f, by
        simp [renderHeaders, crlf]⟩

/-- **ws-rs parses a block back**, up to the white space before the values. -/
theorem parseHttpHeaders_raw {first : List UInt8} {fields : List (List UInt8 × List UInt8)}
    (hfirst : lf ∉ first) (hfields : ∀ f ∈ fields, PlainField f) (t : List UInt8) :
    parseHttpHeaders (renderRaw first fields ++ t) =
      .ok (first, Headers.ofFields trimStart fields) := by
  have hline : ∀ f ∈ fields, (rawLine f).isEmpty = false ∧
      headerField (rawLine f) = some (toLower f.1, trimStart f.2) := by
    intro f hf
    exact ⟨by simpa using rawLine_ne_nil f, headerField_raw (hfields f hf)⟩
  have hlast : ([] : List UInt8).isEmpty = true := rfl
  rw [parseHttpHeaders, splitPair_raw hfirst hfields]
  simp only [headerLines_fields rawLine trimStart hline hlast, Headers.empty, List.append_nil]

/-- **ws-rs parses a rendered block back.** -/
theorem parseHttpHeaders_render {first : List UInt8} {fields : List (List UInt8 × List UInt8)}
    (hfirst : lf ∉ first) (hfields : ∀ f ∈ fields, PlainField f) (t : List UInt8) :
    parseHttpHeaders (renderHeaders first fields ++ t) =
      .ok (first, Headers.ofFields trimStart fields) := by
  rw [← renderRaw_spaced, parseHttpHeaders_raw hfirst (forall_spaced hfields),
    Headers.ofFields_spaced trimStart_blank]

end Rs

namespace Cpp

lemma getlines_append {x : List UInt8} (h : lf ∉ x) (y : List UInt8) :
    getlines (x ++ lf :: y) = x :: getlines y := by
  induction x with
  | nil => rw [List.nil_append, getlines, if_pos rfl]
  | cons b x ih =>
      have hb : b ≠ lf := fun hb => h (by simp [hb])
      rw [List.cons_append, getlines, if_neg hb, ih fun hmem => h (List.mem_cons_of_mem _ hmem)]

lemma dropCr_append (s : List UInt8) : dropCr (s ++ [cr]) = s := by
  rw [dropCr, if_pos (by simp), List.dropLast_concat]

lemma trimCrlf_of_notMem {s : List UInt8} (hcr : cr ∉ s) (hlf : lf ∉ s) : trimCrlf s = s := by
  unfold trimCrlf
  rw [List.rdropWhile_eq_self_iff]
  intro hne
  have hmem := List.getLast_mem hne
  have h1 : s.getLast hne ≠ cr := fun heq => hcr (heq ▸ hmem)
  have h2 : s.getLast hne ≠ lf := fun heq => hlf (heq ▸ hmem)
  simp [h1, h2]

lemma dropBlanks_of_leadingWhite {s : List UInt8} (h : Rs.leadingWhite s = 0) :
    dropBlanks s = s := by
  cases s with
  | nil => rfl
  | cons b s =>
      by_cases hb : b = blank
      · subst hb
        have hwhite : Rs.isWhiteSpace ((blank :: s).take 1) = true := by
          rw [show (blank :: s).take 1 = [blank] from rfl]
          decide
        rw [Rs.leadingWhite, if_pos hwhite] at h
        exact absurd h (by decide)
      · rw [dropBlanks, List.dropWhile_cons_of_neg (by simpa using hb)]

lemma headerField_raw {f : List UInt8 × List UInt8} (h : PlainField f) :
    headerField (rawLine f ++ [cr]) = some (toLower f.1, dropBlanks f.2) := by
  rw [headerField, dropCr_append, rawLine, splitFirst_append h.name_colon, Option.map_some,
    trimCrlf_of_notMem h.name_cr h.name_lf, trimCrlf_of_notMem h.value_cr h.value_lf]

/-- The lines of a block, with whatever follows it. -/
lemma getlines_raw {first : List UInt8} {fields : List (List UInt8 × List UInt8)}
    (hfirst : lf ∉ first) (hfields : ∀ f ∈ fields, PlainField f) (t : List UInt8) :
    getlines (renderRaw first fields ++ t) =
      (first ++ [cr]) :: (fields.map (fun f => rawLine f ++ [cr]) ++ [cr] :: getlines t) := by
  have hcr : ∀ s : List UInt8, lf ∉ s → lf ∉ s ++ [cr] := by
    intro s hs
    simp [hs, show lf ≠ cr by decide]
  have hrest : ∀ fs : List (List UInt8 × List UInt8), (∀ f ∈ fs, PlainField f) →
      getlines ((fs.flatMap fun f => rawLine f ++ crlf) ++ crlf ++ t) =
        fs.map (fun f => rawLine f ++ [cr]) ++ [cr] :: getlines t := by
    intro fs hfs
    induction fs with
    | nil => exact getlines_append (x := [cr]) (by decide) t
    | cons f fs ih =>
        have hcut := getlines_append (hcr _ (hfs f (by simp)).lf_notMem)
          ((fs.flatMap fun f => rawLine f ++ crlf) ++ crlf ++ t)
        rw [ih fun g hg => hfs g (List.mem_cons_of_mem _ hg)] at hcut
        simpa [crlf] using hcut
  have hcut := getlines_append (hcr _ hfirst)
    ((fields.flatMap fun f => rawLine f ++ crlf) ++ crlf ++ t)
  rw [hrest fields hfields] at hcut
  simpa [renderRaw, crlf] using hcut

/-- **wscpp parses a block back**, up to the spaces before the values. -/
theorem parseHttpHeaders_raw {first : List UInt8} {fields : List (List UInt8 × List UInt8)}
    (hfirst : lf ∉ first) (hfields : ∀ f ∈ fields, PlainField f) (t : List UInt8) :
    parseHttpHeaders (renderRaw first fields ++ t) =
      some (first, Headers.ofFields dropBlanks fields) := by
  have hline : ∀ f ∈ fields, endsHeaders (rawLine f ++ [cr]) = false ∧
      headerField (rawLine f ++ [cr]) = some (toLower f.1, dropBlanks f.2) := by
    intro f hf
    have hne := rawLine_ne_nil f
    exact ⟨by simp [endsHeaders, hne], headerField_raw (hfields f hf)⟩
  have hlast : endsHeaders [cr] = true := by decide
  rw [parseHttpHeaders, getlines_raw hfirst hfields]
  simp only [headerLines_fields (fun f => rawLine f ++ [cr]) dropBlanks hline hlast,
    dropCr_append, Headers.empty, List.append_nil]

/-- **wscpp parses a rendered block back.** -/
theorem parseHttpHeaders_render {first : List UInt8} {fields : List (List UInt8 × List UInt8)}
    (hfirst : lf ∉ first) (hfields : ∀ f ∈ fields, PlainField f) (t : List UInt8) :
    parseHttpHeaders (renderHeaders first fields ++ t) =
      some (first, Headers.ofFields dropBlanks fields) := by
  rw [← renderRaw_spaced, parseHttpHeaders_raw hfirst (forall_spaced hfields),
    Headers.ofFields_spaced fun _ => rfl]

end Cpp

end Wscpp
