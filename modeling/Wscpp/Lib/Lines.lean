import Mathlib.Data.List.Infix

/-!
# Lines and delimiters

Cutting a list at a separator: at the first occurrence of one symbol (`splitFirst`) or of a list
(`splitList`), at every occurrence of a pair of symbols (`splitPair`), or behind the first
occurrence of a list (`EndsFirst`, for a reader that takes symbols until it has seen the list).
Where the list comes in segments, a reader of symbols (`takeUntilIn`) stops where it would without
them, and a reader of segments (`takeSegments`) goes on to the end of the segment, so that the two
meet only where a segment ends there (`CutAt`).

Nothing here depends on what the symbols are.
-/

namespace Wscpp.Lines

variable {α : Type} [DecidableEq α]

/-! ## At a symbol -/

/-- What stands before the first `a` of a list, and what stands behind it. -/
def splitFirst (a : α) : List α → Option (List α × List α)
  | [] => none
  | b :: s => if b = a then some ([], s) else (splitFirst a s).map fun r => (b :: r.1, r.2)

lemma splitFirst_append {a : α} {x : List α} (h : a ∉ x) (y : List α) :
    splitFirst a (x ++ a :: y) = some (x, y) := by
  induction x with
  | nil => rw [List.nil_append, splitFirst, if_pos rfl]
  | cons b x ih =>
      have hb : b ≠ a := fun hba => h (by simp [hba])
      have hx : a ∉ x := fun hmem => h (List.mem_cons_of_mem _ hmem)
      rw [List.cons_append, splitFirst, if_neg hb, ih hx]
      rfl

lemma splitFirst_of_notMem {a : α} {x : List α} (h : a ∉ x) : splitFirst a x = none := by
  induction x with
  | nil => rfl
  | cons b x ih =>
      have hb : b ≠ a := fun hba => h (by simp [hba])
      have hx : a ∉ x := fun hmem => h (List.mem_cons_of_mem _ hmem)
      rw [splitFirst, if_neg hb, ih hx]
      rfl

lemma splitFirst_of_mem {a : α} {s : List α} (h : a ∈ s) :
    ∃ x y, s = x ++ a :: y ∧ a ∉ x ∧ splitFirst a s = some (x, y) := by
  obtain ⟨x, y, rfl, hx⟩ := List.eq_append_cons_of_mem h
  exact ⟨x, y, rfl, hx, splitFirst_append hx y⟩

/-- What stands before the first occurrence of a list, and what stands behind it. -/
def splitList (d : List α) : List α → Option (List α × List α)
  | [] => if d = [] then some ([], []) else none
  | b :: s =>
      if d <+: b :: s then some ([], (b :: s).drop d.length)
      else (splitList d s).map fun r => (b :: r.1, r.2)

lemma splitList_append {a : α} {d x : List α} (h : a ∉ x) (y : List α) :
    splitList (a :: d) (x ++ a :: (d ++ y)) = some (x, y) := by
  induction x with
  | nil =>
      have hfront : a :: d <+: a :: (d ++ y) := ⟨y, rfl⟩
      rw [List.nil_append, splitList, if_pos hfront]
      simp
  | cons b x ih =>
      have hb : b ≠ a := fun hba => h (by simp [hba])
      have hx : a ∉ x := fun hmem => h (List.mem_cons_of_mem _ hmem)
      have hfront : ¬a :: d <+: b :: (x ++ a :: (d ++ y)) := by
        rw [List.cons_prefix_cons]
        exact fun hp => hb hp.1.symm
      rw [List.cons_append, splitList, if_neg hfront, ih hx]
      rfl

omit [DecidableEq α] in
/-- What stands in front of a list and has no `c` in it ends before the first `c`. -/
lemma prefix_append_cons_iff {c : α} {t : List α} (h : c ∉ t) (x y : List α) :
    t <+: x ++ c :: y ↔ t <+: x := by
  constructor
  · intro ht
    by_cases hle : t.length ≤ x.length
    · exact List.prefix_of_prefix_length_le ht (List.prefix_append _ _) hle
    · have hx : x ++ [c] <+: x ++ c :: y := ⟨y, by simp⟩
      have hlen : (x ++ [c]).length ≤ t.length := by
        rw [List.length_append, List.length_singleton]
        omega
      have hxt : x ++ [c] <+: t := List.prefix_of_prefix_length_le hx ht hlen
      exact absurd (hxt.subset (by simp)) h
  · intro ht
    exact ht.trans (List.prefix_append _ _)

/-! ## At a pair -/

/-- The pieces of a list between the occurrences of `p` followed by `q`. -/
def splitPair (p q : α) : List α → List (List α)
  | [] => [[]]
  | [a] => [[a]]
  | a :: b :: s =>
      if a = p ∧ b = q then [] :: splitPair p q s
      else (splitPair p q (b :: s)).modifyHead (a :: ·)

lemma splitPair_ne_nil (p q : α) (s : List α) : splitPair p q s ≠ [] := by
  fun_induction splitPair p q s with
  | case1 => simp
  | case2 => simp
  | case3 => simp
  | case4 a b s h ih =>
      intro hnil
      rw [List.modifyHead_eq_nil_iff] at hnil
      exact ih hnil

lemma splitPair_of_notMem {p q : α} {s : List α} (h : q ∉ s) : splitPair p q s = [s] := by
  fun_induction splitPair p q s with
  | case1 => rfl
  | case2 => rfl
  | case3 a b s hab ih =>
      obtain ⟨-, rfl⟩ := hab
      simp at h
  | case4 a b s hab ih =>
      rw [ih (fun hmem => h (List.mem_cons_of_mem _ hmem)), List.modifyHead_cons]

/-- **Cutting at one occurrence.**  The pair does not overlap itself, so the pieces on either
side are found independently. -/
lemma splitPair_append {p q : α} (hpq : p ≠ q) (x y : List α) :
    splitPair p q (x ++ p :: q :: y) = splitPair p q x ++ splitPair p q y := by
  fun_induction splitPair p q x with
  | case1 => rw [List.nil_append, splitPair, if_pos ⟨rfl, rfl⟩]; rfl
  | case2 a =>
      have hne : ¬(a = p ∧ p = q) := fun h => hpq h.2
      rw [List.cons_append, List.nil_append, splitPair, if_neg hne, splitPair, if_pos ⟨rfl, rfl⟩]
      rfl
  | case3 a b s hab ih =>
      rw [List.cons_append, List.cons_append, splitPair, if_pos hab, ih]
      rfl
  | case4 a b s hab ih =>
      rw [List.cons_append, List.cons_append, splitPair, if_neg hab]
      rw [List.cons_append] at ih
      rw [ih]
      obtain ⟨l, ls, hl⟩ := List.exists_cons_of_ne_nil (splitPair_ne_nil p q (b :: s))
      rw [hl]
      rfl

/-- The first piece is the list, or ends before an occurrence. -/
lemma eq_of_splitPair {p q : α} {s l : List α} {ls : List (List α)}
    (h : splitPair p q s = l :: ls) : s = l ∨ ∃ y, s = l ++ p :: q :: y := by
  fun_induction splitPair p q s generalizing l ls with
  | case1 => exact .inl (List.cons.inj h).1
  | case2 a => exact .inl (List.cons.inj h).1
  | case3 a b s hab ih =>
      obtain ⟨rfl, rfl⟩ := hab
      rw [← (List.cons.inj h).1]
      exact .inr ⟨s, rfl⟩
  | case4 a b s hab ih =>
      obtain ⟨m, ms, hm⟩ := List.exists_cons_of_ne_nil (splitPair_ne_nil p q (b :: s))
      rw [hm, List.modifyHead_cons, List.cons.injEq] at h
      rw [← h.1]
      rcases ih hm with heq | ⟨y, heq⟩
      · exact .inl (by rw [heq])
      · exact .inr ⟨y, by rw [heq]; rfl⟩

/-! ## At a list -/

/-- A list that ends with `d`, no shorter part of it from the front having `d` in it. -/
def EndsFirst (d s : List α) : Prop := d <:+ s ∧ ∀ t, t <+: s → d <:+: t → t = s

omit [DecidableEq α] in
/-- A part of the stream from the front has seen `d` exactly when it reaches the end of the
first occurrence. -/
lemma EndsFirst.infix_iff {d block rest buf : List α} (h : EndsFirst d block)
    (hbuf : buf <+: block ++ rest) : d <:+: buf ↔ block.length ≤ buf.length := by
  constructor
  · intro hd
    by_contra hlt
    have hpre : buf <+: block :=
      List.prefix_of_prefix_length_le hbuf (List.prefix_append _ _) (by omega)
    have heq := h.2 buf hpre hd
    rw [heq] at hlt
    exact hlt le_rfl
  · intro hle
    have hpre : block <+: buf :=
      List.prefix_of_prefix_length_le (List.prefix_append _ _) hbuf hle
    exact h.1.isInfix.trans hpre.isInfix

omit [DecidableEq α] in
/-- A stream has one such part at its front. -/
lemma EndsFirst.eq_of_append_eq {d block block' rest rest' : List α} (h : EndsFirst d block)
    (h' : EndsFirst d block') (heq : block ++ rest = block' ++ rest') :
    block = block' ∧ rest = rest' := by
  have hpre : block <+: block' ++ rest' := ⟨rest, heq⟩
  have hpre' : block' <+: block ++ rest := ⟨rest', heq.symm⟩
  have hle := (h'.infix_iff hpre).mp h.1.isInfix
  have hle' := (h.infix_iff hpre').mp h'.1.isInfix
  exact List.append_inj heq (Nat.le_antisymm hle' hle)

/-- Taking symbols one by one, behind those of `buf`, until the last ones are `d`. -/
def takeUntil (d : List α) : List α → List α → Option (List α × List α)
  | _, [] => none
  | buf, a :: s =>
      if d.isSuffixOf (buf ++ [a]) then some (buf ++ [a], s) else takeUntil d (buf ++ [a]) s

lemma takeUntil_spec {d buf : List α} (hbuf : ¬d <:+: buf) (s : List α) :
    (takeUntil d buf s = none ∧ ¬d <:+: buf ++ s) ∨
      ∃ got rest, takeUntil d buf s = some (got, rest) ∧ EndsFirst d got ∧
        got ++ rest = buf ++ s := by
  induction s generalizing buf with
  | nil => exact .inl ⟨rfl, by simpa using hbuf⟩
  | cons a s ih =>
      have happend : buf ++ a :: s = (buf ++ [a]) ++ s := by simp
      by_cases hend : d <:+ buf ++ [a]
      · refine .inr ⟨buf ++ [a], s, ?_, ⟨hend, ?_⟩, happend.symm⟩
        · rw [takeUntil, if_pos (List.isSuffixOf_iff_suffix.mpr hend)]
        · intro t ht hd
          rcases List.prefix_concat_iff.mp ht with rfl | ht
          · rfl
          · exact absurd (hd.trans ht.isInfix) hbuf
      · have hnext : ¬d <:+: buf ++ [a] := by
          rw [List.infix_concat_iff]
          rintro (hoccurs | hwithin)
          · exact hend hoccurs
          · exact hbuf hwithin
        rw [takeUntil, if_neg (by rwa [List.isSuffixOf_iff_suffix]), happend]
        exact ih hnext

/-- **Taking a block.**  The block at the front is what is taken. -/
lemma takeUntil_of_endsFirst {d block : List α} (hd : d ≠ []) (h : EndsFirst d block)
    (rest : List α) : takeUntil d [] (block ++ rest) = some (block, rest) := by
  have hnil : ¬d <:+: [] := by
    rw [List.infix_nil]
    exact hd
  rcases takeUntil_spec hnil (block ++ rest) with ⟨-, hno⟩ | ⟨got, later, htake, hgot, heq⟩
  · exact absurd (h.1.isInfix.trans (List.prefix_append block rest).isInfix) hno
  · obtain ⟨rfl, rfl⟩ := hgot.eq_of_append_eq h heq
    exact htake

/-- A list in which `d` occurs has such a part at its front. -/
lemma exists_endsFirst_of_infix {d s : List α} (hd : d ≠ []) (h : d <:+: s) :
    ∃ block rest, EndsFirst d block ∧ s = block ++ rest := by
  have hnil : ¬d <:+: [] := by
    rw [List.infix_nil]
    exact hd
  rcases takeUntil_spec hnil s with ⟨-, hno⟩ | ⟨got, rest, -, hgot, heq⟩
  · exact absurd h hno
  · exact ⟨got, rest, hgot, heq.symm⟩

lemma takeUntil_eq_some {d s got rest : List α} (hd : d ≠ [])
    (h : takeUntil d [] s = some (got, rest)) : EndsFirst d got ∧ s = got ++ rest := by
  have hnil : ¬d <:+: [] := by
    rw [List.infix_nil]
    exact hd
  rcases takeUntil_spec hnil s with ⟨hnone, -⟩ | ⟨got', rest', htake, hgot, heq⟩
  · rw [h] at hnone
    exact absurd hnone (by simp)
  · rw [h] at htake
    simp only [Option.some.injEq, Prod.mk.injEq] at htake
    obtain ⟨rfl, rfl⟩ := htake
    exact ⟨hgot, heq.symm⟩

lemma eq_nil_of_splitPair {p q : α} {s : List α} (h : splitPair p q s = [[]]) : s = [] := by
  fun_induction splitPair p q s with
  | case1 => rfl
  | case2 a => simp at h
  | case3 a b s hab ih => simp [splitPair_ne_nil] at h
  | case4 a b s hab ih =>
      obtain ⟨l, ls, hl⟩ := List.exists_cons_of_ne_nil (splitPair_ne_nil p q (b :: s))
      rw [hl] at h
      simp at h

/-- **The end of a block of lines.**  A text whose lines are not empty but for the last two has
the double break at its end only. -/
lemma endsFirst_of_splitPair {p q : α} (hpq : p ≠ q) {s : List α} {lines : List (List α)}
    (hlines : splitPair p q s = lines ++ [[], []]) (hne : [] ∉ lines)
    (hend : [p, q, p, q] <:+ s) : EndsFirst [p, q, p, q] s := by
  refine ⟨hend, ?_⟩
  rintro t ⟨later, hs⟩ ⟨x, y, ht⟩
  have hcut : splitPair p q s = splitPair p q x ++ [] :: splitPair p q (y ++ later) := by
    have hpieces := splitPair_append hpq x (p :: q :: (y ++ later))
    have hsecond := splitPair_append hpq [] (y ++ later)
    rw [List.nil_append] at hsecond
    rw [hsecond] at hpieces
    rw [← hs, ← ht]
    simpa [splitPair] using hpieces
  have hx : splitPair p q x ≠ [] := splitPair_ne_nil p q x
  have hy : splitPair p q (y ++ later) ≠ [] := splitPair_ne_nil p q _
  rw [hlines] at hcut
  -- the empty piece found is none of the lines, so it is the last but one
  have hlast : splitPair p q (y ++ later) = [[]] := by
    rcases List.append_eq_append_iff.mp hcut with ⟨m, hm, htail⟩ | ⟨m, hm, htail⟩
    · cases m with
      | nil =>
          simp only [List.nil_append, List.cons.injEq, true_and] at htail
          exact htail.symm
      | cons l m =>
          have hlen := congrArg List.length htail
          have hpos := List.length_pos_of_ne_nil hy
          simp only [List.length_cons, List.length_nil, List.length_append] at hlen
          omega
    · cases m with
      | nil =>
          simp only [List.nil_append, List.cons.injEq, true_and] at htail
          exact htail
      | cons l m =>
          simp only [List.cons_append, List.cons.injEq] at htail
          rw [hm, ← htail.1] at hne
          simp at hne
  have hnil := eq_nil_of_splitPair hlast
  simp only [List.append_eq_nil_iff] at hnil
  rw [← hs, hnil.2, List.append_nil]

/-! ## In segments -/

/-- A reader of symbols goes on where a first list is used up. -/
lemma takeUntil_append (d buf s t : List α) :
    takeUntil d buf (s ++ t) =
      match takeUntil d buf s with
      | some (got, left) => some (got, left ++ t)
      | none => takeUntil d (buf ++ s) t := by
  induction s generalizing buf with
  | nil => simp [takeUntil]
  | cons a s ih =>
      rw [List.cons_append, takeUntil, takeUntil]
      by_cases hend : d.isSuffixOf (buf ++ [a]) = true
      · rw [if_pos hend, if_pos hend]
      · rw [if_neg hend, if_neg hend, ih, List.append_assoc]
        rfl

/-- Taking symbols one by one from segments, until the last ones are `d`. -/
def takeUntilIn (d : List α) : List α → List (List α) → Option (List α × List (List α))
  | _, [] => none
  | buf, seg :: segs =>
      match takeUntil d buf seg with
      | some (got, left) => some (got, left :: segs)
      | none => takeUntilIn d (buf ++ seg) segs

/-- **A reader of symbols does not see the segments.** -/
lemma takeUntilIn_eq (d buf : List α) (segs : List (List α)) :
    (takeUntilIn d buf segs).map (fun r => (r.1, r.2.flatten)) = takeUntil d buf segs.flatten := by
  induction segs generalizing buf with
  | nil => rfl
  | cons seg segs ih =>
      rw [takeUntilIn, List.flatten_cons, takeUntil_append]
      cases takeUntil d buf seg with
      | none => exact ih (buf ++ seg)
      | some r => simp

/-- Taking segments one by one, behind the symbols of `buf`, until `d` occurs. -/
def takeSegments (d : List α) : List α → List (List α) → Option (List α × List (List α))
  | buf, [] => if d <:+: buf then some (buf, []) else none
  | buf, seg :: segs =>
      if d <:+: buf then some (buf, seg :: segs) else takeSegments d (buf ++ seg) segs

lemma infix_of_takeSegments {d buf got : List α} {segs left : List (List α)}
    (h : takeSegments d buf segs = some (got, left)) : d <:+: buf ++ segs.flatten := by
  induction segs generalizing buf with
  | nil =>
      by_cases hd : d <:+: buf
      · simpa using hd
      · simp [takeSegments, hd] at h
  | cons seg segs ih =>
      by_cases hd : d <:+: buf
      · exact hd.trans (List.prefix_append _ _).isInfix
      · rw [takeSegments, if_neg hd] at h
        rw [List.flatten_cons, ← List.append_assoc]
        exact ih h

/-- A segment ends where `block` does. -/
def CutAt (block : List α) (segs : List (List α)) : Prop :=
  ∃ front back, segs = front ++ back ∧ front.flatten = block

/-- **A reader of segments** takes the fewest of them that have the block in front. -/
lemma takeSegments_of_endsFirst {d block rest : List α} (h : EndsFirst d block) {buf : List α}
    {segs : List (List α)} (heq : buf ++ segs.flatten = block ++ rest) :
    ∃ front back, takeSegments d buf segs = some (buf ++ front.flatten, back) ∧
      segs = front ++ back ∧ block <+: buf ++ front.flatten ∧
        ∀ part, part <+: front → part ≠ front → (buf ++ part.flatten).length < block.length := by
  have hbuf : buf <+: block ++ rest := ⟨segs.flatten, heq⟩
  by_cases hd : d <:+: buf
  · -- the delimiter is there already, so no segment is taken
    have hle := (h.infix_iff hbuf).mp hd
    refine ⟨[], segs, ?_, rfl, ?_, ?_⟩
    · cases segs <;> simp [takeSegments, hd]
    · rw [List.flatten_nil, List.append_nil]
      exact List.prefix_of_prefix_length_le (List.prefix_append _ _) hbuf hle
    · intro part hpart hne
      exact absurd (List.prefix_nil.mp hpart) hne
  · have hlt : buf.length < block.length := by
      rw [h.infix_iff hbuf] at hd
      omega
    cases segs with
    | nil =>
        -- the segments cannot end within the block
        have hlen := congrArg List.length heq
        simp only [List.flatten_nil, List.append_nil, List.length_append] at hlen
        omega
    | cons seg segs =>
        have hnext : buf ++ seg ++ segs.flatten = block ++ rest := by
          rw [List.append_assoc, ← List.flatten_cons, heq]
        obtain ⟨front, back, htake, hsegs, hblock, hfewest⟩ := takeSegments_of_endsFirst h hnext
        refine ⟨seg :: front, back, ?_, by rw [hsegs, List.cons_append], ?_, ?_⟩
        · rw [takeSegments, if_neg hd, htake, List.flatten_cons, List.append_assoc]
        · rw [List.flatten_cons, ← List.append_assoc]
          exact hblock
        · intro part hpart hne
          cases part with
          | nil => simpa using hlt
          | cons p part =>
              obtain ⟨rfl, htail⟩ := List.cons_prefix_cons.mp hpart
              -- a shorter beginning is one of the rest, behind the first segment
              have hless := hfewest part htail (fun heq => hne (by rw [heq]))
              rwa [List.append_assoc, ← List.flatten_cons] at hless

/-- **Where the two readers meet.**  A reader of segments takes no more than the block exactly when
a segment ends with it. -/
lemma takeSegments_eq_block_iff {d block rest : List α} (h : EndsFirst d block)
    {segs : List (List α)} (heq : segs.flatten = block ++ rest) :
    ∃ got left, takeSegments d [] segs = some (got, left) ∧ got ++ left.flatten = block ++ rest ∧
      block <+: got ∧ (got = block ↔ CutAt block segs) := by
  obtain ⟨front, back, htake, hsegs, hblock, hfewest⟩ :=
    takeSegments_of_endsFirst h (by rw [List.nil_append, heq])
  rw [List.nil_append] at htake hblock
  refine ⟨front.flatten, back, htake, ?_, hblock, ?_, ?_⟩
  · rw [← List.flatten_append, ← hsegs, heq]
  · intro hfront
    exact ⟨front, back, hsegs, hfront⟩
  · rintro ⟨front', back', hsegs', hfront'⟩
    -- fewer segments than were taken do not have the block, so it ends in the last one taken
    have hpart : front <+: segs := ⟨back, hsegs.symm⟩
    have hpart' : front' <+: segs := ⟨back', hsegs'.symm⟩
    have hpre : front <+: front' := by
      rcases List.prefix_or_prefix_of_prefix hpart hpart' with hle | hle
      · exact hle
      · by_cases hsame : front' = front
        · rw [hsame]
        · have hless := hfewest front' hle hsame
          rw [List.nil_append, hfront'] at hless
          exact absurd hless (lt_irrefl _)
    obtain ⟨more, hmore⟩ := hpre
    rw [← hmore, List.flatten_append] at hfront'
    refine (hblock.eq_of_length ?_).symm
    have hlen := congrArg List.length hfront'
    have hle := hblock.length_le
    rw [List.length_append] at hlen
    omega

end Wscpp.Lines
