import ScriptedMarkup.Proofs.Comment.Spans

/-!
# Comments between pieces of text

Comments that are put between pieces of text are taken out again (`Distinct.strip_interleaved`), as
long as the delimiters are `Distinct`: then neither is found where a piece of text meets a comment.
`strip_spans` says this of the two kinds that there are, and of all kinds what stripping leaves out.
-/

namespace ScriptedMarkup.Comment

/-- A kind of comment that is seen wherever one is written: no text before it can give its delimiters
another beginning. -/
structure Distinct (comment : Comment) : Prop where
  opening_length : 2 ≤ comment.opening.length
  closing_ne_nil : comment.closing ≠ []
  /-- No end of the opening delimiter is also a beginning of it. -/
  unbordered : ∀ k < comment.opening.length, 0 < k →
    ¬comment.opening.drop k <+: comment.opening
  /-- The closing delimiter does not hold the first two characters of the opening one. -/
  apart : ¬comment.opening.take 2 <:+: comment.closing

theorem distinct_markup : Distinct markup where
  opening_length := by decide
  closing_ne_nil := by decide
  unbordered := by decide
  apart := by decide

theorem distinct_block : Distinct block where
  opening_length := by decide
  closing_ne_nil := by decide
  unbordered := by decide
  apart := by decide

/-- A whole comment: its opening delimiter comes first, and at the last character and no earlier a
closing one is complete. -/
def IsWhole (comment : Comment) (written : List Char) : Prop :=
  comment.opening <+: written ∧
    IsLeast {i | 0 < i ∧ comment.ClosesAt written i} (written.length - 1)

/-- A text that begins with `first`, and then has comments with texts after them. -/
def interleaved (first : List Char) (parts : List (List Char × List Char)) : List Char :=
  first ++ parts.flatMap fun (written, text) => written ++ text

namespace Distinct

variable {comment : Comment} (distinct : comment.Distinct) {front piece written more : List Char} {i : Nat}

include distinct

theorem opening_ne_nil : comment.opening ≠ [] := by
  have := distinct.opening_length
  exact List.ne_nil_of_length_pos (by omega)

/-- No opening delimiter starts in a text without one, also where a comment comes next. -/
theorem not_opensAt (free : ¬comment.opening <:+: piece)
    (next : more = [] ∨ comment.opening <+: more) (lower : front.length ≤ i)
    (upper : i < (front ++ piece).length) : ¬comment.OpensAt (front ++ piece ++ more) i := by
  intro opens
  obtain ⟨k, rfl⟩ := Nat.exists_eq_add_of_le lower
  rw [List.length_append, Nat.add_lt_add_iff_left] at upper
  rw [OpensAt, List.append_assoc, List.drop_length_add_append, List.drop_append_of_le_length upper.le]
    at opens
  have within : piece.drop k <:+: piece := (List.drop_suffix k piece).isInfix
  rcases List.prefix_or_prefix_of_prefix opens (List.prefix_append _ _) with inside | ⟨rest, split⟩
  · exact free (inside.isInfix.trans within)
  -- The delimiter starts in the text and goes on after it.
  · rw [← split, List.prefix_append_right_inj] at opens
    have crosses : rest ≠ [] := by
      rintro rfl
      rw [List.append_nil] at split
      exact free (split ▸ within)
    have starts : comment.opening <+: more := by
      refine next.resolve_left ?_
      rintro rfl
      exact crosses (List.prefix_nil.1 opens)
    have length : comment.opening.length = (piece.drop k).length + rest.length := by
      rw [← split, List.length_append]
    have filled := List.length_pos_iff.2 crosses
    have begun : 0 < (piece.drop k).length := by
      rw [List.length_drop]
      omega
    have border : comment.opening.drop (piece.drop k).length = rest := by
      rw [← split, List.drop_left]
    refine distinct.unbordered _ (by omega) begun ?_
    rw [border]
    exact List.prefix_of_prefix_length_le opens starts (by omega)

/-- Whether a closing delimiter is complete depends on the comment alone, past its first character. -/
theorem closesAt_iff (opens : comment.opening <+: written) (past : 0 < i)
    (within : i < written.length) :
    comment.ClosesAt (front ++ written ++ more) (front.length + i) ↔ comment.ClosesAt written i := by
  have read : (front ++ written ++ more).take (front.length + i + 1) =
      front ++ written.take (i + 1) := by
    rw [Nat.add_assoc, List.append_assoc, List.take_length_add_append,
      List.take_append_of_le_length within]
  have inText : front.length + i < (front ++ written ++ more).length := by
    simp only [List.length_append]
    omega
  rw [ClosesAt, ClosesAt, read, and_iff_right inText, and_iff_right within]
  constructor
  · intro closes
    refine (List.suffix_or_suffix_of_suffix closes (List.suffix_append _ _)).resolve_right ?_
    intro reaching
    have begun : comment.opening.take 2 <+: written.take (i + 1) := by
      have inOpening : comment.opening.take 2 <+: written :=
        (List.take_prefix 2 _).trans opens
      refine List.prefix_take_iff.2 ⟨inOpening, ?_⟩
      rw [List.length_take]
      omega
    exact distinct.apart (begun.isInfix.trans reaching.isInfix)
  · exact fun closes => closes.trans (List.suffix_append _ _)

theorem outsideAt_free (free : ¬comment.opening <:+: piece)
    (next : more = [] ∨ comment.opening <+: more) :
    comment.outsideAt (front ++ piece ++ more) front.length =
      { comment.outsideAt (front ++ piece ++ more) (front ++ piece).length with
        kept := piece ++
          (comment.outsideAt (front ++ piece ++ more) (front ++ piece).length).kept } := by
  have inOrder : front.length ≤ (front ++ piece).length := (List.prefix_append _ _).length_le
  have inText : (front ++ piece).length ≤ (front ++ piece ++ more).length :=
    (List.prefix_append _ _).length_le
  rw [outsideAt_of_unopened inOrder inText fun i => distinct.not_opensAt free next, List.take_left,
    List.drop_left]

theorem outsideAt_whole (whole : comment.IsWhole written) :
    comment.outsideAt (front ++ written ++ more) front.length =
      comment.outsideAt (front ++ written ++ more) (front ++ written).length := by
  obtain ⟨opens, closes⟩ := whole
  have length := opens.length_le
  have opening_length := distinct.opening_length
  have last : (front ++ written).length = front.length + (written.length - 1) + 1 := by
    rw [List.length_append]
    omega
  have inText : front.length + (written.length - 1) < (front ++ written ++ more).length := by
    rw [List.length_append, last]
    omega
  have opened : comment.OpensAt (front ++ written ++ more) front.length := by
    rw [OpensAt, List.append_assoc, List.drop_left]
    exact opens.trans (List.prefix_append _ _)
  have closed : comment.ClosesAt (front ++ written ++ more) (front.length + (written.length - 1)) :=
    (distinct.closesAt_iff opens (by omega) (by omega)).2 closes.1.2
  have unclosed : ∀ i, front.length + 1 ≤ i → i < front.length + (written.length - 1) →
      ¬comment.ClosesAt (front ++ written ++ more) i := by
    intro i lower upper ended
    obtain ⟨k, rfl⟩ := Nat.exists_eq_add_of_le (Nat.le_of_succ_le lower)
    rw [distinct.closesAt_iff opens (by omega) (by omega)] at ended
    exact not_of_lt_least closes (by omega) ⟨by omega, ended⟩
  rw [outsideAt_of_opensAt (by omega) opened,
    insideAt_of_unclosed (by omega) (Nat.le_of_lt inText) unclosed, insideAt_of_closesAt closed, last]
  rfl

theorem outsideAt_interleaved (front : List Char) {parts : List (List Char × List Char)}
    (free : ¬comment.opening <:+: piece)
    (whole : ∀ part ∈ parts, comment.IsWhole part.1 ∧ ¬comment.opening <:+: part.2) :
    comment.outsideAt (front ++ interleaved piece parts) front.length =
      { kept := piece ++ parts.flatMap (·.2) } := by
  induction parts generalizing front piece with
  | nil =>
    have split : front ++ interleaved piece [] = front ++ piece ++ [] := by simp [interleaved]
    rw [split, distinct.outsideAt_free free (.inl rfl), List.append_nil, outsideAt_length]
    rfl
  | cons part parts ih =>
    obtain ⟨written, after⟩ := part
    obtain ⟨comes, freeAfter⟩ := whole _ List.mem_cons_self
    have ih := ih (front ++ piece ++ written) freeAfter fun part member =>
      whole part (List.mem_cons_of_mem _ member)
    have split : front ++ interleaved piece ((written, after) :: parts) =
        front ++ piece ++ (written ++ interleaved after parts) := by
      simp only [interleaved, List.flatMap_cons, List.append_assoc]
    rw [split, distinct.outsideAt_free free (.inr (comes.1.trans (List.prefix_append _ _))),
      ← List.append_assoc (front ++ piece), distinct.outsideAt_whole comes, ih]
    rfl

/-- Comments that are put between pieces of text are taken out again. -/
theorem strip_interleaved {parts : List (List Char × List Char)} (free : ¬comment.opening <:+: piece)
    (whole : ∀ part ∈ parts, comment.IsWhole part.1 ∧ ¬comment.opening <:+: part.2) :
    comment.strip (interleaved piece parts) = { kept := piece ++ parts.flatMap (·.2) } := by
  rw [strip_eq_outsideAt distinct.opening_ne_nil distinct.closing_ne_nil]
  exact distinct.outsideAt_interleaved [] free whole

end Distinct

/-- Stripping leaves out the characters of the comments and no others, whatever the delimiters are.
What comes after an opening delimiter without a closing one is kept. In particular, comments in markup
or blocks that are put between pieces of text are taken out again. -/
theorem strip_spans {comment : Comment} (opening : comment.opening ≠ []) (closing : comment.closing ≠ [])
    (text : List Char) :
    (∃ spans unclosed, comment.Spans text 0 spans unclosed) ∧
      (∀ spans unclosed, comment.Spans text 0 spans unclosed →
        comment.strip text = { kept := Span.uncovered spans 0 text, unclosed }) ∧
      ∀ piece parts, comment = markup ∨ comment = block → text = interleaved piece parts →
        ¬comment.opening <:+: piece →
        (∀ part ∈ parts, comment.IsWhole part.1 ∧ ¬comment.opening <:+: part.2) →
        comment.strip text = { kept := piece ++ parts.flatMap (·.2) } := by
  refine ⟨exists_spans comment text 0, fun _ _ found => found.strip_eq opening closing, ?_⟩
  rintro piece parts kind rfl free whole
  have distinct : comment.Distinct := by
    rcases kind with rfl | rfl
    · exact distinct_markup
    · exact distinct_block
  exact distinct.strip_interleaved free whole

/-- The slash that ends the opening delimiter's asterisk also ends the comment. -/
theorem strip_spans_overlapping :
    let text := ['a', '/', '*', '/', 'b', '*', '/', 'c']
    let parts := [(['/', '*', '/'], ['b', '*', '/', 'c'])]
    block.opening ≠ [] ∧ block.closing ≠ [] ∧ block.Spans text 0 [⟨1, 3⟩] none ∧
      block.strip text = { kept := Span.uncovered [⟨1, 3⟩] 0 text } ∧
      text = interleaved ['a'] parts ∧ ¬block.opening <:+: ['a'] ∧
      (∀ part ∈ parts, block.IsWhole part.1 ∧ ¬block.opening <:+: part.2) ∧
      block.strip text = { kept := ['a', 'b', '*', '/', 'c'] } := by
  intro text parts
  have opening : block.opening ≠ [] := by decide
  have closing : block.closing ≠ [] := by decide
  have spans : block.Spans text 0 [⟨1, 3⟩] none := by
    refine .closed (by decide) (by decide) (.plain ?_)
    intro i past opens
    have later : ∀ i < 8, 4 ≤ i → ¬block.OpensAt text i := by decide
    exact later i (opens.lt_length opening) past opens
  have free : ¬block.opening <:+: ['a'] := by decide
  have whole : ∀ part ∈ parts, block.IsWhole part.1 ∧ ¬block.opening <:+: part.2 := by
    simp only [IsWhole]
    decide
  obtain ⟨-, stripped, pieces⟩ := strip_spans opening closing text
  exact ⟨opening, closing, spans, stripped _ _ spans, rfl, free, whole,
    pieces ['a'] parts (.inr rfl) rfl free whole⟩

end ScriptedMarkup.Comment
