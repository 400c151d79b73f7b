import Mathlib.Order.Bounds.Basic
import Mathlib.Order.Nat
import ScriptedMarkup.Comment
import ScriptedMarkup.Proofs.Text.Slices

/-!
# Where comments stand

`Comment.Spans` says which characters of a text make up its comments, by the numbers of the
characters alone: a comment goes from the first place where its opening delimiter stands to the first
place after that where the closing delimiter is complete. Every text has spans (`exists_spans`), and
`Comment.strip` leaves out their characters and no others (`Spans.strip_eq`).
-/

namespace ScriptedMarkup

/-- Characters of a text, from number `first` to number `last`, both included. -/
structure Span where
  first : Nat
  last : Nat
  deriving DecidableEq, Repr

namespace Span

def covers (span : Span) (i : Nat) : Bool := span.first ≤ i && i ≤ span.last

/-- A text, with characters numbered from `start`, without those that one of the spans covers. -/
def uncovered (spans : List Span) (start : Nat) (text : List Char) : List Char :=
  ((text.zipIdx start).filter fun (_, i) => !spans.any (·.covers i)).map Prod.fst

variable {spans : List Span} {start : Nat} {text : List Char}

theorem uncovered_append (spans : List Span) (start : Nat) (first second : List Char) :
    uncovered spans start (first ++ second) =
      uncovered spans start first ++ uncovered spans (start + first.length) second := by
  simp only [uncovered, List.zipIdx_append, List.filter_append, List.map_append]

theorem uncovered_eq_self
    (free : ∀ i, start ≤ i → i < start + text.length → spans.any (·.covers i) = false) :
    uncovered spans start text = text := by
  have kept : (text.zipIdx start).filter (fun (_, i) => !spans.any (·.covers i)) =
      text.zipIdx start := by
    refine List.filter_eq_self.2 ?_
    rintro ⟨c, i⟩ member
    obtain ⟨lower, upper, -⟩ := List.mem_zipIdx member
    simp only [free i lower (by omega), Bool.not_false]
  rw [uncovered, kept, List.zipIdx_map_fst]

theorem uncovered_eq_nil
    (covered : ∀ i, start ≤ i → i < start + text.length → spans.any (·.covers i) = true) :
    uncovered spans start text = [] := by
  have dropped : (text.zipIdx start).filter (fun (_, i) => !spans.any (·.covers i)) = [] := by
    refine List.filter_eq_nil_iff.2 ?_
    rintro ⟨c, i⟩ member
    obtain ⟨lower, upper, -⟩ := List.mem_zipIdx member
    simp [covered i lower (by omega)]
  rw [uncovered, dropped, List.map_nil]

theorem uncovered_cons_of_lt {span : Span} (past : span.last < start) :
    uncovered (span :: spans) start text = uncovered spans start text := by
  unfold uncovered
  congr 1
  refine List.filter_congr ?_
  rintro ⟨c, i⟩ member
  obtain ⟨lower, -, -⟩ := List.mem_zipIdx member
  have apart : span.covers i = false := by
    simp only [covers, Bool.and_eq_false_iff, decide_eq_false_iff_not]
    omega
  simp only [List.any_cons, apart, Bool.false_or]

end Span

namespace Comment

/-- The opening delimiter stands at character number `i` of a text. -/
def OpensAt (comment : Comment) (text : List Char) (i : Nat) : Prop :=
  comment.opening <+: text.drop i
  deriving Decidable

/-- A text up to character number `i`, which is included, ends with the closing delimiter. -/
def ClosesAt (comment : Comment) (text : List Char) (i : Nat) : Prop :=
  i < text.length ∧ comment.closing <:+ text.take (i + 1)
  deriving Decidable

/-- The comments of a text from character number `start` on, and the number of the character that
opens one which does not close. -/
inductive Spans (comment : Comment) (text : List Char) : Nat → List Span → Option Nat → Prop where
  | plain {start : Nat} (unopened : ∀ i, start ≤ i → ¬comment.OpensAt text i) :
      Spans comment text start [] none
  | unclosed {start first : Nat} (opens : IsLeast {i | start ≤ i ∧ comment.OpensAt text i} first)
      (unclosed : ∀ i, first < i → ¬comment.ClosesAt text i) :
      Spans comment text start [] (some first)
  | closed {start first last : Nat} {more : List Span} {unclosed : Option Nat}
      (opens : IsLeast {i | start ≤ i ∧ comment.OpensAt text i} first)
      (closes : IsLeast {i | first < i ∧ comment.ClosesAt text i} last)
      (rest : Spans comment text (last + 1) more unclosed) :
      Spans comment text start (⟨first, last⟩ :: more) unclosed

variable {comment : Comment} {text : List Char} {start stop i : Nat}

theorem exists_spans (comment : Comment) (text : List Char) (start : Nat) :
    ∃ spans unclosed, comment.Spans text start spans unclosed := by
  by_cases opens : ∃ i, start ≤ i ∧ comment.OpensAt text i
  · obtain ⟨first, opens⟩ : ∃ first, IsLeast {i | start ≤ i ∧ comment.OpensAt text i} first :=
      ⟨_, Nat.isLeast_find opens⟩
    by_cases closes : ∃ i, first < i ∧ comment.ClosesAt text i
    · obtain ⟨last, closes⟩ : ∃ last, IsLeast {i | first < i ∧ comment.ClosesAt text i} last :=
        ⟨_, Nat.isLeast_find closes⟩
      have inOrder : start ≤ first := opens.1.1
      have forward : first < last := closes.1.1
      have within : last < text.length := closes.1.2.1
      obtain ⟨spans, unclosed, rest⟩ := exists_spans comment text (last + 1)
      exact ⟨_, unclosed, .closed opens closes rest⟩
    · exact ⟨[], some first, .unclosed opens fun i past closed => closes ⟨i, past, closed⟩⟩
  · exact ⟨[], none, .plain fun i past opened => opens ⟨i, past, opened⟩⟩
termination_by text.length - start

/-! ### Reading on from a character -/

/-- What is kept of a text from character number `i` on, outside comments there. -/
def outsideAt (comment : Comment) (text : List Char) (i : Nat) : Uncommented :=
  comment.outside (text.take i).reverse (text.drop i)

/-- What is kept of a text from character number `i` on, inside a comment there. -/
def insideAt (comment : Comment) (text : List Char) (i : Nat) : Option Uncommented :=
  comment.inside (text.take i).reverse (text.drop i)

theorem reverse_take_succ (within : i < text.length) :
    (text.take (i + 1)).reverse = text[i] :: (text.take i).reverse := by
  rw [List.take_succ_eq_append_getElem within, List.reverse_concat]

theorem opensAt_iff (within : i < text.length) :
    comment.opening.isPrefixOf (text[i] :: text.drop (i + 1)) = true ↔ comment.OpensAt text i := by
  rw [List.isPrefixOf_iff_prefix, OpensAt, List.drop_eq_getElem_cons within]

theorem closesAt_iff (within : i < text.length) :
    comment.closing.reverse.isPrefixOf (text[i] :: (text.take i).reverse) = true ↔
      comment.ClosesAt text i := by
  rw [List.isPrefixOf_iff_prefix, ← reverse_take_succ within, List.reverse_prefix, ClosesAt,
    and_iff_right within]

theorem outsideAt_of_not_opensAt (within : i < text.length) (unopened : ¬comment.OpensAt text i) :
    comment.outsideAt text i =
      { comment.outsideAt text (i + 1) with
        kept := text[i] :: (comment.outsideAt text (i + 1)).kept } := by
  rw [outsideAt, List.drop_eq_getElem_cons within, outside, if_neg (opensAt_iff within |>.not.2 unopened),
    ← reverse_take_succ within]
  rfl

theorem outsideAt_of_opensAt (within : i < text.length) (opens : comment.OpensAt text i) :
    comment.outsideAt text i =
      (comment.insideAt text (i + 1)).getD { kept := text.drop i, unclosed := some i } := by
  have length : (text.take i).reverse.length = i := by
    rw [List.length_reverse, List.length_take]
    omega
  rw [outsideAt, List.drop_eq_getElem_cons within, outside, if_pos ((opensAt_iff within).2 opens),
    ← reverse_take_succ within, length]
  rfl

theorem insideAt_of_not_closesAt (within : i < text.length) (unclosed : ¬comment.ClosesAt text i) :
    comment.insideAt text i = comment.insideAt text (i + 1) := by
  rw [insideAt, List.drop_eq_getElem_cons within, inside, if_neg (closesAt_iff within |>.not.2 unclosed),
    ← reverse_take_succ within]
  rfl

theorem insideAt_of_closesAt (closes : comment.ClosesAt text i) :
    comment.insideAt text i = some (comment.outsideAt text (i + 1)) := by
  have within := closes.1
  rw [insideAt, List.drop_eq_getElem_cons within, inside, if_pos ((closesAt_iff within).2 closes),
    ← reverse_take_succ within]
  rfl

theorem outsideAt_length (comment : Comment) (text : List Char) :
    comment.outsideAt text text.length = { kept := [] } := by
  rw [outsideAt, List.drop_length, outside]

theorem insideAt_length (comment : Comment) (text : List Char) :
    comment.insideAt text text.length = none := by
  rw [insideAt, List.drop_length, inside]

/-- All characters before the next opening delimiter are kept. -/
theorem outsideAt_of_unopened (forward : start ≤ stop) (within : stop ≤ text.length)
    (unopened : ∀ i, start ≤ i → i < stop → ¬comment.OpensAt text i) :
    comment.outsideAt text start =
      { comment.outsideAt text stop with
        kept := (text.take stop).drop start ++ (comment.outsideAt text stop).kept } := by
  induction stop, forward using Nat.le_induction with
  | base => simp
  | succ stop forward ih =>
    have ih := ih (by omega) fun i lower upper => unopened i lower (by omega)
    have split : (text.take (stop + 1)).drop start = (text.take stop).drop start ++ [text[stop]] := by
      rw [List.take_succ_eq_append_getElem within, List.drop_append_of_le_length]
      rw [List.length_take]
      omega
    rw [ih, outsideAt_of_not_opensAt within (unopened stop forward (by omega)), split,
      List.append_assoc]
    rfl

/-- No character before the next complete closing delimiter is kept. -/
theorem insideAt_of_unclosed (forward : start ≤ stop) (within : stop ≤ text.length)
    (unclosed : ∀ i, start ≤ i → i < stop → ¬comment.ClosesAt text i) :
    comment.insideAt text start = comment.insideAt text stop := by
  induction stop, forward using Nat.le_induction with
  | base => rfl
  | succ stop forward ih =>
    have ih := ih (by omega) fun i lower upper => unclosed i lower (by omega)
    rw [ih, insideAt_of_not_closesAt within (unclosed stop forward (by omega))]

theorem outsideAt_of_not_opens (unopened : ∀ i, start ≤ i → ¬comment.OpensAt text i)
    (within : start ≤ text.length) :
    comment.outsideAt text start = { kept := text.drop start } := by
  rw [outsideAt_of_unopened within (Nat.le_refl _) fun i lower _ => unopened i lower,
    outsideAt_length, List.take_length, List.append_nil]

theorem insideAt_of_not_closes (unclosed : ∀ i, start ≤ i → ¬comment.ClosesAt text i)
    (within : start ≤ text.length) : comment.insideAt text start = none := by
  rw [insideAt_of_unclosed within (Nat.le_refl _) fun i lower _ => unclosed i lower,
    insideAt_length]

/-! ### What is left of a text -/

theorem OpensAt.lt_length (opening : comment.opening ≠ []) (opens : comment.OpensAt text i) :
    i < text.length := by
  have shorter := opens.length_le
  have nonempty := List.length_pos_iff.2 opening
  rw [List.length_drop] at shorter
  omega

theorem not_of_lt_least {p : Nat → Prop} {least : Nat} (isLeast : IsLeast {i | p i} least)
    (below : i < least) : ¬p i :=
  fun holds => Nat.not_le_of_lt below (isLeast.2 holds)

theorem Spans.le_first {spans : List Span} {unclosed : Option Nat}
    (found : comment.Spans text start spans unclosed) : ∀ span ∈ spans, start ≤ span.first := by
  induction found with
  | plain | unclosed => simp
  | closed opens closes _ ih =>
    intro span member
    rcases List.mem_cons.1 member with rfl | member
    · exact opens.1.1
    · have later := ih span member
      have inOrder := opens.1.1
      have forward := closes.1.1
      omega

/-- A text from a place on is what comes before the next span, the span, and what comes after it. -/
theorem uncovered_of_closed {first last : Nat} {more : List Span} (inOrder : start ≤ first)
    (forward : first < last) (within : last < text.length)
    (later : ∀ span ∈ more, last + 1 ≤ span.first) :
    Span.uncovered (⟨first, last⟩ :: more) start (text.drop start) =
      (text.take first).drop start ++ Span.uncovered more (last + 1) (text.drop (last + 1)) := by
  have before : ((text.take first).drop start).length = first - start :=
    Text.length_slice (by omega)
  have inside : ((text.take (last + 1)).drop first).length = last + 1 - first :=
    Text.length_slice within
  have free : Span.uncovered (⟨first, last⟩ :: more) start ((text.take first).drop start) =
      (text.take first).drop start := by
    refine Span.uncovered_eq_self ?_
    intro i lower upper
    refine List.any_eq_false.2 ?_
    intro span member
    have past : i < span.first := by
      rcases List.mem_cons.1 member with rfl | member
      · show i < first
        omega
      · have := later span member
        omega
    simp only [Span.covers, Bool.and_eq_true, decide_eq_true_eq]
    omega
  have covered : Span.uncovered (⟨first, last⟩ :: more) first ((text.take (last + 1)).drop first) =
      [] := by
    refine Span.uncovered_eq_nil ?_
    intro i lower upper
    have inSpan : Span.covers ⟨first, last⟩ i = true := by
      simp only [Span.covers, Bool.and_eq_true, decide_eq_true_eq]
      omega
    rw [List.any_cons, inSpan, Bool.true_or]
  have middle : start + (first - start) = first := by omega
  have after : first + (last + 1 - first) = last + 1 := by omega
  rw [← Text.slice_append_drop inOrder text,
    ← Text.slice_append_drop (Nat.le_succ_of_le (Nat.le_of_lt forward)) text,
    Span.uncovered_append, free, before, middle, Span.uncovered_append, covered, inside, after,
    List.nil_append, Span.uncovered_cons_of_lt (Nat.lt_succ_self last)]

/-- From any place outside comments on, the characters that no comment covers are kept. -/
theorem Spans.outsideAt_eq {spans : List Span} {unclosed : Option Nat} (opening : comment.opening ≠ [])
    (found : comment.Spans text start spans unclosed) (within : start ≤ text.length) :
    comment.outsideAt text start =
      { kept := Span.uncovered spans start (text.drop start), unclosed } := by
  induction found with
  | plain unopened =>
    rw [outsideAt_of_not_opens unopened within, Span.uncovered_eq_self fun _ _ _ => rfl]
  | @unclosed start first opens unclosed =>
    have inText : first < text.length := opens.1.2.lt_length opening
    have inOrder : start ≤ first := opens.1.1
    rw [outsideAt_of_unopened inOrder (Nat.le_of_lt inText)
        fun i lower upper opened => not_of_lt_least opens upper ⟨lower, opened⟩,
      outsideAt_of_opensAt inText opens.1.2, insideAt_of_not_closes unclosed inText,
      Span.uncovered_eq_self fun _ _ _ => rfl, ← Text.slice_append_drop inOrder text]
    rfl
  | @closed start first last more unclosed opens closes rest ih =>
    have inText : first < text.length := opens.1.2.lt_length opening
    have inOrder : start ≤ first := opens.1.1
    have forward : first < last := closes.1.1
    have closed : last < text.length := closes.1.2.1
    rw [outsideAt_of_unopened inOrder (Nat.le_of_lt inText)
        fun i lower upper opened => not_of_lt_least opens upper ⟨lower, opened⟩,
      outsideAt_of_opensAt inText opens.1.2,
      insideAt_of_unclosed forward (Nat.le_of_lt closed)
        fun i lower upper ended => not_of_lt_least closes upper ⟨lower, ended⟩,
      insideAt_of_closesAt closes.1.2, ih closed, uncovered_of_closed inOrder forward closed rest.le_first]
    rfl

theorem strip_eq_outsideAt (opening : comment.opening ≠ []) (closing : comment.closing ≠ [])
    (text : List Char) : comment.strip text = comment.outsideAt text 0 := by
  rw [strip, List.isEmpty_eq_false_iff.2 opening, List.isEmpty_eq_false_iff.2 closing]
  rfl

/-- Stripping leaves out the characters of the comments and no others. What comes after an opening
delimiter without a closing one is kept. -/
theorem Spans.strip_eq {spans : List Span} {unclosed : Option Nat} (opening : comment.opening ≠ [])
    (closing : comment.closing ≠ []) (found : comment.Spans text 0 spans unclosed) :
    comment.strip text = { kept := Span.uncovered spans 0 text, unclosed } := by
  rw [strip_eq_outsideAt opening closing, found.outsideAt_eq opening (Nat.zero_le _)]
  rfl

end Comment

end ScriptedMarkup
