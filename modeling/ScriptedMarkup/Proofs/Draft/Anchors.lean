import Mathlib.Data.List.Sort
import ScriptedMarkup.Draft.Rendering

/-!
# Helpers by anchor

The text of a draft is that of its pieces in order, each after the helpers that are anchored to it,
and then that of the helpers anchored past the last piece (`Draft.render_by_anchor`). This holds
of every draft, whatever the order and the anchors of its helpers.
-/

namespace ScriptedMarkup

namespace Helper

/-- The helpers that are anchored to piece number `anchor`, in the order in which they were made. -/
def anchoredAt (helpers : List Helper) (anchor : Nat) : List Helper :=
  helpers.filter (·.anchor = anchor)

/-- Helpers in the order of their anchors. Those with one anchor keep their order. -/
structure StablySorted (helpers sorted : List Helper) : Prop where
  ordered : sorted.Pairwise fun first second => first.anchor ≤ second.anchor
  stable : ∀ anchor, anchoredAt sorted anchor = anchoredAt helpers anchor

variable {helpers sorted other : List Helper}

/-! ### Stable sorting -/

theorem mem_anchoredAt {helper : Helper} {anchor : Nat} :
    helper ∈ anchoredAt helpers anchor ↔ helper ∈ helpers ∧ helper.anchor = anchor := by
  simp [anchoredAt]

theorem anchoredAt_filter {keeps : Helper → Bool} {anchor : Nat}
    (kept : ∀ helper : Helper, helper.anchor = anchor → keeps helper = true) :
    anchoredAt (helpers.filter keeps) anchor = anchoredAt helpers anchor := by
  rw [anchoredAt, List.filter_filter]
  refine List.filter_congr fun helper _ => ?_
  by_cases here : helper.anchor = anchor
  · simp [here, kept helper here]
  · simp [here]

instance : Std.Total fun first second : Helper => first.anchor ≤ second.anchor :=
  ⟨fun first second => Nat.le_total first.anchor second.anchor⟩

instance : IsTrans Helper fun first second => first.anchor ≤ second.anchor :=
  ⟨fun _ _ _ => Nat.le_trans⟩

theorem insert_eq_orderedInsert (helper : Helper) (helpers : List Helper) :
    helper.insert helpers =
      helpers.orderedInsert (fun first second => first.anchor ≤ second.anchor) helper := by
  induction helpers with
  | nil => rfl
  | cons first rest ih => rw [insert, List.orderedInsert_cons, ih]

theorem sort_eq_insertionSort (helpers : List Helper) :
    sort helpers = helpers.insertionSort fun first second => first.anchor ≤ second.anchor := by
  induction helpers with
  | nil => rfl
  | cons helper helpers ih =>
    rw [List.insertionSort_cons, ← ih, ← insert_eq_orderedInsert]
    rfl

theorem sort_perm (helpers : List Helper) : (sort helpers).Perm helpers := by
  rw [sort_eq_insertionSort]
  exact List.perm_insertionSort _ helpers

theorem stablySorted_sort (helpers : List Helper) : StablySorted helpers (sort helpers) := by
  refine ⟨?_, fun anchor => ?_⟩
  · rw [sort_eq_insertionSort]
    exact List.pairwise_insertionSort _ helpers
  · -- Helpers with one anchor are in order as they are, so sorting leaves them so.
    have tied : (anchoredAt helpers anchor).Pairwise fun first second =>
        first.anchor ≤ second.anchor := by
      refine List.pairwise_of_forall_mem_list fun first member second other => ?_
      rw [(mem_anchoredAt.1 member).2, (mem_anchoredAt.1 other).2]
    have kept := List.sublist_insertionSort tied List.filter_sublist
    rw [← sort_eq_insertionSort] at kept
    have within := kept.filter (·.anchor = anchor)
    simp only [List.filter_filter, anchoredAt, Bool.and_self] at within
    have size := ((sort_perm helpers).filter (·.anchor = anchor)).length_eq
    exact (within.eq_of_length size.symm).symm

theorem mem_iff_of_anchoredAt (same : ∀ anchor, anchoredAt sorted anchor = anchoredAt other anchor)
    {helper : Helper} : helper ∈ sorted ↔ helper ∈ other := by
  have here : helper ∈ anchoredAt sorted helper.anchor ↔ helper ∈ anchoredAt other helper.anchor := by
    rw [same]
  simpa [mem_anchoredAt] using here

theorem le_of_mem_ordered {first helper : Helper}
    (ordered : (first :: sorted).Pairwise fun first second => first.anchor ≤ second.anchor)
    (member : helper ∈ first :: sorted) : first.anchor ≤ helper.anchor := by
  rcases List.mem_cons.1 member with rfl | member
  · exact Nat.le_refl _
  · exact (List.pairwise_cons.1 ordered).1 helper member

/-- The order of the anchors, and of the helpers with one anchor, leave no choice. -/
theorem eq_of_anchoredAt
    (ordered : sorted.Pairwise fun first second => first.anchor ≤ second.anchor)
    (orderedToo : other.Pairwise fun first second => first.anchor ≤ second.anchor)
    (same : ∀ anchor, anchoredAt sorted anchor = anchoredAt other anchor) : sorted = other := by
  induction sorted generalizing other with
  | nil =>
    have none : ∀ helper, helper ∉ other := fun helper member =>
      List.not_mem_nil ((mem_iff_of_anchoredAt same).2 member)
    exact (List.eq_nil_iff_forall_not_mem.2 none).symm
  | cons helper sorted ih =>
    have here : helper ∈ other := (mem_iff_of_anchoredAt same).1 List.mem_cons_self
    obtain ⟨first, other, rfl⟩ := List.exists_cons_of_ne_nil (List.ne_nil_of_mem here)
    have there : first ∈ helper :: sorted := (mem_iff_of_anchoredAt same).2 List.mem_cons_self
    have tied : helper.anchor = first.anchor :=
      Nat.le_antisymm (le_of_mem_ordered ordered there) (le_of_mem_ordered orderedToo here)
    have heads := same helper.anchor
    simp only [anchoredAt, List.filter_cons, tied, decide_true, if_true] at heads
    obtain ⟨rfl, tails⟩ := List.cons.inj heads
    refine congrArg _ (ih ordered.of_cons orderedToo.of_cons fun anchor => ?_)
    by_cases due : helper.anchor = anchor
    · exact due ▸ tails
    · simpa [anchoredAt, due] using same anchor

theorem StablySorted.unique (first : StablySorted helpers sorted)
    (second : StablySorted helpers other) : sorted = other :=
  eq_of_anchoredAt first.ordered second.ordered fun anchor =>
    (first.stable anchor).trans (second.stable anchor).symm

theorem StablySorted.filter (stably : StablySorted helpers sorted) (keeps : Helper → Bool) :
    StablySorted (helpers.filter keeps) (sorted.filter keeps) := by
  refine ⟨stably.ordered.filter keeps, fun anchor => ?_⟩
  have same := congrArg (List.filter keeps) (stably.stable anchor)
  simpa [anchoredAt, List.filter_filter, Bool.and_comm] using same

end Helper

namespace Draft

open Helper

variable {helpers : List Helper} {pieces : List Piece} {index : Nat}

/-! ### Helpers that are due -/

theorem takeWhile_of_ordered
    (ordered : helpers.Pairwise fun first second => first.anchor ≤ second.anchor) (index : Nat) :
    helpers.takeWhile (·.anchor ≤ index) = helpers.filter (·.anchor ≤ index) := by
  induction helpers with
  | nil => rfl
  | cons helper helpers ih =>
    by_cases due : helper.anchor ≤ index
    · rw [List.takeWhile_cons_of_pos (by simpa using due),
        List.filter_cons_of_pos (by simpa using due), ih ordered.of_cons]
    · rw [List.takeWhile_cons_of_neg (by simpa using due), eq_comm, List.filter_eq_nil_iff]
      intro later member
      have := le_of_mem_ordered ordered member
      simp only [decide_eq_true_eq]
      omega

theorem dropWhile_of_ordered
    (ordered : helpers.Pairwise fun first second => first.anchor ≤ second.anchor) (index : Nat) :
    helpers.dropWhile (·.anchor ≤ index) = helpers.filter (index + 1 ≤ ·.anchor) := by
  induction helpers with
  | nil => rfl
  | cons helper helpers ih =>
    by_cases due : helper.anchor ≤ index
    · rw [List.dropWhile_cons_of_pos (by simpa using due), ih ordered.of_cons,
        List.filter_cons_of_neg (by simp only [decide_eq_true_eq]; omega)]
    · rw [List.dropWhile_cons_of_neg (by simpa using due), eq_comm, List.filter_eq_self]
      intro later member
      have := le_of_mem_ordered ordered member
      simp only [decide_eq_true_eq]
      omega

/-! ### Text by anchors -/

/-- The text of a piece after the helpers that are anchored to it. -/
def renderAt (helpers : List Helper) (piece : Piece) (index : Nat) : String :=
  String.join ((anchoredAt helpers index).map (·.render ++ "\n")) ++ piece.render

theorem join_flatMap_declarations (helpers : List Helper) :
    String.join (helpers.flatMap fun helper => [helper.render, "\n"]) =
      String.join (helpers.map (·.render ++ "\n")) := by
  induction helpers with
  | nil => rfl
  | cons helper helpers ih => simp [ih, String.append_assoc]

theorem join_flatMap_late (helpers : List Helper) :
    String.join (helpers.flatMap fun helper => ["\n", helper.render]) =
      String.join (helpers.map ("\n" ++ ·.render)) := by
  induction helpers with
  | nil => rfl
  | cons helper helpers ih => simp [ih, String.append_assoc]

/-- A weave of the helpers that are still to come, in order of their anchors. -/
theorem join_weave_of_ordered
    (ordered : helpers.Pairwise fun first second => first.anchor ≤ second.anchor)
    (ahead : ∀ helper ∈ helpers, index ≤ helper.anchor) :
    String.join (weave index pieces helpers) =
      String.join ((pieces.zipIdx index).map fun entry => renderAt helpers entry.1 entry.2) ++
        String.join
          ((helpers.filter (index + pieces.length ≤ ·.anchor)).map ("\n" ++ ·.render)) := by
  induction pieces generalizing index helpers with
  | nil =>
    have all : helpers.filter (index ≤ ·.anchor) = helpers :=
      List.filter_eq_self.2 (by simpa using ahead)
    rw [weave, join_flatMap_late, List.zipIdx_nil, List.map_nil, String.join_nil, String.empty_append,
      List.length_nil, Nat.add_zero, all]
  | cons piece pieces ih =>
    have due : helpers.filter (·.anchor ≤ index) = anchoredAt helpers index := by
      refine List.filter_congr fun helper member => ?_
      have := ahead helper member
      simp only [decide_eq_decide]
      omega
    have further : ∀ entry ∈ pieces.zipIdx (index + 1),
        renderAt (helpers.filter (index + 1 ≤ ·.anchor)) entry.1 entry.2 =
          renderAt helpers entry.1 entry.2 := by
      intro entry member
      have past := List.le_snd_of_mem_zipIdx member
      rw [renderAt, renderAt, anchoredAt_filter fun helper here => by simpa [here] using past]
    have late : (helpers.filter (index + 1 ≤ ·.anchor)).filter
          (index + 1 + pieces.length ≤ ·.anchor) =
        helpers.filter (index + (piece :: pieces).length ≤ ·.anchor) := by
      rw [List.filter_filter, List.length_cons]
      refine List.filter_congr fun helper _ => ?_
      simp only [← Bool.decide_and, decide_eq_decide]
      omega
    have rest := ih (ordered.filter (index + 1 ≤ ·.anchor)) fun helper member =>
      of_decide_eq_true (List.mem_filter.1 member).2
    rw [late, List.map_congr_left further] at rest
    rw [weave, takeWhile_of_ordered ordered, dropWhile_of_ordered ordered, due, String.join_append,
      String.join_cons, rest, join_flatMap_declarations, List.zipIdx_cons, List.map_cons,
      String.join_cons, renderAt]
    simp only [String.append_assoc]

/-! ### What is written -/

theorem written_perm (helpers : List Helper) (size : Nat) :
    ((List.range size).flatMap (anchoredAt helpers) ++ helpers.filter (size ≤ ·.anchor)).Perm
      helpers := by
  induction size with
  | zero => simp
  | succ size ih =>
    have here : (helpers.filter (size ≤ ·.anchor)).filter (·.anchor = size) =
        anchoredAt helpers size := anchoredAt_filter fun helper here => by simp [here]
    have later : (helpers.filter (size ≤ ·.anchor)).filter
          (fun helper => !decide (helper.anchor = size)) =
        helpers.filter (size + 1 ≤ ·.anchor) := by
      rw [List.filter_filter]
      refine List.filter_congr fun helper _ => ?_
      rw [← decide_not, ← Bool.decide_and, decide_eq_decide]
      omega
    have split := List.filter_append_perm (·.anchor = size) (helpers.filter (size ≤ ·.anchor))
    rw [here, later] at split
    rw [List.range_succ, List.flatMap_append, List.append_assoc, List.flatMap_singleton]
    exact (split.append_left _).trans ih

/-- Every piece is written once and in order, after the helpers that are anchored to it in the order
in which they were made. The helpers anchored past the last piece come at the end, by anchor and
within one anchor in the order in which they were made. -/
theorem render_by_anchor (draft : Draft) :
    ∃ late, (∀ sorted, StablySorted (draft.helpers.filter (draft.size ≤ ·.anchor)) sorted ↔
        sorted = late) ∧
      ((List.range draft.size).flatMap (anchoredAt draft.helpers) ++ late).Perm draft.helpers ∧
      draft.render =
        String.join (draft.pieces.zipIdx.map fun entry =>
          renderAt draft.helpers entry.1 entry.2) ++
        String.join (late.map ("\n" ++ ·.render)) := by
  have stably := stablySorted_sort draft.helpers
  have late := stably.filter (draft.size ≤ ·.anchor)
  refine ⟨(sort draft.helpers).filter (draft.size ≤ ·.anchor), fun sorted => ?_, ?_, ?_⟩
  · exact ⟨fun other => other.unique late, fun same => same ▸ late⟩
  · have kept := (sort_perm draft.helpers).filter (draft.size ≤ ·.anchor)
    exact (kept.append_left _).trans (written_perm draft.helpers draft.size)
  · have same (entry : Piece × Nat) : renderAt (sort draft.helpers) entry.1 entry.2 =
        renderAt draft.helpers entry.1 entry.2 := by
      rw [renderAt, renderAt, stably.stable]
    rw [render, join_weave_of_ordered stably.ordered fun helper _ => Nat.zero_le helper.anchor,
      Nat.zero_add, size_eq_length]
    simp only [same]

end Draft

end ScriptedMarkup
