import Mathlib.Data.List.TakeWhile
import ScriptedMarkup.Proofs.Draft.Layout

/-!
# What writing adds to the text of a draft

While each helper of a draft is anchored to a literal that has been opened (`Rooted`), whatever is
written comes at the end of its text (`written`). A declaration comes at the end of what is before
the literal that it is anchored to (`written_hoist`).
-/

namespace ScriptedMarkup.Draft

/-! ### Layout of helpers that are due -/

theorem layout_nil (index : Nat) (pieces : List Piece) :
    layout index pieces [] = pieces.map .written := by
  induction pieces generalizing index with
  | nil => rfl
  | cons piece pieces ih =>
    rw [layout, List.takeWhile_nil, List.dropWhile_nil, ih]
    rfl

/-- Helpers that are due by the end of the front are declared in it, or right after it. -/
theorem layout_past {index : Nat} {front : List Piece} {helpers : List Helper}
    (due : ∀ helper ∈ helpers, helper.anchor ≤ index + front.length) (back : List Piece) :
    layout index (front ++ back) helpers = layout index front helpers ++ back.map .written := by
  induction front generalizing index helpers with
  | nil =>
    cases back with
    | nil => simp
    | cons piece back =>
      have all : ∀ helper ∈ helpers, decide (helper.anchor ≤ index) = true := by
        intro helper member
        exact decide_eq_true (due helper member)
      show layout index (piece :: back) helpers =
        helpers.map .declared ++ (piece :: back).map .written
      rw [layout, List.takeWhile_eq_self_iff.2 all, List.dropWhile_eq_nil_iff.2 all, layout_nil]
      rfl
  | cons piece front ih =>
    have later : ∀ helper ∈ helpers.dropWhile (·.anchor ≤ index),
        helper.anchor ≤ index + 1 + front.length := by
      intro helper member
      have := due helper ((List.dropWhile_suffix _).subset member)
      rw [List.length_cons] at this
      omega
    rw [List.cons_append, layout, layout, ih later]
    simp

theorem split_concat {p : Helper → Bool} {last : Helper} (waits : p last = false)
    (helpers : List Helper) :
    (helpers ++ [last]).takeWhile p = helpers.takeWhile p ∧
      (helpers ++ [last]).dropWhile p = helpers.dropWhile p ++ [last] := by
  induction helpers with
  | nil => simp [waits]
  | cons helper helpers ih =>
    rw [List.cons_append, List.takeWhile_cons, List.takeWhile_cons, List.dropWhile_cons,
      List.dropWhile_cons, ih.1, ih.2]
    split <;> exact ⟨rfl, rfl⟩

theorem layout_concat {index : Nat} {front : List Piece} {last : Helper}
    (due : last.anchor = index + front.length) (helpers : List Helper) :
    layout index front (helpers ++ [last]) = layout index front helpers ++ [.declared last] := by
  induction front generalizing index helpers with
  | nil => simp [layout]
  | cons piece front ih =>
    rw [List.length_cons] at due
    have waits : decide (last.anchor ≤ index) = false := decide_eq_false (by omega)
    have next : last.anchor = index + 1 + front.length := by omega
    obtain ⟨taken, left⟩ := split_concat (p := (·.anchor ≤ index)) waits helpers
    rw [layout, layout, taken, left, ih next]
    simp

/-! ### Anchors -/

/-- The piece with this number opens a literal. -/
def Opens (recent : List Piece) (anchor : Nat) : Prop :=
  ∃ before, .openLiteral :: before <:+ recent ∧ before.length = anchor

/-- Every helper is anchored to a literal that has been opened. -/
def Rooted (draft : Draft) : Prop :=
  ∀ helper ∈ draft.helpers, Opens draft.recent helper.anchor

variable {draft next : Draft} {recent newer older : List Piece} {anchor : Nat}

theorem Opens.lt_length (opens : Opens recent anchor) : anchor < recent.length := by
  obtain ⟨before, suffix, rfl⟩ := opens
  exact suffix.length_le

theorem Opens.cons (opens : Opens recent anchor) (piece : Piece) :
    Opens (piece :: recent) anchor := by
  obtain ⟨before, suffix, length⟩ := opens
  exact ⟨before, suffix.trans (List.suffix_cons _ _), length⟩

theorem Opens.of_settled (opens : Opens draft.recent anchor)
    (settled : next.settled = draft.settled) : Opens next.recent anchor := by
  obtain ⟨before, suffix, length⟩ := opens
  refine ⟨before, ?_, length⟩
  apply (suffix_of_settled settled).2
  exact (suffix_dropWhile _ _).2 suffix

/-- What was opened before the last piece stays, when that piece opens nothing. -/
theorem Opens.of_cons {piece : Piece} (opens : Opens (piece :: older) anchor)
    (other : piece ≠ .openLiteral) : Opens older anchor := by
  obtain ⟨before, suffix, length⟩ := opens
  refine ⟨before, ?_, length⟩
  rcases List.suffix_cons_iff.1 suffix with same | suffix
  · exact absurd (List.cons.inj same).1.symm other
  · exact suffix

theorem Rooted.push (rooted : draft.Rooted) (piece : Piece) : (draft.push piece).Rooted := by
  intro helper member
  exact (rooted helper member).cons piece

theorem Rooted.of_settled (rooted : draft.Rooted) (settled : next.settled = draft.settled)
    (helpers : next.helpers = draft.helpers) : next.Rooted := by
  intro helper member
  rw [helpers] at member
  exact (rooted helper member).of_settled settled

/-! ### Text -/

/-- The text of pieces, the last one first, with their helpers. -/
def textOf (recent : List Piece) (helpers : List Helper) : List Char :=
  Part.text (layout 0 recent.reverse helpers)

/-- The text of a draft whose helpers are in order. -/
def written (draft : Draft) : List Char := textOf draft.recent draft.helpers

theorem textOf_append {helpers : List Helper} (due : ∀ helper ∈ helpers, helper.anchor ≤ older.length)
    (newer : List Piece) :
    textOf (newer ++ older) helpers =
      textOf older helpers ++ Part.text (newer.reverse.map .written) := by
  have due : ∀ helper ∈ helpers, helper.anchor ≤ 0 + older.reverse.length := by
    simpa using due
  rw [textOf, List.reverse_append, layout_past due, Part.text_append]
  rfl

theorem textOf_cons {helpers : List Helper} (due : ∀ helper ∈ helpers, helper.anchor ≤ older.length)
    (piece : Piece) :
    textOf (piece :: older) helpers = textOf older helpers ++ piece.render.toList := by
  have text : Part.text [.written piece] = piece.render.toList := by
    rw [Part.text_cons]
    exact List.append_nil _
  rw [← text]
  exact textOf_append due [piece]

section Writing

variable (rooted : draft.Rooted)

include rooted

theorem Rooted.due (newer : List Piece) (same : draft.recent = newer ++ older)
    (few : newer.length ≤ 1) :
    ∀ helper ∈ draft.helpers, helper.anchor ≤ older.length := by
  intro helper member
  have := (rooted helper member).lt_length
  rw [same, List.length_append] at this
  omega

theorem written_push (piece : Piece) :
    (draft.push piece).written = draft.written ++ piece.render.toList :=
  textOf_cons (rooted.due [] rfl (by simp)) piece

theorem written_of_recent {piece : Piece} (same : draft.recent = piece :: older) :
    draft.written = textOf older draft.helpers ++ piece.render.toList := by
  rw [written, same]
  exact textOf_cons (rooted.due [piece] same (by simp)) piece

/-- What is added to the last piece is added to the text. -/
theorem written_of_longer {piece longer : Piece} {added : List Char}
    (before : draft.recent = piece :: older) (after : next.recent = longer :: older)
    (helpers : next.helpers = draft.helpers)
    (more : longer.render.toList = piece.render.toList ++ added) :
    next.written = draft.written ++ added := by
  have due := rooted.due [piece] before (by simp)
  rw [written_of_recent rooted before, List.append_assoc, ← more, written, after, helpers]
  exact textOf_cons due longer

theorem written_code (text : String) : (draft.code text).written = draft.written ++ text.toList := by
  by_cases empty : text = ""
  · simp [code, empty]
  unfold code
  rw [if_neg (by simpa using empty)]
  split
  · next before older same => exact written_of_longer rooted same rfl rfl (by simp)
  · exact written_push rooted (.code text)

theorem written_codeChar (c : Char) : (draft.codeChar c).written = draft.written ++ [c] := by
  rw [← code_singleton, written_code rooted]
  simp

theorem written_textChar (c : Char) :
    (draft.textChar c).written = draft.written ++ Text.escapeChar c := by
  unfold textChar
  split
  · next before older same => exact written_of_longer rooted same rfl rfl (by simp)
  · rw [show Text.escapeChar c = (Piece.text (String.singleton c)).render.toList by simp]
    exact written_push rooted _

/-- The end of an expression comes after what is added to it. -/
theorem written_expressionChar {source : String} {body : List Char}
    (same : draft.recent = .expression source :: older)
    (text : draft.written = body ++ ") + '".toList) (c : Char) :
    (draft.expressionChar c).written = body ++ [c] ++ ") + '".toList := by
  have grown : (draft.expressionChar c).recent = .expression (source.push c) :: older := by
    rw [expressionChar, same]
  have rooted' : (draft.expressionChar c).Rooted := rooted.of_settled (by simp) (by simp)
  have front : body = textOf older draft.helpers ++ ("' + (".toList ++ source.toList) := by
    rw [written_of_recent rooted same] at text
    have text : body ++ ") + '".toList =
        textOf older draft.helpers ++ ("' + (".toList ++ source.toList) ++ ") + '".toList := by
      rw [← text]
      simp [splice]
    exact List.append_cancel_right text
  rw [written_of_recent rooted' grown, front]
  simp [splice]

theorem written_of_trimText? {kept : Draft} {c : Char} (trimmed : draft.trimText? c = some kept) :
    draft.written = kept.written ++ Text.escapeChar c ∧ kept.Rooted := by
  obtain ⟨content, older, same, helpers, -, rest⟩ := of_trimText? _ _ trimmed
  have added : (Piece.text (content.push c)).render.toList =
      (Piece.text content).render.toList ++ Text.escapeChar c := by
    simp
  have rooted' : kept.Rooted := by
    intro helper member
    rw [helpers] at member
    have opens := rooted helper member
    rw [same] at opens
    rcases rest with ⟨-, rest⟩ | rest
    · exact rest ▸ opens.of_cons (by simp)
    · exact rest ▸ (opens.of_cons (by simp)).cons _
  refine ⟨?_, rooted'⟩
  rw [written_of_recent rooted same, added, ← List.append_assoc, ← helpers]
  rcases rest with ⟨rfl, rest⟩ | rest
  · rw [written, rest]
    simp
  · rw [written_of_recent rooted' rest]

end Writing

/-! ### Declarations -/

theorem textOf_concat {before : List Piece} {last : Helper} (due : last.anchor = before.length)
    (helpers : List Helper) :
    textOf before (helpers ++ [last]) = textOf before helpers ++ (last.render.toList ++ ['\n']) := by
  have declared : Part.text [.declared last] = last.render.toList ++ ['\n'] := by
    simp [Part.text, Part.render]
  rw [textOf, layout_concat (by simpa using due), Part.text_append, declared]
  rfl

/-- A declaration is put where the literal starts that it is anchored to. -/
theorem written_hoist {before : List Piece} {helper : Helper}
    (opens : .openLiteral :: before <:+ draft.recent)
    (due : ∀ other ∈ draft.helpers, other.anchor ≤ before.length)
    (here : helper.anchor = before.length) :
    ∃ after, draft.written = textOf before draft.helpers ++ after ∧
      (draft.hoist helper).written =
        textOf before draft.helpers ++ (helper.render.toList ++ ['\n']) ++ after := by
  obtain ⟨newer, same⟩ := opens
  have split : draft.recent = (newer ++ [Piece.openLiteral]) ++ before := by
    rw [← same]
    simp
  have due' : ∀ other ∈ draft.helpers ++ [helper], other.anchor ≤ before.length := by
    intro other member
    rcases List.mem_append.1 member with member | member
    · exact due other member
    · rw [List.mem_singleton.1 member, here]
  refine ⟨Part.text ((newer ++ [Piece.openLiteral]).reverse.map .written), ?_, ?_⟩
  · rw [written, split]
    exact textOf_append due _
  · rw [← textOf_concat here, written, hoist, split]
    exact textOf_append due' _

end ScriptedMarkup.Draft
