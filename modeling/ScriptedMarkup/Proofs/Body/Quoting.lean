import ScriptedMarkup.Proofs.Body.Balanced
import ScriptedMarkup.Proofs.Draft.Quoting

/-!
# Quoted text of a body

Whatever a source holds, the text of its markup does not leave the literals that it is written into
(`Body.text_stays_quoted`).
-/

namespace ScriptedMarkup.Body

theorem plain_draft (names : NameSupply) (source : String) :
    ∀ piece ∈ (draft names source).pieces, piece.Plain := by
  rintro _ member binding name rfl
  obtain ⟨-, -, referred⟩ := declared_draft names source
  have numbered : (binding, name) ∈ (draft names source).pieces.filterMap Piece.reference? :=
    List.mem_filterMap.2 ⟨_, member, rfl⟩
  rw [referred] at numbered
  obtain ⟨n, rfl⟩ := of_mem_numbered numbered
  intro quote
  rcases NameSupply.mem_nameOf quote with quote | digit
  · exact absurd quote (by decide)
  · exact absurd digit (by decide)

/-- Every literal of a body is read as it was written, from where it opens to where it is closed. -/
theorem text_stays_quoted (names : NameSupply) (source : String) {front inner back : List Piece}
    (block : (draft names source).pieces = front ++ Draft.literal inner ++ back)
    (unbroken : Draft.Unbroken inner) : Draft.Quoted inner := by
  have complete : Draft.Complete (draft names source).pieces := (balanced_draft names source).shaped
  have within := complete.within (by simpa [Draft.literal] using block) unbroken
  refine Draft.quoted_of_inner within fun piece member => plain_draft names source piece ?_
  rw [block, Draft.literal]
  simp [member]

theorem text_stays_quoted_backslash :
    ∃ front inner back,
      (draft {} "<a t='\\' @id #\x7bb\x7d>$\x7bc\x7d").pieces =
        front ++ Draft.literal inner ++ back ∧
      Draft.Unbroken inner ∧ Draft.Quoted inner ∧ .text "<a t='\\' " ∈ inner := by
  have block : (draft {} "<a t='\\' @id #\x7bb\x7d>$\x7bc\x7d").pieces =
      [.code "'use strict';\n"] ++
        Draft.literal [.text "<a t='\\' ", .call (.html "id"), .text " ",
          .reference .callback "$edb1", .text ">", .expression "c"] ++
        [.code "\n\nreturn out.write ();"] := by
    decide +kernel
  have unbroken : Draft.Unbroken [.text "<a t='\\' ", .call (.html "id"), .text " ",
      .reference .callback "$edb1", .text ">", .expression "c"] := by
    simp [Draft.Unbroken]
  exact ⟨_, _, _, block, unbroken, text_stays_quoted {} _ block unbroken, by simp⟩

end ScriptedMarkup.Body
