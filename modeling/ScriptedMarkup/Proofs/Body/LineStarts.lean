import ScriptedMarkup.Proofs.Body.Balanced
import ScriptedMarkup.Proofs.Draft.LineStarts
import ScriptedMarkup.Proofs.Scan.LineStarts

/-!
# Starts of lines in a body

A body that is read as a source again opens a literal at every line that starts with `<`. Such a
line comes from captured text, and from nothing else (`Body.starts_of_lines`).
-/

namespace ScriptedMarkup

theorem Part.mem_filterMap_piece? {parts : List Part} {piece : Piece} :
    piece ∈ parts.filterMap piece? ↔ .written piece ∈ parts := by
  rw [List.mem_filterMap]
  refine ⟨?_, fun member => ⟨_, member, rfl⟩⟩
  rintro ⟨part, member, same⟩
  cases part with
  | written other => exact Option.some.inj same ▸ member
  | declared other => exact absurd same (by simp [piece?])

theorem Part.mem_filterMap_declaration? {parts : List Part} {helper : Helper} :
    helper ∈ parts.filterMap declaration? ↔ .declared helper ∈ parts := by
  rw [List.mem_filterMap]
  refine ⟨?_, fun member => ⟨_, member, rfl⟩⟩
  rintro ⟨part, member, same⟩
  cases part with
  | written other => exact absurd same (by simp [declaration?])
  | declared other => exact Option.some.inj same ▸ member

namespace Draft.Hoisted

variable {draft : Draft}

theorem mem_written (hoisted : draft.Hoisted) {piece : Piece} :
    .written piece ∈ draft.parts ↔ piece ∈ draft.pieces := by
  rw [hoisted.parts_eq, ← Part.mem_filterMap_piece?, filterMap_piece?_layout]

theorem mem_declared (hoisted : draft.Hoisted) {helper : Helper} :
    .declared helper ∈ draft.parts ↔ helper ∈ draft.helpers := by
  rw [hoisted.parts_eq, ← Part.mem_filterMap_declaration?, filterMap_declaration?_layout]

theorem lined_parts (hoisted : draft.Hoisted) (lined : draft.Lined)
    (named : ∀ helper ∈ draft.helpers, '\n' ∉ helper.name.toList) :
    ∀ part ∈ draft.parts, part.Lined := by
  intro part member
  cases part with
  | written piece => exact lined piece (List.mem_reverse.1 (hoisted.mem_written.1 member))
  | declared helper => exact named helper (hoisted.mem_declared.1 member)

theorem leads_parts (hoisted : draft.Hoisted) :
    draft.parts.any Part.leads = true ↔
      (∃ expression, .expression expression ∈ draft.pieces ∧
        Text.leads '<' false expression.toList = true) ∨
      ∃ helper ∈ draft.helpers,
        Text.leads '<' helper.binding.startsLine helper.body.toList = true := by
  rw [List.any_eq_true]
  constructor
  · rintro ⟨part, member, leads⟩
    cases part with
    | written piece =>
      cases piece with
      | expression source => exact .inl ⟨source, hoisted.mem_written.1 member, leads⟩
      | _ => exact absurd leads (by simp [Part.leads, Piece.leads])
    | declared helper => exact .inr ⟨helper, hoisted.mem_declared.1 member, leads⟩
  · rintro (⟨source, member, leads⟩ | ⟨helper, member, leads⟩)
    · exact ⟨_, hoisted.mem_written.2 member, leads⟩
    · exact ⟨_, hoisted.mem_declared.2 member, leads⟩

end Draft.Hoisted

namespace Body

theorem lined_finish {scan : Scan} (lined : scan.draft.Lined) : (finish scan).Lined := by
  have kept : (if scan.lexing.capture.isSome then scan.draft.release.2 else scan.draft).Lined := by
    split <;> exact lined
  unfold finish
  refine Draft.Lined.code ?_ (by decide) (.inr (by decide))
  split
  · exact kept.push .closeLiteral trivial
  · exact kept

theorem lined_draft (names : NameSupply) (source : String) : (draft names source).Lined := by
  have whole : Signal.ofSource source = Signal.ofSource source ++ [] := (List.append_nil _).symm
  obtain ⟨unread, reached, -⟩ := reached_of_ofSource_eq (start names) whole
  have started : (start names).draft.Lined := by
    refine Draft.Lined.code ?_ (by decide) (.inr (by decide))
    exact List.forall_mem_nil _
  exact lined_finish (reached.lined_draft phase_initial started).pieces

theorem lined_helpers (names : NameSupply) (source : String) :
    ∀ helper ∈ (draft names source).helpers, '\n' ∉ helper.name.toList := by
  intro helper member
  obtain ⟨-, declared, -⟩ := declared_draft names source
  have numbered : helper.declared ∈ (draft names source).helpers.map Helper.declared :=
    List.mem_map_of_mem member
  rw [declared] at numbered
  obtain ⟨n, named⟩ := of_mem_numbered numbered
  have named : helper.name = NameSupply.nameOf n := named
  rw [named]
  exact NameSupply.lined_nameOf n

/-- A line of a body starts with `<` exactly when captured text has such a line: one that starts
within the text of an expression or a getter, or any line of a callback. -/
theorem starts_of_lines (names : NameSupply) (source : String) :
    (∃ line ∈ Text.splitLines (compile names source).1.toList, line.head? = some '<') ↔
      (∃ expression, .expression expression ∈ (draft names source).pieces ∧
        ∃ line ∈ Text.linesFrom false expression.toList, line.head? = some '<') ∨
      ∃ helper ∈ (draft names source).helpers,
        ∃ line ∈ Text.linesFrom helper.binding.startsLine helper.body.toList,
          line.head? = some '<' := by
  have hoisted := hoisted_draft names source
  have laid := hoisted.laid (balanced_draft names source).shaped
  have lined := hoisted.lined_parts (lined_draft names source) (lined_helpers names source)
  have text : (compile names source).1.toList = Part.text (draft names source).parts :=
    congrArg String.toList hoisted.render_eq
  have other : '<' ≠ '\n' := by decide
  rw [← Text.linesFrom_true]
  simp only [← Text.leads_iff other]
  rw [text, laid.leads_eq lined]
  exact hoisted.leads_parts

example :
    (compile {} "<p>$\x7ba\n<b\x7d</p>").1 =
      "'use strict';\nout.html += '<p>' + (a\n<b) + '</p>';\n\nreturn out.write ();" := by
  decide +kernel

end Body

end ScriptedMarkup
