import ScriptedMarkup.Proofs.Draft.Hoisted
import ScriptedMarkup.Proofs.Scan.Effect

/-!
# Hoisting

Each helper of a run is anchored to the literal that its reference stands in
(`Scan.Begins.hoists`), and stays so, since a literal that has been opened keeps its place
(`Scan.Begins.holds`).
-/

namespace ScriptedMarkup

namespace Scan

/-- The helpers of a scan belong to its references, and the literal that is open is known. -/
structure Hoists (scan : Scan) : Prop where
  declares : Draft.Declares scan.draft.recent scan.draft.helpers
  inside : scan.lexing.mode = .markup → Draft.openAt scan.draft.recent = some scan.lexing.anchor
  outside : scan.lexing.mode = .script → Draft.openAt scan.draft.recent = none
  apart : Draft.Apart scan.draft.recent

variable {scan next : Scan}

theorem Effect.hoists (effect : scan.Effect next) (hoists : scan.Hoists) : next.Hoists := by
  obtain ⟨declares, inside, outside, apart⟩ := hoists
  cases effect with
  | writes same settled helpers =>
    obtain ⟨mode, anchor⟩ := same
    have references := (Draft.references_of_settled settled).trans (Draft.references_dropWhile _)
    have opened := (Draft.openAt_of_settled settled).trans (Draft.openAt_dropWhile _)
    refine ⟨?_, ?_, ?_, ?_⟩
    · rw [Draft.Declares, references, helpers]
      exact declares
    · rw [opened, mode, anchor]
      exact inside
    · rw [opened, mode]
      exact outside
    · exact .of_settled settled (apart.dropWhile)
  | opens script fresh entered settled helpers =>
    obtain ⟨mode, anchor⟩ := entered
    have references := Draft.references_of_settled settled
    have opened := Draft.openAt_of_settled settled
    refine ⟨?_, ?_, ?_, ?_⟩
    · rw [Draft.Declares, references, helpers]
      exact declares
    · rw [opened, anchor]
      exact fun _ => rfl
    · rw [mode]
      exact fun other => absurd other (by decide)
    · exact .of_settled settled (apart.cons fun _ => ⟨outside script, fresh⟩)
  | closes mode settled helpers =>
    have references := Draft.references_of_settled settled
    have opened := Draft.openAt_of_settled settled
    refine ⟨?_, ?_, ?_, ?_⟩
    · rw [Draft.Declares, references, helpers]
      exact declares
    · rw [mode]
      exact fun other => absurd other (by decide)
    · rw [opened]
      exact fun _ => rfl
    · exact .of_settled settled (apart.cons fun other => absurd other (by simp))
  | binds binding body markup same settled helpers =>
    obtain ⟨mode, anchor⟩ := same
    have references := Draft.references_of_settled settled
    have opened := Draft.openAt_of_settled settled
    refine ⟨?_, ?_, ?_, ?_⟩
    · rw [Draft.Declares, references, helpers, List.map_append, List.reverse_append, ← declares,
        Draft.references, inside markup]
      rfl
    · rw [opened, anchor]
      exact fun _ => inside markup
    · rw [mode]
      exact fun other => absurd other (by decide)
    · exact .of_settled settled (apart.cons fun other => absurd other (by simp))

theorem Effect.holds (effect : scan.Effect next) :
    scan.draft.helpers <+: next.draft.helpers ∧
      Draft.Holds scan.draft.recent next.draft.recent := by
  have grown {piece : Piece} (settled : next.draft.settled = piece :: scan.draft.recent) :
      Draft.Holds scan.draft.recent next.draft.recent := by
    intro before suffix
    exact (Draft.suffix_of_settled settled).2 (suffix.trans (List.suffix_cons _ _))
  cases effect with
  | writes _ settled helpers =>
    refine ⟨helpers ▸ List.prefix_rfl, ?_⟩
    intro before suffix
    exact (Draft.suffix_of_settled settled).2 ((Draft.suffix_dropWhile _ _).2 suffix)
  | opens _ _ _ settled helpers => exact ⟨helpers ▸ List.prefix_rfl, grown settled⟩
  | closes _ settled helpers => exact ⟨helpers ▸ List.prefix_rfl, grown settled⟩
  | binds _ _ _ _ settled helpers => exact ⟨helpers ▸ List.prefix_append _ _, grown settled⟩

theorem hoists_start (begins : scan.Begins) : scan.Hoists := by
  have settled := begins.settled
  refine ⟨?_, ?_, ?_, .of_settled settled ?_⟩
  · rw [Draft.Declares, Draft.references_of_settled settled, begins.helpers]
    rfl
  · rw [begins.lexing]
    exact fun other => absurd other (by decide)
  · exact fun _ => Draft.openAt_of_settled settled
  · exact fun before suffix => absurd (List.suffix_nil.1 suffix) (List.cons_ne_nil _ _)

end Scan

theorem Scan.Begins.hoists {start : Scan} (begins : start.Begins) {source : String}
    {seen more : List Signal} (split : Signal.ofSource source = seen ++ more) :
    (start.run seen).Hoists :=
  begins.invariant (fun seen => (start.run seen).Hoists) (Scan.hoists_start begins)
    (fun effect => effect.hoists) split

theorem Scan.Begins.holds {start : Scan} (begins : start.Begins) {source : String}
    {earlier seen more : List Signal} (split : Signal.ofSource source = seen ++ more)
    (before : earlier <+: seen) :
    (start.run earlier).draft.helpers <+: (start.run seen).draft.helpers ∧
      Draft.Holds (start.run earlier).draft.recent (start.run seen).draft.recent := by
  have same (seen : List Signal) :
      (start.run seen).draft.helpers <+: (start.run seen).draft.helpers ∧
        Draft.Holds (start.run seen).draft.recent (start.run seen).draft.recent :=
    ⟨List.prefix_rfl, fun _ suffix => suffix⟩
  refine begins.invariant (fun seen => ∀ earlier, earlier <+: seen →
    (start.run earlier).draft.helpers <+: (start.run seen).draft.helpers ∧
      Draft.Holds (start.run earlier).draft.recent (start.run seen).draft.recent) ?_ ?_ split
    earlier before
  · intro earlier before
    obtain rfl := List.prefix_nil.1 before
    exact same []
  · intro seen signal effect holds earlier before
    rcases List.prefix_concat_iff.1 before with rfl | before
    · exact same _
    · obtain ⟨helpers, literals⟩ := holds earlier before
      obtain ⟨moreHelpers, moreLiterals⟩ := effect.holds
      exact ⟨helpers.trans moreHelpers, fun _ suffix => moreLiterals _ (literals _ suffix)⟩

end ScriptedMarkup
