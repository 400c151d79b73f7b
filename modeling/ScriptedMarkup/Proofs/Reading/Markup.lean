import ScriptedMarkup.Proofs.Reading.Follows

/-!
# Tokens of markup

A scan of markup visits every character, and withholds those of a token that it has written
already; a reading takes a token at once. They agree on every token of markup (`matches_markup`).
-/

namespace ScriptedMarkup

variable {scan : Scan} {carried : Bool} {line : Nat} {before rest : List Char} {c : Char}
  {more : List (List Char)}

theorem Unled.cons (unled : Unled before (c :: rest)) (bare : c = '#' → rest.head? ≠ some '{') :
    Unled (c :: before) rest := by
  obtain ⟨-, apart⟩ := unled
  refine ⟨?_, fun ⟨led, brace⟩ => bare (Option.some.inj led) brace⟩
  intro whole
  obtain ⟨rfl, ⟨_, rfl⟩⟩ := List.cons_prefix_cons.1 whole
  exact apart ⟨rfl, rfl⟩

theorem unled_cons_of_ne (first : c ≠ '#') (second : c ≠ '{') : Unled (c :: before) rest := by
  refine ⟨fun whole => ?_, fun ⟨led, _⟩ => first (Option.some.inj led)⟩
  exact second (List.cons_prefix_cons.1 whole).1.symm

theorem matches_literal (rests : scan.Rests .markup carried) (unled : Unled before (c :: rest))
    (lined : (Unread.within line before (c :: rest) more).Lined)
    (plain : scan.perform (Act.inMarkup c ⟨line, before, c :: rest⟩) = scan)
    (bare : c = '#' → rest.head? ≠ some '{') :
    Matches scan (.within line before (c :: rest) more)
      (some ([.literal c], .inside c carried, (Unread.within line (c :: before) rest more).text)) := by
  have rested : { scan with draft := scan.draft.textChar c }.Rests .markup carried :=
    { rests with held := by simp [rests.held] }
  refine ⟨_, _, .inside rested (unled.cons bare), lined.tail, rfl, ?_, rfl⟩
  rw [Unread.signals_within_cons, Scan.run_cons,
    Scan.step_literal rests.mode rests.idle rests.passes plain]

theorem run_spent {skipped : List Char} (mode : scan.lexing.mode = .markup)
    (idle : scan.lexing.capture = none) (spent : Spent before skipped) :
    (scan.withhold skipped.length).run (Unread.within line before (skipped ++ rest) more).signals =
      (scan.withhold 0).run (Unread.within line (skipped.reverse ++ before) rest more).signals := by
  induction skipped generalizing before with
  | nil => rfl
  | cons c skipped ih =>
    have passed : (scan.withhold (skipped.length + 1)).step
        (.visit c ⟨line, before, c :: (skipped ++ rest)⟩) = scan.withhold skipped.length :=
      Scan.step_withheld (by exact mode) (by exact idle) rfl spent.perform_inMarkup
    rw [List.cons_append, Unread.signals_within_cons, Scan.run_cons, List.length_cons, passed,
      List.reverse_cons, List.append_assoc, List.singleton_append]
    exact ih spent.tail

theorem takeWhile_append_stop {p : Char → Bool} {stop : Char} (stops : p stop = false)
    (text left : List Char) : (text ++ stop :: left).takeWhile p = text.takeWhile p := by
  induction text with
  | nil => simp [stops]
  | cons c text ih => simp only [List.cons_append, List.takeWhile_cons, ih]

theorem dropWhile_append_stop {p : Char → Bool} {stop : Char} (stops : p stop = false)
    (text left : List Char) :
    (text ++ stop :: left).dropWhile p = text.dropWhile p ++ stop :: left := by
  induction text with
  | nil => simp [stops]
  | cons c text ih =>
    simp only [List.cons_append, List.dropWhile_cons, ih]
    split <;> rfl

theorem name?_append_feed (rest left : List Char) :
    Text.name? Shorthand.startsName Shorthand.continuesName (rest ++ '\n' :: left) =
      (Text.name? Shorthand.startsName Shorthand.continuesName rest).map
        fun (name, after) => (name, after ++ '\n' :: left) := by
  cases rest with
  | nil => rfl
  | cons c rest =>
    have stops : Shorthand.continuesName '\n' = false := by decide
    simp only [List.cons_append, Text.name?, takeWhile_append_stop stops,
      dropWhile_append_stop stops]
    split <;> rfl

theorem head?_append_feed {rest left : List Char} {c : Char} (other : c ≠ '\n') :
    (rest ++ '\n' :: left).head? = some c ↔ rest.head? = some c := by
  cases rest <;> simp [other.symm]

theorem ne_of_spent {skipped : List Char} (spent : Spent before skipped) (member : c ∈ skipped) :
    c ≠ '#' ∧ c ≠ '{' := by
  rcases spent with named | ⟨rfl, -⟩
  · obtain ⟨notBrace, -, -, -, notSigil⟩ := inert_of_continuesName (named c member)
    exact ⟨by rintro rfl; simp [Capture.ofSigil?] at notSigil, notBrace⟩
  · obtain rfl := List.mem_singleton.1 member
    decide

theorem matches_write {call : AttributeCall} {shown rest : List Char} {last : Char}
    (rests : scan.Rests .markup carried) (spent : Spent ('@' :: before) (shown ++ [last]))
    (lined : (Unread.within line before ('@' :: (shown ++ [last] ++ rest)) more).Lined)
    (read : Shorthand.read false ⟨line, before, '@' :: (shown ++ [last] ++ rest)⟩ =
      .write call ((shown ++ [last]).length + 1)) :
    Matches scan (.within line before ('@' :: (shown ++ [last] ++ rest)) more)
      (some ([.shorthand call], .inside last carried,
        (Unread.within line (last :: (shown.reverse ++ '@' :: before)) rest more).text)) := by
  have rested : { scan with draft := scan.draft.writeCall call }.Rests .markup carried :=
    { rests with held := by simp [rests.held] }
  have same : { scan with draft := scan.draft.writeCall call }.withhold 0 =
      { scan with draft := scan.draft.writeCall call } := by
    simp [Scan.withhold, ← rests.passes]
  have ⟨notLed, notBrace⟩ := ne_of_spent spent (List.mem_append_right _ List.mem_cons_self)
  refine ⟨_, _, .inside rested (unled_cons_of_ne notLed notBrace), ⟨fun member => lined.1 ?_, lined.2⟩,
    rfl, ?_, rfl⟩
  · exact List.mem_cons_of_mem _ (List.mem_append_right _ member)
  · rw [Unread.signals_within_cons, Scan.run_cons, Scan.step_write rests.mode rests.idle read]
    refine (run_spent rested.mode rested.idle spent).trans ?_
    rw [same, List.reverse_append]
    rfl

theorem matches_at (rests : scan.Rests .markup carried) (unled : Unled before ('@' :: rest))
    (lined : (Unread.within line before ('@' :: rest) more).Lined) :
    Matches scan (.within line before ('@' :: rest) more)
      (some (Position.shorthand before.head? carried
        (Unread.within line ('@' :: before) rest more).text)) := by
  have bare : '@' = '#' → rest.head? ≠ some '{' := by simp
  have notLeading (rest : List Char) :
      (Cursor.mk line before ('@' :: rest)).behind ['#', '{'] = false :=
    Bool.eq_false_iff.2 fun led => unled.1 (List.isPrefixOf_iff_prefix.1 led)
  unfold Position.shorthand
  by_cases repeated : before.head? = some '@'
  · rw [if_pos repeated]
    exact matches_literal rests unled lined
      (Scan.perform_inMarkup_of_repeated (behind_singleton_iff.2 repeated)) bare
  have notRepeated (rest : List Char) :
      (Cursor.mk line before ('@' :: rest)).behind ['@'] = false :=
    Bool.eq_false_iff.2 (repeated ∘ behind_singleton_iff.1)
  rw [if_neg repeated]
  simp only [Unread.text, head?_append_feed (show '@' ≠ '\n' by decide), name?_append_feed]
  by_cases pair : rest.head? = some '@'
  · rw [if_pos pair]
    obtain ⟨rest, rfl⟩ := List.head?_eq_some_iff.1 pair
    have spent : Spent ('@' :: before) ([] ++ ['@']) := .inr ⟨rfl, rfl⟩
    have read : Shorthand.read false ⟨line, before, '@' :: ([] ++ ['@'] ++ rest)⟩ =
        .write .all (([] ++ ['@'] : List Char).length + 1) := by
      simp [Shorthand.read, notRepeated, notLeading, Cursor.ahead]
    simpa [Unread.text] using matches_write rests spent lined read
  rw [if_neg pair]
  have single : (Cursor.mk line before ('@' :: rest)).ahead ['@'] = false :=
    Bool.eq_false_iff.2 (pair ∘ ahead_singleton_iff.1)
  cases named : Text.name? Shorthand.startsName Shorthand.continuesName rest with
  | none =>
    refine matches_literal rests unled lined ?_ bare
    simp [Act.inMarkup, Shorthand.read, notRepeated, notLeading, single, Cursor.following, named,
      Scan.perform]
  | some found =>
    obtain ⟨name, left⟩ := found
    have read : Shorthand.read false ⟨line, before, '@' :: rest⟩ =
        .write ((if before.head? = some '-' then AttributeCall.pop else AttributeCall.html)
          (String.ofList name)) (name.length + 1) := by
      simp [Shorthand.read, notRepeated, notLeading, single, Cursor.following, named,
        behind_singleton_iff]
    have spent : Spent ('@' :: before) name :=
      .inl fun c member => continuesName_of_name? named member
    obtain rfl := Text.append_of_name? named
    obtain ⟨shown, last, rfl⟩ : ∃ shown last, name = shown ++ [last] :=
      ⟨_, _, (List.dropLast_concat_getLast (Text.ne_nil_of_name? named)).symm⟩
    simpa [Unread.text] using matches_write rests spent lined read

theorem matches_capture {capture : Capture} {rest : List Char}
    (rests : scan.Rests .markup carried) (sigil : Capture.ofSigil? c = some capture)
    (lined : (Unread.within line before (c :: '{' :: rest) more).Lined) :
    Matches scan (.within line before (c :: '{' :: rest) more)
      ((enclosed? 0 (Unread.within line ('{' :: c :: before) rest more).text).map
        fun (text, left) =>
          ([.captured capture text], .inside '}' (carried && !text.contains '\n'), left)) := by
  obtain ⟨captures, continues⟩ := Scan.captures_of_sigil rests.mode rests.idle sigil line before
    rest ⟨line, c :: before, '{' :: rest⟩
  generalize begins : (scan.step (.visit c ⟨line, before, c :: '{' :: rest⟩)).step
    (.visit '{' ⟨line, c :: before, '{' :: rest⟩) = begun at captures continues
  have run : scan.run (Unread.within line before (c :: '{' :: rest) more).signals =
      begun.run (Unread.within line ('{' :: c :: before) rest more).signals := by
    rw [Unread.signals_within_cons, Unread.signals_within_cons, ← begins]
    rfl
  have encloses := captures.encloses lined.tail.tail
  rw [continues.trans rests.carried] at encloses
  cases found : enclosed? 0 (Unread.within line ('{' :: c :: before) rest more).text with
  | none =>
    rw [found] at encloses
    rw [Option.map_none, Matches, run]
    exact encloses
  | some found' =>
    obtain ⟨text, left⟩ := found'
    rw [found] at encloses
    obtain ⟨last, place, line, before, rest, more, captures, continues, lined, rfl, closed⟩ := encloses
    obtain ⟨rested, added⟩ := captures.add_of_close continues rests.held place
    exact ⟨_, _, .inside rested (unled_cons_of_ne (by decide) (by decide)), lined, rfl,
      run.trans closed, by simpa using added⟩

theorem perform_inMarkup_of_literal (notAt : c ≠ '@') (notEdge : c = '+' → before ≠ [] ∧ rest ≠ [])
    (bare : Capture.ofSigil? c ≠ none → rest.head? ≠ some '{') :
    scan.perform (Act.inMarkup c ⟨line, before, c :: rest⟩) = scan := by
  unfold Act.inMarkup
  by_cases plus : c = '+'
  · obtain ⟨notFirst, notLast⟩ := notEdge plus
    rw [if_pos plus, if_neg (notFirst ∘ isFirst_iff.1), if_neg (notLast ∘ isLast_iff.1)]
    rfl
  rw [if_neg plus, if_neg notAt]
  cases sigil : Capture.ofSigil? c with
  | none => rfl
  | some capture =>
    have apart := bare (by simp [sigil])
    simp only
    rw [if_neg (apart ∘ ahead_singleton_iff.1)]
    rfl

theorem matches_carry (rests : scan.Rests .markup carried) (notFirst : before ≠ [])
    (lined : (Unread.within line before ['+'] more).Lined) :
    Matches scan (.within line before ['+'] more)
      (some ([], .inside '+' true, (Unread.within line ('+' :: before) [] more).text)) := by
  have rested : { scan with lexing := { scan.lexing with continues := true } }.Rests .markup true :=
    { rests with carried := rfl }
  have led : (Cursor.mk line before ['+']).isFirst = false :=
    Bool.eq_false_iff.2 (notFirst ∘ isFirst_iff.1)
  have carries := Scan.step_carry rests.mode rests.idle rests.passes led (isLast_iff.2 rfl)
  refine ⟨_, _, .inside rested (unled_cons_of_ne (by decide) (by decide)), ⟨by simp, lined.2⟩, rfl,
    ?_, rfl⟩
  rw [Unread.signals_within_cons, Scan.run_cons, carries]

theorem matches_markup (rests : scan.Rests .markup carried) (unled : Unled before (c :: rest))
    (lined : (Unread.within line before (c :: rest) more).Lined)
    (notLed : c = '+' → before ≠ []) :
    Matches scan (.within line before (c :: rest) more)
      (Position.markup? before.head? carried c (Unread.within line (c :: before) rest more).text) := by
  unfold Position.markup?
  rw [if_neg lined.ne_feed]
  by_cases carries : c = '+' ∧ rest = []
  · obtain ⟨rfl, rfl⟩ := carries
    exact matches_carry rests (notLed rfl) lined
  have notLast : ¬(c = '+' ∧ (Unread.within line (c :: before) rest more).text.head? = some '\n') := by
    rintro ⟨rfl, feed⟩
    cases rest with
    | nil => exact carries ⟨rfl, rfl⟩
    | cons d rest =>
      exact lined.tail.ne_feed (Option.some.inj feed)
  rw [if_neg notLast]
  by_cases shorthand : c = '@'
  · subst shorthand
    exact matches_at rests unled lined
  rw [if_neg shorthand]
  have literal (bare : Capture.ofSigil? c ≠ none → rest.head? ≠ some '{') :
      Matches scan (.within line before (c :: rest) more)
        (some ([.literal c], .inside c carried,
          (Unread.within line (c :: before) rest more).text)) := by
    refine matches_literal rests unled lined (perform_inMarkup_of_literal shorthand ?_ bare) ?_
    · exact fun plus => ⟨notLed plus, fun last => carries ⟨plus, last⟩⟩
    · rintro rfl
      exact bare (by simp [Capture.ofSigil?])
  cases sigil : Capture.ofSigil? c with
  | none => exact literal (by simp [sigil])
  | some capture =>
    cases rest with
    | nil => exact literal (by simp)
    | cons d rest =>
      by_cases brace : d = '{'
      · subst brace
        exact matches_capture rests sigil lined
      · have apart := literal (by simp [brace])
        simpa [Unread.text, brace] using apart

theorem matches_markup_feed (rests : scan.Rests .markup carried) (previous : Option Char)
    (lined : (Unread.within line before [] more).Lined) :
    Matches scan (.within line before [] more)
      (Position.markup? previous carried '\n' (Unread.lines (line + 1) more).text) := by
  unfold Position.markup?
  rw [if_pos rfl]
  cases carried with
  | true =>
    have rested : scan.endLine.Rests .markup false := by
      rw [Scan.endLine_carried rests.mode rests.idle rests.carried]
      exact { rests with carried := rfl }
    refine ⟨_, _, .resumed rested, lined.2, rfl, ?_, ?_⟩
    · rw [Unread.signals_within_nil]
      rfl
    · rw [Scan.endLine_carried rests.mode rests.idle rests.carried]
      rfl
  | false =>
    have rested : scan.endLine.Rests .script false := by
      rw [Scan.endLine_closing rests.mode rests.idle rests.carried]
      exact { rests with mode := rfl, held := by simp [rests.held] }
    refine ⟨_, _, .outside rested, lined.2, rfl, ?_, ?_⟩
    · rw [Unread.signals_within_nil]
      rfl
    · rw [Scan.endLine_closing rests.mode rests.idle rests.carried, ← Draft.code_singleton]
      rfl

end ScriptedMarkup
