import ScriptedMarkup.Proofs.Reading.Markup

/-!
# Scans and readings agree

A scan and a reading agree on every token (`Follows.matches_token`), so that a scan ends with what
a reading stands for (`Scan.refines_reading`).
-/

namespace ScriptedMarkup

/-! ### Tokens -/

theorem Matches.of_startLine {scan : Scan} {line : Nat} {text : List Char}
    {more : List (List Char)} {read : Option (List Token × Position × List Char)}
    (matched : Matches (scan.startLine (.start line text)) (.within line [] text more) read) :
    Matches scan (.lines line (text :: more)) read := by
  have run : scan.run (Unread.lines line (text :: more)).signals =
      (scan.startLine (.start line text)).run (Unread.within line [] text more).signals := by
    rw [Unread.signals_lines_cons]
    rfl
  cases read with
  | none =>
    rw [Matches, run]
    exact matched
  | some read =>
    obtain ⟨last, rest, follows, lined, text, ends, added⟩ := matched
    exact ⟨last, rest, follows, lined, text, run.trans ends, added⟩

theorem run_statements {scan : Scan} {before rest : List Char} (rests : scan.Rests .script false)
    (other : rest.head? = some '<' → before ≠ []) (line : Nat) (more : List (List Char)) :
    ∃ later : Scan, later.Rests .script false ∧
      scan.run (Unread.within line before rest more).signals =
        later.run (Unread.lines (line + 1) more).signals ∧
      later.assembly = scan.assembly.add (.statements rest) := by
  induction rest generalizing scan before with
  | nil =>
    refine ⟨scan.endLine, ?_, ?_, ?_⟩
    · rw [Scan.endLine_script rests.mode rests.idle]
      exact { rests with carried := rfl, held := by simp [rests.held] }
    · rw [Unread.signals_within_nil]
      rfl
    · rw [Scan.endLine_script rests.mode rests.idle, ← Draft.code_singleton]
      rfl
  | cons c rest ih =>
    have statement : scan.step (.visit c ⟨line, before, c :: rest⟩) =
        { scan with draft := scan.draft.codeChar c } :=
      Scan.step_statement rests.mode rests.idle rests.passes
        fun ⟨same, first⟩ => other (by rw [same]; rfl) (isFirst_iff.1 first)
    have rested : { scan with draft := scan.draft.codeChar c }.Rests .script false :=
      { rests with held := by simp [rests.held] }
    have notFirst : rest.head? = some '<' → c :: before ≠ [] := by simp
    obtain ⟨later, laterRests, run, added⟩ := ih rested notFirst
    refine ⟨later, laterRests, ?_, ?_⟩
    · rw [Unread.signals_within_cons, Scan.run_cons, statement]
      exact run
    · rw [added]
      have joined : String.ofList (c :: rest ++ ['\n']) =
          String.singleton c ++ String.ofList (rest ++ ['\n']) := by
        rw [String.singleton_eq_ofList, ← String.ofList_append]
        rfl
      simp only [Assembly.add, joined, Draft.code_append, Draft.code_singleton]
      rfl

theorem Scan.Rests.startLine {scan : Scan} {mode : Mode} {line : Nat} {text : List Char}
    (rests : scan.Rests mode false) :
    (scan.startLine (.start line text)).Rests mode
      (mode == .markup && text.head? == some '+') := by
  refine { rests with carried := ?_ }
  simp [Scan.startLine, rests.carried, rests.mode, rests.idle, Cursor.firstChar?, Cursor.text,
    Cursor.start]

theorem unled_nil (rest : List Char) : Unled [] rest := by
  simp [Unled]

theorem all_ne_feed {line : List Char} (lined : '\n' ∉ line) :
    ∀ c ∈ line, decide (c ≠ '\n') = true := by
  intro c member
  exact decide_eq_true fun same => lined (same ▸ member)

theorem takeWhile_line {line : List Char} (lined : '\n' ∉ line) (left : List Char) :
    (line ++ '\n' :: left).takeWhile (· ≠ '\n') = line := by
  rw [List.takeWhile_append_of_pos (all_ne_feed lined)]
  simp

theorem dropWhile_line {line : List Char} (lined : '\n' ∉ line) (left : List Char) :
    (line ++ '\n' :: left).dropWhile (· ≠ '\n') = '\n' :: left := by
  rw [List.dropWhile_append_of_pos (all_ne_feed lined)]
  simp

theorem matches_opening {scan : Scan} {line : Nat} {rest : List Char} {more : List (List Char)}
    (rests : scan.Rests .script false) (lined : (Unread.within line [] ('<' :: rest) more).Lined) :
    Matches scan (.within line [] ('<' :: rest) more)
      (some ([.opening], .inside '<' false, (Unread.within line ['<'] rest more).text)) := by
  have opening := Scan.step_opening rests.mode rests.idle rests.passes
    (show (Cursor.mk line [] ('<' :: rest)).isFirst = true from rfl)
  have rested : (scan.step (.visit '<' ⟨line, [], '<' :: rest⟩)).Rests .markup false := by
    rw [opening]
    exact { rests with mode := rfl, held := by simp [rests.held] }
  refine ⟨_, _, .inside rested (unled_cons_of_ne (by decide) (by decide)), lined.tail, rfl, ?_, ?_⟩
  · rw [Unread.signals_within_cons, Scan.run_cons]
  · rw [opening]
    rfl

theorem matches_outside {scan : Scan} {line : Nat} {text : List Char} {more : List (List Char)}
    {c : Char} {flat : List Char} (rests : scan.Rests .script false)
    (lined : (Unread.lines line (text :: more)).Lined)
    (same : (Unread.lines line (text :: more)).text = c :: flat) :
    Matches scan (.lines line (text :: more)) (Position.token? .outside c flat) := by
  have started : (scan.startLine (.start line text)).Rests .script false := rests.startLine
  refine Matches.of_startLine ?_
  rw [Unread.text_lines_cons] at same
  rw [Position.token?, ← same]
  by_cases opens : c = '<'
  · subst opens
    rw [if_pos rfl]
    cases text with
    | nil => simp [Unread.text] at same
    | cons d rest =>
      obtain ⟨rfl, rfl⟩ := List.cons.inj same
      exact matches_opening started lined.first
  · rw [if_neg opens]
    have other : text.head? ≠ some '<' := by
      intro first
      obtain ⟨rest, rfl⟩ := List.head?_eq_some_iff.1 first
      exact opens (List.cons.inj same).1.symm
    obtain ⟨later, rested, ends, added⟩ :=
      run_statements started (fun first => absurd first other) line more
    simp only [Unread.text, takeWhile_line lined.first.1, dropWhile_line lined.first.1]
    exact ⟨later, _, .outside rested, lined.first.2, rfl, ends, added⟩

theorem matches_resumed {scan : Scan} {line : Nat} {text : List Char} {more : List (List Char)}
    {c : Char} {flat : List Char} (rests : scan.Rests .markup false)
    (lined : (Unread.lines line (text :: more)).Lined)
    (same : (Unread.lines line (text :: more)).text = c :: flat) :
    Matches scan (.lines line (text :: more)) (Position.token? .resumed c flat) := by
  have started : (scan.startLine (.start line text)).Rests .markup (text.head? == some '+') :=
    rests.startLine
  refine Matches.of_startLine ?_
  rw [Unread.text_lines_cons] at same
  rw [Position.token?]
  cases text with
  | nil =>
    obtain ⟨rfl, rfl⟩ := List.cons.inj same
    exact matches_markup_feed started none lined.first
  | cons d rest =>
    obtain ⟨rfl, rfl⟩ := List.cons.inj same
    by_cases led : d = '+'
    · subst led
      rw [if_pos rfl]
      refine ⟨_, .within line ['+'] rest more, .inside started
        (unled_cons_of_ne (by decide) (by decide)), lined.first.tail, rfl, ?_, rfl⟩
      rw [Unread.signals_within_cons, Scan.run_cons,
        Scan.step_lead started.mode started.idle started.passes rfl rfl]
    · rw [if_neg led]
      have started : (scan.startLine (.start line (d :: rest))).Rests .markup false := by
        rwa [List.head?_cons, Option.some_beq_some, beq_eq_false_iff_ne.2 led] at started
      exact matches_markup started (unled_nil _) lined.first fun plus => absurd plus led

/-- A scan does with the start of what is unread what a reading takes as a token there. -/
theorem Follows.matches_token {scan : Scan} {position : Position} {unread : Unread} {c : Char}
    {text : List Char} (follows : Follows scan position unread) (lined : unread.Lined)
    (same : unread.text = c :: text) : Matches scan unread (position.token? c text) := by
  cases follows with
  | @outside line more rests =>
    cases more with
    | nil => simp [Unread.text] at same
    | cons => exact matches_outside rests lined same
  | @resumed line more rests =>
    cases more with
    | nil => simp [Unread.text] at same
    | cons => exact matches_resumed rests lined same
  | @inside line previous before rest more carried rests unled =>
    cases rest with
    | nil =>
      obtain ⟨rfl, rfl⟩ := List.cons.inj same
      exact matches_markup_feed rests _ lined
    | cons d rest =>
      obtain ⟨rfl, rfl⟩ := List.cons.inj same
      exact matches_markup rests unled lined fun _ => by simp

/-! ### Sources -/

theorem Follows.of_nil {scan : Scan} {position : Position} {unread : Unread}
    (follows : Follows scan position unread) (same : unread.text = []) :
    unread.signals = [] ∧ scan.lexing.capture = none ∧ scan.lexing.mode = position.ending := by
  cases follows with
  | @outside line more rests =>
    cases more with
    | nil => exact ⟨rfl, rests.idle, rests.mode⟩
    | cons => simp [Unread.text] at same
  | @resumed line more rests =>
    cases more with
    | nil => exact ⟨rfl, rests.idle, rests.mode⟩
    | cons => simp [Unread.text] at same
  | inside => simp [Unread.text] at same

namespace Reading

theorem from?_cons (position : Position) (c : Char) (rest : List Char) :
    from? position (c :: rest) =
      (position.token? c rest).bind fun (tokens, next, left) =>
        (from? next left).map fun more => { more with tokens := tokens ++ more.tokens } := by
  rw [from?]
  split <;> simp_all

/-- The outcome of a reading, when it is assembled. -/
def outcome? (start : Assembly) (reading : Option Reading) : Option (Assembly × Mode) :=
  reading.map fun reading => (reading.assemble start, reading.ending)

/-- A scan comes to what a reading stands for, and to no end of its captures when there is none. -/
theorem outcome?_from? {scan : Scan} {position : Position} {unread : Unread}
    (follows : Follows scan position unread) (lined : unread.Lined) :
    outcome? scan.assembly (from? position unread.text) =
      if (scan.run unread.signals).lexing.capture = none then
        some ((scan.run unread.signals).assembly, (scan.run unread.signals).lexing.mode)
      else none := by
  generalize size : unread.text.length = n
  induction n using Nat.strongRecOn generalizing scan position unread with
  | ind n ih =>
    cases flat : unread.text with
    | nil =>
      obtain ⟨done, idle, mode⟩ := follows.of_nil flat
      rw [done, Scan.run_nil, if_pos idle, mode, from?]
      rfl
    | cons c text =>
      have matched := follows.matches_token lined flat
      rw [from?_cons]
      cases read : position.token? c text with
      | none =>
        rw [read, Matches] at matched
        rw [if_neg matched]
        rfl
      | some found =>
        obtain ⟨tokens, next, left⟩ := found
        rw [read] at matched
        obtain ⟨later, rest, follows, lined, same, run, added⟩ := matched
        have shorter : rest.text.length < n := by
          have := length_of_token? read
          rw [same, ← size, flat, List.length_cons]
          omega
        have rest := ih _ shorter follows lined rfl
        rw [run, ← rest, same, added, Option.bind_some]
        simp [outcome?, assemble, Function.comp_def, List.foldl_append]

end Reading

/-- A scan from the start of a source has the pieces, the helpers, the names and the mode that a
direct reading of the source stands for, if every capture that opens is closed; else there is no
such reading. -/
theorem Scan.refines_reading (prologue : String) (names : NameSupply) (source : String) :
    let start : Scan := { draft := .ofCode prologue, names }
    let scanned := start.run (Signal.ofSource source)
    Reading.outcome? { draft := .ofCode prologue, names } (Reading.ofSource? source) =
      if scanned.lexing.capture = none then
        some (⟨scanned.draft, scanned.names, scanned.lexing.anchor⟩, scanned.lexing.mode)
      else none := by
  intro start scanned
  have rests : start.Rests .script false := ⟨rfl, rfl, rfl, rfl, by simp [start, Draft.ofCode]⟩
  have follows : Follows start .outside (.lines 1 (Text.lines source.toList)) := .outside rests
  exact Reading.outcome?_from? follows fun text member => Text.not_mem_of_mem_lines member

end ScriptedMarkup
