import Mathlib.Data.List.Infix
import ScriptedMarkup.Proofs.Scan.Unfinished
import ScriptedMarkup.Proofs.Text.Returns

/-!
# Captures from sigil to brace

A capture takes in any text whose braces match, over any number of lines (`Scan.Captures.run`). What
is in the text makes no difference: after the brace that closes it the scan is where it was at the
sigil, with one addition to the draft (`Scan.capture_enclosed`). This holds from any state of a scan and of
what is unread, be it reached or not. In a run what is unread is the rest of the source, without the
carriage returns before its line feeds (`Reached.spelled_append_text`).
-/

namespace ScriptedMarkup

/-- Every brace that a text closes is open, if `depth` braces are open before it. -/
def BracesOpen (depth : Nat) (text : List Char) : Prop :=
  ∀ front, front <+: text → front.count '}' ≤ depth + front.count '{'

/-- The braces of a text match each other. -/
structure BracesMatch (text : List Char) : Prop where
  opened : ∀ front, front <+: text → front.count '}' ≤ front.count '{'
  closed : text.count '{' = text.count '}'

theorem bracesMatch_iff {text : List Char} :
    BracesMatch text ↔
      (∀ front ∈ text.inits, front.count '}' ≤ front.count '{') ∧
        text.count '{' = text.count '}' := by
  simp only [List.mem_inits]
  constructor
  · rintro ⟨opened, closed⟩
    exact ⟨opened, closed⟩
  · rintro ⟨opened, closed⟩
    exact ⟨opened, closed⟩

instance (text : List Char) : Decidable (BracesMatch text) := decidable_of_iff' _ bracesMatch_iff

/-- A text that does not break the line keeps what is remembered of it. One that does keeps nothing:
it is known of the last line how it starts, and that it is not carried on yet. -/
structure Lexing.Crosses (lexing next : Lexing) (text : List Char) : Prop where
  refers : next.refers = lexing.refers
  unbroken : '\n' ∉ text → next.continues = lexing.continues ∧ next.plusLed = lexing.plusLed
  broken : ∀ front last, text = front ++ '\n' :: last → '\n' ∉ last →
    next.continues = false ∧ next.plusLed = (last.head? == some '+')

/-- What captured text adds to what a scan has produced. -/
def Scan.Adds (scan next : Scan) (text : String) : Capture → Prop
  | .expression =>
    next.draft.pieces = scan.draft.pieces ++ [.expression text] ∧
      next.draft.helpers = scan.draft.helpers ∧ next.names = scan.names
  | .bound binding =>
    let name := NameSupply.nameOf (scan.names.issued + 1)
    next.draft.pieces = scan.draft.pieces ++ [.reference binding name] ∧
      next.draft.helpers = scan.draft.helpers ++ [⟨scan.lexing.anchor, binding, name, text⟩] ∧
      next.names = ⟨scan.names.issued + 1⟩

/-- What a run has read and what it has not are the source, which ends its last line. -/
theorem Reached.spelled_append_text {start scan : Scan} {source : String} {seen : List Signal}
    {unread : Unread} (reached : Reached start source seen unread scan) :
    Signal.spelled seen ++ unread.text = Text.dropReturns (source.toList ++ ['\n']) := by
  induction reached with
  | start => exact Text.flatMap_lines source.toList
  | lineStart _ ih =>
    rw [← ih, Unread.text_lines_cons, Signal.spelled_append]
    simp [Signal.spelled]
  | visit _ ih =>
    rw [← ih, Signal.spelled_append]
    simp [Signal.spelled, Unread.text]
  | lineEnd _ ih =>
    rw [← ih, Signal.spelled_append]
    simp [Signal.spelled, Unread.text]

/-! ### Braces -/

section Braces

variable {depth : Nat} {text : List Char} {c : Char}

theorem BracesMatch.bracesOpen (matched : BracesMatch text) : BracesOpen 0 text := by
  intro front part
  rw [Nat.zero_add]
  exact matched.opened front part

theorem BracesOpen.first (opened : BracesOpen depth (c :: text)) : ¬(c = '}' ∧ depth = 0) := by
  rintro ⟨rfl, rfl⟩
  have one := opened ['}'] (by simp)
  exact absurd one (by decide)

theorem braceDepth_add_count (other : ¬(c = '}' ∧ depth = 0)) (text : List Char) :
    braceDepth depth c + text.count '{' + (c :: text).count '}' =
      depth + (c :: text).count '{' + text.count '}' := by
  unfold braceDepth
  by_cases opening : c = '{'
  · subst opening
    rw [if_pos rfl, List.count_cons_self, List.count_cons_of_ne (by decide)]
    omega
  by_cases closing : c = '}'
  · subst closing
    have deep : depth ≠ 0 := fun shallow => other ⟨rfl, shallow⟩
    rw [if_neg opening, if_pos rfl, List.count_cons_self, List.count_cons_of_ne (by decide)]
    omega
  · rw [if_neg opening, if_neg closing, List.count_cons_of_ne opening, List.count_cons_of_ne closing]

theorem BracesOpen.tail (opened : BracesOpen depth (c :: text)) :
    BracesOpen (braceDepth depth c) text := by
  intro front part
  have whole := opened (c :: front) ((List.prefix_cons_inj c).2 part)
  have level := braceDepth_add_count opened.first front
  omega

end Braces

/-! ### Lines of the text -/

namespace Lexing.Crosses

variable {lexing next : Lexing} {text : List Char} {c : Char}

theorem refl (lexing : Lexing) : lexing.Crosses lexing [] :=
  ⟨rfl, fun _ => ⟨rfl, rfl⟩, fun _ _ split => absurd split (by simp)⟩

theorem cons {depth : Nat} (other : c ≠ '\n')
    (crosses : { lexing with depth }.Crosses next text) : lexing.Crosses next (c :: text) := by
  refine ⟨crosses.refers, ?_, ?_⟩
  · intro unbroken
    exact crosses.unbroken (List.not_mem_of_not_mem_cons unbroken)
  · intro front last split lined
    cases front with
    | nil => exact absurd (List.cons.inj split).1 other
    | cons d front => exact crosses.broken front last (List.cons.inj split).2 lined

theorem feed {led : Bool} (starts : '\n' ∉ text → led = (text.head? == some '+'))
    (crosses : { lexing with continues := false, plusLed := led }.Crosses next text) :
    lexing.Crosses next ('\n' :: text) := by
  refine ⟨crosses.refers, ?_, ?_⟩
  · intro unbroken
    exact absurd List.mem_cons_self unbroken
  · intro front last split lined
    cases front with
    | nil =>
      obtain rfl := (List.cons.inj split).2
      obtain ⟨continues, plusLed⟩ := crosses.unbroken lined
      exact ⟨continues, plusLed.trans (starts lined)⟩
    | cons d front => exact crosses.broken front last (List.cons.inj split).2 lined

end Lexing.Crosses

/-! ### From brace to brace -/

namespace Scan

variable {scan origin : Scan} {capture : Capture} {depth line : Nat} {text tail captured : List Char}
  {before rest : List Char} {more : List (List Char)} {c : Char} {place : Cursor}

theorem Captures.lexing_feed (captures : scan.Captures origin capture depth captured) :
    (scan.endLine.startLine place).lexing =
      { scan.lexing with continues := false, plusLed := place.firstChar? == some '+' } := by
  rw [endLine_capturing captures.active]
  simp [Scan.startLine, captures.active]

theorem Captures.close (captures : scan.Captures origin capture 0 captured) (place : Cursor) :
    (scan.step (.visit '}' place)).lexing = { scan.lexing with capture := none, depth := 0 } ∧
      origin.Adds (scan.step (.visit '}' place)) (String.ofList captured) capture := by
  obtain ⟨mode, active, level, passes, anchor, draft, names⟩ := captures
  cases capture with
  | expression =>
    rw [step_endExpression mode active passes (Nat.le_of_eq level)]
    refine ⟨rfl, ?_, ?_, names⟩
    · rw [draft]
      exact Draft.pieces_push _ _
    · rw [draft]
      rfl
  | bound binding =>
    rw [step_endBound mode active passes (Nat.le_of_eq level), draft, names, anchor]
    exact ⟨rfl, Draft.pieces_push _ _, rfl, rfl⟩

/-- A line that starts with a text and a brace after it starts with a plus sign if the text does. -/
theorem plusLed_of_text_eq {first : List Char} (unbroken : '\n' ∉ text)
    (flat : (Unread.within line [] first more).text = text ++ '}' :: tail) :
    (first.head? == some '+') = (text.head? == some '+') := by
  cases first with
  | nil =>
    cases text with
    | nil => exact absurd (List.cons.inj flat).1 (by decide)
    | cons d text => exact absurd (List.cons.inj flat).1.symm (List.ne_of_not_mem_cons unbroken).symm
  | cons e first =>
    cases text with
    | nil =>
      obtain rfl := (List.cons.inj flat).1
      rfl
    | cons d text =>
      obtain rfl := (List.cons.inj flat).1
      rfl

/-- A text that closes no other braces than are open is captured up to the brace after it. -/
theorem Captures.run (captures : scan.Captures origin capture depth captured)
    (lined : (Unread.within line before rest more).Lined) (opened : BracesOpen depth text)
    (next : (Unread.within line before rest more).text = text ++ '}' :: tail) :
    ∃ fed line' before' rest' more',
      (Unread.within line before rest more).signals =
        fed ++ (Unread.within line' before' ('}' :: rest') more').signals ∧
      Signal.spelled fed = text ∧ (Unread.within line' ('}' :: before') rest' more').text = tail ∧
      (scan.run fed).Captures origin capture (depth + text.count '{' - text.count '}')
        (captured ++ text) ∧
      scan.lexing.Crosses (scan.run fed).lexing text := by
  induction text generalizing scan depth captured line before rest more with
  | nil =>
    cases rest with
    | nil => exact absurd (List.cons.inj next).1 (by decide)
    | cons d rest =>
      obtain ⟨rfl, left⟩ := List.cons.inj next
      refine ⟨[], line, before, rest, more, rfl, rfl, left, ?_, .refl _⟩
      simpa using captures
  | cons c text ih =>
    have counted := braceDepth_add_count opened.first text
    have level : depth + (c :: text).count '{' - (c :: text).count '}' =
        braceDepth depth c + text.count '{' - text.count '}' := by omega
    rw [level, List.append_cons]
    cases rest with
    | nil =>
      -- The text breaks the line here, so it goes on with the next line and its start.
      obtain ⟨rfl, below⟩ := List.cons.inj next
      cases more with
      | nil => exact absurd below (by simp)
      | cons first more =>
        have following : (Unread.lines (line + 1) (first :: more)).Lined := lined.2
        have starts : (scan.endLine.startLine (.start (line + 1) first)).Captures origin capture depth
          (captured ++ ['\n']) := captures.endLine.startLine
        have flat : (Unread.within (line + 1) [] first more).text = text ++ '}' :: tail := by
          rw [← Unread.text_lines_cons]
          exact below
        obtain ⟨fed, line', before', rest', more', signals, spelled, left, ends, crosses⟩ :=
          ih starts following.first opened.tail flat
        refine ⟨.lineEnd (.final line before.reverse) :: .lineStart (.start (line + 1) first) :: fed,
          line', before', rest', more', ?_, ?_, left, ends, ?_⟩
        · rw [Unread.signals_within_nil, Unread.signals_lines_cons, signals]
          rfl
        · rw [Signal.spelled, Signal.spelled, spelled]
        · rw [captures.lexing_feed] at crosses
          exact .feed (fun unbroken => plusLed_of_text_eq unbroken flat) crosses
    | cons d rest =>
      obtain ⟨rfl, flat⟩ := List.cons.inj next
      have visited : (scan.step (.visit d ⟨line, before, d :: rest⟩)).Captures origin capture
        (braceDepth depth d) (captured ++ [d]) := captures.visit opened.first
      obtain ⟨fed, line', before', rest', more', signals, spelled, left, ends, crosses⟩ :=
        ih visited lined.tail opened.tail flat
      refine ⟨.visit d ⟨line, before, d :: rest⟩ :: fed, line', before', rest', more', ?_, ?_, left,
        ends, ?_⟩
      · rw [Unread.signals_within_cons, signals, List.cons_append]
      · rw [Signal.spelled, spelled]
      · rw [captures.lexing_visit opened.first] at crosses
        exact .cons lined.ne_feed crosses

/-- A sigil, a text with matching braces and the braces around it take a scan back to where it was,
whatever else the text is: on the line on which it ends, and with one addition. -/
theorem capture_enclosed {sigil : Char} (mode : scan.lexing.mode = .markup)
    (idle : scan.lexing.capture = none) (starts : Capture.ofSigil? sigil = some capture)
    (matched : BracesMatch text) (lined : (Unread.within line before rest more).Lined)
    (next : (Unread.within line before rest more).text = sigil :: '{' :: (text ++ '}' :: tail)) :
    ∃ fed place line' before' rest' more',
      (Unread.within line before rest more).signals =
        fed ++ .visit '}' place :: (Unread.within line' ('}' :: before') rest' more').signals ∧
      Signal.spelled fed = sigil :: '{' :: text ∧
      (Unread.within line' ('}' :: before') rest' more').text = tail ∧
      let next := scan.run (fed ++ [.visit '}' place])
      next.lexing.mode = .markup ∧ next.lexing.capture = none ∧ next.lexing.depth = 0 ∧
        next.lexing.withheld = 0 ∧ next.lexing.anchor = scan.lexing.anchor ∧
        scan.lexing.Crosses next.lexing text ∧ scan.Adds next (String.ofList text) capture := by
  cases rest with
  | nil =>
    obtain rfl := (List.cons.inj next).1
    exact absurd starts (by simp [Capture.ofSigil?])
  | cons c rest =>
    obtain ⟨rfl, braced⟩ := List.cons.inj next
    cases rest with
    | nil => exact absurd (List.cons.inj braced).1 (by decide)
    | cons d rest =>
      obtain ⟨rfl, inner⟩ := List.cons.inj braced
      let brace : Cursor := ⟨line, c :: before, '{' :: rest⟩
      have begun := congrArg Scan.lexing (step_sigil_brace mode idle starts line before rest brace)
      have captures := (captures_of_sigil mode idle starts line before rest brace).1
      obtain ⟨fed, line', before', rest', more', signals, spelled, left, ends, crosses⟩ :=
        captures.run lined.tail.tail matched.bracesOpen inner
      rw [matched.closed, Nat.zero_add, Nat.sub_self, List.nil_append] at ends
      obtain ⟨closed, adds⟩ := ends.close ⟨line', before', '}' :: rest'⟩
      refine ⟨.visit c ⟨line, before, c :: '{' :: rest⟩ :: .visit '{' brace :: fed,
        ⟨line', before', '}' :: rest'⟩, line', before', rest', more', ?_, ?_, left, ?_⟩
      · rw [Unread.signals_within_cons, Unread.signals_within_cons, signals, Unread.signals_within_cons]
        rfl
      · rw [Signal.spelled, Signal.spelled, spelled]
      · rw [begun] at crosses
        rw [List.cons_append, List.cons_append, run_cons, run_cons, run_append, run_cons, run_nil]
        dsimp only
        rw [closed]
        exact ⟨ends.mode, rfl, rfl, ends.passes, ends.anchor,
          ⟨crosses.refers, crosses.unbroken, crosses.broken⟩, adds⟩

theorem capture_enclosed_of_getter :
    let source := "<p>?\x7b'@a' #\x7bb\x7d\n<i>\n+\\\x7d</p>"
    let scan := (Body.start {}).run ((Signal.ofSource source).take 4)
    let text := "'@a' #\x7bb\x7d\n<i>\n+\\".toList
    let unread := Unread.within 1 ['>', 'p', '<'] "?\x7b'@a' #\x7bb\x7d".toList ["<i>".toList, "+\\\x7d</p>".toList]
    unread.signals = (Signal.ofSource source).drop 4 ∧ BracesMatch text ∧ unread.Lined ∧
      ∃ fed place line' before' rest' more',
        unread.signals =
          fed ++ .visit '}' place :: (Unread.within line' ('}' :: before') rest' more').signals ∧
        Signal.spelled fed = '?' :: '{' :: text ∧
        (Unread.within line' ('}' :: before') rest' more').text = "</p>\n".toList ∧
        let next := scan.run (fed ++ [.visit '}' place])
        next.lexing.mode = .markup ∧ next.lexing.capture = none ∧ next.lexing.depth = 0 ∧
          next.lexing.withheld = 0 ∧ next.lexing.anchor = scan.lexing.anchor ∧
          scan.lexing.Crosses next.lexing text ∧ scan.Adds next (String.ofList text) (.bound .getter) := by
  intro source scan text unread
  have matched : BracesMatch text := by decide +kernel
  have lined : unread.Lined := by
    refine ⟨by decide +kernel, ?_⟩
    decide +kernel
  exact ⟨by decide +kernel, matched, lined, capture_enclosed (by decide +kernel) (by decide +kernel)
    (by decide +kernel) matched lined (by decide +kernel)⟩

end Scan

end ScriptedMarkup
