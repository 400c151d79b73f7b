import ScriptedMarkup.Proofs.Scan.Buffers
import ScriptedMarkup.Proofs.Scan.Spelling

/-!
# What is withheld

A sigil, a closing brace, a plus sign and an `@` set how many characters are withheld, whatever the
number was before. Still it is at every point of a run what is left to read of the token that was begun
last (`Scan.Pending`). The characters that are left do nothing but count a brace, and they are on the
same line (`Scan.withheld_in_token`).
-/

namespace ScriptedMarkup

/-- The characters that are still to be visited on the line. -/
def Signal.unvisited : List Signal → List Char
  | .visit c _ :: more => c :: unvisited more
  | _ => []

namespace Scan

/-- The first `count` characters of what is to be read end a token that was acted on when it began: the
sigil and the brace of a capture, a pair of `@`, or an `@` and the name of an attribute. -/
inductive Pending (start : Scan) (seen : List Signal) : List Char → Nat → Prop where
  | brace (earlier : List Signal) (sigil : Char) (place : Cursor) (capture : Capture)
      (rest : List Char) (split : seen = earlier ++ [.visit sigil place])
      (act : Act.read (start.run earlier).lexing sigil place = .beginCapture capture) :
      Pending start seen ('{' :: rest) 1
  | pair (earlier : List Signal) (first : Cursor) (rest : List Char)
      (split : seen = earlier ++ [.visit '@' first])
      (act : Act.read (start.run earlier).lexing '@' first = .shorthand (.write .all 2)) :
      Pending start seen ('@' :: rest) 1
  | name (earlier : List Signal) (first : Cursor) (taken : List Signal) (call : AttributeCall)
      (c : Char) (left rest : List Char) (split : seen = earlier ++ .visit '@' first :: taken)
      (visited : ∀ signal ∈ taken, ∃ d place, signal = .visit d place)
      (act : Act.read (start.run earlier).lexing '@' first =
        .shorthand (.write call ((Signal.spelled taken ++ c :: left).length + 1)))
      (named : call.name? = some (String.ofList (Signal.spelled taken ++ c :: left))) :
      Pending start seen (c :: (left ++ rest)) (left.length + 1)

/-- What is withheld between the signals `seen` and the signals `more` of a run. -/
structure Withholds (start : Scan) (seen more : List Signal) : Prop where
  lineStart : ∀ place later, more = .lineStart place :: later →
    (start.run seen).lexing.withheld = 0 ∧ ((start.run seen).startLine place).lexing.withheld = 0
  lineEnd : ∀ place later, more = .lineEnd place :: later →
    (start.run seen).lexing.withheld = 0 ∧ (start.run seen).endLine.lexing.withheld = 0
  fits : (start.run seen).lexing.withheld ≤ (Signal.unvisited more).length
  /-- The same when what a character asks for is done, and it is still to be passed on or not. -/
  actedFits : ∀ c place later, more = .visit c place :: later →
    ((start.run seen).acted c place).lexing.withheld ≤ (Signal.unvisited more).length
  token : ∀ count, start.Pending seen (Signal.unvisited more) count ↔
    0 < count ∧ (start.run seen).lexing.withheld = count
  /-- A character that is withheld before anything is done about it changes at most the depth. -/
  silent : ∀ c place later, more = .visit c place :: later → 0 < (start.run seen).lexing.withheld →
    ∃ depth, (start.run seen).acted c place =
      { start.run seen with lexing := { (start.run seen).lexing with depth } }

end Scan

/-! ### Phases -/

theorem Phase.withheld_le {lexing : Lexing} {before rest : List Char}
    (phase : Phase lexing before rest) : lexing.withheld ≤ rest.length := by
  cases phase with
  | script _ _ _ passes | capturing _ _ _ _ passes => omega
  | markup _ _ _ skipped left split withheld =>
    rw [split, List.length_append]
    omega
  | sigil _ _ _ _ withheld brace =>
    obtain ⟨rest, rfl⟩ := List.head?_eq_some_iff.1 brace
    rw [List.length_cons]
    omega

section Visits

variable {scan next start : Scan} {seen : List Signal} {before rest : List Char} {c : Char}

theorem Phase.withheld_acted_le (phase : Phase scan.lexing before (c :: rest)) (line : Nat) :
    (scan.acted c ⟨line, before, c :: rest⟩).lexing.withheld ≤ rest.length + 1 := by
  have after : (scan.step (.visit c ⟨line, before, c :: rest⟩)).lexing.withheld ≤ rest.length :=
    phase.step.withheld_le
  change ((scan.acted c _).receive c).lexing.withheld ≤ rest.length at after
  rw [Scan.withheld_receive] at after
  omega

theorem Phase.acted_of_withheld (phase : Phase scan.lexing before (c :: rest))
    (withheld : 0 < scan.lexing.withheld) (line : Nat) :
    ∃ depth, scan.acted c ⟨line, before, c :: rest⟩ =
      { scan with lexing := { scan.lexing with depth } } := by
  rw [Scan.acted, Act.read]
  cases phase with
  | script _ _ _ passes | capturing _ _ _ _ passes =>
    exact absurd passes (Nat.ne_of_gt withheld)
  | markup mode idle _ skipped left split counted spent =>
    cases skipped with
    | nil => exact absurd counted (Nat.ne_of_gt withheld)
    | cons first skipped =>
      rw [List.cons_append] at split
      obtain ⟨rfl, rfl⟩ := List.cons.inj split
      refine ⟨scan.lexing.depth, ?_⟩
      rw [mode, idle]
      exact spent.perform_inMarkup
  | sigil capture mode active _ _ brace =>
    obtain rfl := Option.some.inj brace
    rw [mode, active]
    exact ⟨_, rfl⟩

/-! ### Tokens that are pending -/

namespace Scan

variable {place : Cursor}

theorem withheld_of_begin {capture : Capture}
    (act : Act.read scan.lexing c place = .beginCapture capture) :
    (scan.step (.visit c place)).lexing.withheld = 1 := by
  rw [step, act]
  rfl

theorem withheld_of_write {call : AttributeCall} {width : Nat}
    (act : Act.read scan.lexing c place = .shorthand (.write call (width + 1))) :
    (scan.step (.visit c place)).lexing.withheld = width := by
  rw [step, act]
  rfl

theorem Pending.pos {text : List Char} {count : Nat} (pending : start.Pending seen text count) :
    0 < count := by
  cases pending <;> exact Nat.succ_pos _

/-- A token of which more than one character is left is a name, and it is still pending one character
further. -/
theorem Pending.tail {text : List Char} {count : Nat}
    (pending : start.Pending seen (c :: text) (count + 1)) (more : 0 < count) (place : Cursor) :
    start.Pending (seen ++ [.visit c place]) text count := by
  cases pending with
  | brace | pair => exact absurd more (Nat.lt_irrefl 0)
  | name earlier first taken call _ left rest split visited act named =>
    cases left with
    | nil => exact absurd more (Nat.lt_irrefl 0)
    | cons d left =>
      refine .name earlier first (taken ++ [.visit c place]) call d left rest ?_ ?_ ?_ ?_
      · rw [split, List.append_assoc, List.cons_append]
      · intro signal member
        rcases List.mem_append.1 member with member | member
        · exact visited signal member
        · exact ⟨c, place, List.mem_singleton.1 member⟩
      · rw [Signal.spelled_visit_append]
        exact act
      · rw [Signal.spelled_visit_append]
        exact named

/-- A token that is pending after a character was begun by it, or was pending before it. -/
theorem Pending.of_concat {text : List Char} {count : Nat}
    (pending : start.Pending (seen ++ [.visit c place]) text count) :
    ((start.run seen).step (.visit c place)).lexing.withheld = count ∨
      start.Pending seen (c :: text) (count + 1) := by
  cases pending with
  | brace earlier sigil place capture rest split act =>
    obtain ⟨rfl, same⟩ := List.append_inj' split rfl
    obtain ⟨rfl, rfl⟩ := Signal.visit.inj (List.cons.inj same).1
    exact .inl (withheld_of_begin act)
  | pair earlier first rest split act =>
    obtain ⟨rfl, same⟩ := List.append_inj' split rfl
    obtain ⟨rfl, rfl⟩ := Signal.visit.inj (List.cons.inj same).1
    exact .inl (withheld_of_write act)
  | name earlier first taken call d left rest split visited act named =>
    rcases List.eq_nil_or_concat taken with rfl | ⟨taken, signal, rfl⟩
    · obtain ⟨rfl, same⟩ := List.append_inj' split rfl
      obtain ⟨rfl, rfl⟩ := Signal.visit.inj (List.cons.inj same).1
      exact .inl (withheld_of_write act)
    · rw [List.concat_eq_append] at split visited act named
      rw [← List.cons_append, ← List.append_assoc] at split
      obtain ⟨rfl, same⟩ := List.append_inj' split rfl
      obtain rfl := (List.cons.inj same).1
      rw [Signal.spelled_visit_append] at act named
      refine .inr (.name earlier first taken call c (d :: left) rest rfl ?_ act named)
      intro signal member
      exact visited signal (List.mem_append_left _ member)

/-- Only visits leave a token pending. -/
theorem Pending.exists_visit {text : List Char} {count : Nat}
    (pending : start.Pending seen text count) :
    ∃ earlier c place, seen = earlier ++ [.visit c place] := by
  cases pending with
  | brace earlier sigil place _ _ split => exact ⟨earlier, sigil, place, split⟩
  | pair earlier first _ split => exact ⟨earlier, '@', first, split⟩
  | name earlier first taken _ _ _ _ split visited =>
    rcases List.eq_nil_or_concat taken with rfl | ⟨taken, signal, rfl⟩
    · exact ⟨earlier, '@', first, split⟩
    · obtain ⟨d, place, rfl⟩ := visited signal (by simp)
      exact ⟨earlier ++ .visit '@' first :: taken, d, place, by simp [split]⟩

end Scan

/-- What is withheld after a character is the rest of a token that it begins, or of one that was
pending before it. -/
theorem Turn.pending {line : Nat} (turn : Turn scan before c rest next)
    (reached : scan = start.run seen)
    (earlier : 0 < scan.lexing.withheld → start.Pending seen (c :: rest) scan.lexing.withheld)
    (withheld : 0 < next.lexing.withheld) :
    start.Pending (seen ++ [.visit c ⟨line, before, c :: rest⟩]) rest next.lexing.withheld := by
  cases turn with
  | statement _ _ _ _ passes | opening _ _ _ passes | literal _ _ _ _ passes | lead _ _ _ passes
  | carry _ _ _ passes | captured _ _ _ _ _ passes | endExpression _ _ _ passes
  | endBound _ _ _ _ passes =>
    exact absurd passes (Nat.ne_of_gt withheld)
  | brace => exact absurd withheld (Nat.lt_irrefl 0)
  | sigil capture _ rest mode idle _ starts =>
    exact .brace seen _ _ capture rest rfl (reached ▸ Act.read_sigil mode idle starts rfl)
  | write call skipped left _ _ _ written read =>
    rw [reached] at read
    cases written with
    | all => exact .pair seen _ left rfl (read line)
    | html | pop =>
      cases skipped with
      | nil => exact absurd withheld (Nat.lt_irrefl 0)
      | cons first skipped =>
        exact .name seen _ [] _ first skipped left rfl (by simp) (read line) rfl
  | withheld _ _ _ _ left counted =>
    have pending := earlier (counted ▸ Nat.succ_pos left)
    rw [counted] at pending
    exact pending.tail withheld _

end Visits

/-! ### Tokens of a run -/

namespace Reached

variable {start scan : Scan} {source : String} {seen : List Signal} {unread : Unread}

theorem pending (fresh : start.lexing = {}) (reached : Reached start source seen unread scan)
    (withheld : 0 < scan.lexing.withheld) : start.Pending seen unread.rest scan.lexing.withheld := by
  induction reached with
  | start =>
    rw [fresh] at withheld
    exact absurd withheld (Nat.lt_irrefl 0)
  | lineStart reached =>
    exact absurd (reached.phase_of_fresh fresh).passes_at_end (Nat.ne_of_gt withheld)
  | visit reached ih =>
    have phase := reached.phase_of_fresh fresh
    exact (phase.turn _).pending reached.eq_run ih withheld
  | lineEnd reached =>
    exact absurd (reached.lineEnd.phase_of_fresh fresh).passes_at_end (Nat.ne_of_gt withheld)

theorem withheld_of_pending {count : Nat} (fresh : start.lexing = {})
    (reached : Reached start source seen unread scan)
    (pending : start.Pending seen unread.rest count) : scan.lexing.withheld = count := by
  induction reached generalizing count with
  | start => simpa using pending.exists_visit
  | lineStart => simpa using pending.exists_visit
  | lineEnd => simpa using pending.exists_visit
  | @visit seen scan line before c rest more reached ih =>
    rcases pending.of_concat with begun | earlier
    · rw [reached.eq_run]
      exact begun
    · -- One more character of the name is read.
      have counted := ih earlier
      have phase : Phase scan.lexing before (c :: rest) := reached.phase_of_fresh fresh
      have turn := phase.turn line
      have pos := pending.pos
      generalize scan.step (.visit c ⟨line, before, c :: rest⟩) = next at turn
      cases turn with
      | withheld _ _ _ _ left same => exact Nat.succ.inj (same.symm.trans counted)
      | _ => simp_all

end Reached

theorem Unread.unvisited_signals (unread : Unread) : Signal.unvisited unread.signals = unread.rest := by
  cases unread with
  | lines line more => cases more <;> rfl
  | within line before rest more =>
    induction rest generalizing before with
    | nil => rfl
    | cons c rest ih => rw [signals_within_cons, Signal.unvisited, ih, Unread.rest, Unread.rest]

/-- What is withheld at a point of a run is exactly what is left of a token that was begun. So nothing
is withheld where a line starts or ends, and a character that is withheld before anything is done about
it begins nothing, ends nothing and writes nothing. -/
theorem Scan.withheld_in_token {draft : Draft} {names : NameSupply} {source : String}
    {seen more : List Signal} (split : Signal.ofSource source = seen ++ more) :
    Withholds { draft, names } seen more := by
  have fresh : (Scan.mk {} draft names).lexing = {} := rfl
  obtain ⟨unread, reached, rfl⟩ := reached_of_ofSource_eq { draft, names } split
  have phase := reached.phase_of_fresh fresh
  have left := unread.unvisited_signals
  -- No character is left where a line starts or ends.
  have ended (signal : Signal) (later : List Signal) (next : unread.signals = signal :: later)
      (none : Signal.unvisited (signal :: later) = []) :
      Phase ((Scan.mk {} draft names).run seen).lexing unread.before [] := by
    rw [← none, ← next, left]
    exact phase
  refine ⟨?_, ?_, ?_, ?_, ?_, ?_⟩
  · intro place later next
    have phase := ended _ later next rfl
    exact ⟨phase.passes_at_end, phase.passes_at_end⟩
  · intro place later next
    have phase := ended _ later next rfl
    exact ⟨phase.passes_at_end, phase.endLine.passes_at_end⟩
  · rw [left]
    exact phase.withheld_le
  · intro c place later next
    obtain ⟨line, before, rest, texts, rfl, rfl⟩ := Unread.eq_within_of_visit next
    rw [left]
    exact phase.withheld_acted_le line
  · intro count
    rw [left]
    constructor
    · intro pending
      exact ⟨pending.pos, reached.withheld_of_pending fresh pending⟩
    · rintro ⟨pos, rfl⟩
      exact reached.pending fresh pos
  · intro c place later next withheld
    obtain ⟨line, before, rest, texts, rfl, rfl⟩ := Unread.eq_within_of_visit next
    exact phase.acted_of_withheld withheld line

theorem Scan.withheld_in_token_of_name :
    let source := "<p -@a.b>"
    let seen := (Signal.ofSource source).take 7
    let more := (Signal.ofSource source).drop 7
    Signal.ofSource source = seen ++ more ∧ Signal.unvisited more = ['.', 'b', '>'] ∧
      (Scan.run {} seen).lexing.withheld = 2 ∧ Withholds {} seen more := by
  intro source seen more
  have split : Signal.ofSource source = seen ++ more := (List.take_append_drop 7 _).symm
  exact ⟨split, by decide +kernel, by decide +kernel, withheld_in_token split⟩

end ScriptedMarkup
