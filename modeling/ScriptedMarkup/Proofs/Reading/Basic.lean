import ScriptedMarkup.Body

/-!
# Direct reading

`Reading.ofSource?` reads a source token by token: it looks ahead for the brace that ends a capture
and for the end of a name, and remembers between two tokens only what the line has shown so far.
`Reading.assemble` turns the tokens into a draft.
-/

namespace ScriptedMarkup

/-- A part of a source that stands for something. -/
inductive Token where
  | statements (line : List Char)
  | opening
  | literal (c : Char)
  | captured (capture : Capture) (text : List Char)
  | shorthand (call : AttributeCall)
  /-- A line end that markup is carried on past. -/
  | lineBreak
  /-- A line end that ends markup. -/
  | closing
  deriving DecidableEq, Repr

/-- Where the next token starts. -/
inductive Position where
  /-- At the start of a line outside markup. -/
  | outside
  /-- At the start of a line that markup is carried on to. -/
  | resumed
  /-- Within a line of markup, after the character `previous`. Markup goes on past the end of the
  line when it is `carried`. -/
  | inside (previous : Char) (carried : Bool)
  deriving DecidableEq, Repr

/-- The tokens of a source, and the mode that it ends in. -/
structure Reading where
  tokens : List Token
  ending : Mode
  deriving DecidableEq, Repr

/-- How many braces are open after a character. -/
def braceDepth (depth : Nat) (c : Char) : Nat :=
  if c = '{' then depth + 1 else if c = '}' then depth - 1 else depth

/-- The text before the brace that closes a capture with `depth` braces open in it, and the text
after that brace. -/
def enclosed? (depth : Nat) : List Char → Option (List Char × List Char)
  | [] => none
  | c :: rest =>
    if c = '}' ∧ depth = 0 then some ([], rest)
    else (enclosed? (braceDepth depth c) rest).map fun (text, left) => (c :: text, left)

namespace Position

/-- The mode in which a source ends that ends here. -/
def ending : Position → Mode
  | outside => .script
  | resumed | inside _ _ => .markup

/-- The token that an `@` starts. -/
def shorthand (previous : Option Char) (carried : Bool) (rest : List Char) :
    List Token × Position × List Char :=
  if previous = some '@' then ([.literal '@'], inside '@' carried, rest)
  else if rest.head? = some '@' then ([.shorthand .all], inside '@' carried, rest.tail)
  else
    match Text.name? Shorthand.startsName Shorthand.continuesName rest with
    | none => ([.literal '@'], inside '@' carried, rest)
    | some (name, left) =>
      let call := if previous = some '-' then AttributeCall.pop else AttributeCall.html
      ([.shorthand (call (String.ofList name))], inside (name.getLast?.getD '@') carried, left)

/-- The token of markup that starts with `c`, where the next one starts, and what is left then.
Nothing is read from a capture that is not closed. -/
def markup? (previous : Option Char) (carried : Bool) (c : Char) (rest : List Char) :
    Option (List Token × Position × List Char) :=
  if c = '\n' then
    if carried then some ([.lineBreak], resumed, rest) else some ([.closing], outside, rest)
  else if c = '+' ∧ rest.head? = some '\n' then some ([], inside '+' true, rest)
  else if c = '@' then some (shorthand previous carried rest)
  else
    match Capture.ofSigil? c, rest with
    | some capture, '{' :: rest =>
      (enclosed? 0 rest).map fun (text, left) =>
        ([.captured capture text], inside '}' (carried && !text.contains '\n'), left)
    | _, _ => some ([.literal c], inside c carried, rest)

/-- The token that starts with `c`. A plus sign at the start of a line that markup is carried on to
stands for nothing, and carries it on past that line too. -/
def token? (position : Position) (c : Char) (rest : List Char) :
    Option (List Token × Position × List Char) :=
  match position with
  | outside =>
    if c = '<' then some ([.opening], inside '<' false, rest)
    else
      some ([.statements ((c :: rest).takeWhile (· ≠ '\n'))], outside,
        ((c :: rest).dropWhile (· ≠ '\n')).tail)
  | resumed => if c = '+' then some ([], inside '+' true, rest) else markup? none false c rest
  | inside previous carried => markup? (some previous) carried c rest

end Position

theorem length_of_enclosed? {depth : Nat} {text inner left : List Char}
    (closed : enclosed? depth text = some (inner, left)) : left.length < text.length := by
  induction text generalizing depth inner left with
  | nil => simp [enclosed?] at closed
  | cons c rest ih =>
    unfold enclosed? at closed
    split at closed
    · obtain ⟨-, rfl⟩ := Prod.mk.inj (Option.some.inj closed)
      exact Nat.lt_succ_self _
    · obtain ⟨⟨_, _⟩, later, same⟩ := Option.map_eq_some_iff.1 closed
      obtain ⟨-, rfl⟩ := Prod.mk.inj same
      exact Nat.lt_succ_of_lt (ih later)

theorem length_shorthand (previous : Option Char) (carried : Bool) (rest : List Char) :
    (Position.shorthand previous carried rest).2.2.length ≤ rest.length := by
  unfold Position.shorthand
  split
  · exact Nat.le_refl _
  split
  · exact List.length_tail ▸ Nat.sub_le _ _
  split
  · exact Nat.le_refl _
  next named => exact Nat.le_of_lt (Text.suffix_of_name? named).2

theorem length_of_markup? {previous : Option Char} {carried : Bool} {c : Char}
    {rest left : List Char} {tokens : List Token} {next : Position}
    (read : Position.markup? previous carried c rest = some (tokens, next, left)) :
    left.length ≤ rest.length := by
  unfold Position.markup? at read
  split at read
  · split at read <;> simp_all
  split at read
  · simp_all
  split at read
  · have := length_shorthand previous carried rest
    simp_all
  split at read
  · obtain ⟨⟨inner, left⟩, closed, same⟩ := Option.map_eq_some_iff.1 read
    have := length_of_enclosed? closed
    simp only [Prod.mk.injEq] at same
    obtain ⟨-, -, rfl⟩ := same
    simp only [List.length_cons]
    omega
  · simp_all

theorem length_of_token? {position next : Position} {c : Char} {rest left : List Char}
    {tokens : List Token} (read : position.token? c rest = some (tokens, next, left)) :
    left.length ≤ rest.length := by
  cases position with
  | outside =>
    simp only [Position.token?] at read
    split at read
    · simp_all
    · obtain ⟨-, -, rfl⟩ := read
      have := (List.dropWhile_suffix (l := c :: rest) (· ≠ '\n')).length_le
      simp only [List.length_cons, List.length_tail] at this ⊢
      omega
  | resumed =>
    simp only [Position.token?] at read
    split at read
    · simp_all
    · exact length_of_markup? read
  | inside previous carried => exact length_of_markup? read

namespace Reading

/-- Reads a text from a position. Nothing is read when a capture is not closed. -/
def from? (position : Position) : List Char → Option Reading
  | [] => some { tokens := [], ending := position.ending }
  | c :: rest =>
    match _ : position.token? c rest with
    | none => none
    | some (tokens, next, left) =>
      (from? next left).map fun more => { more with tokens := tokens ++ more.tokens }
termination_by text => text.length
decreasing_by exact Nat.lt_succ_of_le (length_of_token? ‹_›)

/-- Reads a source. -/
def ofSource? (source : String) : Option Reading :=
  from? .outside ((Text.lines source.toList).flatMap (· ++ ['\n']))

end Reading

/-- A draft that tokens are added to. -/
structure Assembly where
  draft : Draft
  names : NameSupply
  /-- The number of the piece that opened the last literal. -/
  anchor : Nat := 0
  deriving DecidableEq, Repr

namespace Assembly

/-- Adds what a token stands for. -/
def add (assembly : Assembly) : Token → Assembly
  | .statements line =>
    { assembly with draft := assembly.draft.code (String.ofList (line ++ ['\n'])) }
  | .opening =>
    { assembly with
      draft := (assembly.draft.push .openLiteral).textChar '<'
      anchor := assembly.draft.size }
  | .literal c => { assembly with draft := assembly.draft.textChar c }
  | .captured .expression text =>
    { assembly with draft := assembly.draft.push (.expression (String.ofList text)) }
  | .captured (.bound binding) text =>
    let (name, names) := assembly.names.next
    let helper := { anchor := assembly.anchor, binding, name, body := String.ofList text }
    { assembly with
      draft := (assembly.draft.hoist helper).push (.reference binding name)
      names }
  | .shorthand call => { assembly with draft := assembly.draft.writeCall call }
  | .lineBreak => { assembly with draft := assembly.draft.push .lineBreak }
  | .closing => { assembly with draft := (assembly.draft.push .closeLiteral).code "\n" }

end Assembly

namespace Reading

/-- Adds what a reading stands for, token by token. -/
def assemble (reading : Reading) (start : Assembly) : Assembly :=
  reading.tokens.foldl Assembly.add start

end Reading

end ScriptedMarkup
