import ScriptedMarkup.Text.Blank
import ScriptedMarkup.Text.Name
import ScriptedMarkup.Text.Word

/-!
# Pragmas

A pragma is written `<?tag name="value" ...?>`, its values in single or double quotes.
`Pragma.read?` reads one at the front of a text; `suffix_of_read?` shows that it leaves a shorter
end of it.
-/

namespace ScriptedMarkup

/-- An instruction to the compiler within a source. -/
structure Pragma where
  tag : String
  /-- Names and values, in the order in which they are written. -/
  attributes : List (String × String) := []
  deriving DecidableEq, Repr

namespace Pragma

/-- The value of an attribute. Of several with one name the last counts. -/
def value? (pragma : Pragma) (name : String) : Option String :=
  pragma.attributes.reverse.lookup name

/-! ### Reading -/

def continuesTag (c : Char) : Bool := Text.isWord c || c == '-'

def startsName (c : Char) : Bool := c.isAlpha || c == '_'

def continuesName (c : Char) : Bool := Text.isWord c || c == '.' || c == ':' || c == '-'

def skipBlanks (text : List Char) : List Char := text.dropWhile Text.isBlank

def readValue? : List Char → Option (List Char × List Char)
  | [] => none
  | quote :: rest =>
    if quote = '"' ∨ quote = '\'' then
      match rest.dropWhile (· != quote) with
      | [] => none
      | _ :: after => some (rest.takeWhile (· != quote), after)
    else none

/-- Reads an attribute: a name, an equals sign and a value, with blanks between them. -/
def readAttribute? (text : List Char) : Option ((String × String) × List Char) :=
  match Text.name? startsName continuesName text with
  | none => none
  | some (name, rest) =>
    match skipBlanks rest with
    | '=' :: rest =>
      match readValue? (skipBlanks rest) with
      | none => none
      | some (value, rest) => some ((String.ofList name, String.ofList value), rest)
    | _ => none

theorem skipBlanks_suffix (text : List Char) : skipBlanks text <:+ text :=
  List.dropWhile_suffix _

theorem suffix_of_readValue? {text value rest : List Char}
    (h : readValue? text = some (value, rest)) : rest <:+ text ∧ rest.length < text.length := by
  cases text with
  | nil => simp [readValue?] at h
  | cons quote text =>
    simp only [readValue?] at h
    split at h
    · have tail := List.dropWhile_suffix (l := text) (· != quote)
      split at h
      · simp at h
      · next found =>
        simp only [Option.some.injEq, Prod.mk.injEq] at h
        obtain ⟨-, rfl⟩ := h
        have tail := (List.suffix_cons _ _).trans (found ▸ tail)
        exact ⟨tail.trans (List.suffix_cons _ _), Nat.lt_succ_of_le tail.length_le⟩
    · simp at h

theorem suffix_of_readAttribute? {text rest : List Char} {written : String × String}
    (h : readAttribute? text = some (written, rest)) :
    rest <:+ text ∧ rest.length < text.length := by
  unfold readAttribute? at h
  split at h
  · simp at h
  · next name afterName named =>
    have nameTail := Text.suffix_of_name? named
    split at h
    · next tail blanks =>
      split at h
      · simp at h
      · next valued =>
        simp only [Option.some.injEq, Prod.mk.injEq] at h
        obtain ⟨-, rfl⟩ := h
        have equalsTail := (List.suffix_cons _ _).trans (blanks ▸ skipBlanks_suffix afterName)
        have valueTail := (suffix_of_readValue? valued).1.trans (skipBlanks_suffix tail)
        have tail := valueTail.trans equalsTail
        exact ⟨tail.trans nameTail.1, Nat.lt_of_le_of_lt tail.length_le nameTail.2⟩
    · simp at h

/-- Reads attributes, each after at least one blank. -/
def readAttributes (text : List Char) : List (String × String) × List Char :=
  match text with
  | [] => ([], [])
  | c :: rest =>
    if Text.isBlank c then
      match _read : readAttribute? (skipBlanks rest) with
      | none => ([], text)
      | some (written, after) =>
        let (more, left) := readAttributes after
        (written :: more, left)
    else ([], text)
termination_by text.length
decreasing_by
  have shorter := (suffix_of_readAttribute? _read).2
  have := (skipBlanks_suffix rest).length_le
  simp only [List.length_cons]
  omega

theorem readAttributes_suffix (text : List Char) : (readAttributes text).2 <:+ text := by
  fun_induction readAttributes text with
  | case1 | case2 | case4 => exact List.suffix_rfl
  | case3 c rest blank written after read more left result ih =>
    rw [result] at ih
    exact ((ih.trans (suffix_of_readAttribute? read).1).trans (skipBlanks_suffix rest)).trans
      (List.suffix_cons c rest)

def read? : List Char → Option (Pragma × List Char)
  | '<' :: '?' :: text =>
    match Text.name? Char.isAlpha continuesTag text with
    | none => none
    | some (tag, rest) =>
      let (attributes, rest) := readAttributes rest
      match skipBlanks rest with
      | '?' :: '>' :: rest => some ({ tag := String.ofList tag, attributes }, rest)
      | _ => none
  | _ => none

theorem suffix_of_read? {text rest : List Char} {pragma : Pragma}
    (h : read? text = some (pragma, rest)) : rest <:+ text ∧ rest.length < text.length := by
  unfold read? at h
  split at h
  · next tail =>
    split at h
    · simp at h
    · next tag afterTag named =>
      have tagTail := Text.suffix_of_name? named
      have attributesTail := readAttributes_suffix afterTag
      have blanksTail := skipBlanks_suffix (readAttributes afterTag).2
      simp only at h
      split at h
      · next closing =>
        simp only [Option.some.injEq, Prod.mk.injEq] at h
        obtain ⟨-, rfl⟩ := h
        have closingTail := (List.suffix_append ['?', '>'] _).trans (closing ▸ blanksTail)
        have left := (closingTail.trans attributesTail).trans tagTail.1
        refine ⟨left.trans (List.suffix_append ['<', '?'] tail), ?_⟩
        exact Nat.lt_of_le_of_lt left.length_le (by simp only [List.length_cons]; omega)
      · simp at h
  · simp at h

end Pragma

end ScriptedMarkup
