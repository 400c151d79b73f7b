import Mathlib.Data.List.Induction
import ScriptedMarkup.Location
import ScriptedMarkup.Proofs.Text.Lines
import ScriptedMarkup.Text.Name

/-!
# Carriage returns

`returned` puts a carriage return before each line feed of a text. It makes no difference to the
lines of a text (`lines_returned`), nor to the line and column of a place (`after_returned`). A word
without line ends is found at the same places in both texts (`isPrefixOf?_returned`).
-/

namespace ScriptedMarkup.Text

def returnedChar (c : Char) : List Char := if c = '\n' then ['\r', '\n'] else [c]

/-- A text with a carriage return before each line feed. -/
def returned (text : List Char) : List Char := text.flatMap returnedChar

/-- A text without its carriage returns. -/
def unreturned (text : List Char) : List Char := text.filter (· != '\r')

def withReturns (text : String) : String := String.ofList (returned text.toList)

def withoutReturns (text : String) : String := String.ofList (unreturned text.toList)

/-- A text that holds no character of a line end. -/
def Unended (text : List Char) : Prop := '\r' ∉ text ∧ '\n' ∉ text

variable {c : Char} {text rest word : List Char}

@[simp]
theorem returned_nil : returned [] = [] := rfl

@[simp]
theorem returned_feed (rest : List Char) : returned ('\n' :: rest) = '\r' :: '\n' :: returned rest :=
  rfl

theorem returned_cons (other : c ≠ '\n') (rest : List Char) :
    returned (c :: rest) = c :: returned rest := by
  simp [returned, returnedChar, other]

@[simp]
theorem returned_append (first second : List Char) :
    returned (first ++ second) = returned first ++ returned second := by
  simp [returned]

theorem returned_of_not_mem (lined : '\n' ∉ text) : returned text = text := by
  induction text with
  | nil => rfl
  | cons c rest ih =>
    rw [returned_cons (List.ne_of_not_mem_cons lined).symm, ih (List.not_mem_of_not_mem_cons lined)]

theorem feed_mem_returned (member : '\n' ∈ text) : '\n' ∈ returned text :=
  List.mem_flatMap.2 ⟨'\n', member, by decide⟩

theorem unreturned_returned (text : List Char) : unreturned (returned text) = unreturned text := by
  induction text with
  | nil => rfl
  | cons c rest ih =>
    by_cases feed : c = '\n'
    · subst feed
      simpa [unreturned] using ih
    · rw [returned_cons feed]
      simp only [unreturned, List.filter_cons] at ih ⊢
      rw [ih]

theorem withoutReturns_withReturns (text : String) :
    withoutReturns (withReturns text) = withoutReturns text := by
  simp [withoutReturns, withReturns, unreturned_returned]

/-- A word without line feeds is among texts with carriage returns just when it is among the texts. -/
theorem mem_map_withReturns {word : String} (lined : '\n' ∉ word.toList) (texts : List String) :
    word ∈ texts.map withReturns ↔ word ∈ texts := by
  constructor
  · intro member
    obtain ⟨text, found, rfl⟩ := List.mem_map.1 member
    rw [withReturns, String.toList_ofList] at lined
    have same : returned text.toList = text.toList := by
      apply returned_of_not_mem
      intro feed
      exact lined (feed_mem_returned feed)
    rwa [withReturns, same, String.ofList_toList]
  · intro member
    refine List.mem_map.2 ⟨word, member, ?_⟩
    rw [withReturns, returned_of_not_mem lined, String.ofList_toList]

theorem returned_eq_cons (notReturn : c ≠ '\r') (shown : returned text = c :: rest) :
    ∃ more, text = c :: more ∧ rest = returned more := by
  cases text with
  | nil => simp at shown
  | cons d more =>
    by_cases feed : d = '\n'
    · subst feed
      exact absurd (List.cons.inj shown).1.symm notReturn
    · rw [returned_cons feed] at shown
      obtain ⟨rfl, rfl⟩ := List.cons.inj shown
      exact ⟨more, rfl, rfl⟩

theorem isEmpty_returned (text : List Char) : (returned text).isEmpty = text.isEmpty := by
  cases text with
  | nil => rfl
  | cons c rest =>
    by_cases feed : c = '\n'
    · subst feed
      rfl
    · rw [returned_cons feed]
      rfl

/-! ### Words -/

theorem Unended.head (unended : Unended (c :: word)) : c ≠ '\r' ∧ c ≠ '\n' :=
  ⟨(List.ne_of_not_mem_cons unended.1).symm, (List.ne_of_not_mem_cons unended.2).symm⟩

theorem Unended.tail (unended : Unended (c :: word)) : Unended word :=
  ⟨List.not_mem_of_not_mem_cons unended.1, List.not_mem_of_not_mem_cons unended.2⟩

theorem Unended.reverse (unended : Unended word) : Unended word.reverse :=
  ⟨by simpa using unended.1, by simpa using unended.2⟩

/-- No word starts at a line end. -/
theorem Unended.not_isPrefixOf (unended : Unended word) (filled : word ≠ [])
    (ends : c = '\r' ∨ c = '\n') (rest : List Char) : word.isPrefixOf (c :: rest) = false := by
  obtain ⟨first, more, rfl⟩ := List.exists_cons_of_ne_nil filled
  have other : first ≠ c := by
    rcases ends with rfl | rfl
    · exact unended.head.1
    · exact unended.head.2
  rw [List.isPrefixOf_cons_cons, beq_false_of_ne other, Bool.false_and]

theorem isPrefixOf?_cons (c d : Char) (word rest : List Char) :
    (c :: word).isPrefixOf? (d :: rest) = if c == d then word.isPrefixOf? rest else none := rfl

theorem isPrefixOf?_returned (unended : Unended word) (text : List Char) :
    word.isPrefixOf? (returned text) = (word.isPrefixOf? text).map returned := by
  induction word generalizing text with
  | nil => rfl
  | cons c word ih =>
    obtain ⟨notReturn, notFeed⟩ := unended.head
    cases text with
    | nil => rfl
    | cons d rest =>
      by_cases feed : d = '\n'
      · subst feed
        rw [returned_feed, isPrefixOf?_cons, isPrefixOf?_cons, beq_false_of_ne notReturn,
          beq_false_of_ne notFeed]
        rfl
      · rw [returned_cons feed, isPrefixOf?_cons, isPrefixOf?_cons, ih unended.tail]
        split <;> rfl

/-- A word is found in front of a text whose line feeds are written longer just when it is found in
front of the text. -/
theorem isPrefixOf_flatMap {written : Char → List Char} {first : Char} {more : List Char}
    (feed : written '\n' = first :: more) (other : ∀ c, c ≠ '\n' → written c = [c])
    (notFirst : first ∉ word) (notFeed : '\n' ∉ word) (text : List Char) :
    word.isPrefixOf (text.flatMap written) = word.isPrefixOf text := by
  induction word generalizing text with
  | nil => simp
  | cons c word ih =>
    have ih := ih (List.not_mem_of_not_mem_cons notFirst) (List.not_mem_of_not_mem_cons notFeed)
    cases text with
    | nil => rfl
    | cons d rest =>
      by_cases same : d = '\n'
      · subst same
        have away : c ≠ first := (List.ne_of_not_mem_cons notFirst).symm
        have apart : c ≠ '\n' := (List.ne_of_not_mem_cons notFeed).symm
        rw [List.flatMap_cons, feed, List.cons_append, List.isPrefixOf_cons_cons, List.isPrefixOf_cons_cons,
          beq_false_of_ne away, beq_false_of_ne apart, Bool.false_and, Bool.false_and]
      · rw [List.flatMap_cons, other d same, List.singleton_append, List.isPrefixOf_cons_cons,
          List.isPrefixOf_cons_cons, ih]

theorem isPrefixOf_returned (unended : Unended word) (text : List Char) :
    word.isPrefixOf (returned text) = word.isPrefixOf text :=
  isPrefixOf_flatMap rfl (fun _ other => if_neg other) unended.1 unended.2 text

/-! ### Classes of characters -/

section Classes

variable {p : Char → Bool} (same : p '\r' = p '\n')

include same

theorem dropWhile_returned (text : List Char) :
    (returned text).dropWhile p = returned (text.dropWhile p) := by
  induction text with
  | nil => rfl
  | cons c rest ih =>
    by_cases feed : c = '\n'
    · subst feed
      cases holds : p '\n' with
      | true => simpa [same, holds] using ih
      | false => simp [same, holds]
    · rw [returned_cons feed, List.dropWhile_cons, List.dropWhile_cons, ih]
      split
      · rfl
      · exact (returned_cons feed rest).symm

theorem takeWhile_returned (text : List Char) :
    (returned text).takeWhile p = returned (text.takeWhile p) := by
  induction text with
  | nil => rfl
  | cons c rest ih =>
    by_cases feed : c = '\n'
    · subst feed
      cases holds : p '\n' with
      | true => simpa [same, holds] using ih
      | false => simp [same, holds]
    · rw [returned_cons feed, List.takeWhile_cons, List.takeWhile_cons, ih]
      split
      · exact (returned_cons feed _).symm
      · rfl

end Classes

theorem name?_returned {starts continues : Char → Bool}
    (notStart : starts '\r' = false ∧ starts '\n' = false)
    (notContinue : continues '\r' = false ∧ continues '\n' = false) (text : List Char) :
    name? starts continues (returned text) =
      (name? starts continues text).map fun (name, rest) => (name, returned rest) := by
  have same : continues '\r' = continues '\n' := notContinue.1.trans notContinue.2.symm
  cases text with
  | nil => rfl
  | cons c rest =>
    by_cases feed : c = '\n'
    · subst feed
      simp [name?, notStart]
    · have lined : '\n' ∉ rest.takeWhile continues := by
        intro member
        have continued := List.all_eq_true.1 List.all_takeWhile _ member
        exact absurd (continued.symm.trans notContinue.2) (by decide)
      rw [returned_cons feed, name?, name?, takeWhile_returned same, dropWhile_returned same,
        returned_of_not_mem lined]
      split <;> rfl

/-! ### Lines -/

theorem lines_cons (notFeed : c ≠ '\n')
    (kept : c = '\r' → ∃ d more, rest = d :: more ∧ d ≠ '\n') :
    lines (c :: rest) = (lines rest).modifyHead (c :: ·) := by
  obtain ⟨line, more, found⟩ := List.exists_cons_of_ne_nil (splitLines_ne_nil rest)
  have first : dropFinal '\r' (c :: line) = c :: dropFinal '\r' line := by
    cases line with
    | nil =>
      have notReturn : c ≠ '\r' := by
        intro isReturn
        obtain ⟨d, tail, rfl, other⟩ := kept isReturn
        obtain ⟨line, others, split⟩ := List.exists_cons_of_ne_nil (splitLines_ne_nil tail)
        rw [splitLines, if_neg other, split] at found
        exact List.cons_ne_nil _ _ (List.cons.inj found).1
      simp [dropFinal, notReturn]
    | cons d line => exact dropFinal_cons (by simp)
  rw [lines, lines, splitLines, if_neg notFeed, found]
  simp [first]

/-- The carriage returns before line feeds belong to the line ends. -/
theorem lines_returned (plain : '\r' ∉ text) : lines (returned text) = lines text := by
  induction text with
  | nil => rfl
  | cons c rest ih =>
    have ih := ih (List.not_mem_of_not_mem_cons plain)
    have notReturn : c ≠ '\r' := (List.ne_of_not_mem_cons plain).symm
    by_cases feed : c = '\n'
    · subst feed
      rw [returned_feed]
      have front : lines ('\r' :: '\n' :: returned rest) = [] :: lines (returned rest) :=
        lines_append_feed ['\r'] (returned rest)
      rw [front, ih]
      exact (lines_append_feed [] rest).symm
    · have kept {rest : List Char} (same : c = '\r') : ∃ d more, rest = d :: more ∧ d ≠ '\n' :=
        absurd same notReturn
      rw [returned_cons feed, lines_cons feed kept, lines_cons feed kept, ih]

/-- A text with one carriage return dropped before each line feed. -/
def dropReturns : List Char → List Char
  | [] => []
  | '\r' :: '\n' :: rest => '\n' :: dropReturns rest
  | c :: rest => c :: dropReturns rest

/-- The lines of a text that ends a line make up the text without the carriage returns before its
line feeds. -/
theorem flatMap_lines (front : List Char) :
    (lines front).flatMap (· ++ ['\n']) = dropReturns (front ++ ['\n']) := by
  fun_induction dropReturns front with
  | case1 => rfl
  | case2 rest ih =>
    have front : lines ('\r' :: '\n' :: rest) = [] :: lines rest := lines_append_feed ['\r'] rest
    rw [front, List.flatMap_cons, ih]
    rfl
  | case3 c rest other ih =>
    by_cases feed : c = '\n'
    · subst feed
      have front : lines ('\n' :: rest) = [] :: lines rest := lines_append_feed [] rest
      rw [front, List.flatMap_cons, ih]
      rfl
    · by_cases last : c = '\r' ∧ rest = []
      · obtain ⟨rfl, rfl⟩ := last
        rfl
      · have kept (isReturn : c = '\r') : ∃ d more, rest = d :: more ∧ d ≠ '\n' := by
          cases rest with
          | nil => exact absurd ⟨isReturn, rfl⟩ last
          | cons d more =>
            refine ⟨d, more, rfl, ?_⟩
            rintro rfl
            exact other more isReturn rfl
        obtain ⟨first, others, found⟩ := List.exists_cons_of_ne_nil (lines_ne_nil rest)
        rw [lines_cons feed kept, found, List.cons_append, dropReturns, ← ih, found]
        · rfl
        · intro more isReturn same
          obtain ⟨d, tail, rfl, differ⟩ := kept isReturn
          exact differ (List.cons.inj same).1

/-! ### Places -/

theorem bytes_concat (text : List Char) (c : Char) :
    bytes (text ++ [c]) = bytes text ++ String.utf8EncodeChar c := by
  simp [bytes]

theorem count_feed_returned (text : List Char) :
    (bytes (returned text)).count 0x0A = (bytes text).count 0x0A := by
  induction text with
  | nil => rfl
  | cons c rest ih =>
    by_cases feed : c = '\n'
    · subst feed
      have first : bytes ('\n' :: rest) = 0x0A :: bytes rest := rfl
      have second : bytes ('\r' :: '\n' :: returned rest) = 0x0D :: 0x0A :: bytes (returned rest) := rfl
      rw [returned_feed, first, second, List.count_cons_of_ne (by decide), List.count_cons_self,
        List.count_cons_self, ih]
    · have split (rest : List Char) : bytes (c :: rest) = bytes [c] ++ bytes rest := by
        rw [← bytes_append]
        rfl
      rw [returned_cons feed, split, split rest, List.count_append, List.count_append, ih]

theorem lastLine_returned (text : List Char) :
    ((bytes (returned text)).reverse.takeWhile (· != 0x0A)).length =
      ((bytes text).reverse.takeWhile (· != 0x0A)).length := by
  induction text using List.reverseRecOn with
  | nil => rfl
  | append_singleton text c ih =>
    rw [returned_append, bytes_concat]
    by_cases feed : c = '\n'
    · subst feed
      have longer : bytes (returned text ++ returned ['\n']) =
          (bytes (returned text) ++ [0x0D]) ++ [0x0A] := by
        rw [bytes_append, List.append_assoc]
        rfl
      have feed : String.utf8EncodeChar '\n' = [0x0A] := by decide
      have alone (before : List UInt8) :
          ((before ++ [0x0A]).reverse.takeWhile (· != 0x0A)).length = 0 := by
        rw [List.reverse_concat]
        rfl
      rw [longer, feed, alone, alone]
    · rw [show returned [c] = [c] from returned_cons feed [], bytes_concat, List.reverse_append,
        List.reverse_append, List.takeWhile_append, List.takeWhile_append]
      split
      · rw [List.length_append, List.length_append, ih]
      · rfl

theorem after_returned (before : List Char) :
    (Location.after (bytes (returned before))).line = (Location.after (bytes before)).line ∧
      (Location.after (bytes (returned before))).column = (Location.after (bytes before)).column :=
  ⟨congrArg (· + 1) (count_feed_returned before), congrArg (· + 1) (lastLine_returned before)⟩

end ScriptedMarkup.Text
