import ScriptedMarkup.Proofs.Pragma.Segments
import ScriptedMarkup.Proofs.Text.Names

/-!
# Pragmas as they are spelled

A `Spelling` is any way to write a pragma. What is read of it is the pragma it spells
(`read?_spelling`), whatever follows, and a search for attributes finds the same ones anywhere in it
(`attributesWithin_spellings`).
-/

namespace ScriptedMarkup.Pragma

/-- An attribute as it may be written in a pragma. -/
structure AttributeSpelling where
  gap : List Char
  name : List Char
  beforeEquals : List Char := []
  afterEquals : List Char := []
  quote : Char
  value : List Char
  gap_ne_nil : gap ≠ []
  blank_gap : ∀ c ∈ gap, Text.isBlank c = true
  named : Text.IsName startsName continuesName name
  blank_beforeEquals : ∀ c ∈ beforeEquals, Text.isBlank c = true
  blank_afterEquals : ∀ c ∈ afterEquals, Text.isBlank c = true
  quoted : quote = '"' ∨ quote = '\''
  /-- Nothing but its own quote ends a value. -/
  unquoted : quote ∉ value

namespace AttributeSpelling

/-- An attribute without the blanks before it. -/
def body (spelling : AttributeSpelling) : List Char :=
  spelling.name ++ (spelling.beforeEquals ++ '=' :: (spelling.afterEquals ++
    spelling.quote :: (spelling.value ++ [spelling.quote])))

def text (spelling : AttributeSpelling) : List Char := spelling.gap ++ spelling.body

/-- The name and the value that are written. -/
def entry (spelling : AttributeSpelling) : String × String :=
  (String.ofList spelling.name, String.ofList spelling.value)

end AttributeSpelling

/-- A pragma as it may be written. -/
structure Spelling where
  tag : List Char
  attributes : List AttributeSpelling := []
  gap : List Char := []
  named : Text.IsName Char.isAlpha continuesTag tag
  blank_gap : ∀ c ∈ gap, Text.isBlank c = true

namespace Spelling

def text (spelling : Spelling) : List Char :=
  '<' :: '?' :: (spelling.tag ++ (spelling.attributes.flatMap AttributeSpelling.text ++
    (spelling.gap ++ ['?', '>'])))

def pragma (spelling : Spelling) : Pragma where
  tag := String.ofList spelling.tag
  attributes := spelling.attributes.map AttributeSpelling.entry

/-- The value that is written last for a name. -/
def lastValue? (spelling : Spelling) (name : String) : Option String :=
  (spelling.attributes.filter fun written => name == String.ofList written.name).getLast?.map
    fun written => String.ofList written.value

end Spelling

/-! ### Blanks and names -/

theorem isBlank_of_startsName {c : Char} (starts : startsName c = true) : Text.isBlank c = false := by
  apply Text.isBlank_of_isWord
  simp only [startsName, Bool.or_eq_true, beq_iff_eq] at starts
  rcases starts with letter | rfl
  · exact Text.isWord_of_isAlphanum (by simp [Char.isAlphanum, letter])
  · decide

theorem startsName_of_isBlank {c : Char} (blank : Text.isBlank c = true) : startsName c = false := by
  by_contra starts
  rw [Bool.not_eq_false] at starts
  exact absurd (isBlank_of_startsName starts) (by simp [blank])

theorem continuesName_of_isBlank {c : Char} (blank : Text.isBlank c = true) :
    continuesName c = false := by
  have dot : c ≠ '.' := Text.ne_of_isBlank blank (by decide)
  have colon : c ≠ ':' := Text.ne_of_isBlank blank (by decide)
  have dash : c ≠ '-' := Text.ne_of_isBlank blank (by decide)
  simp [continuesName, Text.isWord_of_isBlank blank, dot, colon, dash]

theorem continuesTag_of_isBlank {c : Char} (blank : Text.isBlank c = true) :
    continuesTag c = false := by
  have dash : c ≠ '-' := Text.ne_of_isBlank blank (by decide)
  simp [continuesTag, Text.isWord_of_isBlank blank, dash]

variable {blanks rest : List Char} {c : Char}

/-- Blanks end a name, and so does what comes next if there are none. -/
theorem ended_of_blanks {continues : Char → Bool}
    (blank : ∀ c, Text.isBlank c = true → continues c = false) (all : ∀ c ∈ blanks, Text.isBlank c = true)
    (next : continues c = false) : ∀ d ∈ (blanks ++ c :: rest).head?, continues d = false := by
  intro d member
  cases blanks with
  | nil =>
    obtain rfl := Option.some.inj member
    exact next
  | cons b blanks =>
    obtain rfl := Option.some.inj member
    exact blank b (all b List.mem_cons_self)

theorem skipBlanks_append (all : ∀ c ∈ blanks, Text.isBlank c = true) (stop : Text.isBlank c = false) :
    skipBlanks (blanks ++ c :: rest) = c :: rest := by
  rw [skipBlanks, List.dropWhile_append_of_pos all, List.dropWhile_cons_of_neg (by simp [stop])]

theorem readAttribute?_of_not_startsName (other : startsName c = false) (rest : List Char) :
    readAttribute? (c :: rest) = none := by
  rw [readAttribute?, Text.name?, if_neg (by simp [other])]

/-! ### Reading what is spelled -/

namespace AttributeSpelling

variable (spelling : AttributeSpelling)

theorem exists_body : ∃ c more, spelling.body = c :: more ∧ startsName c = true := by
  obtain ⟨c, more, name, starts, -⟩ := spelling.named
  exact ⟨c, _, by rw [body, name, List.cons_append], starts⟩

theorem readValue?_value (rest : List Char) :
    readValue? (spelling.quote :: (spelling.value ++ spelling.quote :: rest)) =
      some (spelling.value, rest) := by
  have inside : ∀ c ∈ spelling.value, (c != spelling.quote) = true := by
    intro c member
    rw [bne_iff_ne]
    rintro rfl
    exact spelling.unquoted member
  rw [readValue?, if_pos spelling.quoted, List.dropWhile_append_of_pos inside,
    List.takeWhile_append_of_pos inside, List.dropWhile_cons_of_neg (by simp),
    List.takeWhile_cons_of_neg (by simp), List.append_nil]

theorem readAttribute?_body (rest : List Char) :
    readAttribute? (spelling.body ++ rest) = some (spelling.entry, rest) := by
  have split : spelling.body ++ rest = spelling.name ++ (spelling.beforeEquals ++ '=' ::
      (spelling.afterEquals ++ spelling.quote :: (spelling.value ++ spelling.quote :: rest))) := by
    simp only [body, List.append_assoc, List.cons_append, List.nil_append]
  have equals : continuesName '=' = false := by decide
  have notBlank : Text.isBlank spelling.quote = false := by
    rcases spelling.quoted with double | single
    · rw [double]
      decide
    · rw [single]
      decide
  rw [split, readAttribute?, Text.name?_append spelling.named
    (ended_of_blanks (fun _ => continuesName_of_isBlank) spelling.blank_beforeEquals equals)]
  simp only [skipBlanks_append spelling.blank_beforeEquals (by decide : Text.isBlank '=' = false),
    skipBlanks_append spelling.blank_afterEquals notBlank, readValue?_value]
  rfl

end AttributeSpelling

/-- Blanks before anything but a name are left unread. -/
theorem readAttributes_of_not_startsName (all : ∀ c ∈ blanks, Text.isBlank c = true)
    (stop : Text.isBlank c = false) (other : startsName c = false) :
    readAttributes (blanks ++ c :: rest) = ([], blanks ++ c :: rest) := by
  cases blanks with
  | nil => exact readAttributes_of_not_isBlank (by simp [stop]) rest
  | cons b blanks =>
    obtain ⟨blank, all⟩ := List.forall_mem_cons.1 all
    have unread : readAttribute? (skipBlanks (blanks ++ c :: rest)) = none := by
      rw [skipBlanks_append all stop, readAttribute?_of_not_startsName other]
    exact readAttributes_of_unread blank unread

theorem readAttributes_text (spelling : AttributeSpelling) (rest : List Char) :
    readAttributes (spelling.text ++ rest) =
      (spelling.entry :: (readAttributes rest).1, (readAttributes rest).2) := by
  obtain ⟨b, blanks, gap⟩ := List.exists_cons_of_ne_nil spelling.gap_ne_nil
  obtain ⟨c, more, body, starts⟩ := spelling.exists_body
  obtain ⟨blank, all⟩ := List.forall_mem_cons.1 (gap ▸ spelling.blank_gap)
  have skipped : skipBlanks (blanks ++ (spelling.body ++ rest)) = spelling.body ++ rest := by
    rw [body, List.cons_append]
    exact skipBlanks_append all (isBlank_of_startsName starts)
  have read : readAttribute? (skipBlanks (blanks ++ (spelling.body ++ rest))) =
      some (spelling.entry, rest) := by
    rw [skipped, spelling.readAttribute?_body]
  rw [AttributeSpelling.text, gap, List.cons_append, List.cons_append, List.append_assoc,
    readAttributes_of_read blank read]

theorem readAttributes_spellings (spellings : List AttributeSpelling)
    (all : ∀ c ∈ blanks, Text.isBlank c = true) (stop : Text.isBlank c = false)
    (other : startsName c = false) :
    readAttributes (spellings.flatMap AttributeSpelling.text ++ (blanks ++ c :: rest)) =
      (spellings.map AttributeSpelling.entry, blanks ++ c :: rest) := by
  induction spellings with
  | nil => exact readAttributes_of_not_startsName all stop other
  | cons spelling spellings ih =>
    rw [List.flatMap_cons, List.append_assoc, readAttributes_text, ih]
    rfl

/-- A tag ends where attributes start, and where there are none. -/
theorem ended_of_spellings (spellings : List AttributeSpelling)
    (all : ∀ c ∈ blanks, Text.isBlank c = true) (next : continuesTag c = false) :
    ∀ d ∈ (spellings.flatMap AttributeSpelling.text ++ (blanks ++ c :: rest)).head?,
      continuesTag d = false := by
  cases spellings with
  | nil => exact ended_of_blanks (fun _ => continuesTag_of_isBlank) all next
  | cons spelling spellings =>
    obtain ⟨b, gap, front⟩ := List.exists_cons_of_ne_nil spelling.gap_ne_nil
    have blank := spelling.blank_gap b (front ▸ List.mem_cons_self)
    intro d member
    rw [List.flatMap_cons, AttributeSpelling.text, front] at member
    obtain rfl := Option.some.inj member
    exact continuesTag_of_isBlank blank

theorem read?_spelling (spelling : Spelling) (rest : List Char) :
    read? (spelling.text ++ rest) = some (spelling.pragma, rest) := by
  have mark : Text.isBlank '?' = false ∧ startsName '?' = false ∧ continuesTag '?' = false := by decide
  have split : spelling.text ++ rest = '<' :: '?' :: (spelling.tag ++
      (spelling.attributes.flatMap AttributeSpelling.text ++ (spelling.gap ++ '?' :: '>' :: rest))) := by
    simp only [Spelling.text, List.cons_append, List.append_assoc, List.nil_append]
  rw [split, read?, Text.name?_append spelling.named
    (ended_of_spellings spelling.attributes spelling.blank_gap mark.2.2)]
  simp only [readAttributes_spellings spelling.attributes spelling.blank_gap mark.1 mark.2.1,
    skipBlanks_append spelling.blank_gap mark.1]
  rfl

theorem value?_spelling (spelling : Spelling) (name : String) :
    spelling.pragma.value? name = spelling.lastValue? name := by
  rw [Spelling.lastValue?, List.getLast?_filter, value?, Spelling.pragma, ← List.map_reverse]
  induction spelling.attributes.reverse with
  | nil => rfl
  | cons written more ih =>
    rw [List.map_cons, AttributeSpelling.entry, List.lookup_cons, List.find?_cons, ih]
    split <;> rfl

/-! ### Searching for attributes -/

/-- The attributes in a text, wherever they stand in it. -/
def attributesWithin (text : List Char) : List (String × String) :=
  match _read : readAttribute? text with
  | some (written, rest) => written :: attributesWithin rest
  | none =>
    match text with
    | [] => []
    | _ :: rest => attributesWithin rest
termination_by text.length
decreasing_by
  · exact (suffix_of_readAttribute? _read).2
  · simp

theorem attributesWithin_of_read {text : List Char} {written : String × String}
    (read : readAttribute? text = some (written, rest)) :
    attributesWithin text = written :: attributesWithin rest := by
  rw [attributesWithin]
  split
  · next found =>
    obtain ⟨rfl, rfl⟩ := Prod.mk.inj (Option.some.inj (read.symm.trans found))
    rfl
  · next unread => simp [read] at unread

theorem attributesWithin_blanks (all : ∀ c ∈ blanks, Text.isBlank c = true) (rest : List Char) :
    attributesWithin (blanks ++ rest) = attributesWithin rest := by
  induction blanks with
  | nil => rfl
  | cons b blanks ih =>
    obtain ⟨blank, all⟩ := List.forall_mem_cons.1 all
    have unread := readAttribute?_of_not_startsName (startsName_of_isBlank blank) (blanks ++ rest)
    rw [List.cons_append, attributesWithin]
    split
    · next found => simp [unread] at found
    · exact ih all

/-- A search finds the attributes that are written, and nothing inside their values. -/
theorem attributesWithin_spellings (spellings : List AttributeSpelling) :
    attributesWithin (spellings.flatMap AttributeSpelling.text) =
      spellings.map AttributeSpelling.entry := by
  induction spellings with
  | nil => rw [List.flatMap_nil, attributesWithin]; rfl
  | cons spelling spellings ih =>
    rw [List.flatMap_cons, AttributeSpelling.text, List.append_assoc,
      attributesWithin_blanks spelling.blank_gap,
      attributesWithin_of_read (spelling.readAttribute?_body _), ih, List.map_cons]

end ScriptedMarkup.Pragma
