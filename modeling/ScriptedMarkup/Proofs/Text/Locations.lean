import ScriptedMarkup.Location
import ScriptedMarkup.Proofs.Text.Slices

/-!
# Lines, columns and offsets

`Location.Marks` says what the line and the column of a place in a text are, without a scan for
them. Places of one text are in the order of their lines and columns (`Location.Marks.before`), so
that line and column give the offset back (`Location.ofOffset_exact`).
-/

namespace ScriptedMarkup.Location

/-- The offset at which the line of a place starts. -/
def lineStart (place : Location) : Nat := place.offset + 1 - place.column

/-- A place of a text. Its line comes after the line feeds before it, and its column counts the
bytes since the last of them. -/
structure Marks (text : List UInt8) (place : Location) : Prop where
  within : place.offset ≤ text.length
  line : place.line = (text.take place.offset).count 0x0A + 1
  column : 1 ≤ place.column ∧ place.column ≤ place.offset + 1
  unbroken : 0x0A ∉ (text.take place.offset).drop place.lineStart
  starts : place.lineStart = 0 ∨ text[place.lineStart - 1]? = some 0x0A

variable {text : List UInt8} {one other : Location}

/-! ### Where a line starts -/

/-- The bytes that a column counts are those after the last line feed. -/
theorem exists_line (before : List UInt8) :
    ∃ earlier word, before = earlier ++ word ∧ (after before).column = word.length + 1 ∧
      0x0A ∉ word ∧ (earlier = [] ∨ ∃ front, earlier = front ++ [0x0A]) := by
  let same : UInt8 → Bool := (· != 0x0A)
  refine ⟨(before.reverse.dropWhile same).reverse, (before.reverse.takeWhile same).reverse,
    ?_, ?_, ?_, ?_⟩
  · rw [← List.reverse_append, List.takeWhile_append_dropWhile, List.reverse_reverse]
  · rw [List.length_reverse]
    rfl
  · intro member
    have kept := List.all_eq_true.1 List.all_takeWhile _ (List.mem_reverse.1 member)
    exact absurd kept (by decide)
  · have stop := List.head?_dropWhile_not same before.reverse
    cases rest : before.reverse.dropWhile same with
    | nil => exact .inl rfl
    | cons feed front =>
      rw [rest] at stop
      have found : feed = 0x0A := by simpa [same] using stop
      exact .inr ⟨front.reverse, by rw [List.reverse_cons, found]⟩

theorem marks_after (before rest : List UInt8) : (after before).Marks (before ++ rest) := by
  obtain ⟨earlier, word, split, column, unbroken, starts⟩ := exists_line before
  have offset : (after before).offset = before.length := rfl
  have size : before.length = earlier.length + word.length := by rw [split, List.length_append]
  have start : (after before).lineStart = earlier.length := by
    rw [lineStart, column, offset]
    omega
  refine ⟨?_, ?_, ?_, ?_, ?_⟩
  · rw [offset, List.length_append]
    omega
  · rw [offset, List.take_left]
    rfl
  · rw [offset, column]
    omega
  · rw [offset, List.take_left, start, split, List.drop_left]
    exact unbroken
  · rw [start]
    rcases starts with rfl | ⟨front, rfl⟩
    · exact .inl rfl
    · refine .inr ?_
      rw [split, List.length_append, List.length_singleton, Nat.add_sub_cancel]
      simp

theorem marks_ofOffset (source : List Char) (offset : Nat) :
    (ofOffset source offset).Marks (Text.bytes source) := by
  have marks := marks_after ((Text.bytes source).take offset) ((Text.bytes source).drop offset)
  rwa [List.take_append_drop] at marks

/-! ### Order of places -/

theorem count_take_of_le {first second : Nat} (forward : first ≤ second) (text : List UInt8)
    (c : UInt8) :
    (text.take second).count c =
      (text.take first).count c + ((text.take second).drop first).count c := by
  have split := List.take_append_drop first (text.take second)
  rw [List.take_take, Nat.min_eq_left forward] at split
  rw [← List.count_append, split]

/-- Without a line feed between two places, the line of the second one starts no later than that
of the first. -/
theorem Marks.lineStart_le (first : one.Marks text) (second : other.Marks text)
    (unbroken : 0x0A ∉ (text.take other.offset).drop one.offset) :
    other.lineStart ≤ one.lineStart := by
  by_contra later
  have inside : other.lineStart - 1 < other.offset := by
    have := second.column
    rw [lineStart] at *
    omega
  rcases second.starts with start | feed
  · omega
  by_cases between : one.offset ≤ other.lineStart - 1
  · exact unbroken (Text.mem_slice_of_getElem? between inside feed)
  · exact first.unbroken (Text.mem_slice_of_getElem? (by omega) (by omega) feed)

theorem Marks.before (first : one.Marks text) (second : other.Marks text)
    (forward : one.offset < other.offset) :
    one.line < other.line ∨ one.line = other.line ∧ one.column < other.column := by
  have counted := count_take_of_le (Nat.le_of_lt forward) text 0x0A
  rw [first.line, second.line, counted]
  by_cases feed : 0x0A ∈ (text.take other.offset).drop one.offset
  · have := List.count_pos_iff.2 feed
    exact .inl (by omega)
  · have start := first.lineStart_le second feed
    have := first.column
    have := second.column
    rw [List.count_eq_zero.2 feed]
    refine .inr ⟨rfl, ?_⟩
    rw [lineStart, lineStart] at start
    omega

theorem Marks.offset_eq (first : one.Marks text) (second : other.Marks text)
    (line : one.line = other.line) (column : one.column = other.column) :
    one.offset = other.offset := by
  rcases Nat.lt_trichotomy one.offset other.offset with forward | same | back
  · have := first.before second forward
    omega
  · exact same
  · have := second.before first back
    omega

/-- Every offset has its place, an offset past the end that of the end. Line and column determine
the offset, and are in the order of the offsets. -/
theorem ofOffset_exact (source : List Char) :
    (∀ offset, (ofOffset source offset).offset = min offset (Text.bytes source).length ∧
      (ofOffset source offset).Marks (Text.bytes source)) ∧
    (∀ first second, (ofOffset source first).line = (ofOffset source second).line →
      (ofOffset source first).column = (ofOffset source second).column →
      min first (Text.bytes source).length = min second (Text.bytes source).length) ∧
    ∀ first second, first < second → second ≤ (Text.bytes source).length →
      (ofOffset source first).line < (ofOffset source second).line ∨
      (ofOffset source first).line = (ofOffset source second).line ∧
        (ofOffset source first).column < (ofOffset source second).column := by
  refine ⟨fun offset => ⟨offset_ofOffset source offset, marks_ofOffset source offset⟩, ?_, ?_⟩
  · intro first second line column
    have same := (marks_ofOffset source first).offset_eq (marks_ofOffset source second) line column
    rwa [offset_ofOffset, offset_ofOffset] at same
  · intro first second forward within
    refine (marks_ofOffset source first).before (marks_ofOffset source second) ?_
    rw [offset_ofOffset, offset_ofOffset]
    omega

/-- An offset inside a character. -/
example : ofOffset ['a', '\n', 'é'] 3 = ⟨3, 2, 2⟩ := by decide +kernel

end ScriptedMarkup.Location
