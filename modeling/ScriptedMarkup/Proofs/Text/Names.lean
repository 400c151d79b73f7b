import Mathlib.Data.List.TakeWhile
import ScriptedMarkup.Text.Blank
import ScriptedMarkup.Text.Name
import ScriptedMarkup.Text.Word

/-!
# Where a name ends

A name is read as far as it was written when what comes after it is not part of a name
(`name?_append`). A blank never is: no blank is a word character (`isWord_of_isBlank`).
-/

namespace ScriptedMarkup.Text

/-- The code points of the blank characters. -/
def blankPoints : List Nat :=
  List.range' 0x09 5 ++ [0x20, 0x85, 0xA0, 0x1680] ++ List.range' 0x2000 11 ++
    [0x2028, 0x2029, 0x202F, 0x205F, 0x3000]

theorem mem_blankPoints {c : Char} (blank : isBlank c = true) : c.toNat ∈ blankPoints := by
  simp only [isBlank, Bool.or_eq_true, Bool.and_eq_true, decide_eq_true_eq, beq_iff_eq] at blank
  simp only [blankPoints, List.mem_append, List.mem_range'_1, List.mem_cons, List.not_mem_nil,
    or_false]
  omega

theorem isWord_of_isBlank {c : Char} (blank : isBlank c = true) : isWord c = false := by
  have apart : ∀ point ∈ blankPoints, isWord (Char.ofNat point) = false := by decide +kernel
  have found := apart c.toNat (mem_blankPoints blank)
  rwa [Char.ofNat_toNat] at found

theorem isBlank_of_isWord {c : Char} (word : isWord c = true) : isBlank c = false := by
  by_contra blank
  rw [Bool.not_eq_false] at blank
  exact absurd (isWord_of_isBlank blank) (by simp [word])

theorem ne_of_isBlank {c d : Char} (blank : isBlank c = true) (other : isBlank d = false) : c ≠ d := by
  rintro rfl
  exact absurd (blank.symm.trans other) (by decide)

/-- A first character that `starts` allows, and then some that `continues` allows. -/
def IsName (starts continues : Char → Bool) (name : List Char) : Prop :=
  ∃ c more, name = c :: more ∧ starts c = true ∧ ∀ d ∈ more, continues d = true

theorem isName_of_name? {starts continues : Char → Bool} {text name rest : List Char}
    (read : name? starts continues text = some (name, rest)) : IsName starts continues name := by
  cases text with
  | nil => simp [name?] at read
  | cons c text =>
    rw [name?] at read
    split at read
    · next started =>
      obtain ⟨rfl, -⟩ := Prod.mk.inj (Option.some.inj read)
      exact ⟨c, _, rfl, started, fun d member => List.all_eq_true.1 List.all_takeWhile d member⟩
    · cases read

theorem name?_append {starts continues : Char → Bool} {name rest : List Char}
    (named : IsName starts continues name) (ended : ∀ c ∈ rest.head?, continues c = false) :
    name? starts continues (name ++ rest) = some (name, rest) := by
  obtain ⟨c, more, rfl, started, continued⟩ := named
  have stops : rest.takeWhile continues = [] ∧ rest.dropWhile continues = rest := by
    cases rest with
    | nil => exact ⟨rfl, rfl⟩
    | cons d rest =>
      have stop := ended d rfl
      simp [stop]
  rw [List.cons_append, name?, if_pos started, List.takeWhile_append_of_pos continued,
    List.dropWhile_append_of_pos continued, stops.1, stops.2, List.append_nil]

end ScriptedMarkup.Text
