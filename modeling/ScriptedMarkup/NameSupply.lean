/-!
# Generated names

A `NameSupply` gives out numbered names and never gives one out twice, as names with different
numbers are different (`nameOf_injective`).
-/

namespace ScriptedMarkup

/-- The names that are still to be given out. -/
structure NameSupply where
  issued : Nat := 0
  deriving DecidableEq, Repr

namespace NameSupply

def stem : String := "$edb"

def nameOf (n : Nat) : String := stem ++ Nat.repr n

/-- The next name, and the supply without it. Names are numbered from 1. -/
def next (names : NameSupply) : String × NameSupply :=
  (nameOf (names.issued + 1), ⟨names.issued + 1⟩)

theorem nameOf_injective {m n : Nat} (h : nameOf m = nameOf n) : m = n := by
  have digits := congrArg String.toList h
  simp only [nameOf, String.toList_append] at digits
  have same := congrArg (Nat.ofDigitChars 10 · 0) (List.append_cancel_left digits)
  simpa [Nat.repr_eq_ofList_toDigits] using same

theorem nodup_map_nameOf (first count : Nat) : ((List.range' first count).map nameOf).Nodup := by
  refine List.Pairwise.map _ ?_ List.nodup_range'
  intro one other differ same
  exact differ (nameOf_injective same)

theorem mem_nameOf {n : Nat} {c : Char} (member : c ∈ (nameOf n).toList) :
    c ∈ stem.toList ∨ c.isDigit = true := by
  rw [nameOf, String.toList_append] at member
  rcases List.mem_append.1 member with member | member
  · exact .inl member
  · rw [Nat.repr_eq_ofList_toDigits, String.toList_ofList] at member
    exact .inr (Nat.isDigit_of_mem_toDigits (by decide) (by decide) member)

@[simp]
theorem issued_next (names : NameSupply) : names.next.2.issued = names.issued + 1 := rfl

end NameSupply

end ScriptedMarkup
