import ScriptedMarkup.Text.Bytes

/-!
# Locations

A `Location` points into a source: a byte offset with its line and column, the column also
counted in bytes.
-/

namespace ScriptedMarkup

/-- A place in a source. -/
structure Location where
  /-- Bytes before the place. -/
  offset : Nat
  line : Nat
  /-- Column in bytes, from 1. -/
  column : Nat
  deriving DecidableEq, Repr

namespace Location

def origin : Location := ⟨0, 1, 1⟩

/-- The place just after the bytes `before`. -/
def after (before : List UInt8) : Location where
  offset := before.length
  line := before.count 0x0A + 1
  column := (before.reverse.takeWhile (· != 0x0A)).length + 1

/-- The place at a byte offset of a source. An offset past the end means the end. -/
def ofOffset (source : List Char) (offset : Nat) : Location :=
  after ((Text.bytes source).take offset)

/-- Line and column, as messages write them. -/
def text (place : Location) : String :=
  Nat.repr place.line ++ ":" ++ Nat.repr place.column

@[simp]
theorem after_nil : after [] = origin := rfl

theorem offset_ofOffset (source : List Char) (offset : Nat) :
    (ofOffset source offset).offset = min offset (Text.bytes source).length := by
  simp [ofOffset, after]

/-- The place where the rest of a source starts depends on what comes before it alone. -/
theorem ofOffset_append (before rest : List Char) :
    ofOffset (before ++ rest) (Text.bytes before).length = after (Text.bytes before) := by
  simp [ofOffset]

end Location

end ScriptedMarkup
