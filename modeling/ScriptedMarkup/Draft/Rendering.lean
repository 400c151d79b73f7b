import ScriptedMarkup.Draft.Basic

/-!
# Text of a draft

`Draft.render` writes the pieces in order and each helper on lines of its own before the piece
that it is anchored to. Helpers with one anchor keep the order in which they were made, and those
anchored past the last piece come at the end.
-/

namespace ScriptedMarkup

/-- Puts a helper in front of the first one that has no smaller anchor. -/
def Helper.insert (helper : Helper) : List Helper → List Helper
  | [] => [helper]
  | first :: rest =>
    if helper.anchor ≤ first.anchor then helper :: first :: rest
    else first :: Helper.insert helper rest

/-- Helpers by anchor. Those with one anchor keep their order. -/
def Helper.sort (helpers : List Helper) : List Helper := helpers.foldr Helper.insert []

namespace Draft

/-- The texts of the pieces from number `index` on. Before each come the helpers that are due
there, of a list sorted by anchor. -/
def weave (index : Nat) : List Piece → List Helper → List String
  | [], helpers => helpers.flatMap fun helper => ["\n", helper.render]
  | piece :: pieces, helpers =>
    (helpers.takeWhile (·.anchor ≤ index)).flatMap (fun helper => [helper.render, "\n"]) ++
      piece.render :: weave (index + 1) pieces (helpers.dropWhile (·.anchor ≤ index))

def render (draft : Draft) : String :=
  String.join (weave 0 draft.pieces (Helper.sort draft.helpers))

end Draft

end ScriptedMarkup
