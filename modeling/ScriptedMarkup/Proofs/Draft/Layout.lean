import ScriptedMarkup.Proofs.Draft.Anchors
import ScriptedMarkup.Proofs.Draft.Hoisted

/-!
# Layout

The text of a draft is that of its parts, which are pieces and declarations. `layout` puts each
declaration before the piece that its helper is anchored to, and `split_layout` says what stands
around it there.
-/

namespace ScriptedMarkup

/-- A part of the text of a draft. -/
inductive Part where
  | written (piece : Piece)
  | declared (helper : Helper)
  deriving DecidableEq, Repr

namespace Part

/-- The text of a part. A declaration ends its line. -/
def render : Part → String
  | written piece => piece.render
  | declared helper => helper.render ++ "\n"

def piece? : Part → Option Piece
  | written piece => some piece
  | declared _ => none

def declaration? : Part → Option Helper
  | written _ => none
  | declared helper => some helper

def text (parts : List Part) : List Char := (String.join (parts.map render)).toList

theorem text_append (first second : List Part) :
    text (first ++ second) = text first ++ text second := by
  simp [text]

theorem text_cons (part : Part) (parts : List Part) :
    text (part :: parts) = part.render.toList ++ text parts := by
  simp [text]

end Part

namespace Draft

/-- The parts of the text from piece number `index` on, of helpers sorted by anchor. -/
def layout (index : Nat) : List Piece → List Helper → List Part
  | [], helpers => helpers.map .declared
  | piece :: pieces, helpers =>
    (helpers.takeWhile (·.anchor ≤ index)).map .declared ++
      .written piece :: layout (index + 1) pieces (helpers.dropWhile (·.anchor ≤ index))

/-- The parts of the text of a draft. -/
def parts (draft : Draft) : List Part := layout 0 draft.pieces (Helper.sort draft.helpers)

/-- Helpers that are anchored in order to pieces of a draft, the first of them not before `index`
and the last before `bound`. -/
structure Anchored (index bound : Nat) (helpers : List Helper) : Prop where
  ordered : helpers.Pairwise fun first second => first.anchor ≤ second.anchor
  within : ∀ helper ∈ helpers, index ≤ helper.anchor ∧ helper.anchor < bound

theorem sort_eq_self {helpers : List Helper}
    (ordered : helpers.Pairwise fun first second => first.anchor ≤ second.anchor) :
    Helper.sort helpers = helpers := by
  rw [Helper.sort_eq_insertionSort]
  exact ordered.insertionSort_eq

theorem filterMap_piece?_declared (helpers : List Helper) :
    (helpers.map Part.declared).filterMap Part.piece? = [] := by
  simp [Part.piece?]

theorem filterMap_piece?_layout (index : Nat) (pieces : List Piece) (helpers : List Helper) :
    (layout index pieces helpers).filterMap Part.piece? = pieces := by
  induction pieces generalizing index helpers with
  | nil => exact filterMap_piece?_declared helpers
  | cons piece pieces ih => simp [layout, Part.piece?, ih]

theorem filterMap_declaration?_layout (index : Nat) (pieces : List Piece) (helpers : List Helper) :
    (layout index pieces helpers).filterMap Part.declaration? = helpers := by
  have all (helpers : List Helper) :
      (helpers.map Part.declared).filterMap Part.declaration? = helpers := by
    simp [List.filterMap_map, Function.comp_def, Part.declaration?]
  induction pieces generalizing index helpers with
  | nil => exact all helpers
  | cons piece pieces ih =>
    rw [layout, List.filterMap_append, all, List.filterMap_cons_none rfl, ih,
      List.takeWhile_append_dropWhile]

variable {index bound : Nat} {pieces : List Piece} {helpers : List Helper}

theorem Anchored.rest (anchored : Anchored index bound helpers) :
    Anchored (index + 1) bound (helpers.dropWhile (·.anchor ≤ index)) := by
  rw [dropWhile_of_ordered anchored.ordered]
  refine ⟨anchored.ordered.filter _, fun helper member => ?_⟩
  obtain ⟨member, past⟩ := List.mem_filter.1 member
  exact ⟨of_decide_eq_true past, (anchored.within helper member).2⟩

theorem Anchored.due (anchored : Anchored index bound helpers) :
    ∀ helper ∈ helpers.takeWhile (·.anchor ≤ index), helper.anchor = index := by
  intro helper member
  have upper := List.all_eq_true.1 List.all_takeWhile helper member
  have lower := (anchored.within helper ((List.takeWhile_prefix _).subset member)).1
  simp only [decide_eq_true_eq] at upper
  omega

theorem join_weave (anchored : Anchored index (index + pieces.length) helpers) :
    String.join (weave index pieces helpers) =
      String.join ((layout index pieces helpers).map Part.render) := by
  induction pieces generalizing index helpers with
  | nil =>
    have none : helpers = [] := by
      cases helpers with
      | nil => rfl
      | cons helper helpers =>
        have := anchored.within helper List.mem_cons_self
        simp only [List.length_nil] at this
        omega
    subst none
    rfl
  | cons piece pieces ih =>
    have declarations (helpers : List Helper) :
        String.join (helpers.flatMap fun helper => [helper.render, "\n"]) =
          String.join ((helpers.map Part.declared).map Part.render) := by
      rw [join_flatMap_declarations, List.map_map]
      rfl
    have rest := anchored.rest
    rw [List.length_cons, Nat.add_comm pieces.length, ← Nat.add_assoc] at rest
    simp only [weave, layout, List.map_append, List.map_cons, String.join_append, String.join_cons,
      declarations, ih rest, Part.render]

theorem layout_append {front back : List Piece}
    (further : ∀ helper ∈ helpers, index + front.length ≤ helper.anchor) :
    layout index (front ++ back) helpers =
      front.map .written ++ layout (index + front.length) back helpers := by
  induction front generalizing index with
  | nil => rfl
  | cons piece front ih =>
    rw [List.length_cons, Nat.add_comm front.length, ← Nat.add_assoc] at further ⊢
    have due : helpers.takeWhile (·.anchor ≤ index) = [] ∧
        helpers.dropWhile (·.anchor ≤ index) = helpers := by
      cases helpers with
      | nil => exact ⟨rfl, rfl⟩
      | cons helper helpers =>
        have past : ¬helper.anchor ≤ index := by
          have := further helper List.mem_cons_self
          omega
        exact ⟨List.takeWhile_cons_of_neg (by simpa using past),
          List.dropWhile_cons_of_neg (by simpa using past)⟩
    rw [List.cons_append, layout, due.1, due.2, ih further]
    rfl

/-- Around a declaration there are the parts before its anchor, other declarations with this
anchor, and the parts from the anchor on. -/
theorem split_layout {before after : List Part} {helper : Helper}
    (anchored : Anchored index (index + pieces.length) helpers)
    (split : layout index pieces helpers = before ++ .declared helper :: after) :
    ∃ (lead : List Part) (front back : List Piece) (earlier same later : List Helper),
      before = lead ++ earlier.map .declared ∧
      after = same.map .declared ++ layout helper.anchor back later ∧
      pieces = front ++ back ∧ index + front.length = helper.anchor ∧
      lead.filterMap Part.piece? = front ∧ lead.getLast? = front.getLast?.map .written ∧
      (∀ other ∈ same, other.anchor = helper.anchor) ∧
      (∀ other ∈ later, helper.anchor < other.anchor ∧ other ∈ helpers) := by
  induction pieces generalizing index helpers before with
  | nil =>
    have member : helper ∈ helpers := by
      rw [← filterMap_declaration?_layout index [] helpers, split]
      simp [Part.declaration?]
    have := anchored.within helper member
    simp only [List.length_nil] at this
    omega
  | cons piece pieces ih =>
    have rest := anchored.rest
    rw [List.length_cons, Nat.add_comm pieces.length, ← Nat.add_assoc] at rest
    rw [layout] at split
    rcases List.append_eq_append_iff.1 split with ⟨more, rfl, tail⟩ | ⟨more, here, tail⟩
    · -- The declaration comes after this piece.
      obtain ⟨first, more, rfl⟩ : ∃ first rest, more = first :: rest := by
        cases more with
        | nil => exact absurd (List.cons.inj tail).1 (by simp)
        | cons first more => exact ⟨first, more, rfl⟩
      obtain ⟨rfl, beyond⟩ := List.cons.inj tail
      obtain ⟨lead, front, back, earlier, same, later, rfl, rfl, rfl, length, found, last, equal,
        further⟩ := ih rest beyond
      refine ⟨(helpers.takeWhile (·.anchor ≤ index)).map .declared ++ .written piece :: lead,
        piece :: front, back, earlier, same, later, by simp, rfl, rfl, ?_, ?_, ?_, equal, ?_⟩
      · rw [List.length_cons]
        omega
      · rw [List.filterMap_append, filterMap_piece?_declared, List.nil_append, ← found]
        rfl
      · simp [List.getLast?_append, List.getLast?_cons, last]
      · intro other member
        obtain ⟨later, member⟩ := further other member
        exact ⟨later, (List.dropWhile_suffix _).subset member⟩
    · -- The declaration is due before this piece.
      cases more with
      | nil => exact absurd (List.cons.inj tail).1 (by simp)
      | cons first same =>
        obtain ⟨rfl, rfl⟩ := List.cons.inj tail
        obtain ⟨earlier, more, due, rfl, mapped⟩ := List.map_eq_append_iff.1 here
        obtain ⟨other, same, rfl, found, rfl⟩ := List.map_eq_cons_iff.1 mapped
        obtain rfl := Part.declared.inj found
        have anchor : other.anchor = index := anchored.due other (by simp [due])
        refine ⟨[], [], piece :: pieces, earlier, same, helpers.dropWhile (·.anchor ≤ index), rfl,
          ?_, rfl, ?_, rfl, rfl, ?_, ?_⟩
        · have further : ∀ helper ∈ helpers.dropWhile (·.anchor ≤ index),
              index + [piece].length ≤ helper.anchor := fun helper member =>
            (rest.within helper member).1
          have next : layout index (piece :: pieces) (helpers.dropWhile (·.anchor ≤ index)) =
              .written piece :: layout (index + 1) pieces (helpers.dropWhile (·.anchor ≤ index)) :=
            layout_append further
          rw [anchor, next]
          rfl
        · rw [anchor]
          rfl
        · intro helper member
          rw [anchor]
          exact anchored.due helper (by simp [due, member])
        · intro helper member
          rw [anchor]
          exact ⟨(rest.within helper member).1, (List.dropWhile_suffix _).subset member⟩

/-! ### Places of declarations -/

/-- A declaration between these parts stands on lines of its own, outside of literals. The literal
with its reference follows, after other declarations for that literal. -/
structure Stands (helper : Helper) (before after : List Part) : Prop where
  outside : openAt (before.filterMap Part.piece?).reverse = none
  line : ∃ lines, String.join (before.map Part.render) = lines ++ "\n"
  leads : ∃ (same : List Helper) (inner : List Piece) (rest : List Part),
    after =
      same.map .declared ++
        (Piece.openLiteral :: inner ++ [Piece.closeLiteral]).map .written ++ rest ∧
    (∀ other ∈ same, other.anchor = helper.anchor) ∧ Unbroken inner ∧
    .reference helper.binding helper.name ∈ inner

theorem join_declared {parts : List Part} {lines : String}
    (line : String.join (parts.map Part.render) = lines ++ "\n") (helpers : List Helper) :
    ∃ lines,
      String.join ((parts ++ helpers.map Part.declared).map Part.render) = lines ++ "\n" := by
  induction helpers generalizing parts lines with
  | nil => exact ⟨lines, by simpa using line⟩
  | cons helper helpers ih =>
    have ended : String.join ((parts ++ [Part.declared helper]).map Part.render) =
        lines ++ "\n" ++ helper.render ++ "\n" := by
      simp [line, Part.render, String.append_assoc]
    obtain ⟨lines, same⟩ := ih ended
    exact ⟨lines, by simpa using same⟩

theorem join_of_endsLine {lead : List Part} {front : List Piece}
    (last : lead.getLast? = front.getLast?.map .written) (ends : EndsLine front.reverse) :
    ∃ lines, String.join (lead.map Part.render) = lines ++ "\n" := by
  obtain ⟨statements, before, same⟩ := ends
  rw [← List.head?_reverse (l := front), same, List.head?_cons, Option.map_some] at last
  obtain ⟨earlier, rfl⟩ := List.getLast?_eq_some_iff.1 last
  refine ⟨String.join (earlier.map Part.render) ++ statements, ?_⟩
  rw [List.map_append, String.join_append, String.append_assoc, List.map_singleton, String.join_cons,
    String.join_nil, String.append_empty]
  rfl

theorem le_of_opens {front inner back : List Piece} {anchor : Nat} (unbroken : Unbroken inner)
    (opens : (front ++ .openLiteral :: inner ++ .closeLiteral :: back)[anchor]? = some .openLiteral)
    (past : front.length < anchor) :
    front.length + (Piece.openLiteral :: inner ++ [Piece.closeLiteral]).length ≤ anchor := by
  obtain ⟨offset, rfl⟩ : ∃ offset, anchor = front.length + (offset + 1) :=
    ⟨anchor - front.length - 1, by omega⟩
  have opens : (inner ++ .closeLiteral :: back)[offset]? = some .openLiteral := by
    rw [List.append_assoc, List.getElem?_append_right (by omega)] at opens
    simpa using opens
  by_cases within : offset < inner.length
  · rw [List.getElem?_append_left within] at opens
    exact absurd rfl (unbroken _ (List.mem_of_getElem? opens)).1
  · have notLast : offset ≠ inner.length := by
      rintro rfl
      simp at opens
    simp only [List.length_append, List.length_cons, List.length_nil]
    omega

variable {draft : Draft}

theorem Hoisted.anchored_helpers (hoisted : draft.Hoisted) :
    Anchored 0 (0 + draft.pieces.length) draft.helpers := by
  refine ⟨hoisted.ordered, ?_⟩
  intro helper member
  obtain ⟨earlier, later, split⟩ := List.append_of_mem member
  obtain ⟨front, inner, back, same, length, -, -⟩ := hoisted.anchored _ _ _ split
  rw [same, ← length]
  simp only [List.length_append, List.length_cons]
  omega

theorem Hoisted.parts_eq (hoisted : draft.Hoisted) :
    draft.parts = layout 0 draft.pieces draft.helpers := by
  rw [parts, sort_eq_self hoisted.ordered]

theorem Hoisted.render_eq (hoisted : draft.Hoisted) :
    draft.render = String.join (draft.parts.map Part.render) := by
  rw [render, hoisted.parts_eq, sort_eq_self hoisted.ordered, join_weave hoisted.anchored_helpers]

theorem Hoisted.block (hoisted : draft.Hoisted) (apart : Apart draft.recent)
    (ended : openAt draft.recent = none) {helper : Helper} (member : helper ∈ draft.helpers) :
    ∃ front inner back,
      draft.pieces = front ++ .openLiteral :: inner ++ .closeLiteral :: back ∧
      front.length = helper.anchor ∧ Unbroken inner ∧
      .reference helper.binding helper.name ∈ inner ∧
      openAt front.reverse = none ∧ EndsLine front.reverse := by
  obtain ⟨earlier, later, split⟩ := List.append_of_mem member
  obtain ⟨front, first, back, same, length, unbroken, -⟩ := hoisted.anchored _ _ _ split
  have recent : draft.recent =
      (back.reverse ++ [.reference helper.binding helper.name]) ++
        (first.reverse ++ .openLiteral :: front.reverse) := by
    rw [← List.reverse_reverse draft.recent, ← pieces, same]
    simp
  have opened : openAt (first.reverse ++ .openLiteral :: front.reverse) = some front.length := by
    rw [openAt_append fun piece member => unbroken piece (List.mem_reverse.1 member), openAt,
      List.length_reverse]
  rw [recent] at apart ended
  obtain ⟨after, second, closed, further⟩ := closes_of_openAt apart opened ended
  have back_eq : .reference helper.binding helper.name :: back =
      second.reverse ++ .closeLiteral :: after.reverse := by
    simpa using congrArg List.reverse closed
  have referred : .reference helper.binding helper.name ∈ second.reverse := by
    cases found : second.reverse with
    | nil =>
      rw [found] at back_eq
      exact absurd (List.cons.inj back_eq).1 (by simp)
    | cons piece rest =>
      rw [found] at back_eq
      exact (List.cons.inj back_eq).1 ▸ List.mem_cons_self
  refine ⟨front, first ++ second.reverse, after.reverse, ?_, length, ?_, ?_, ?_⟩
  · rw [same, back_eq]
    simp
  · intro piece member
    rcases List.mem_append.1 member with member | member
    · exact unbroken piece member
    · exact further piece (List.mem_reverse.1 member)
  · exact List.mem_append_right _ referred
  · exact apart front.reverse ⟨_, by rw [List.append_assoc]⟩

/-- Every declaration of a draft stands before the literal that refers to it. -/
theorem Hoisted.stands (hoisted : draft.Hoisted) (apart : Apart draft.recent)
    (ended : openAt draft.recent = none) {before after : List Part} {helper : Helper}
    (split : draft.parts = before ++ .declared helper :: after) : Stands helper before after := by
  rw [hoisted.parts_eq] at split
  have member : helper ∈ draft.helpers := by
    rw [← filterMap_declaration?_layout 0 draft.pieces draft.helpers, split]
    simp [Part.declaration?]
  obtain ⟨lead, front, back, earlier, same, later, rfl, rfl, pieces, length, found, last, equal,
    further⟩ := split_layout hoisted.anchored_helpers split
  obtain ⟨_, inner, rest, block, here, unbroken, referred, outside, ends⟩ :=
    hoisted.block apart ended member
  obtain ⟨rfl, rfl⟩ := List.append_inj ((List.append_assoc _ _ _).symm.trans (block.symm.trans pieces))
    (by omega)
  have beyond : ∀ other ∈ later,
      helper.anchor + (Piece.openLiteral :: inner ++ [Piece.closeLiteral]).length ≤ other.anchor := by
    intro other member
    obtain ⟨past, member⟩ := further other member
    obtain ⟨first, second, other_split⟩ := List.append_of_mem member
    obtain ⟨lead, body, tail, same, place, -, -⟩ := hoisted.anchored _ _ _ other_split
    have opens : draft.pieces[other.anchor]? = some .openLiteral := by
      rw [same, ← place]
      simp
    rw [block] at opens
    rw [← here]
    exact le_of_opens unbroken opens (by omega)
  obtain ⟨tail, literal⟩ : ∃ tail,
      layout helper.anchor (.openLiteral :: inner ++ .closeLiteral :: rest) later =
        (Piece.openLiteral :: inner ++ [Piece.closeLiteral]).map .written ++ tail := by
    refine ⟨layout (helper.anchor + (Piece.openLiteral :: inner ++ [Piece.closeLiteral]).length) rest
      later, ?_⟩
    rw [← layout_append beyond, List.append_assoc]
    rfl
  refine ⟨?_, ?_, same, inner, tail, ?_, equal, unbroken, referred⟩
  · rw [List.filterMap_append, found, filterMap_piece?_declared, List.append_nil]
    exact outside
  · obtain ⟨lines, line⟩ := join_of_endsLine last ends
    exact join_declared line earlier
  · rw [literal, List.append_assoc]

end Draft

end ScriptedMarkup
