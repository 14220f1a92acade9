import IndicatorFormula.Proofs.Substitution.Explosion

/-! What explosion leaves of the references of a formula.

The numbers that it writes stand next to references that stay, within numbers, and next to other
numbers. Nothing in them begins a reference, goes on one that has begun, or precedes one as a word
would, so what stays is read as before. -/

set_option autoImplicit false
namespace IndicatorFormula

/-- No character of a text, which has some, begins a reference or goes on one that has begun. -/
def Unmarked (text : Text) : Prop :=
  text ≠ [] ∧ ∀ c ∈ text, c ∉ 'd' :: '{' :: Reference.starts

namespace Unmarked

variable {text before behind : Text} {afterWord : Bool}

theorem append (unmarked : Unmarked text) (first : ∀ c ∈ before, c ∉ 'd' :: '{' :: Reference.starts)
    (last : ∀ c ∈ behind, c ∉ 'd' :: '{' :: Reference.starts) :
    Unmarked (before ++ (text ++ behind)) := by
  refine ⟨by simp [unmarked.1], fun c member => ?_⟩
  rcases List.mem_append.mp member with member | member
  · exact first c member
  rcases List.mem_append.mp member with member | member
  · exact unmarked.2 c member
  · exact last c member

theorem quiet (unmarked : Unmarked text) : ∃ c rest, text = c :: rest ∧ c ≠ 'd' ∧ c ≠ '{' := by
  obtain ⟨c, rest, rfl⟩ := List.exists_cons_of_ne_nil unmarked.1
  have other := unmarked.2 c List.mem_cons_self
  exact ⟨c, rest, rfl, fun same => other (by simp [same]), fun same => other (by simp [same])⟩

theorem ofTextFrom_append (unmarked : Unmarked text) :
    Piece.ofTextFrom afterWord (text ++ behind) =
      text.map .plain ++ Piece.ofTextFrom (text.endsWord afterWord) behind :=
  Piece.ofTextFrom_append (Reference.silent_of_plain fun c member start =>
    unmarked.2 c member (List.mem_cons_of_mem _ (List.mem_cons_of_mem _ start)))

end Unmarked

theorem unmarked_literal {literal : Text} (isLiteral : Lexer.IsLiteral literal) :
    ∀ c ∈ literal, c ∉ 'd' :: '{' :: Reference.starts := by
  have plain : ∀ c ∈ 'd' :: '{' :: Reference.starts, Lexer.isNumeric c = false := by decide
  refine isLiteral.forall (fun c numeric marked => ?_) (by decide)
  rw [plain c marked] at numeric
  cases numeric

theorem unmarked_number {literal : Text} {value : Double} (number : Lexer.IsNumber literal value) :
    Unmarked literal := by
  refine ⟨?_, unmarked_literal number.isLiteral⟩
  cases number
  exact List.cons_ne_nil _ _

theorem unmarked_ofInt (n : Int) : Unmarked (Text.ofInt n) := by
  have digits := unmarked_number (Lexer.isNumber_ofNat n.natAbs)
  unfold Text.ofInt
  split
  · have none : ∀ c ∈ ([] : Text), c ∉ 'd' :: '{' :: Reference.starts := nofun
    simpa using digits.append (show ∀ c ∈ ['-'], c ∉ 'd' :: '{' :: Reference.starts by decide) none
  · exact digits

theorem unmarked_missingLiteral : Unmarked missingLiteral :=
  unmarked_number Segment.isNumber_missingLiteral

namespace Segment

theorem unmarked_ofMagnitude (negative : Bool) (m : Fin finiteMagnitudes) :
    Unmarked ((ofMagnitude negative m).flatMap text) := by
  have number := unmarked_number (Lexer.isNumber_magnitude m)
  cases negative with
  | false => simpa [ofMagnitude, text] using number
  | true =>
    have opening : ∀ c ∈ ['(', '-'], c ∉ 'd' :: '{' :: Reference.starts := by decide
    have closing : ∀ c ∈ [')'], c ∉ 'd' :: '{' :: Reference.starts := by decide
    simpa [ofMagnitude, text, Symbol.text] using number.append opening closing

end Segment

/-- Holds of a text for each reference that is the reference itself for items, and a number for the
others. -/
def KeepsItems (literal : Reference → Text) : Prop :=
  ∀ reference : Reference, reference.Legible → if reference.isDimensional
    then literal reference = reference.text else Unmarked (literal reference)

section Explosion

variable {figures : Figures} {days : Option Int}

theorem exists_written (finite : ∀ entry ∈ figures.constants, entry.2.isFinite = true)
    (days : Option Int) (reference : Reference) :
    ∃ written, reference.Legible →
      (if reference.isDimensional then written = reference.text else Unmarked written) ∧
        explodeReference figures (days.map .int) reference = .ok written := by
  obtain ⟨kind, parts⟩ := reference
  cases kind with
  | constant =>
    cases found : figures.constants.lookup (Reference.key ⟨.constant, parts⟩) with
    | none =>
      refine ⟨missingLiteral, fun _ => ⟨unmarked_missingLiteral, ?_⟩⟩
      simp [explodeReference, found, literalOrZero]
    | some x =>
      obtain ⟨negative, m, rfl⟩ : ∃ negative m, x = .finite negative m := by
        have finite := finite _ (mem_of_lookup found)
        cases x with
        | finite negative m => exact ⟨negative, m, rfl⟩
        | _ => cases finite
      have written : (Number.double (.finite negative m)).literal =
          .ok ((Segment.ofMagnitude negative m).flatMap Segment.text) := Segment.literal_eq rfl
      refine ⟨_, fun _ => ⟨Segment.unmarked_ofMagnitude negative m, ?_⟩⟩
      simp [explodeReference, found, literalOrZero, written]
  | orgUnitGroup =>
    refine ⟨_, fun _ => ⟨?_, rfl⟩⟩
    cases figures.groupCounts.lookup (Reference.key ⟨.orgUnitGroup, parts⟩) with
    | none => exact unmarked_missingLiteral
    | some n => exact unmarked_number (Lexer.isNumber_ofNat n)
  | days =>
    refine ⟨_, fun _ => ⟨?_, rfl⟩⟩
    cases days with
    | none => exact unmarked_missingLiteral
    | some n => exact unmarked_ofInt n
  | aggregate =>
    refine ⟨[], fun legible => ?_⟩
    cases legible with
    | braced member => exact absurd member (by decide)
  | _ => exact ⟨_, fun _ => ⟨rfl, rfl⟩⟩

/-- With finite constants, each reference has a text in an exploded formula, which is the reference
itself for items. -/
theorem exists_literal (finite : ∀ entry ∈ figures.constants, entry.2.isFinite = true)
    (days : Option Int) :
    ∃ literal, KeepsItems literal ∧
      ∀ reference : Reference, reference.Legible →
        explodeReference figures (days.map .int) reference = .ok (literal reference) := by
  choose literal each using exists_written finite days
  exact ⟨literal, fun reference legible => (each reference legible).1,
    fun reference legible => (each reference legible).2⟩

end Explosion

namespace Segment

variable {literal : Reference → Text} {segment : Segment} {segments : List Segment}

def written (literal : Reference → Text) : Segment → Text
  | .reference lead found tail => lead ++ (literal found ++ tail)
  | segment => segment.text

def left (literal : Reference → Text) : Segment → List Piece
  | .reference lead found tail =>
    if found.isDimensional then (reference lead found tail).pieces
    else ((reference lead found tail).written literal).map .plain
  | segment => segment.pieces

theorem Formed.written (formed : segment.Formed) (keeps : KeepsItems literal) :
    segment.written literal = segment.text ∧ segment.left literal = segment.pieces ∨
      segment.closes = true ∧ Unmarked (segment.written literal) ∧
        segment.left literal = (segment.written literal).map .plain := by
  cases formed with
  | @reference lead found tail legible digits fresh isLiteral =>
    have kept := keeps found legible
    unfold left
    split at kept
    · rename_i item
      exact .inl ⟨by rw [Segment.written, kept]; rfl, if_pos item⟩
    · rename_i figure
      have leads : Lexer.IsLiteral lead :=
        ⟨lead, [], by simp, fun c member => by simp [Lexer.isNumeric, digits c member], rfl⟩
      exact .inr
        ⟨rfl, kept.append (unmarked_literal leads) (unmarked_literal isLiteral), if_neg figure⟩
  | _ => exact .inl ⟨rfl, rfl⟩

theorem Formed.written_quiet (formed : segment.Formed) (keeps : KeepsItems literal) :
    ∃ c rest, segment.written literal = c :: rest ∧ c ≠ 'd' ∧ c ≠ '{' := by
  rcases formed.written keeps with ⟨same, -⟩ | ⟨-, unmarked, -⟩
  · rw [same]
    exact formed.quiet
  · exact unmarked.quiet

/-- An exploded formula is read as its segments, of which only items are references. -/
theorem Regular.ofText_written (regular : Regular segments) (keeps : KeepsItems literal) :
    Piece.ofText (segments.flatMap (Segment.written literal)) =
      segments.flatMap (left literal) := by
  have each := fun segment member => (regular.formed segment member).written keeps
  refine regular.scan_written (fun _ => by rw [Piece.ofTextFrom])
    (fun segment member => (regular.formed segment member).written_quiet keeps)
    (fun segment member afterWord => ?_) (fun segment member afterWord behind fresh quiet => ?_)
    fun word => nomatch word
  · rcases each segment member with ⟨same, -⟩ | ⟨closes, -⟩
    · rw [same]
      exact (regular.formed segment member).closes_of_endsWord
    · exact fun _ => closes
  · rcases each segment member with ⟨same, pieces⟩ | ⟨-, unmarked, pieces⟩
    · rw [same, pieces]
      exact (regular.formed segment member).ofTextFrom_append fresh quiet.1
    · rw [pieces]
      exact unmarked.ofTextFrom_append

theorem filled_pieces (segments : List Segment) :
    (segments.flatMap pieces).flatMap (Piece.filled literal) =
      segments.flatMap (written literal) := by
  have plain (text : Text) : (text.map Piece.plain).flatMap (Piece.filled literal) = text := by
    simp [List.flatMap_map, Piece.filled]
  rw [List.flatMap_assoc]
  refine List.flatMap_congr fun segment _ => ?_
  cases segment with
  | reference lead found tail => simp [pieces, written, plain, Piece.filled]
  | _ => exact plain _

theorem references_plain (text : Text) : Piece.references (text.map .plain) = [] := by
  simp [Piece.references, List.filterMap_map]

theorem references_left (segments : List Segment) :
    Piece.references (segments.flatMap (left literal)) =
      (Piece.references (segments.flatMap pieces)).filter Reference.isDimensional := by
  rw [Piece.references, Piece.references, List.filterMap_flatMap, List.filterMap_flatMap,
    List.filter_flatMap]
  refine List.flatMap_congr fun segment _ => ?_
  have plain : ∀ text : Text, Piece.references (text.map .plain) =
      (Piece.references (text.map .plain)).filter Reference.isDimensional := fun text => by
    rw [references_plain]
    rfl
  cases segment with
  | reference lead found tail =>
    have own : Piece.references (reference lead found tail).pieces = [found] := by
      simpa [reference?] using references_pieces [reference lead found tail]
    change Piece.references (left literal _) =
      (Piece.references (reference lead found tail).pieces).filter _
    rw [own, left]
    split
    · rename_i item
      rw [own, List.filter_cons_of_pos item, List.filter_nil]
    · rename_i figure
      rw [references_plain, List.filter_cons_of_neg figure, List.filter_nil]
  | _ => exact plain _

end Segment

theorem explode_items {formula : Text} (some : formula ≠ [])
    (items : ∀ reference ∈ references formula, reference.isDimensional = true) (figures : Figures)
    (days : Option Number) : explode figures days formula = .ok (.some formula) := by
  have kept : ∀ reference ∈ references formula, explodeReference figures days reference =
      .ok reference.text := by
    intro reference member
    have item := items reference member
    obtain ⟨kind, parts⟩ := reference
    cases kind <;> first | rfl | cases item
  rw [explode_pieces some kept, Piece.filled_text, ← Piece.eq_of_ofText rfl]

theorem Reference.itemId?_of_not_isDimensional {reference : Reference}
    (other : ¬ reference.isDimensional = true) : reference.itemId? = none := by
  obtain ⟨kind, parts⟩ := reference
  have untyped : ∀ count, kind.itemType? count = none := by
    intro count
    revert other
    cases kind <;> simp [isDimensional, ReferenceKind.isDimensional, ReferenceKind.itemType?]
  simp [itemId?, ReferenceKind.itemId?, untyped]

theorem ReferencedIds.ofReferences_items (found : List Reference) :
    ofReferences (found.filter Reference.isDimensional) =
      { ofReferences found with constants := [], orgUnitGroups := [] } := by
  have items : (found.filter Reference.isDimensional).filterMap Reference.itemId? =
      found.filterMap Reference.itemId? := by
    rw [List.filterMap_filter]
    refine List.filterMap_congr fun reference _ => ?_
    split
    · rfl
    · rename_i other
      exact (Reference.itemId?_of_not_isDimensional other).symm
  have none : ∀ kind : ReferenceKind, kind.isDimensional = false →
      (found.filter Reference.isDimensional).filter (fun reference => reference.kind = kind) =
        [] := by
    intro kind other
    rw [List.filter_filter]
    refine List.filter_eq_nil_iff.mpr fun reference _ both => ?_
    obtain ⟨same, item⟩ := Bool.and_eq_true_iff.mp both
    rw [Reference.isDimensional, of_decide_eq_true same, other] at item
    cases item
  simp only [ofReferences, items, none .constant rfl, none .orgUnitGroup rfl]
  rfl

/-- Exploding a valid formula removes exactly the references that do not stand for items. The others
stay in order, their identifiers are all that is extracted, and nothing is left to explode. -/
theorem explode_removes {catalog : Catalog} {formula : Text} {figures : Figures}
    (valid : validateRule catalog formula = .ok .valid ∨
      validatePredictor catalog formula = .ok .valid)
    (finite : ∀ entry ∈ figures.constants, entry.2.isFinite = true) (days : Option Int) :
    ∃ exploded, explode figures (days.map .int) formula = .ok (some exploded) ∧
      references exploded = (references formula).filter Reference.isDimensional ∧
      (∃ ids, ∀ settings context, substitute settings .extractIds context formula =
          pure (.extracted ids) ∧
        substitute settings .extractIds context exploded =
          pure (.extracted { ids with constants := [], orgUnitGroups := [] })) ∧
      ∀ others count, explode others count exploded = .ok (some exploded) := by
  obtain ⟨allowAggregates, accepted⟩ := exists_accepted valid
  have some := accepted.value.1
  have sound : ∀ reference ∈ references formula, _ :=
    fun reference member => accepted.problem?_eq_none member
  have extracted := accepted.extractIds_eq
  clear valid
  obtain ⟨segments, rfl, valid⟩ := accepted.segments
  have regular := valid.regular
  obtain ⟨literal, keeps, written⟩ := exists_literal finite days
  have explodes :=
    explode_pieces some fun reference member => written reference (legible_of_mem_references member)
  rw [regular.ofText, Segment.filled_pieces] at explodes
  have left : references (segments.flatMap (Segment.written literal)) =
      (references (segments.flatMap Segment.text)).filter Reference.isDimensional := by
    rw [references, regular.ofText_written keeps, Segment.references_left, references,
      regular.ofText]
  have nonempty : segments.flatMap (Segment.written literal) ≠ [] := by
    cases segments with
    | nil => exact absurd rfl some
    | cons segment segments =>
      obtain ⟨c, rest, shape, -⟩ := regular.head.1.written_quiet keeps
      simp [shape]
  refine ⟨_, explodes, left,
    ⟨.ofReferences (references (segments.flatMap Segment.text)), fun settings context => ⟨?_, ?_⟩⟩,
    fun others count => ?_⟩
  · simp only [substitute, extracted, pure_bind]
  · have kept : extractIds (segments.flatMap (Segment.written literal)) =
        pure (.ofReferences
          ((references (segments.flatMap Segment.text)).filter Reference.isDimensional)) := by
      unfold extractIds
      rw [left, wellFormed_eq fun reference member => sound reference (List.mem_filter.mp member).1,
        pure_bind]
      rfl
    simp only [substitute, kept, ReferencedIds.ofReferences_items, pure_bind]
  · exact explode_items nonempty (fun reference member => (List.mem_filter.mp (left ▸ member)).2)
      others count

/-- A negative number of days is written behind the digit in front of it, so it is subtracted from
then on. -/
theorem explode_removes_figures :
    let catalog : Catalog :=
      { dataElements := [⟨['a'], ['A']⟩], constants := [⟨⟨['c'], ['C']⟩, .ofInt (-5)⟩] }
    let formula := "IF(isNull(#{a}), 2[days] * C{c}, #{a})".toList
    let exploded := "IF(isNull(#{a}), 2-3 * (-5.0), #{a})".toList
    validateRule catalog formula = .ok .valid ∧
      explode { constants := [(['c'], .ofInt (-5))] } (some (.int (-3))) formula =
        .ok (some exploded) ∧
      references exploded = [⟨.dataElementOperand, [['a']]⟩, ⟨.dataElementOperand, [['a']]⟩] ∧
      (∀ settings context,
        substitute settings .extractIds context formula =
            pure (.extracted ⟨[⟨.dataElement, ['a'], none, none⟩], [['c']], []⟩) ∧
          substitute settings .extractIds context exploded =
            pure (.extracted ⟨[⟨.dataElement, ['a'], none, none⟩], [], []⟩)) ∧
      ∀ others count, explode others count exploded = .ok (some exploded) := by
  intro catalog formula exploded
  have valid : validateRule catalog formula = .ok .valid := by decide +kernel
  have written : explode { constants := [(['c'], .ofInt (-5))] } (some (.int (-3))) formula =
      .ok (some exploded) := by decide +kernel
  obtain ⟨text, explodes, left, ⟨ids, extracted⟩, again⟩ :=
    @explode_removes _ _ { constants := [(['c'], .ofInt (-5))] } (.inl valid) (by decide +kernel)
      (some (-3))
  obtain rfl : text = exploded := Option.some.inj (Except.ok.inj (explodes.symm.trans written))
  have known : (substitute {} .extractIds {} formula).outcome =
      .ok (.extracted ⟨[⟨.dataElement, ['a'], none, none⟩], [['c']], []⟩) := by decide +kernel
  cases Traced.eq_of_pure (extracted {} {}).1 known
  exact ⟨valid, written, left.trans (by decide +kernel), extracted, again⟩

end IndicatorFormula
