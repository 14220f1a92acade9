import IndicatorFormula.Proofs.Formula.Locality
import IndicatorFormula.Substitution.Validation

/-! The references that descriptions hold.

A name is refused if it holds a reference, and what a formula has between its references holds none
either. A reference in the description of a formula therefore runs over the beginning or the end of
a name. -/

set_option autoImplicit false
namespace IndicatorFormula

section References

variable {afterWord : Bool} {text behind : Text}

theorem Silent.alone (silent : Silent Reference.read? afterWord text behind) :
    Silent Reference.read? afterWord text [] := by
  induction text generalizing afterWord with
  | nil => trivial
  | cons c text ih =>
    refine ⟨Option.eq_none_iff_forall_ne_some.mpr fun ⟨reference, rest⟩ found => ?_, ih silent.2⟩
    obtain ⟨legible, fresh, whole⟩ := Reference.read?_eq_some_iff.mp found
    rw [List.append_nil] at whole
    have longer : Reference.read? afterWord (c :: (text ++ behind)) =
        some (reference, rest ++ behind) :=
      Reference.read?_eq_some_iff.mpr
        ⟨legible, fresh, by rw [← List.cons_append, whole, List.append_assoc]⟩
    rw [silent.1] at longer
    cases longer

theorem references_eq_nil (silent : Silent Reference.read? false text []) :
    references text = [] := by
  have pieces := Piece.ofTextFrom_append silent
  rw [List.append_nil, Piece.ofTextFrom, List.append_nil] at pieces
  rw [references, Piece.ofText, pieces]
  simp [Piece.references, List.filterMap_map]

theorem silent_of_references (none : Piece.references (Piece.ofTextFrom afterWord text) = []) :
    Silent Reference.read? afterWord text [] := by
  fun_induction Piece.ofTextFrom afterWord text with
  | case1 => trivial
  | case2 => cases none
  | case3 afterWord c rest nothing ih => exact ⟨by simpa using nothing, ih none⟩

end References

variable {name : Reference → Text}

/-- The positions where names begin and end behind a position of a description. -/
def nameEnds (name : Reference → Text) (position : Nat) : List Piece → List Nat
  | [] => []
  | .plain _ :: rest => nameEnds name (position + 1) rest
  | .reference found :: rest =>
    position :: (position + (name found).length) ::
      nameEnds name (position + (name found).length) rest

/-- What stands between the ends of names in a description: the names and the text between them,
which begins with some that is given. -/
def stretches (name : Reference → Text) (gap : Text) : List Piece → List Text
  | [] => [gap]
  | .plain c :: rest => stretches name (gap ++ [c]) rest
  | .reference found :: rest => gap :: name found :: stretches name [] rest

theorem exists_cut {first rest lead behind : Text} (whole : first ++ rest = lead ++ behind)
    (fits : first.length ≤ lead.length) : ∃ more, lead = first ++ more ∧ rest = more ++ behind := by
  obtain ⟨more, rfl⟩ :=
    List.prefix_of_prefix_length_le ⟨rest, whole⟩ (List.prefix_append lead behind) fits
  rw [List.append_assoc] at whole
  exact ⟨more, rfl, List.append_cancel_left whole⟩

theorem exists_stretch (position : Nat) {pieces : List Piece} {gap lead part behind : Text}
    (whole : gap ++ pieces.flatMap (Piece.filled name) = lead ++ (part ++ behind))
    (undivided : ∀ seam ∈ nameEnds name (position + gap.length) pieces,
      ¬ (position + lead.length < seam ∧ seam < position + lead.length + part.length)) :
    ∃ stretch ∈ stretches name gap pieces, ∃ before inner after,
      lead = before ++ inner ∧ stretch = inner ++ (part ++ after) := by
  have within : ∀ {stretch rest lead : Text}, stretch ++ rest = lead ++ (part ++ behind) →
      lead.length + part.length ≤ stretch.length → ∃ after, stretch = lead ++ (part ++ after) := by
    intro stretch rest lead whole fits
    rw [← List.append_assoc] at whole
    obtain ⟨after, same, -⟩ := exists_cut whole.symm (by simpa using fits)
    exact ⟨after, by rw [same, List.append_assoc]⟩
  induction pieces generalizing gap lead position with
  | nil =>
    obtain ⟨after, same⟩ :=
      within whole (by have := congrArg List.length whole; simp at this; omega)
    exact ⟨gap, List.mem_singleton_self _, [], lead, after, rfl, same⟩
  | cons piece pieces ih =>
    cases piece with
    | plain c =>
      have whole : (gap ++ [c]) ++ pieces.flatMap (Piece.filled name) =
          lead ++ (part ++ behind) := by
        simpa [Piece.filled] using whole
      refine ih position whole fun seam member => undivided seam ?_
      simpa [nameEnds, Nat.add_assoc] using member
    | reference found =>
      obtain ⟨begins, ends, undivided⟩ := by simpa [nameEnds] using undivided
      -- The part ends with the text in front of the name, or begins behind it.
      by_cases first : lead.length + part.length ≤ gap.length
      · obtain ⟨after, same⟩ := within whole first
        exact ⟨gap, List.mem_cons_self, [], lead, after, rfl, same⟩
      obtain ⟨inside, rfl, rest⟩ := exists_cut whole (by omega)
      rw [List.flatMap_cons, Piece.filled] at rest
      rw [List.length_append] at ends undivided first
      -- It ends with the name, or begins behind it.
      by_cases second : inside.length + part.length ≤ (name found).length
      · obtain ⟨after, same⟩ := within rest second
        exact ⟨name found, by simp [stretches], gap, inside, after, rfl, same⟩
      obtain ⟨later, rfl, behindName⟩ := exists_cut rest (by omega)
      obtain ⟨stretch, member, before, inner, after, rfl, same⟩ :=
        ih (position + gap.length + (name found).length) (show [] ++ _ = _ from behindName)
            fun seam member => by
          have apart := undivided seam (by simpa using member)
          simp only [List.length_append] at apart
          omega
      exact ⟨stretch, by simp [stretches, member], gap ++ (name found ++ before), inner, after,
        by simp, same⟩

/-- No stretch of a description holds a reference if no name does. -/
theorem references_stretch {afterWord : Bool} {text gap : Text}
    (names : ∀ reference ∈ Piece.references (Piece.ofTextFrom afterWord text), references
        (name reference) = []) (silent : Silent Reference.read? false gap text)
    (ends : gap.endsWord false = afterWord) :
    ∀ stretch ∈ stretches name gap (Piece.ofTextFrom afterWord text), references stretch = [] := by
  fun_induction Piece.ofTextFrom afterWord text generalizing gap with
  | case1 =>
    intro stretch member
    rw [List.mem_singleton.mp member]
    exact references_eq_nil silent
  | case2 afterWord c rest found behind read ih =>
    intro stretch member
    rcases List.mem_cons.mp member with rfl | member
    · exact references_eq_nil silent.alone
    rcases List.mem_cons.mp member with rfl | member
    · exact names found List.mem_cons_self
    · have none : Silent Reference.read? false [] behind := trivial
      exact ih (fun reference member => names reference (List.mem_cons_of_mem _ member)) none rfl
        stretch member
  | case3 afterWord c rest none ih =>
    refine ih names (silent_append silent ⟨?_, trivial⟩) (by rw [Text.endsWord_append]; rfl)
    rwa [ends]

/-- A reference that stands in a text is read, or another one is read over its beginning. -/
theorem references_ne_nil {lead behind : Text} {reference : Reference} (legible : reference.Legible)
    (fresh : lead.endsWord false = true → reference.kind = .days) :
    references (lead ++ (reference.text ++ behind)) ≠ [] := by
  intro none
  have silent : Silent Reference.read? false _ [] := silent_of_references none
  have read : Reference.read? (lead.endsWord false) (reference.text ++ behind) =
      some (reference, behind) :=
    Reference.read?_eq_some_iff.mpr ⟨legible, fresh, rfl⟩
  obtain ⟨c, rest, shape⟩ := List.exists_cons_of_ne_nil reference.text_ne_nil
  rw [shape, List.cons_append] at silent read
  have nothing := silent_iff.mp silent lead c (rest ++ behind) rfl
  rw [List.append_nil, read] at nothing
  cases nothing

theorem references_of_describeReference {catalog : Catalog} {reference : Reference} {text : Text}
    (described : describeReference catalog reference = .ok text) : references text = [] := by
  unfold describeReference at described
  split at described
  · cases described
  · split at described
    · rename_i none
      cases described
      exact List.isEmpty_iff.mp none
    · cases described

theorem exists_name_of_describe {catalog : Catalog} {formula description : Text}
    (described : describe catalog formula = .ok description) {reference : Reference}
    (member : reference ∈ references formula) :
    ∃ name, describeReference catalog reference = .ok name := by
  obtain ⟨texts, ran, -⟩ := bind_eq_ok_iff.mp described
  exact exists_of_mapM ran _ (Piece.mem_references_iff.mp member)

theorem describe_of_references {text : Text} (none : references text = []) (catalog : Catalog) :
    describe catalog text = .ok text := by
  have pieces : (Piece.ofText text).mapM (describePiece catalog) =
      .ok ((Piece.ofText text).map (Piece.filled Reference.text)) :=
    Piece.mapM_filled (fun _ => rfl) fun reference member => by
      have impossible : reference ∈ references text := Piece.mem_references_iff.mpr member
      rw [none] at impossible
      cases impossible
  rw [describe, pieces, Piece.filled_text]
  change Except.ok (List.map Piece.text (Piece.ofText text)).flatten = _
  rw [← List.flatMap_def, ← Piece.eq_of_ofText rfl]

/-- The description of a formula is the formula with names in place of its references. A reference
that is read in it holds an end of a name: it is part neither of a name nor of what the formula has
between its references. A description in which no such reference comes about is described by
itself. -/
theorem describe_seams {catalog : Catalog} {formula description : Text}
    (described : describe catalog formula = .ok description) :
    ∃ name : Reference → Text, (∀ reference ∈ references formula, describeReference catalog
          reference = .ok (name reference)) ∧
      description = (Piece.ofText formula).flatMap (Piece.filled name) ∧
      (∀ place reference, (place, reference) ∈ Piece.located 0 (Piece.ofText description) →
        ∃ seam ∈ nameEnds name 0 (Piece.ofText formula), place < seam ∧
          seam < place + reference.text.length) ∧
      (references description = [] → ∀ other, describe other description = .ok description) := by
  obtain ⟨texts, ran, same⟩ := bind_eq_ok_iff.mp described
  cases same
  let name : Reference → Text :=
    fun reference => (describeReference catalog reference).toOption.getD []
  have names : ∀ reference ∈ references formula, describeReference catalog reference =
      .ok (name reference) := by
    intro reference member
    obtain ⟨text, read⟩ := exists_name_of_describe described member
    rw [read]
    simp [name, read, Except.toOption]
  have whole : texts.flatten = (Piece.ofText formula).flatMap (Piece.filled name) := by
    rw [Piece.mapM_filled (fun _ => rfl)
      fun found member => names found (Piece.mem_references_iff.mpr member)] at ran
    rw [← Except.ok.inj ran, List.flatMap_def]
  refine ⟨name, names, whole, fun place reference member => ?_, fun none other => ?_⟩
  · by_contra none
    push Not at none
    obtain ⟨lead, rest, shape, same, legible, fresh⟩ := Piece.exists_of_mem_located member
    obtain ⟨stretch, within, before, inner, after, rfl, rfl⟩ :=
      exists_stretch 0 (show [] ++ _ = _ from whole.symm.trans shape) fun seam member => by
        have apart := none seam member
        omega
    have none : Silent Reference.read? false [] formula := trivial
    refine references_ne_nil legible (fun word => fresh ?_) (references_stretch
      (fun reference member => references_of_describeReference (names reference member)) none rfl _
      within)
    rw [Text.endsWord_append]
    exact Text.endsWord_of_false word _
  · exact describe_of_references none other

/-- The reference that is read in the description begins in front of the name and ends behind it. -/
theorem describe_seams_braces :
    let catalog : Catalog := { dataElements := [⟨['b'], "Population".toList⟩] }
    let found : Reference := ⟨.constant, ["Population".toList]⟩
    describe catalog "C{#{b}}".toList = .ok "C{Population}".toList ∧
      Piece.located 0 (Piece.ofText "C{Population}".toList) = [(0, found)] ∧
      found.text.length = 13 ∧
      nameEnds (fun _ => "Population".toList) 0 (Piece.ofText "C{#{b}}".toList) = [2, 12] ∧
      ∃ seam ∈ [2, 12], 0 < seam ∧ seam < 0 + found.text.length := by
  intro catalog found
  have described : describe catalog "C{#{b}}".toList = .ok "C{Population}".toList := by
    decide +kernel
  have located : Piece.located 0 (Piece.ofText "C{Population}".toList) = [(0, found)] := by
    decide +kernel
  have pieces : Piece.ofText "C{#{b}}".toList = [.plain 'C', .plain '\x7b',
      .reference ⟨.dataElementOperand, [['b']]⟩, .plain '\x7d'] := by decide +kernel
  obtain ⟨name, names, -, seams, -⟩ := describe_seams described
  have named : name ⟨.dataElementOperand, [['b']]⟩ = "Population".toList :=
    Except.ok.inj ((names _ (by decide +kernel)).symm.trans (by decide +kernel))
  have ends : nameEnds name 0 (Piece.ofText "C{#{b}}".toList) = [2, 12] := by
    rw [pieces]
    simp [nameEnds, named]
  have crossed := seams 0 found (located ▸ List.mem_singleton_self _)
  rw [ends] at crossed
  exact ⟨described, located, by decide, by decide +kernel, crossed⟩

/-- A name in the braces of a formula makes a reference with them, so the description of the
description is another one. -/
theorem describe_describe_ne :
    describe
        { dataElements := [⟨['b'], "Population".toList⟩]
          constants := [⟨⟨"Population".toList, "Head count".toList⟩, .ofInt 1⟩] }
        "C{#{b}}".toList = .ok "C{Population}".toList ∧
      references "C{Population}".toList = [⟨.constant, ["Population".toList]⟩] ∧
      describe
        { dataElements := [⟨['b'], "Population".toList⟩]
          constants := [⟨⟨"Population".toList, "Head count".toList⟩, .ofInt 1⟩] }
        "C{Population}".toList = .ok "Head count".toList := by
  decide +kernel

-- Valid formulas are no exception: a list of one item is described as the number of days.
example :
    validateIndicator { dataElements := [⟨['a'], "days".toList⟩] } "IF([#{a}], 1, 2)".toList =
        .ok .valid ∧
      describe { dataElements := [⟨['a'], "days".toList⟩] } "IF([#{a}], 1, 2)".toList =
        .ok "IF([days], 1, 2)".toList := by
  decide +kernel

end IndicatorFormula
