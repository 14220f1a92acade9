import IndicatorFormula.Proofs.Substitution.Soundness
import IndicatorFormula.Substitution.Extraction

/-! Samples in place of the arguments of aggregate functions.

Samples are written as a list in brackets. With it in place of its argument, whatever that was, an
aggregate function still is a call, and the list is one operand, so a valid formula stays
well-formed if its aggregate functions take samples alone. -/

set_option autoImplicit false
namespace IndicatorFormula

namespace Segment

variable {kept : Text → Prop} {segments more : List Segment} {x : Number} {xs : List Number}

def ofNumber (x : Number) : List Segment :=
  match x.toDouble with
  | .ok (.finite negative m) => ofMagnitude negative m
  | _ => []

def furtherSamples : List Number → List Segment
  | [] => [.symbol (.closing .square)]
  | x :: rest => .symbol .comma :: .blank ' ' :: (ofNumber x ++ furtherSamples rest)

def ofSamples : List Number → List Segment
  | [] => [.symbol (.opening .square), .symbol (.closing .square)]
  | x :: rest => .symbol (.opening .square) :: (ofNumber x ++ furtherSamples rest)

theorem ofNumber_eq (finite : x.IsFinite) :
    ∃ negative m, ofNumber x = ofMagnitude negative m ∧
      x.literal = .ok ((ofNumber x).flatMap text) := by
  obtain ⟨negative, m, value⟩ := finite
  have same : ofNumber x = ofMagnitude negative m := by rw [ofNumber, value]
  exact ⟨negative, m, same, by rw [same, literal_eq value]⟩

theorem text_furtherSamples (x : Number) (rest : List Number) :
    Text.join [',', ' '] ((x :: rest).map fun x => (ofNumber x).flatMap text) ++ [']'] =
      (ofNumber x ++ furtherSamples rest).flatMap text := by
  induction rest generalizing x with
  | nil => simp [Text.join, List.intercalate_singleton, furtherSamples, text, Symbol.text]
  | cons y rest ih =>
    have later := ih y
    rw [List.map_cons] at later
    rw [List.map_cons, List.map_cons, Text.join, List.intercalate_cons_cons, ← Text.join,
      List.append_assoc, later]
    simp [furtherSamples, text, Symbol.text]

theorem sampleList_eq {samples : List (Option Number)}
    (finite : ∀ x ∈ samples.filterMap id, x.IsFinite) :
    sampleList samples = .ok ((ofSamples (samples.filterMap id)).flatMap text) := by
  unfold sampleList
  generalize samples.filterMap id = xs at finite ⊢
  have literals : xs.mapM Number.literal = .ok (xs.map fun x => (ofNumber x).flatMap text) := by
    induction xs with
    | nil => rfl
    | cons x xs ih =>
      obtain ⟨first, rest⟩ := List.forall_mem_cons.mp finite
      obtain ⟨-, -, -, literal⟩ := ofNumber_eq first
      rw [List.mapM_cons, literal, ih rest]
      rfl
  rw [literals]
  cases xs with
  | nil => rfl
  | cons x rest =>
    have whole := text_furtherSamples x rest
    change Except.ok ('[' ::
        (Text.join [',', ' '] ((x :: rest).map fun x => (ofNumber x).flatMap text) ++ [']'])) = _
    rw [whole]
    rfl

theorem apart_of_quiet {sign : Symbol} (opens : (Segment.symbol sign).closes = false)
    (quiet : ∀ c, sign.text = [c] → ∀ d, Symbol.ofPair? c d = none) (next : Segment) :
    Apart (.symbol sign) next := by
  refine ⟨fun closes => ?_, ?_⟩
  · rw [opens] at closes
    cases closes
  · rintro sign' other ⟨⟩ - c single d -
    exact quiet c single d

theorem apart_before_closing (before : Segment) (bracket : Bracket) :
    Apart before (.symbol (.closing bracket)) := by
  refine ⟨fun _ => rfl, ?_⟩
  rintro sign other - ⟨⟩ c - d found
  refine ofPair?_eq_none c ?_
  cases bracket <;> cases found <;> decide

theorem Regular.number_append (finite : x.IsFinite) (regular : Regular more)
    (plain : ∀ next ∈ more.head?, next.isOperand = false) : Regular (ofNumber x ++ more) := by
  obtain ⟨negative, m, same, -⟩ := ofNumber_eq finite
  have fits : Fits (.reference [] ⟨.days, []⟩ []) (ofNumber x) := same ▸ fits_ofMagnitude negative m
  refine fits.regular.append regular
    fun last ends next begins => fits.last next ⟨fun _ => plain next begins, nofun⟩ last ends

theorem regular_furtherSamples (finite : ∀ x ∈ xs, x.IsFinite) :
    Regular (furtherSamples xs) ∧ ∀ next ∈ (furtherSamples xs).head?, next.isOperand = false := by
  induction xs with
  | nil => exact ⟨⟨by simpa [furtherSamples] using .symbol _, .singleton _⟩, by rintro next ⟨⟩; rfl⟩
  | cons x rest ih =>
    obtain ⟨first, rest⟩ := List.forall_mem_cons.mp finite
    obtain ⟨regular, plain⟩ := ih rest
    -- A comma and a blank come before each sample.
    refine ⟨.cons (.symbol _) ?_
        (.cons (.blank (by decide)) ?_ (regular.number_append first plain)), by rintro next ⟨⟩; rfl⟩
    · exact fun next _ => apart_of_quiet rfl (by rintro c ⟨⟩ d; rfl) next
    · exact fun next _ => ⟨(fun impossible => nomatch impossible), nofun⟩

theorem regular_ofSamples (finite : ∀ x ∈ xs, x.IsFinite) : Regular (ofSamples xs) := by
  have opening (next : Segment) : Apart (.symbol (.opening .square)) next :=
    apart_of_quiet rfl (by rintro c ⟨⟩ d; rfl) next
  cases xs with
  | nil => exact .cons (.symbol _) (fun next _ => opening next) (@regular_furtherSamples [] nofun).1
  | cons x rest =>
    obtain ⟨first, rest⟩ := List.forall_mem_cons.mp finite
    obtain ⟨regular, plain⟩ := regular_furtherSamples rest
    exact .cons (.symbol _) (fun next _ => opening next) (regular.number_append first plain)

theorem exists_signed_further (first : x.IsFinite) (finite : ∀ x ∈ xs, x.IsFinite) :
    ∃ trees : List Expr, (∀ tree ∈ trees, tree.IsSigned) ∧
      ∀ frames items empty, Parser.read (.operand (.list items :: frames) empty)
          ((ofNumber x ++ furtherSamples xs).flatMap lexemes) =
        .ok (.operator frames (.list (items ++ trees))) := by
  induction xs generalizing x with
  | nil =>
    obtain ⟨negative, m, same, -⟩ := ofNumber_eq first
    obtain ⟨tree, signed, reads⟩ := exists_signed_magnitude negative m
    refine ⟨[tree], by simpa using signed, fun frames items empty => ?_⟩
    rw [List.flatMap_append, Parser.read_append, same, reads]
    rfl
  -- The list of items that is open takes in the first one, and the rest goes into the larger list.
  | cons y xs ih =>
    obtain ⟨second, finite⟩ := List.forall_mem_cons.mp finite
    obtain ⟨negative, m, same, -⟩ := ofNumber_eq first
    obtain ⟨tree, signed, reads⟩ := exists_signed_magnitude negative m
    obtain ⟨trees, signed', reads'⟩ := ih second finite
    refine ⟨tree :: trees, List.forall_mem_cons.mpr ⟨signed, signed'⟩, fun frames items empty => ?_⟩
    rw [List.flatMap_append, Parser.read_append, same, reads, List.append_cons,
      ← reads' frames (items ++ [tree]) false]
    rfl

theorem exists_signed_samples (finite : ∀ x ∈ xs, x.IsFinite) :
    ∃ trees : List Expr, (∀ tree ∈ trees, tree.IsSigned) ∧
      Parser.ReadsAs (.list trees) ((ofSamples xs).flatMap lexemes) := by
  cases xs with
  | nil => exact ⟨[], nofun, fun frames empty => rfl⟩
  | cons x xs =>
    obtain ⟨first, finite⟩ := List.forall_mem_cons.mp finite
    obtain ⟨trees, signed, reads⟩ := exists_signed_further first finite
    exact ⟨trees, signed, fun frames empty => reads frames [] true⟩

def isFixed : Segment → Bool
  | .blank _ | .number .. | .symbol _ => true
  | _ => false

theorem isFixed_ofNumber (x : Number) : ∀ segment ∈ ofNumber x, segment.isFixed = true := by
  unfold ofNumber
  split
  · rename_i negative m value
    cases negative <;> simp [ofMagnitude, isFixed]
  · simp

theorem isFixed_furtherSamples (xs : List Number) :
    ∀ segment ∈ furtherSamples xs, segment.isFixed = true := by
  induction xs with
  | nil => simp [furtherSamples, isFixed]
  | cons x xs ih =>
    simp only [furtherSamples, List.forall_mem_cons, List.forall_mem_append]
    exact ⟨rfl, rfl, isFixed_ofNumber x, ih⟩

theorem isFixed_ofSamples (xs : List Number) :
    ∀ segment ∈ ofSamples xs, segment.isFixed = true := by
  cases xs with
  | nil => simp [ofSamples, isFixed]
  | cons x xs =>
    simp only [ofSamples, List.forall_mem_cons, List.forall_mem_append]
    exact ⟨rfl, isFixed_ofNumber x, isFixed_furtherSamples xs⟩

theorem heldLexemes_ofSamples (xs : List Number) :
    heldLexemes (ofSamples xs) = (ofSamples xs).flatMap lexemes := by
  rw [heldLexemes, List.map_map, List.flatMap_map]
  refine List.flatMap_congr fun segment member => ?_
  have fixed := isFixed_ofSamples xs segment member
  cases segment <;> first | rfl | cases fixed

theorem balanced_ofSamples (finite : ∀ x ∈ xs, x.IsFinite) : Balanced nesting (ofSamples xs) := by
  obtain ⟨trees, -, reads⟩ := exists_signed_samples finite
  have tree : Parser.tree (heldLexemes (ofSamples xs)) = .ok (.list trees) := by
    rw [heldLexemes_ofSamples, Parser.tree, Parser.complete, reads]
    rfl
  intro depth
  rw [← depth?_heldLexemes, balanced_of_tree tree depth]

end Segment

open Segment (text nesting lexemes Regular Named heldLexemes ofSamples)

variable {table : Samples} {formula : Text} {parts : List Part}

def Samples.present (table : Samples) (argument : Text) : List Number :=
  ((table.lookup argument).getD []).filterMap id

def Samples.Finite (table : Samples) : Prop :=
  ∀ entry ∈ table, ∀ sample ∈ entry.2, ∀ x ∈ sample, x.IsFinite

instance (table : Samples) : Decidable table.Finite :=
  inferInstanceAs (Decidable (∀ entry ∈ table, ∀ sample ∈ entry.2, ∀ x ∈ sample, x.IsFinite))

theorem Samples.Finite.present (finite : table.Finite) (argument : Text) :
    ∀ x ∈ table.present argument, x.IsFinite := by
  intro x member
  obtain ⟨sample, member, rfl⟩ := List.mem_filterMap.mp member
  cases found : table.lookup argument with
  | none => simp [found] at member
  | some samples =>
    simp only [found, Option.getD_some] at member
    exact finite _ (mem_of_lookup found) _ member x rfl

def CallPiece.TakesSamples : CallPiece → Prop
  | .call head _ _ => IndicatorFormula.TakesSamples head.capitalized.name
  | _ => True

instance (piece : CallPiece) : Decidable piece.TakesSamples :=
  match piece with
  | .call head _ _ => inferInstanceAs (Decidable (∃ function ∈ Builtin.aggregates,
      function.name = head.capitalized.name ∧ function ≠ .percentile ∧ function ≠ .rank))
  | .plain _ => .isTrue trivial
  | .unclosed _ => .isTrue trivial

namespace Part

def sampled (table : Samples) : Part → Part
  | .plain segment => .plain segment
  | .call function head argument bracket =>
    .call function head.capitalized (ofSamples (table.present (argument.flatMap text))) bracket

def HasSamples (table : Samples) : Part → Prop
  | .plain _ => True
  | .call _ _ argument _ =>
    (argument.flatMap text).head? ≠ some '<' ∧ (table.lookup (argument.flatMap text)).isSome = true

theorem regular_sampled (finite : table.Finite) {part : Part} (regular : Regular part.segments) :
    Regular (part.sampled table).segments := by
  cases part with
  | plain segment => exact regular
  | call function head argument bracket =>
    have samples := Segment.regular_ofSamples (finite.present (argument.flatMap text))
    cases regular.formed _ List.mem_cons_self with
    | call calls =>
    refine .cons (.call calls.capitalized)
      (fun next _ => ⟨(fun impossible => nomatch impossible), nofun⟩) ?_
    refine samples.append (.cons (.symbol _) nofun ⟨nofun, .nil⟩) fun last _ next begins => ?_
    cases begins
    exact Segment.apart_before_closing last bracket

theorem replaces_sampled (finite : table.Finite) (part : Part) (regular : Regular part.segments) :
    Segment.Replaces (part.sampled table).segments part.segments := by
  have sampled := regular_sampled finite regular
  cases part with
  -- Only calls change, and they end with the bracket that they ended with.
  | plain segment => exact Segment.replaces_self (segments_ne_nil (.plain segment)) regular
  | call function head argument bracket =>
    exact replaces_call sampled function head argument bracket

theorem balanced_sampled (finite : table.Finite) {part : Part} (cut : part.Cut aggregateFunctions)
    (depth : Nat) :
    depth? nesting depth (part.sampled table).segments = depth? nesting depth part.segments := by
  cases part with
  | plain segment => rfl
  | call function head argument bracket =>
    have samples := Segment.balanced_ofSamples (finite.present (argument.flatMap text))
    simp only [sampled, segments, List.cons_append]
    rw [depth?_opens rfl, depth?_opens rfl, samples.depth?_eq, cut.2.depth?_eq]

theorem regular_flatMap_sampled (regular : Regular (parts.flatMap segments))
    (finite : table.Finite) : Regular ((parts.map (sampled table)).flatMap segments) := by
  rw [List.flatMap_map]
  exact regular.replace fun part _ => ⟨part.segments_ne_nil, part.replaces_sampled finite⟩

theorem balanced_flatMap_sampled (balanced : Balanced nesting (parts.flatMap segments))
    (cut : ∀ part ∈ parts, part.Cut aggregateFunctions) (finite : table.Finite) :
    Balanced nesting ((parts.map (sampled table)).flatMap segments) := by
  intro depth
  rw [List.flatMap_map,
    depth?_flatMap_congr fun part member => balanced_sampled finite (cut part member)]
  exact balanced depth

theorem exchange_sampled {kept : Text → Prop} (truth : ∀ value, kept (truthLiteral value))
    (keeps : ∀ function, function ∉ aggregateFunctions → kept function.name) (finite : table.Finite)
    {part : Part} (cut : part.Cut aggregateFunctions) (regular : Regular part.segments)
    (named : Named (fun _ => True) part.segments)
    (takes : ∀ piece ∈ part.pieces, piece.TakesSamples) :
    Parser.LexemesExchange kept (heldLexemes part.segments)
      (heldLexemes (part.sampled table).segments) := by
  cases part with
  -- What is no aggregate function is kept, lexeme by lexeme.
  | plain segment =>
    refine Parser.exchange_self fun name member => ?_
    have member : .identifier name ∈ segment.held.capitalized.lexemes := by
      simpa [segments, heldLexemes] using member
    cases segment with
    | boolean value =>
      cases List.mem_singleton.mp member
      exact truth value
    | call function head =>
      obtain ⟨same, -⟩ := named function head List.mem_cons_self
      have first : name = head.capitalized.name := by
        simpa [Segment.held, Segment.capitalized, lexemes] using member
      rw [first, same]
      exact keeps function (cut function head rfl)
    | blank | number | symbol | reference =>
      simp [Segment.held, Segment.capitalized, lexemes] at member
  | call function head argument bracket =>
    obtain ⟨trees, signed, reads⟩ :=
      Segment.exists_signed_samples (finite.present (argument.flatMap text))
    cases regular.formed _ List.mem_cons_self with
    | call calls =>
    have name : head.capitalized.capitalized.name = head.capitalized.name := by
      rw [CallHead.capitalized_capitalized]
    rw [heldLexemes_call, sampled, heldLexemes_call, name, Segment.heldLexemes_ofSamples]
    exact .aggregate (takes _ List.mem_cons_self) (Segment.balanced_heldLexemes cut.2) bracket
      signed reads .nil

end Part

def CallPiece.sampledText (table : Samples) : CallPiece → Text
  | .call head argument closer =>
    head.capitalized.text ++ (ofSamples (table.present argument)).flatMap Segment.text ++ [closer]
  | piece => piece.text

theorem samplePiece_call (finite : table.Finite) (head : CallHead) {argument : Text}
    (taken : argument.head? ≠ some '<') (closer : Char) :
    samplePiece (some table) (.call head argument closer) =
      .ok ((CallPiece.call head argument closer).sampledText table) := by
  have listed : sampleList ((table.lookup argument).getD []) =
      .ok ((ofSamples (table.present argument)).flatMap text) :=
    Segment.sampleList_eq (finite.present argument)
  simp only [samplePiece, sampledArgument, if_neg taken, listed]
  rfl

theorem substituteSamples_unless
    (pieces : CallPiece.ofText aggregateFunctions formula = parts.flatMap Part.pieces)
    (finite : table.Finite)
    (taken : ∀ function head argument bracket, .call function head argument bracket ∈ parts →
      (argument.flatMap text).head? ≠ some '<') (strategy : Strategy) (strict : Bool) :
    substituteSamples formula (some table) strategy strict =
      pure (if decide (strategy = .skipIfAnyMissing) &&
          (parts.flatMap Part.pieces).any (lacksSamples (some table)) then none
        else some (((parts.map (Part.sampled table)).flatMap Part.segments).flatMap text)) := by
  have each : ∀ piece ∈ parts.flatMap Part.pieces, (∀ head, piece ≠ .unclosed head) ∧
      samplePiece (some table) piece = .ok (piece.sampledText table) := by
    intro piece member
    obtain ⟨part, within, found⟩ := List.mem_flatMap.mp member
    cases part with
    | plain segment =>
      obtain ⟨c, -, rfl⟩ := List.mem_map.mp found
      exact ⟨nofun, rfl⟩
    | call function head argument bracket =>
      cases List.mem_singleton.mp found
      exact ⟨nofun, samplePiece_call finite _ (taken _ _ _ _ within) _⟩
  have written : (parts.flatMap Part.pieces).flatMap (CallPiece.sampledText table) =
      ((parts.map (Part.sampled table)).flatMap Part.segments).flatMap text := by
    rw [List.flatMap_assoc, List.flatMap_map, List.flatMap_assoc]
    refine List.flatMap_congr fun part _ => ?_
    cases part with
    | plain segment =>
      simp [Part.pieces, Part.sampled, Part.segments, List.flatMap_map, CallPiece.sampledText,
        CallPiece.text]
    | call function head argument bracket =>
      simp [Part.pieces, Part.sampled, Part.segments, CallPiece.sampledText, text,
        Bracket.text_closing]
  rw [substituteSamples, pieces, samplePieces_of_closed each, written]

theorem substituteSamples_parts
    (pieces : CallPiece.ofText aggregateFunctions formula = parts.flatMap Part.pieces)
    (finite : table.Finite) (supplied : ∀ part ∈ parts, part.HasSamples table) (strategy : Strategy)
    (strict : Bool) :
    substituteSamples formula (some table) strategy strict =
      pure (some (((parts.map (Part.sampled table)).flatMap Part.segments).flatMap text)) := by
  have none : (parts.flatMap Part.pieces).any (lacksSamples (some table)) = false := by
    refine List.any_eq_false.mpr fun piece member => ?_
    obtain ⟨part, within, found⟩ := List.mem_flatMap.mp member
    cases part with
    | plain segment =>
      obtain ⟨c, -, rfl⟩ := List.mem_map.mp found
      exact Bool.false_ne_true
    | call function head argument bracket =>
      cases List.mem_singleton.mp found
      obtain ⟨samples, present⟩ := Option.isSome_iff_exists.mp (supplied _ within).2
      simp [lacksSamples, present]
  rw [substituteSamples_unless pieces finite (fun _ _ _ _ within => (supplied _ within).1), none,
    Bool.and_false]
  rfl

namespace Part

theorem mem_sampled {segment : Segment}
    (member : segment ∈ (parts.map (sampled table)).flatMap segments)
    (other : segment.isFixed = false) :
    (∃ function head, segment = .call function head.capitalized ∧
        .call function head ∈ parts.flatMap segments) ∨ segment ∈ parts.flatMap segments := by
  rw [List.flatMap_map] at member
  obtain ⟨part, within, member⟩ := List.mem_flatMap.mp member
  cases part with
  | plain segment => exact .inr (List.mem_flatMap.mpr ⟨_, within, member⟩)
  | call function head argument bracket =>
    simp only [sampled, segments, List.cons_append, List.mem_cons, List.mem_append,
      List.not_mem_nil, or_false] at member
    rcases member with rfl | member | rfl
    · exact .inl ⟨function, head, rfl, List.mem_flatMap.mpr ⟨_, within, List.mem_cons_self⟩⟩
    · rw [Segment.isFixed_ofSamples _ _ member] at other
      cases other
    · cases other

theorem reference_mem_sampled {lead tail : Text} {reference : Reference}
    (member : .reference lead reference tail ∈ (parts.map (sampled table)).flatMap segments) :
    .reference lead reference tail ∈ parts.flatMap segments := by
  rcases mem_sampled member rfl with ⟨function, head, impossible, -⟩ | member
  · cases impossible
  · exact member

theorem named_sampled (named : Named (fun _ => True) (parts.flatMap segments)) :
    Named (fun _ => True) ((parts.map (sampled table)).flatMap segments) := by
  intro function head member
  rcases mem_sampled member rfl with ⟨function', former, same, found⟩ | found
  · cases same
    refine ⟨?_, trivial⟩
    rw [← (named function former found).1, CallHead.capitalized_capitalized]
  · exact named function head found

theorem exchange_sampled_flatMap (regular : Regular (parts.flatMap segments))
    (named : Named (fun _ => True) (parts.flatMap segments))
    (cut : ∀ part ∈ parts, part.Cut aggregateFunctions)
    (takes : ∀ piece ∈ parts.flatMap pieces, piece.TakesSamples) (finite : table.Finite) :
    Parser.LexemesExchange (fun name => ¬ IsSampled name) (heldLexemes (parts.flatMap segments))
      (heldLexemes ((parts.map (sampled table)).flatMap segments)) := by
  have plain : ∀ function ∈ Builtin.all, function ∉ aggregateFunctions →
      ¬ IsSampled function.name := by
    decide
  rw [List.flatMap_map, Segment.heldLexemes_flatMap, Segment.heldLexemes_flatMap]
  refine Parser.exchange_flatMap fun part member => ?_
  have within : part.segments ⊆ parts.flatMap segments :=
    fun segment found => List.mem_flatMap.mpr ⟨part, member, found⟩
  exact exchange_sampled not_isSampled_truthLiteral
      (fun function other => plain function (mem_all function) other) finite (cut part member)
      (regular_segments regular member) (named.subset within) fun piece found =>
      takes piece (List.mem_flatMap.mpr ⟨part, member, found⟩)

/-- No argument of a valid formula begins with an operator, so samples replace it. -/
theorem head_argument {functions : List Builtin}
    (valid : Segment.Valid functions (parts.flatMap segments)) {function : Builtin}
    {head : CallHead} {argument : List Segment} {bracket : Bracket}
    (member : .call function head argument bracket ∈ parts) :
    (argument.flatMap text).head? ≠ some '<' := by
  intro begins
  have formed := (regular_argument valid.regular member).formed
  obtain ⟨before, behind, rfl⟩ := List.append_of_mem member
  simp only [List.flatMap_append, List.flatMap_cons, segments, List.cons_append,
    List.append_assoc] at valid
  -- If the argument began so then the symbol would be an operator.
  cases argument with
  | nil => cases begins
  | cons segment argument =>
    obtain ⟨c, rest, shape, isSymbol⟩ := (formed segment List.mem_cons_self).head
    rw [List.flatMap_cons, shape] at begins
    cases begins
    obtain ⟨-, sign, rfl⟩ := isSymbol (by decide)
    -- Such a symbol is an operator, and an operand is expected where it is.
    obtain ⟨tree, frames, -, called⟩ := valid.complete_call
    obtain ⟨_, taken, -⟩ := bind_eq_ok_iff.mp called
    obtain ⟨_, step, -⟩ := bind_eq_ok_iff.mp taken
    have shape : sign.text = '<' :: rest := shape
    cases sign with
    | opening bracket | closing bracket => cases bracket <;> cases shape
    | operator operator =>
      have least : operator = .lt ∨ operator = .le := by
        cases operator <;> first | exact .inl rfl | exact .inr rfl | cases shape
      rcases least with rfl | rfl <;> cases step
    | comma | not => cases shape

theorem missing_of_valued {hasValue : Text → Bool} (regular : Regular (parts.flatMap segments))
    (valued : ∀ lead reference tail, .reference lead reference tail ∈ parts.flatMap segments →
      reference.isDimensional = true → hasValue reference.key = true) :
    parts.filterMap (missingArgument? hasValue) = [] := by
  refine List.eq_nil_iff_forall_not_mem.mpr fun replaced member => ?_
  obtain ⟨function, head, argument, bracket, reference, within, -, dimensional, ⟨lead, tail, found⟩,
    absent, -⟩ :=
    of_mem_missing regular member
  rw [valued lead reference tail (argument_subset within found) dimensional] at absent
  cases absent

end Part

open Segment (Alone filled)

variable {inputs : Inputs}

theorem fillSampled_valued
    (pieces : CallPiece.ofText nullTest ((parts.flatMap Part.segments).flatMap text) =
      parts.flatMap Part.pieces) (regular : Regular (parts.flatMap Part.segments))
    (alone : Alone (parts.flatMap Part.segments)) (finite : inputs.supply.Finite)
    (valued : ∀ lead reference tail, .reference lead reference tail ∈ parts.flatMap Part.segments →
      (inputs.supply.number? reference).isSome = true) (strict : Bool) :
    ∃ filling, fillSampled .neverSkip inputs strict ((parts.flatMap Part.segments).flatMap text) =
        pure filling ∧
      filling.result =
        .text ((((parts.flatMap
                (Part.tested fun key => (inputs.supply.values.lookup key).isSome)).map
              Segment.capitalized).flatMap (filled inputs.supply)).flatMap text) := by
  have missing : parts.filterMap
        (Part.missingArgument? fun key => (inputs.supply.values.lookup key).isSome) = [] := by
    refine Part.missing_of_valued regular fun lead reference tail member dimensional => ?_
    rw [← inputs.supply.number?_of_isDimensional dimensional]
    exact valued lead reference tail member
  have tested : Regular
      (parts.flatMap (Part.tested fun key => (inputs.supply.values.lookup key).isSome)) :=
    regular.replace fun part _ => ⟨part.segments_ne_nil, part.replaces_tested _⟩
  obtain ⟨filling, filled, result⟩ :=
    fillPieces_eq (((parts.flatMap
          (Part.tested fun key => (inputs.supply.values.lookup key).isSome)).map
        Segment.capitalized).flatMap Segment.pieces)
      fun reference _ => Segment.literalOrZero_eq finite reference
  refine ⟨filling, ?_, ?_⟩
  · unfold fillSampled
    simp only [substituteNullTests_parts pieces, pure_bind, missing]
    change (Traced.ofExcept
          ((fillPieces inputs.supply false (Piece.ofText (capitalizeCalls _))).mapError .fault) >>=
        pure) = _
    rw [bind_pure, replaceAll, List.foldl_nil, tested.capitalizeCalls, tested.capitalized.ofText,
      filled]
    rfl
  · rw [result, Segment.flatMap_filled (Part.alone_tested alone)]

theorem mem_aggregates
    (pieces : CallPiece.ofText aggregateFunctions formula = parts.flatMap Part.pieces) :
    ∃ split, (splitAggregates formula).outcome = .ok split ∧
      ∀ function head argument bracket, .call function head argument bracket ∈ parts →
        argument.flatMap text ∈ split.aggregates := by
  have closed := passOverUnclosed_closed false formula 0 (Part.closed parts)
  refine ⟨_, by rw [splitAggregates, pieces]; simp only [closed, pure_bind]; rfl,
    fun function head argument bracket member => ?_⟩
  simp only
  rw [List.mem_eraseDups]
  exact List.mem_filterMap.mpr ⟨.call head (argument.flatMap text) bracket.closer,
    List.mem_flatMap.mpr ⟨_, member, List.mem_singleton.mpr rfl⟩, rfl⟩

/-- Every aggregate function of a formula takes samples alone, unless it is in the argument of
another one. -/
def SamplesSuffice (formula : Text) : Prop :=
  ∀ piece ∈ CallPiece.ofText aggregateFunctions formula, piece.TakesSamples

instance (formula : Text) : Decidable (SamplesSuffice formula) :=
  inferInstanceAs
    (Decidable (∀ piece ∈ CallPiece.ofText aggregateFunctions formula, piece.TakesSamples))

/-- A valid formula stays well-formed with samples in place of all arguments of aggregate functions
and numbers in place of all references. -/
theorem exists_sampled {functions : List Builtin}
    (valid : Segment.Valid functions (parts.flatMap Part.segments))
    (cut : ∀ part ∈ parts, part.Cut aggregateFunctions)
    (pieces : CallPiece.ofText aggregateFunctions ((parts.flatMap Part.segments).flatMap text) =
      parts.flatMap Part.pieces)
    (alone : ReferencesAlone ((parts.flatMap Part.segments).flatMap text))
    (definite : isDefinite ((parts.flatMap Part.segments).flatMap text) = true)
    (takes : SamplesSuffice ((parts.flatMap Part.segments).flatMap text)) (finite : table.Finite)
    (numbers : inputs.supply.Finite)
    (valued : ∀ reference ∈ references ((parts.flatMap Part.segments).flatMap text),
      (inputs.supply.number? reference).isSome = true) (strict : Bool) :
    ∃ filling others, fillSampled .neverSkip inputs strict
          (((parts.map (Part.sampled table)).flatMap Part.segments).flatMap text) = pure filling ∧
      filling.result = .text others ∧
      Evaluates (fun value => value.isList = false) (evaluate Builtin.all others) := by
  have regular := Part.regular_flatMap_sampled valid.regular finite
  have named : Named (fun _ => True) (parts.flatMap Part.segments) := fun function head member =>
    ⟨valid.name_capitalized member, trivial⟩
  -- Operands are exchanged twice: samples come first, then numbers and the results of tests.
  have samples := Part.exchange_sampled_flatMap valid.regular named cut (pieces ▸ takes) finite
  have balanced := Part.balanced_flatMap_sampled valid.balanced cut finite
  have named' : Named (fun _ => True) ((parts.map (Part.sampled table)).flatMap Part.segments) :=
    Part.named_sampled named
  have alone' : Alone ((parts.map (Part.sampled table)).flatMap Part.segments) :=
    fun lead found tail member =>
    valid.regular.alone alone lead found tail (Part.reference_mem_sampled member)
  have valued' : ∀ lead reference tail,
      .reference lead reference tail ∈ (parts.map (Part.sampled table)).flatMap Part.segments →
      (inputs.supply.number? reference).isSome = true := fun lead reference tail member =>
    valued reference
      (valid.regular.mem_references.mpr ⟨lead, tail, Part.reference_mem_sampled member⟩)
  obtain ⟨tests, shape, cut', pieces'⟩ := regular.parts nullTest balanced
  rw [shape] at regular samples pieces' named' alone' valued' ⊢
  obtain ⟨filling, filled, result⟩ :=
    fillSampled_valued pieces' regular alone' numbers valued' strict
  refine ⟨filling, _, filled, result, ?_⟩
  have tested : Regular
      (tests.flatMap (Part.tested fun key => (inputs.supply.values.lookup key).isSome)) :=
    regular.replace fun part _ => ⟨part.segments_ne_nil, part.replaces_tested _⟩
  have regular' := tested.capitalized.flatMap fun segment member =>
    Segment.fits_filled numbers (tested.capitalized.formed segment member)
  refine valid.evaluates definite (fun _ plain => plain)
    (regular'.lexes fun _ _ _ => Segment.reference_not_mem_filled _) fun tree reads => ?_
  obtain ⟨middle, reads, first⟩ := Parser.tree_exchanges samples reads
  obtain ⟨last, reads, second⟩ := Parser.tree_exchanges
    (exchange_tested (fun _ => trivial) numbers cut' named') reads
  exact ⟨last, reads, first.trans (fun _ plain => plain) second⟩

variable {catalog : Catalog} {settings : Settings}

/-- A formula that is valid for a predictor is well-formed when it is filled in with finite samples
for all its aggregate functions and finite numbers for all its references, if its references stand
alone, its aggregate functions take samples alone, and it is definite. -/
theorem formulaValue_sampled_wellFormed (valid : validatePredictor catalog formula = .ok .valid)
    (alone : ReferencesAlone formula) (takes : SamplesSuffice formula)
    (definite : isDefinite formula = true) (sampled : inputs.samples = some table)
    (supplied : ∀ split, (splitAggregates formula).outcome = .ok split →
      ∀ argument ∈ split.aggregates, (table.lookup argument).isSome = true) (finite : table.Finite)
    (valued : ∀ reference ∈ references formula, (inputs.supply.number? reference).isSome = true)
    (numbers : inputs.Finite) (error : FormulaError) :
    (formulaValue settings inputs true formula).outcome ≠ .error (.formula error) := by
  have accepted := accepted_of_validatePredictor valid
  have nonempty : formula.isEmpty = false := by simpa using accepted.value.1
  clear valid
  obtain ⟨segments, rfl, valid⟩ := accepted.segments
  obtain ⟨parts, rfl, cut, pieces⟩ := valid.regular.parts aggregateFunctions valid.balanced
  obtain ⟨split, reported, arguments⟩ := mem_aggregates pieces
  have has : ∀ part ∈ parts, part.HasSamples table := by
    intro part member
    cases part with
    | plain segment => trivial
    | call function head argument bracket =>
      exact ⟨Part.head_argument valid member,
        supplied split reported _ (arguments function head argument bracket member)⟩
  obtain ⟨filling, others, filled, result, evaluates⟩ :=
    exists_sampled valid cut pieces alone definite takes finite (Supply.finite_of_inputs numbers)
      valued true
  refine formulaValue_of_filled ?_ (calculate_of_evaluates evaluates settings true error)
  have never : fillUnder .neverSkip inputs true ((parts.flatMap Part.segments).flatMap text) =
      pure filling := by
    rw [fillUnder_eq, sampled, substituteSamples_parts pieces finite has, pure_bind]
    exact filled
  rw [fill, nonempty]
  change Returns _ _ (Traced.ofExcept (settings.strategy inputs.strategy) >>= fun strategy =>
    fillUnder strategy inputs true ((parts.flatMap Part.segments).flatMap text)).outcome
  rw [Traced.outcome_bind]
  cases chosen : settings.strategy inputs.strategy with
  | error failure =>
    rintro rfl
    exact strategy_ne_formula chosen
  | ok strategy =>
    change Returns _ _
      (fillUnder strategy inputs true ((parts.flatMap Part.segments).flatMap text)).outcome
    rcases fillUnder_stricter strategy inputs true ((parts.flatMap Part.segments).flatMap text) with
      ⟨_, outcome, skipped⟩ | same
    · rw [outcome]
      exact .inl skipped
    · rw [same, never]
      exact .inr result

theorem formulaValue_sampled_wellFormed_sum :
    validatePredictor { dataElements := [⟨['a'], ['A']⟩, ⟨['b'], ['B']⟩] }
        "sum(#{a} * 2) -#{b}".toList = .ok .valid ∧
      ∀ error, (formulaValue {}
        { values := [(.text ['a'], some (.int 2)), (.text ['b'], some (.int (-1)))]
          samples := some [("#{a} * 2".toList, [some (.int 1), none, some (.int (-2))])] } true
        "sum(#{a} * 2) -#{b}".toList).outcome ≠ .error (.formula error) := by
  have valid : validatePredictor { dataElements := [⟨['a'], ['A']⟩, ⟨['b'], ['B']⟩] }
        "sum(#{a} * 2) -#{b}".toList = .ok .valid := by
    decide +kernel
  refine ⟨valid,
    formulaValue_sampled_wellFormed valid (by decide +kernel) (by decide +kernel)
      (by decide +kernel) rfl ?_ (by decide +kernel) (by decide +kernel) ?_⟩
  · intro split reported
    have same : (splitAggregates "sum(#{a} * 2) -#{b}".toList).outcome =
        .ok ⟨["#{a} * 2".toList], [[], " -#{b}".toList]⟩ := by
      decide +kernel
    cases same.symm.trans reported
    decide +kernel
  · exact ⟨by decide +kernel, nofun, nofun, nofun⟩

/-- An aggregate function that takes more than samples has nothing but samples once they are in
place. -/
theorem formulaValue_percentile_of_samples :
    validatePredictor { dataElements := [⟨['a'], ['A']⟩] }
        "PERCENTILE(#{a}, 0.5)".toList = .ok .valid ∧
      (splitAggregates "PERCENTILE(#{a}, 0.5)".toList).outcome = .ok ⟨["#{a}, 0.5".toList], [[]]⟩ ∧
      (formulaValue {}
        { values := [(.text ['a'], some (.int 1))]
          samples :=
            some [("#{a}, 0.5".toList, [some (.int 1), some (.int 2), some (.int 3)])] } true
        "PERCENTILE(#{a}, 0.5)".toList).outcome =
          .error (.formula (.notWellFormed ⟨.invalidArguments "PERCENTILE".toList, some 0⟩
            "PERCENTILE([1.0, 2.0, 3.0])".toList)) := by
  decide +kernel

end IndicatorFormula
