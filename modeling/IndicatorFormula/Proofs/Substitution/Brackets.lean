import IndicatorFormula.Proofs.Substitution.Filling
import IndicatorFormula.Proofs.Substitution.Passes
import IndicatorFormula.Proofs.Substitution.Skipping

/-! Brackets on the way to a filled-in formula.

No pass opens or closes a bracket. What one takes out of a formula closes all that it opens, and so
does what it puts in its place, also where a call around it does not close. -/

set_option autoImplicit false
namespace IndicatorFormula

def NestedAlike (new old : Text) : Prop :=
  ∀ depth, depth? Text.nesting depth new = depth? Text.nesting depth old

namespace NestedAlike

variable {first second third fourth : Text}

theorem refl (text : Text) : NestedAlike text text :=
  fun _ => rfl

theorem trans (alike : NestedAlike first second) (alike' : NestedAlike second third) :
    NestedAlike first third :=
  fun depth => (alike depth).trans (alike' depth)

theorem append (alike : NestedAlike first second) (alike' : NestedAlike third fourth) :
    NestedAlike (first ++ third) (second ++ fourth) := by
  intro depth
  rw [depth?_append, depth?_append, alike depth]
  congr 1
  funext deeper
  exact alike' deeper

theorem of_balanced (balanced : Balanced Text.nesting first)
    (balanced' : Balanced Text.nesting second) : NestedAlike first second :=
  fun depth => (balanced depth).trans (balanced' depth).symm

theorem flatMap {α : Type} {items : List α} {new old : α → Text}
    (each : ∀ item ∈ items, NestedAlike (new item) (old item)) :
    NestedAlike (items.flatMap new) (items.flatMap old) :=
  fun depth => depth?_flatMap_congr each depth

theorem replace {old new : Text} (balanced : Balanced Text.nesting old)
    (balanced' : Balanced Text.nesting new) (text : Text) :
    NestedAlike (Text.replace old new text) text := by
  fun_induction Text.replace old new text with
  | case1 => exact refl _
  | case2 c rest behind found nonempty ih => exact (refl [c]).append ih
  | case3 c rest behind found nonempty ih =>
    rw [Text.after?_eq_some_iff.mp found]
    exact (of_balanced balanced' balanced).append ih
  | case4 c rest none ih => exact (refl [c]).append ih

theorem replaceAll {arguments : List Text}
    (balanced : ∀ argument ∈ arguments, Balanced Text.nesting argument) {new : Text}
    (balanced' : Balanced Text.nesting new) (text : Text) :
    NestedAlike (arguments.foldl (fun text argument => Text.replace argument new text) text)
      text := by
  induction arguments generalizing text with
  | nil => exact refl text
  | cons argument arguments ih =>
    have here := replace (balanced argument List.mem_cons_self) balanced' text
    exact (ih (fun other member => balanced other (List.mem_cons_of_mem _ member)) _).trans here

end NestedAlike

theorem closed_of_splitClosing? {depth : Nat} {text argument behind : Text} {closer : Char}
    (split : splitClosing? depth text = some (argument, closer, behind)) :
    depth? Text.nesting depth argument = some 0 ∧ Text.nesting closer = .closes := by
  induction text generalizing depth argument with
  | nil => cases split
  | cons c text ih =>
    cases kind : Text.nesting c with
    | opens =>
      rw [splitClosing?_opens kind] at split
      obtain ⟨⟨inner, last⟩, later, equal⟩ := Option.map_eq_some_iff.mp split
      cases equal
      exact ⟨by rw [depth?_opens kind, (ih later).1], (ih later).2⟩
    | stays =>
      rw [splitClosing?_stays kind] at split
      obtain ⟨⟨inner, last⟩, later, equal⟩ := Option.map_eq_some_iff.mp split
      cases equal
      exact ⟨by rw [depth?_stays kind, (ih later).1], (ih later).2⟩
    | closes =>
      rw [splitClosing?_closes kind] at split
      cases depth with
      | zero =>
        cases split
        exact ⟨rfl, kind⟩
      | succ depth =>
        obtain ⟨⟨inner, last⟩, later, equal⟩ := Option.map_eq_some_iff.mp split
        cases equal
        exact ⟨by rw [depth?_closes kind, (ih later).1], (ih later).2⟩

namespace CallPiece

/-- What is known of every piece: heads are those of functions, and calls close. -/
def Formed : CallPiece → Prop
  | .plain _ => True
  | .call head argument closer =>
    (∃ function, head.Calls function) ∧ Balanced Text.nesting argument ∧
      Text.nesting closer = .closes
  | .unclosed head => ∃ function, head.Calls function

theorem formed_of_mem_ofTextFrom {functions : List Builtin} {afterWord : Bool} {text : Text}
    {piece : CallPiece} (member : piece ∈ ofTextFrom functions afterWord text) : piece.Formed := by
  fun_induction ofTextFrom functions afterWord text with
  | case1 => exact absurd member List.not_mem_nil
  | case2 afterWord c rest head behind read ih =>
    obtain ⟨-, ⟨function, -, calls⟩, -⟩ := CallHead.read?_eq_some_iff.mp read
    rcases List.mem_cons.mp member with rfl | member
    · unfold ofHead
      split
      · rename_i split
        obtain ⟨balanced, closes⟩ := closed_of_splitClosing? split
        exact ⟨⟨function, calls⟩, balanced_of_depth? balanced, closes⟩
      · exact ⟨function, calls⟩
    · exact ih member
  | case3 afterWord c rest none ih =>
    rcases List.mem_cons.mp member with rfl | member
    · trivial
    · exact ih member

theorem text_ofTextFrom (functions : List Builtin) (afterWord : Bool) (text : Text) :
    (ofTextFrom functions afterWord text).flatMap CallPiece.text = text := by
  fun_induction ofTextFrom functions afterWord text with
  | case1 => rfl
  | case2 afterWord c rest head behind read ih =>
    rw [List.flatMap_cons, ih, ← eq_of_ofHead, CallHead.eq_of_read? read]
  | case3 afterWord c rest none ih =>
    rw [List.flatMap_cons, ih]
    rfl

theorem text_ofText (functions : List Builtin) (formula : Text) :
    (ofText functions formula).flatMap CallPiece.text = formula :=
  text_ofTextFrom functions false formula

theorem not_mem_ofText {functions : List Builtin} {formula : Text} {head : CallHead}
    (closed : depth? Text.nesting 0 formula = some 0) : .unclosed head ∉ ofText functions formula :=
  ofTextFrom_closes functions closed head

end CallPiece

theorem balanced_of_literal {x : Number} {literal : Text} (written : x.literal = .ok literal) :
    Balanced Text.nesting literal := by
  obtain ⟨value, double, shape⟩ := bind_eq_ok_iff.mp written
  cases value with
  | nan =>
    cases shape
    exact balanced_of_stays (by decide)
  | infinite negative =>
    have closed : ∀ negative, depth? Text.nesting 0
      (if (Double.infinite negative).write.head? = some '-' then
        '(' :: (Double.infinite negative).write ++ [')'] else (Double.infinite negative).write) =
            some 0 := by
      decide
    cases shape
    exact balanced_of_depth? (closed negative)
  | finite negative m =>
    rw [Segment.literal_eq double] at written
    cases written
    have digits := Segment.balanced_literal (Lexer.isNumber_magnitude m).isLiteral
    cases negative with
    | false => simpa [Segment.ofMagnitude, Segment.text] using digits
    | true =>
      have inner : Balanced Text.nesting ('-' :: numberLayout.magnitude m) := digits.cons rfl
      have whole :=
        inner.enclosed (show Text.nesting '(' = .opens from rfl)
          (show Text.nesting ')' = .closes from rfl)
      simpa [Segment.ofMagnitude, Segment.text, Symbol.text] using whole

theorem balanced_of_literalOrZero {number : Option Number} {literal : Text}
    (written : literalOrZero number = .ok literal) : Balanced Text.nesting literal := by
  cases number with
  | none =>
    cases written
    exact balanced_of_stays (by decide)
  | some x => exact balanced_of_literal written

theorem balanced_join {literals : List Text}
    (each : ∀ literal ∈ literals, Balanced Text.nesting literal) :
    Balanced Text.nesting (Text.join [',', ' '] literals) := by
  induction literals with
  | nil => exact balanced_nil
  | cons literal literals ih =>
    have here := each literal List.mem_cons_self
    cases literals with
    | nil => simpa [Text.join] using here
    | cons other literals =>
      have separator : Balanced Text.nesting [',', ' '] := balanced_of_stays (by decide)
      rw [Text.join, List.intercalate_cons_cons]
      exact (here.append separator).append
        (ih fun other member => each other (List.mem_cons_of_mem _ member))

theorem balanced_of_sampleList {samples : List (Option Number)} {list : Text}
    (listed : sampleList samples = .ok list) : Balanced Text.nesting list := by
  obtain ⟨literals, written, shape⟩ := bind_eq_ok_iff.mp listed
  have each : Returns (fun literals => ∀ literal ∈ literals, Balanced Text.nesting literal)
      (fun _ => True) ((samples.filterMap id).mapM Number.literal) := by
    refine .mapM _ fun x _ => ?_
    cases own : x.literal with
    | error fault => trivial
    | ok literal => exact balanced_of_literal own
  cases shape
  exact (balanced_join (each.of_ok written)).enclosed rfl rfl

theorem balanced_trim {text : Text} (balanced : Balanced Text.nesting text) :
    Balanced Text.nesting (Text.trim text) := by
  have quiet : ∀ {blanks : Text}, (∀ c ∈ blanks, Text.isBlank c = true) →
      Balanced Text.nesting blanks :=
    fun blank => balanced_of_stays fun c member => Text.stays_of_isBlank (blank c member)
  obtain ⟨lead, behind, parts, leads, ends⟩ := Text.exists_trim text
  intro depth
  have whole := balanced depth
  rw [parts, (quiet leads).depth?_eq, depth?_append] at whole
  obtain ⟨deeper, trimmed, rest⟩ := Option.bind_eq_some_iff.mp whole
  rw [trimmed, ← rest, quiet ends deeper]

namespace CallPiece

theorem Formed.balanced {head : CallHead} {argument : Text} {closer : Char}
    (formed : (call head argument closer).Formed) :
    Balanced Text.nesting (call head argument closer).text := by
  obtain ⟨⟨function, calls⟩, balanced, closes⟩ := formed
  intro depth
  rw [text, List.append_assoc, calls.depth?_eq, depth?_append, balanced, Option.bind_some,
    depth?_closes closes]
  rfl

theorem Formed.sampled {piece : CallPiece} (formed : piece.Formed) {samples : Option Samples}
    {text : Text} (ran : samplePiece samples piece = .ok text) : NestedAlike text piece.text := by
  cases piece with
  | plain c =>
    cases ran
    exact .refl _
  | unclosed head =>
    obtain ⟨function, calls⟩ := formed
    cases ran
    intro depth
    have new := calls.capitalized.depth?_eq depth []
    have old := calls.depth?_eq depth []
    rw [List.append_nil] at new old
    exact new.trans old.symm
  | call head argument closer =>
    obtain ⟨⟨function, calls⟩, balanced, closes⟩ := formed
    obtain ⟨argument', sampled, shape⟩ := bind_eq_ok_iff.mp ran
    have balanced' : Balanced Text.nesting argument' := by
      unfold sampledArgument at sampled
      split at sampled
      · cases sampled
        exact balanced
      · split at sampled
        · cases sampled
          exact balanced
        · exact balanced_of_sampleList sampled
    have formed' : (call head.capitalized argument' closer).Formed :=
      ⟨⟨function, calls.capitalized⟩, balanced', closes⟩
    cases shape
    exact .of_balanced formed'.balanced (Formed.balanced ⟨⟨function, calls⟩, balanced, closes⟩)

theorem Formed.tested {piece : CallPiece} (formed : piece.Formed) (hasValue : Text → Bool) :
    NestedAlike (testPiece hasValue piece) piece.text := by
  have literals : Balanced Text.nesting trueLiteral ∧ Balanced Text.nesting falseLiteral :=
    ⟨balanced_of_stays (by decide), balanced_of_stays (by decide)⟩
  unfold testPiece
  split
  · split
    · split
      · exact .of_balanced literals.2 formed.balanced
      · exact .of_balanced literals.1 formed.balanced
    · exact .refl _
  · exact .refl _

theorem Formed.missing {piece : CallPiece} (formed : piece.Formed) {hasValue : Text → Bool}
    {argument : Text} (missing : missingArgument? hasValue piece = some argument) :
    Balanced Text.nesting argument := by
  unfold missingArgument? at missing
  split at missing
  · split at missing
    · split at missing
      · cases missing
      · cases missing
        exact balanced_trim formed.2.1
    · cases missing
  · cases missing

end CallPiece

theorem nestedAlike_samplePieces {samples : Option Samples} {skipsMissing strict : Bool}
    {formula : Text} {position : Nat} {pieces : List CallPiece}
    (formed : ∀ piece ∈ pieces, piece.Formed) {sampled : Text}
    (ran : (samplePieces samples skipsMissing strict formula position pieces).outcome =
      .ok (some sampled)) : NestedAlike sampled (pieces.flatMap CallPiece.text) := by
  induction pieces generalizing position sampled with
  | nil =>
    cases ran
    exact .refl _
  | cons piece pieces ih =>
    unfold samplePieces at ran
    obtain ⟨-, -, ran⟩ := Traced.outcome_bind_eq_ok_iff.mp ran
    split at ran
    · cases ran
    · obtain ⟨text, own, ran⟩ := Traced.outcome_bind_eq_ok_iff.mp ran
      obtain ⟨later, rest, ran⟩ := Traced.outcome_bind_eq_ok_iff.mp ran
      cases later with
      | none => cases ran
      | some later =>
        cases ran
        have own : samplePiece samples piece = .ok text := by
          cases read : samplePiece samples piece with
          | error fault =>
            rw [read] at own
            cases own
          | ok text' =>
            rw [read] at own
            cases own
            rfl
        exact ((formed piece List.mem_cons_self).sampled own).append
          (ih (fun other member => formed other (List.mem_cons_of_mem _ member)) rest)

theorem nestedAlike_substituteNullTests {formula : Text} {hasValue : Text → Bool} {strict : Bool}
    {tested : Text} (ran : (substituteNullTests formula hasValue strict).outcome = .ok tested) :
    NestedAlike tested formula := by
  have formed : ∀ piece ∈ CallPiece.ofText nullTest formula, piece.Formed :=
    fun piece member => CallPiece.formed_of_mem_ofTextFrom member
  obtain ⟨-, -, ran⟩ := Traced.outcome_bind_eq_ok_iff.mp ran
  cases ran
  have tests : NestedAlike ((CallPiece.ofText nullTest formula).flatMap (testPiece hasValue))
      formula := by
    have alike := NestedAlike.flatMap fun piece member => (formed piece member).tested hasValue
    rwa [CallPiece.text_ofText] at alike
  refine (NestedAlike.replaceAll (fun argument member => ?_) (balanced_of_stays (by decide))
      _).trans tests
  obtain ⟨piece, within, missing⟩ := List.mem_filterMap.mp member
  exact (formed piece within).missing missing

theorem Filling.text_of_prepend {filling : Filling} {lead filled : Text}
    (result : (filling.prepend lead).result = .text filled) :
    ∃ behind, filling.result = .text behind ∧ filled = lead ++ behind := by
  unfold Filling.prepend at result
  split at result
  · rename_i behind own
    cases result
    exact ⟨behind, own, rfl⟩
  · rename_i other
    exact absurd result (other filled)

theorem fillPieces_cons_eq_text {numbers : Supply} {skipsAny : Bool} {piece : Piece}
    {pieces : List Piece}
    {filling : Filling} {filled : Text}
    (ran : fillPieces numbers skipsAny (piece :: pieces) = .ok filling)
    (result : filling.result = .text filled) :
    ∃ lead later behind, fillPieces numbers skipsAny pieces = .ok later ∧
      later.result = .text behind ∧
      filled = lead ++ behind ∧
      match piece with
      | .plain c => lead = [c]
      | .reference found => literalOrZero (numbers.number? found) = .ok lead := by
  have behind_of : ∀ {lead : Text} {later : Filling}, fillPieces numbers skipsAny pieces =
        .ok later → (later.prepend lead).result = .text filled →
      ∃ later behind, fillPieces numbers skipsAny pieces = .ok later ∧ later.result = .text behind ∧
        filled = lead ++ behind :=
    fun {lead later} rest result => by
      obtain ⟨behind, own, whole⟩ := Filling.text_of_prepend result
      exact ⟨later, behind, rest, own, whole⟩
  cases piece with
  | plain c =>
    obtain ⟨later, rest, shape⟩ := bind_eq_ok_iff.mp ran
    cases shape
    obtain ⟨later, behind, rest, own, whole⟩ := behind_of rest result
    exact ⟨[c], later, behind, rest, own, whole, rfl⟩
  | reference found =>
    unfold fillPieces at ran
    simp only at ran
    split at ran
    · split at ran
      · cases ran
        cases result
      · obtain ⟨lead, written, ran⟩ := bind_eq_ok_iff.mp ran
        obtain ⟨later, rest, shape⟩ := bind_eq_ok_iff.mp ran
        cases shape
        obtain ⟨later, behind, rest, own, whole⟩ := behind_of rest result
        exact ⟨lead, later, behind, rest, own, whole, written⟩
    · obtain ⟨lead, written, ran⟩ := bind_eq_ok_iff.mp ran
      obtain ⟨later, rest, shape⟩ := bind_eq_ok_iff.mp ran
      cases shape
      obtain ⟨later, behind, rest, own, whole⟩ := behind_of rest result
      exact ⟨lead, later, behind, rest, own, whole, written⟩

theorem nestedAlike_fillPieces {numbers : Supply} {skipsAny afterWord : Bool} {pieces : List Piece}
    (legible : Piece.Legible afterWord pieces) {filling : Filling} {filled : Text}
    (ran : fillPieces numbers skipsAny pieces = .ok filling)
    (result : filling.result = .text filled) : NestedAlike filled (pieces.flatMap Piece.text) := by
  induction pieces generalizing afterWord filling filled with
  | nil =>
    cases ran
    cases result
    exact .refl _
  | cons piece pieces ih =>
    obtain ⟨lead, later, behind, rest, own, rfl, written⟩ := fillPieces_cons_eq_text ran result
    cases piece with
    | plain c =>
      cases written
      exact (NestedAlike.refl [c]).append (ih legible rest own)
    | reference found =>
      exact (NestedAlike.of_balanced (balanced_of_literalOrZero written) legible.1.balanced).append
        (ih legible.2.2 rest own)

variable {strategy : Strategy} {inputs : Inputs} {strict : Bool}

theorem nestedAlike_fillSampled {sampled : Text} {filling : Filling} {filled : Text}
    (ran : (fillSampled strategy inputs strict sampled).outcome = .ok filling)
    (result : filling.result = .text filled) : NestedAlike filled sampled := by
  obtain ⟨tested, found, tests, fills, shape⟩ := fillSampled_eq_ok_iff.mp ran
  have kept : found.result = .text filled := Filling.text_of_skipping (by rw [shape, result])
  have references := nestedAlike_fillPieces (Piece.legible_ofTextFrom false _) fills kept
  rw [Piece.text_ofTextFrom] at references
  refine references.trans (NestedAlike.trans ?_ (nestedAlike_substituteNullTests tests))
  exact fun depth => depth?_capitalizeCallsFrom false tested depth

/-- What a formula is filled in to opens and closes what the formula does. -/
theorem nestedAlike_fillUnder {formula : Text} {filling : Filling} {filled : Text}
    (ran : (fillUnder strategy inputs strict formula).outcome = .ok filling)
    (result : filling.result = .text filled) : NestedAlike filled formula := by
  obtain ⟨sampled, samples, ran⟩ :=
    sampled_of_fillUnder ran fun skipped => nomatch skipped.symm.trans result
  have pieces :=
    nestedAlike_samplePieces (fun piece member => CallPiece.formed_of_mem_ofTextFrom member) samples
  rw [CallPiece.text_ofTextFrom] at pieces
  exact (nestedAlike_fillSampled ran result).trans pieces

/-- A formula with a call that does not close is filled in to a text that is not parsed. -/
theorem parse_ne_ok_of_unclosed {functions : List Builtin} {head : CallHead} {formula : Text}
    (unclosed : .unclosed head ∈ CallPiece.ofText functions formula) {filling : Filling}
    {filled : Text} (ran : (fillUnder strategy inputs strict formula).outcome = .ok filling)
    (result : filling.result = .text filled) (tree : Expr) : Expr.parse filled ≠ .ok tree := by
  intro parsed
  have closed := nestedAlike_fillUnder ran result 0
  rw [balanced_of_parse parsed 0] at closed
  exact CallPiece.not_mem_ofText closed.symm unclosed

end IndicatorFormula
