import IndicatorFormula.Proofs.Formula.Balance

/-! Calls in formulas.

Where every bracket closes, the scanner for calls cuts a formula between segments: each of the
outermost calls of some functions is a head, segments in which every bracket closes, and a closing
bracket. -/

set_option autoImplicit false
namespace IndicatorFormula

namespace Segment

def nesting : Segment → Nesting
  | .symbol (.opening _) | .call .. => .opens
  | .symbol (.closing _) => .closes
  | _ => .stays

theorem balanced_literal {literal : Text} (isLiteral : Lexer.IsLiteral literal) :
    Balanced Text.nesting literal :=
  balanced_of_stays (isLiteral.forall (fun _ => Text.stays_of_isNumeric) (by decide))

theorem Formed.depth?_text {segment : Segment} (formed : segment.Formed) (depth : Nat) :
    depth? Text.nesting depth segment.text = segment.nesting.turn depth := by
  cases formed with
  | blank blank => exact balanced_of_stays (by simpa [text] using Text.stays_of_isBlank blank) depth
  | boolean value => cases value <;> rfl
  | @call function head calls =>
    have opened := calls.depth?_eq depth []
    rwa [List.append_nil] at opened
  | number number => exact balanced_literal number.isLiteral depth
  | symbol sign =>
    cases sign with
    | opening bracket => cases bracket <;> rfl
    | closing bracket => cases bracket <;> cases depth <;> rfl
    | operator operator => cases operator <;> rfl
    | _ => rfl
  | @reference lead found tail legible digits fresh literal =>
    have leads : Balanced Text.nesting lead := balanced_of_stays fun c member =>
      Text.stays_of_isWord (Lexer.isWord_of_isDigit (digits c member))
    exact (leads.append (legible.balanced.append (balanced_literal literal))) depth

theorem depth?_flatMap_text {segments : List Segment}
    (formed : ∀ segment ∈ segments, segment.Formed) (depth : Nat) :
    depth? Text.nesting depth (segments.flatMap text) = depth? nesting depth segments := by
  induction segments generalizing depth with
  | nil => rfl
  | cons segment segments ih =>
    rw [List.flatMap_cons, depth?_append, (formed segment List.mem_cons_self).depth?_text,
      depth?_cons]
    congr 1
    funext deeper
    exact ih (fun other member => formed other (List.mem_cons_of_mem _ member)) deeper

theorem Balanced.text {segments : List Segment} (formed : ∀ segment ∈ segments, segment.Formed)
    (balanced : Balanced nesting segments) : Balanced Text.nesting (segments.flatMap text) := by
  intro depth
  rw [depth?_flatMap_text formed, balanced depth]

theorem eq_of_closes {segment : Segment} (closes : segment.nesting = .closes) :
    ∃ bracket, segment = .symbol (.closing bracket) := by
  cases segment with
  | symbol sign =>
    cases sign with
    | closing bracket => exact ⟨bracket, rfl⟩
    | _ => cases closes
  | _ => cases closes

end Segment

def Bracket.closer : Bracket → Char
  | .round => ')'
  | .square => ']'

theorem Bracket.text_closing (bracket : Bracket) :
    (Symbol.closing bracket).text = [bracket.closer] := by
  cases bracket <;> rfl

/-- A formula between the outermost calls of some functions, and these calls. -/
inductive Part where
  | plain (segment : Segment)
  | call (function : Builtin) (head : CallHead) (argument : List Segment) (bracket : Bracket)

namespace Part

def segments : Part → List Segment
  | .plain segment => [segment]
  | .call function head argument bracket =>
    .call function head :: argument ++ [.symbol (.closing bracket)]

def pieces : Part → List CallPiece
  | .plain segment => segment.text.map .plain
  | .call _ head argument bracket => [.call head (argument.flatMap Segment.text) bracket.closer]

def Cut (functions : List Builtin) : Part → Prop
  | .plain segment => ∀ function head, segment = .call function head → function ∉ functions
  | .call function _ argument _ => function ∈ functions ∧ Balanced Segment.nesting argument

end Part

namespace Segment

variable {segments : List Segment}

theorem Regular.drop {first second : List Segment} (regular : Regular (first ++ second)) :
    Regular second :=
  ⟨fun segment member => regular.formed segment (List.mem_append_right _ member),
    regular.apart.right_of_append⟩

theorem Regular.take {first second : List Segment} (regular : Regular (first ++ second)) :
    Regular first :=
  ⟨fun segment member => regular.formed segment (List.mem_append_left _ member),
    regular.apart.left_of_append⟩

theorem exists_parts (functions : List Builtin) {depth : Nat}
    (closed : depth? nesting depth segments = some 0) :
    ∃ parts : List Part, segments = parts.flatMap Part.segments ∧
      ∀ part ∈ parts, part.Cut functions := by
  induction length : segments.length using Nat.strongRecOn generalizing segments depth with
  | ind bound ih =>
    cases segments with
    | nil => exact ⟨[], rfl, nofun⟩
    | cons segment segments =>
      by_cases called : ∃ function head, segment = .call function head ∧ function ∈ functions
      · obtain ⟨function, head, rfl, member⟩ := called
        rw [depth?_opens (show nesting (.call function head) = .opens from rfl)] at closed
        -- What the head opens closes, and that is where the call ends.
        obtain ⟨argument, last, later, rfl, balanced, closes, outside⟩ := exists_closing closed
        obtain ⟨bracket, rfl⟩ := eq_of_closes closes
        have shorter : later.length < bound := by
          rw [← length]
          simp
          omega
        obtain ⟨parts, rfl, cut⟩ := ih later.length shorter outside rfl
        exact ⟨.call function head argument bracket :: parts, by simp [Part.segments],
          List.forall_mem_cons.mpr ⟨⟨member, balanced⟩, cut⟩⟩
      · rw [depth?_cons] at closed
        obtain ⟨deeper, -, closed⟩ := Option.bind_eq_some_iff.mp closed
        obtain ⟨parts, rfl, cut⟩ := ih segments.length (by simp [← length]) closed rfl
        exact ⟨.plain segment :: parts, rfl,
          List.forall_mem_cons.mpr
            ⟨fun function head same member => called ⟨function, head, same, member⟩, cut⟩⟩

theorem ofTextFrom_parts {functions : List Builtin} {afterWord : Bool} {parts : List Part}
    (cut : ∀ part ∈ parts, part.Cut functions) (regular : Regular (parts.flatMap Part.segments))
    (fresh : afterWord = true →
      ∀ segment ∈ (parts.flatMap Part.segments).head?, segment.isOperand = false) :
    CallPiece.ofTextFrom functions afterWord ((parts.flatMap Part.segments).flatMap text) =
      parts.flatMap Part.pieces := by
  induction parts generalizing afterWord with
  | nil => simp [CallPiece.ofTextFrom]
  | cons part parts ih =>
    obtain ⟨own, others⟩ := List.forall_mem_cons.mp cut
    -- The scanner finds a call exactly at a head of these functions, and none begins within any
    -- other segment.
    cases part with
    | plain segment =>
      have regular : Regular (segment :: parts.flatMap Part.segments) := regular
      obtain ⟨formed, apart⟩ := regular.head
      have later :=
        @ih (segment.text.endsWord afterWord) others regular.tail fun word follower found =>
        (apart follower found).operands (formed.closes_of_endsWord word)
      have start : afterWord = true → segment.isOperand = false :=
        fun word => fresh word segment rfl
      change CallPiece.ofTextFrom functions afterWord
          (segment.text ++ (parts.flatMap Part.segments).flatMap text) = _
      rw [CallPiece.ofTextFrom_append (formed.silent start own), later]
      rfl
    | call function head argument bracket =>
      obtain ⟨member, balanced⟩ := own
      have regular : Regular (.call function head ::
          (argument ++ .symbol (.closing bracket) :: parts.flatMap Part.segments)) := by
        simpa [Part.segments] using regular
      cases regular.head.1 with
      | call calls =>
      have start : afterWord = false := by
        by_contra word
        cases fresh (Bool.eq_true_of_not_eq_false word) (.call function head) rfl
      have argumentText := Balanced.text regular.tail.take.formed balanced
      have closer : Text.nesting bracket.closer = .closes := by cases bracket <;> rfl
      have later :=
        @ih false others regular.tail.drop.tail fun word => absurd word Bool.false_ne_true
      have shape : ((Part.call function head argument bracket :: parts).flatMap
              Part.segments).flatMap text =
          head.text ++
            (argument.flatMap text ++ bracket.closer ::
              (parts.flatMap Part.segments).flatMap text) := by
        simp [Part.segments, text, Bracket.text_closing]
      rw [shape, start, CallPiece.ofTextFrom_head member calls,
        CallPiece.ofHead_append head argumentText closer, later]
      rfl

/-- The scanner for calls of some functions cuts a formula in which every bracket closes into
parts. -/
theorem Regular.parts (functions : List Builtin) (regular : Regular segments)
    (closed : Balanced nesting segments) :
    ∃ parts : List Part, segments = parts.flatMap Part.segments ∧
      (∀ part ∈ parts, part.Cut functions) ∧
      CallPiece.ofText functions (segments.flatMap text) = parts.flatMap Part.pieces := by
  obtain ⟨parts, rfl, cut⟩ := exists_parts functions (closed 0)
  exact ⟨parts, rfl, cut, ofTextFrom_parts cut regular fun impossible => nomatch impossible⟩

structure Replaces (new old : List Segment) : Prop where
  some : new ≠ []
  regular : Regular new
  first : ∀ before, (∀ other ∈ old.head?, Apart before other) →
    ∀ other ∈ new.head?, Apart before other
  last : ∀ behind, (∀ other ∈ old.getLast?, Apart other behind) →
    ∀ other ∈ new.getLast?, Apart other behind

theorem replaces_self (some : segments ≠ []) (regular : Regular segments) :
    Replaces segments segments :=
  ⟨some, regular, fun _ apart => apart, fun _ apart => apart⟩

theorem Regular.cons {segment : Segment} (formed : segment.Formed)
    (apart : ∀ next ∈ segments.head?, Apart segment next) (regular : Regular segments) :
    Regular (segment :: segments) :=
  ⟨List.forall_mem_cons.mpr ⟨formed, regular.formed⟩, List.isChain_cons.mpr ⟨apart, regular.apart⟩⟩

theorem Regular.append {first second : List Segment} (regular : Regular first)
    (regular' : Regular second)
    (apart : ∀ last ∈ first.getLast?, ∀ next ∈ second.head?, Apart last next) :
    Regular (first ++ second) := by
  refine ⟨fun segment member => ?_, regular.apart.append regular'.apart apart⟩
  exact (List.mem_append.mp member).elim (regular.formed segment) (regular'.formed segment)

theorem Regular.between {first second : List Segment} (regular : Regular (first ++ second)) :
    ∀ last ∈ first.getLast?, ∀ next ∈ second.head?, Apart last next :=
  (List.isChain_append.mp regular.apart).2.2

/-- Formulas stay regular if what stands where their parts were may stand there. -/
theorem Regular.replace {α : Type} {old new : α → List Segment} {items : List α}
    (regular : Regular (items.flatMap old))
    (each : ∀ item ∈ items, old item ≠ [] ∧ (Regular (old item) → Replaces (new item) (old item))) :
    Regular (items.flatMap new) := by
  induction items with
  | nil => exact regular
  | cons item items ih =>
    rw [List.flatMap_cons] at regular ⊢
    obtain ⟨some, replaces⟩ := each item List.mem_cons_self
    have here := replaces regular.take
    have others : ∀ other ∈ items, old other ≠ [] ∧
        (Regular (old other) → Replaces (new other) (old other)) :=
      fun other member => each other (List.mem_cons_of_mem item member)
    refine here.regular.append (ih regular.drop others) fun last ends next begins => ?_
    -- At the seam, the first of what comes next stands where the first of the old did.
    cases items with
    | nil => cases begins
    | cons follower items =>
      obtain ⟨some', replaces'⟩ := others follower List.mem_cons_self
      have between := regular.between
      have later := regular.drop
      rw [List.flatMap_cons] at between later begins
      rw [List.head?_append_of_ne_nil _ some'] at between
      have there := replaces' later.take
      rw [List.head?_append_of_ne_nil _ there.some] at begins
      refine here.last next (fun before ends => ?_) last ends
      exact there.first before (fun other begins => between before ends other begins) next begins

end Segment

open Segment

namespace Part

variable {functions : List Builtin} {parts : List Part}

theorem segments_ne_nil (part : Part) : part.segments ≠ [] := by
  cases part <;> simp [segments]

theorem getLast?_call (function : Builtin) (head : CallHead) (argument : List Segment)
    (bracket : Bracket) :
    (Part.call function head argument bracket).segments.getLast? =
      some (.symbol (.closing bracket)) := by
  rw [segments, List.getLast?_append]
  rfl

theorem replaces_boolean (value : Bool) (function : Builtin) (head : CallHead)
    (argument : List Segment) (bracket : Bracket) :
    Replaces [.boolean value] (Part.call function head argument bracket).segments := by
  refine ⟨by simp, ⟨?_, List.isChain_singleton _⟩, ?_, ?_⟩
  · intro segment member
    rw [List.mem_singleton.mp member]
    exact .boolean value
  · rintro before apart other ⟨⟩
    exact ⟨(apart _ rfl).operands, nofun⟩
  · rintro behind apart other ⟨⟩
    exact ⟨fun _ => (apart _ (getLast?_call ..)).operands rfl, nofun⟩

theorem replaces_call {function : Builtin} {head : CallHead} {argument : List Segment}
    {bracket : Bracket} (regular : Regular (Part.call function head argument bracket).segments)
    (function' : Builtin) (head' : CallHead) (argument' : List Segment) (bracket' : Bracket) :
    Replaces (Part.call function head argument bracket).segments
      (Part.call function' head' argument' bracket').segments := by
  refine ⟨segments_ne_nil _, regular, ?_, ?_⟩
  · rintro before apart other ⟨⟩
    exact ⟨(apart _ rfl).operands, nofun⟩
  · intro behind apart other ends
    rw [getLast?_call] at ends
    cases ends
    exact apart_closing bracket ((apart _ (getLast?_call ..)).operands rfl)

def capitalized : Part → Part
  | .plain segment => .plain segment
  | .call function head argument bracket => .call function head.capitalized argument bracket

theorem replaces_capitalized (part : Part) (regular : Regular part.segments) :
    Replaces part.capitalized.segments part.segments := by
  cases part with
  | plain segment => exact replaces_self (segments_ne_nil _) regular
  | call function head argument bracket =>
    refine replaces_call ⟨?_, ?_⟩ function head argument bracket
    · intro segment member
      rcases List.mem_cons.mp member with rfl | member
      · cases regular.formed _ List.mem_cons_self with
        | call calls => exact .call calls.capitalized
      · exact regular.formed segment (List.mem_cons_of_mem _ member)
    · obtain ⟨first, rest⟩ := List.isChain_cons.mp regular.apart
      exact List.isChain_cons.mpr
        ⟨fun next found => ⟨fun impossible => (nomatch impossible), nofun⟩, rest⟩

end Part
end IndicatorFormula
