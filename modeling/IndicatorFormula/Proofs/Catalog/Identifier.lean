import IndicatorFormula.Proofs.Catalog.Resolution

/-! The parts that identifiers of items consist of.

An identifier that the parts of a reference are turned into has those parts, none of which is empty
or holds a point. So the dotted identifier tells the parts, but not the type of the item: values
that are supplied under it are those of every item with the same parts. The text of an identifier
tells both. -/

set_option autoImplicit false
namespace IndicatorFormula

def ItemId.parts (id : ItemId) : List Text :=
  id.first :: (id.second.toList ++ id.third.toList)

def ItemType.kind : ItemType → ReferenceKind
  | .dataElement | .dataElementOperand => .dataElementOperand
  | .programDataElement => .programDataElement
  | .programAttribute => .programAttribute
  | .programIndicator => .programIndicator
  | .reportingRate => .reportingRate

def Separate (parts : List Text) : Prop :=
  parts ≠ [] ∧ ∀ part ∈ parts, part ≠ [] ∧ '.' ∉ part

theorem Separate.join_inj {parts others : List Text} (separate : Separate parts)
    (separate' : Separate others) :
    Text.join ['.'] parts = Text.join ['.'] others ↔ parts = others := by
  have split : ∀ {parts : List Text}, Separate parts →
      (Text.join ['.'] parts).splitOn '.' = parts :=
    fun separate =>
      List.splitOn_intercalate '.' (fun part member => (separate.2 part member).2) separate.1
  refine ⟨fun same => ?_, congrArg _⟩
  rw [← split separate, same, split separate']

theorem ReferenceKind.itemId?_eq_some {kind : ReferenceKind} {parts : List (Option Text)}
    {id : ItemId} (built : kind.itemId? parts = some id) :
    parts = id.parts.map some ∧ Separate id.parts ∧
      kind.itemType? id.parts.length = some id.type := by
  unfold itemId? at built
  split at built
  · cases built
  rename_i sound
  obtain ⟨-, few, good⟩ := problem?_eq_none (Option.not_isSome_iff_eq_none.mp sound)
  obtain ⟨texts, rfl, each⟩ := badPart?_eq_none good
  obtain ⟨type, typed, built⟩ := Option.bind_eq_some_iff.mp built
  obtain ⟨first, leads, built⟩ := Option.bind_eq_some_iff.mp built
  cases built
  have most : kind.partCounts.2 ≤ 3 := by cases kind <;> decide
  rw [List.length_map] at few typed
  -- There are three parts at most, one for each slot of an identifier.
  have same : texts =
      first :: ((texts.map some)[1]?.join.toList ++ (texts.map some)[2]?.join.toList) := by
    rcases texts with - | ⟨one, - | ⟨two, - | ⟨three, - | ⟨four, texts⟩⟩⟩⟩
    · cases leads
    · cases leads
      rfl
    · cases leads
      rfl
    · cases leads
      rfl
    · simp only [List.length_cons] at few
      omega
  refine ⟨congrArg _ same, ?_⟩
  change Separate (_ :: _) ∧ kind.itemType? (_ :: _).length = _
  rw [← same]
  exact ⟨⟨same ▸ List.cons_ne_nil _ _,
      fun part member => ⟨(each part member).1, (each part member).2.1⟩⟩, typed⟩

theorem ReferenceKind.kind_itemType? {kind : ReferenceKind} {count : Nat} {type : ItemType}
    (typed : kind.itemType? count = some type) : type.kind = kind := by
  cases kind with
  | constant | orgUnitGroup | days | aggregate => cases typed
  | dataElementOperand =>
    obtain rfl := Option.some.inj typed
    split <;> rfl
  | _ =>
    cases typed
    rfl

theorem ReferenceKind.eq_of_parts {kind other : ReferenceKind} {parts others : List (Option Text)}
    {id id' : ItemId} (built : kind.itemId? parts = some id)
    (built' : other.itemId? others = some id') (type : id.type = id'.type)
    (same : id.parts = id'.parts) : id = id' := by
  obtain ⟨rfl, -, typed⟩ := itemId?_eq_some built
  obtain ⟨rfl, -, typed'⟩ := itemId?_eq_some built'
  obtain rfl : kind = other := by rw [← kind_itemType? typed, type, kind_itemType? typed']
  rw [same, built'] at built
  exact (Option.some.inj built).symm

theorem Separate.dimensionItem {id : ItemId} (separate : Separate id.parts) :
    id.dimensionItem = Text.join ['.'] id.parts := by
  have whole := dotted_map_some fun part member => (separate.2 part member).1
  rw [← whole, ItemId.dimensionItem, dotted, dotted]
  obtain ⟨type, first, second, third⟩ := id
  cases second <;> cases third <;> rfl

theorem Reference.Legible.separate {reference : Reference} (legible : reference.Legible)
    (dimensional : reference.isDimensional = true) : Separate reference.parts := by
  cases legible with
  | days => cases dimensional
  | braced member some few each =>
    refine ⟨some, fun part member => ⟨(each part member).1, fun point => ?_⟩⟩
    exact absurd ((each part member).2 _ point) (by decide)

/-- A reference is looked up among the values of the identifiers that have its parts. -/
theorem dimensionItem_eq_key_iff {kind : ReferenceKind} {parts : List (Option Text)} {id : ItemId}
    {reference : Reference} (built : kind.itemId? parts = some id) (legible : reference.Legible)
    (dimensional : reference.isDimensional = true) :
    id.dimensionItem = reference.key ↔ id.parts = reference.parts := by
  have separate := (ReferenceKind.itemId?_eq_some built).2.1
  rw [separate.dimensionItem]
  exact separate.join_inj (legible.separate dimensional)

theorem ReferenceKind.exists_itemId? {kind : ReferenceKind} {parts : List (Option Text)}
    (dimensional : kind.isDimensional = true) (sound : kind.problem? parts = none) :
    ∃ id, kind.itemId? parts = some id := by
  obtain ⟨enough, -, good⟩ := problem?_eq_none sound
  obtain ⟨texts, rfl, -⟩ := badPart?_eq_none good
  obtain ⟨⟨type, typed⟩, least⟩ : (∃ type, kind.itemType? (texts.map some).length = some type) ∧
      0 < kind.partCounts.1 := by
    cases kind with
    | constant | orgUnitGroup | days | aggregate => cases dimensional
    | _ => exact ⟨⟨_, rfl⟩, by decide⟩
  cases texts with
  | nil => exact absurd (Nat.lt_of_lt_of_le least enough) (Nat.lt_irrefl 0)
  | cons first texts => exact ⟨_, by simp only [itemId?, sound, typed]; rfl⟩

theorem ItemType.colon_not_mem_name (type : ItemType) : ':' ∉ type.name.toList := by
  cases type <;> decide

theorem ItemType.name_injective {type other : ItemType}
    (same : type.name.toList = other.name.toList) : type = other := by
  cases type <;> cases other <;> first | rfl | exact absurd same (by decide)

/-- The text of an identifier tells its type and its key, since no type has a colon in its name. -/
theorem ItemId.text_eq_iff {id other : ItemId} :
    id.text = other.text ↔ id.type = other.type ∧ id.dimensionItem = other.dimensionItem := by
  refine ⟨fun same => ?_, fun ⟨type, key⟩ => by rw [text, text, type, key]⟩
  have before (id : ItemId) : id.text.takeWhile (· != ':') = id.type.name.toList := by
    have apart : ∀ c ∈ id.type.name.toList, (c != ':') = true := fun c member => by
      simpa using fun same : c = ':' => id.type.colon_not_mem_name (same ▸ member)
    rw [text, List.takeWhile_append_of_pos apart, List.takeWhile_cons_of_neg (by decide),
      List.append_nil]
  have type : id.type = other.type :=
    ItemType.name_injective (by rw [← before id, ← before other, same])
  refine ⟨type, ?_⟩
  rw [text, text, type] at same
  exact (List.cons.inj (List.append_cancel_left same)).2

theorem Reference.eq_of_itemId? {reference : Reference} {id : ItemId}
    (built : reference.itemId? = some id) : reference = ⟨id.type.kind, id.parts⟩ := by
  obtain ⟨kind, texts⟩ := reference
  obtain ⟨parts, -, typed⟩ := ReferenceKind.itemId?_eq_some built
  have own : texts = id.parts := List.map_injective_iff.mpr (Option.some_injective _) parts
  rw [own, ReferenceKind.kind_itemType? typed]

/-- An identifier stands for one reference. Well-formed references to items have identifiers, which
are equal just for equal references, in text as well, and the key of an identifier is that of its
reference. -/
theorem itemId?_identifies {reference other : Reference}
    (dimensional : reference.isDimensional = true) (sound : reference.problem? = none)
    (dimensional' : other.isDimensional = true) (sound' : other.problem? = none) :
    ∃ id id', reference.itemId? = some id ∧ other.itemId? = some id' ∧
      (id = id' ↔ reference = other) ∧ (id.text = id'.text ↔ id = id') ∧
      id.dimensionItem = reference.key := by
  obtain ⟨id, built⟩ := ReferenceKind.exists_itemId? dimensional sound
  obtain ⟨id', built'⟩ := ReferenceKind.exists_itemId? dimensional' sound'
  have separate := (ReferenceKind.itemId?_eq_some built).2.1
  have separate' := (ReferenceKind.itemId?_eq_some built').2.1
  refine ⟨id, id', built, built', ⟨fun same => ?_, fun same => ?_⟩, ⟨fun same => ?_, congrArg _⟩,
    ?_⟩
  · rw [Reference.eq_of_itemId? built, Reference.eq_of_itemId? built', same]
  · subst same
    exact Option.some.inj (built.symm.trans built')
  -- Points and the colon are in no part and in no type, so the text can be taken apart again.
  · obtain ⟨type, key⟩ := ItemId.text_eq_iff.mp same
    rw [separate.dimensionItem, separate'.dimensionItem] at key
    exact ReferenceKind.eq_of_parts built built' type ((separate.join_inj separate').mp key)
  · rw [separate.dimensionItem, Reference.key, Reference.eq_of_itemId? built]

/-- A wildcard is a part like others, and an identifier with it is another one. -/
theorem itemId?_identifies_wildcard :
    let wild : ItemId := ⟨.dataElementOperand, ['a'], some ['*'], none⟩
    let plain : ItemId := ⟨.dataElement, ['a'], none, none⟩
    Reference.itemId? ⟨.dataElementOperand, [['a'], ['*']]⟩ = some wild ∧
      Reference.itemId? ⟨.dataElementOperand, [['a']]⟩ = some plain ∧
      wild ≠ plain ∧ wild.text ≠ plain.text ∧ wild.dimensionItem = "a.*".toList := by
  intro wild plain
  have built : Reference.itemId? ⟨.dataElementOperand, [['a'], ['*']]⟩ = some wild := by
    decide +kernel
  have built' : Reference.itemId? ⟨.dataElementOperand, [['a']]⟩ = some plain := by decide +kernel
  obtain ⟨id, id', found, found', same, text, key⟩ :=
    @itemId?_identifies ⟨.dataElementOperand, [['a'], ['*']]⟩ ⟨.dataElementOperand, [['a']]⟩
      rfl (by decide +kernel) rfl (by decide +kernel)
  cases built.symm.trans found
  cases built'.symm.trans found'
  have apart : wild ≠ plain := fun equal => absurd (same.mp equal) (by decide)
  exact ⟨built, built', apart, fun equal => apart (text.mp equal), key.trans (by decide)⟩

end IndicatorFormula
