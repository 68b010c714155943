import ClassSchema.Fingerprint
import ClassSchema.Proofs.JsonText
import Mathlib.Data.List.Nodup

/-! # Canonical text

Compact JSON says what it is made of: two values whose numbers are JSON numbers have the same text only if
they are the same. So data has the same canonical text exactly if it is the same once the members of its maps
are sorted, and where no map repeats a name this is to say that the members are the same up to their order.
-/

namespace ClassSchema

namespace Json

mutual

/-- Whether the numbers in data are written as the reader keeps them. -/
def HasNumerals : Data → Prop
  | .number number => ∃ literal : NumberLiteral, literal.canonical.text = number
  | .list items => itemsHaveNumerals items
  | .map entries => entriesHaveNumerals entries
  | _ => True

/-- Whether the numbers in items are written as the reader keeps them. -/
def itemsHaveNumerals : List Data → Prop
  | [] => True
  | item :: rest => HasNumerals item ∧ itemsHaveNumerals rest

/-- Whether the numbers in entries are written as the reader keeps them. -/
def entriesHaveNumerals : List (String × Data) → Prop
  | [] => True
  | (_, data) :: rest => HasNumerals data ∧ entriesHaveNumerals rest

end

theorem itemsHaveNumerals_iff (items : List Data) :
    itemsHaveNumerals items ↔ ∀ item ∈ items, HasNumerals item := by
  induction items with
  | nil => simp [itemsHaveNumerals]
  | cons item rest ih => simp [itemsHaveNumerals, ih]

theorem entriesHaveNumerals_iff (entries : List (String × Data)) :
    entriesHaveNumerals entries ↔ ∀ entry ∈ entries, HasNumerals entry.2 := by
  induction entries with
  | nil => simp [entriesHaveNumerals]
  | cons entry rest ih => simp [entriesHaveNumerals, ih]

theorem entriesHaveNumerals_append (left right : List (String × Data)) :
    entriesHaveNumerals (left ++ right) ↔ entriesHaveNumerals left ∧ entriesHaveNumerals right := by
  simp only [entriesHaveNumerals_iff, List.forall_mem_append]

/-- The character that stands for all that numbers start with, and every other character for itself. -/
def opening (c : Char) : Char :=
  if c = '-' ∨ c.isDigit = true then '0' else c

/-- What the compact text of data starts with. -/
def mark : Data → Char
  | .null => 'n'
  | .bool true => 't'
  | .bool false => 'f'
  | .number _ => '0'
  | .text _ => '"'
  | .list _ => '['
  | .map _ => '\x7b'

/-- The first character of compact text tells the kind of the data. -/
theorem exists_compactChars_eq_cons {data : Data} (numerals : HasNumerals data) :
    ∃ c cs, compactChars data = c :: cs ∧ opening c = mark data := by
  cases data with
  | number number =>
    obtain ⟨literal, rfl⟩ := numerals
    obtain ⟨c, cs, split, start⟩ := literal.canonical.exists_chars_eq_cons
    refine ⟨c, cs, ?_, if_pos start⟩
    rw [compactChars, NumberLiteral.text, String.toList_ofList, split]
  | bool value => cases value <;> exact ⟨_, _, rfl, rfl⟩
  | _ => exact ⟨_, _, rfl, rfl⟩

/-- Data that starts alike is of one kind. -/
theorem mark_eq_mark {left right : Data} (leftNumerals : HasNumerals left) (rightNumerals : HasNumerals right)
    {rest others : List Char} (same : compactChars left ++ rest = compactChars right ++ others) :
    mark left = mark right := by
  obtain ⟨c, cs, leftSplit, leftMark⟩ := exists_compactChars_eq_cons leftNumerals
  obtain ⟨d, ds, rightSplit, rightMark⟩ := exists_compactChars_eq_cons rightNumerals
  rw [leftSplit, rightSplit] at same
  rw [← leftMark, ← rightMark, (List.cons.inj same).1]

/-- No data starts with a bracket that closes. -/
theorem compactChars_append_ne {data : Data} (numerals : HasNumerals data) (rest others : List Char) :
    compactChars data ++ rest ≠ ']' :: others := by
  intro same
  obtain ⟨c, cs, split, isMark⟩ := exists_compactChars_eq_cons numerals
  rw [split] at same
  obtain rfl : c = ']' := (List.cons.inj same).1
  cases data with
  | bool value => cases value <;> exact absurd isMark (by decide)
  | _ => exact absurd isMark (by simp only [mark]; decide)

theorem quote_append_inj {left right : String} {rest others : List Char}
    (same : quote left ++ rest = quote right ++ others) : left = right ∧ rest = others := by
  have read (value : String) (cs : List Char) :
      readQuoted? ((quote value ++ cs).tail) = some (value.toList, cs) := by
    rw [← readQuoted?_flatMap]
    simp [quote]
  have both := (read left rest).symm.trans (same ▸ read right others)
  obtain ⟨chars, tails⟩ := Prod.mk.inj (Option.some.inj both)
  exact ⟨String.toList_inj.mp chars, tails⟩

/-- What follows an item in a list: a bracket, or a comma and the other items. -/
def afterItem : List Data → List Char → List Char
  | [], rest => ']' :: rest
  | item :: items, rest => ',' :: (compactChars item ++ afterItem items rest)

/-- What follows an entry in a map: a brace, or a comma and the other entries. -/
def afterEntry : List (String × Data) → List Char → List Char
  | [], rest => '\x7d' :: rest
  | (key, data) :: entries, rest =>
    ',' :: (quote key ++ ':' :: (compactChars data ++ afterEntry entries rest))

/-- Behind a comma, items stand as they do behind an item. -/
theorem afterItem_cons (item : Data) (items : List Data) (rest : List Char) :
    afterItem (item :: items) rest = ',' :: (compactItems (item :: items) ++ ']' :: rest) := by
  induction items generalizing item with
  | nil => rfl
  | cons next others ih =>
    rw [afterItem, ih]
    simp [compactItems]

/-- Behind a comma, entries stand as they do behind an entry. -/
theorem afterEntry_cons (entry : String × Data) (entries : List (String × Data)) (rest : List Char) :
    afterEntry (entry :: entries) rest = ',' :: (compactEntries (entry :: entries) ++ '\x7d' :: rest) := by
  induction entries generalizing entry with
  | nil => simp [afterEntry, compactEntries]
  | cons next others ih =>
    rw [afterEntry, ih]
    simp [compactEntries]

theorem endsNumber_afterItem (items : List Data) (rest : List Char) : EndsNumber (afterItem items rest) := by
  cases items <;> exact endsNumber_cons _ (by decide)

theorem endsNumber_afterEntry (entries : List (String × Data)) (rest : List Char) :
    EndsNumber (afterEntry entries rest) := by
  cases entries <;> exact endsNumber_cons _ (by decide)

/-- Lists of one text go on alike behind an item. -/
theorem afterItem_eq_of_list {left right : List Data} (leftNumerals : HasNumerals (.list left))
    (rightNumerals : HasNumerals (.list right)) {rest others : List Char}
    (same : compactChars (.list left) ++ rest = compactChars (.list right) ++ others) :
    afterItem left rest = afterItem right others := by
  simp only [compactChars, List.cons_append, List.append_assoc, List.nil_append, List.cons.injEq,
    true_and] at same
  have starts (item : Data) (items : List Data) (numerals : HasNumerals item) (rest others : List Char) :
      compactItems (item :: items) ++ ']' :: rest ≠ ']' :: others := by
    have split := (afterItem_cons item items rest).symm.trans (by rw [afterItem])
    rw [(List.cons.inj split).2]
    exact compactChars_append_ne numerals _ _
  cases left with
  | nil =>
    cases right with
    | nil => exact same
    | cons other items => exact absurd same.symm (starts other items rightNumerals.1 others rest)
  | cons item items =>
    cases right with
    | nil => exact absurd same (starts item items leftNumerals.1 rest others)
    | cons other otherItems => rw [afterItem_cons, afterItem_cons, same]

/-- Maps of one text go on alike behind an entry. -/
theorem afterEntry_eq_of_map {left right : List (String × Data)} {rest others : List Char}
    (same : compactChars (.map left) ++ rest = compactChars (.map right) ++ others) :
    afterEntry left rest = afterEntry right others := by
  simp only [compactChars, List.cons_append, List.append_assoc, List.nil_append, List.cons.injEq,
    true_and] at same
  have starts (entry : String × Data) (entries : List (String × Data)) (rest others : List Char) :
      compactEntries (entry :: entries) ++ '\x7d' :: rest ≠ '\x7d' :: others := by
    have split := (afterEntry_cons entry entries rest).symm.trans (by rw [afterEntry])
    rw [(List.cons.inj split).2]
    simp [quote]
  cases left with
  | nil =>
    cases right with
    | nil => exact same
    | cons other entries => exact absurd same.symm (starts other entries others rest)
  | cons entry entries =>
    cases right with
    | nil => exact absurd same (starts entry entries rest others)
    | cons other otherEntries => rw [afterEntry_cons, afterEntry_cons, same]

/-- A number determines where its text ends. -/
theorem number_append_inj {left right : String} (leftNumerals : HasNumerals (.number left))
    (rightNumerals : HasNumerals (.number right)) {rest others : List Char} (ends : EndsNumber rest)
    (otherEnds : EndsNumber others) (same : left.toList ++ rest = right.toList ++ others) :
    left = right ∧ rest = others := by
  obtain ⟨literal, rfl⟩ := leftNumerals
  obtain ⟨other, rfl⟩ := rightNumerals
  simp only [NumberLiteral.text, String.toList_ofList] at same ⊢
  have read := (number?_append literal.canonical ends).symm.trans
    ((congrArg number? same).trans (number?_append other.canonical otherEnds))
  obtain ⟨_, tails⟩ := Prod.mk.inj (Option.some.inj read)
  rw [tails] at same
  exact ⟨by rw [List.append_cancel_right same], tails⟩

mutual

/-- Compact text determines the data and where its text ends, unless it goes on as a number does. -/
theorem compactChars_append_inj : ∀ (left right : Data), HasNumerals left → HasNumerals right →
    ∀ {rest others : List Char}, EndsNumber rest → EndsNumber others →
      compactChars left ++ rest = compactChars right ++ others → left = right ∧ rest = others := by
  intro left right leftNumerals rightNumerals rest others ends otherEnds same
  -- Both are of one kind, for their texts start alike.
  have marks := mark_eq_mark leftNumerals rightNumerals same
  cases left with
  | null =>
    cases right with
    | null => exact ⟨rfl, List.append_cancel_left same⟩
    | bool value => cases value <;> exact absurd marks (by decide)
    | _ => exact absurd marks (by simp only [mark]; decide)
  | bool value =>
    cases right with
    | bool other =>
      cases value <;> cases other
      case false.true | true.false => exact absurd marks (by decide)
      all_goals exact ⟨rfl, List.append_cancel_left same⟩
    | _ => cases value <;> exact absurd marks (by simp only [mark]; decide)
  | number number =>
    cases right with
    | number other =>
      obtain ⟨rfl, tails⟩ := number_append_inj leftNumerals rightNumerals ends otherEnds same
      exact ⟨rfl, tails⟩
    | bool value => cases value <;> exact absurd marks (by simp only [mark]; decide)
    | _ => exact absurd marks (by simp only [mark]; decide)
  | text value =>
    cases right with
    | text other =>
      obtain ⟨rfl, tails⟩ := quote_append_inj same
      exact ⟨rfl, tails⟩
    | bool value => cases value <;> exact absurd marks (by simp only [mark]; decide)
    | _ => exact absurd marks (by simp only [mark]; decide)
  | list items =>
    cases right with
    | list otherItems =>
      obtain ⟨rfl, tails⟩ := afterItem_inj items otherItems leftNumerals rightNumerals
        (afterItem_eq_of_list leftNumerals rightNumerals same)
      exact ⟨rfl, tails⟩
    | bool value => cases value <;> exact absurd marks (by simp only [mark]; decide)
    | _ => exact absurd marks (by simp only [mark]; decide)
  | map entries =>
    cases right with
    | map otherEntries =>
      obtain ⟨rfl, tails⟩ := afterEntry_inj entries otherEntries leftNumerals rightNumerals
        (afterEntry_eq_of_map same)
      exact ⟨rfl, tails⟩
    | bool value => cases value <;> exact absurd marks (by simp only [mark]; decide)
    | _ => exact absurd marks (by simp only [mark]; decide)
termination_by structural left => left

/-- What follows an item determines the other items. -/
theorem afterItem_inj : ∀ (left right : List Data), itemsHaveNumerals left → itemsHaveNumerals right →
    ∀ {rest others : List Char}, afterItem left rest = afterItem right others →
      left = right ∧ rest = others
  | [], [], _, _, _, _, same => ⟨rfl, (List.cons.inj same).2⟩
  | [], other :: items, _, _, rest, others, same => absurd (List.cons.inj same).1 (by decide)
  | item :: items, [], _, _, rest, others, same => absurd (List.cons.inj same).1 (by decide)
  | item :: items, other :: otherItems, numerals, otherNumerals, rest, others, same => by
    obtain ⟨rfl, tails⟩ := compactChars_append_inj item other numerals.1 otherNumerals.1
      (endsNumber_afterItem items rest) (endsNumber_afterItem otherItems others) (List.cons.inj same).2
    obtain ⟨rfl, ends⟩ := afterItem_inj items otherItems numerals.2 otherNumerals.2 tails
    exact ⟨rfl, ends⟩
termination_by structural left => left

/-- What follows an entry determines the other entries. -/
theorem afterEntry_inj : ∀ (left right : List (String × Data)), entriesHaveNumerals left →
    entriesHaveNumerals right → ∀ {rest others : List Char}, afterEntry left rest = afterEntry right others →
      left = right ∧ rest = others
  | [], [], _, _, _, _, same => ⟨rfl, (List.cons.inj same).2⟩
  | [], other :: entries, _, _, rest, others, same => absurd (List.cons.inj same).1 (by decide)
  | entry :: entries, [], _, _, rest, others, same => absurd (List.cons.inj same).1 (by decide)
  | (key, data) :: entries, (otherKey, other) :: otherEntries, numerals, otherNumerals, rest, others, same => by
    obtain ⟨rfl, behind⟩ := quote_append_inj (List.cons.inj same).2
    obtain ⟨rfl, tails⟩ := compactChars_append_inj data other numerals.1 otherNumerals.1
      (endsNumber_afterEntry entries rest) (endsNumber_afterEntry otherEntries others) (List.cons.inj behind).2
    obtain ⟨rfl, ends⟩ := afterEntry_inj entries otherEntries numerals.2 otherNumerals.2 tails
    exact ⟨rfl, ends⟩
termination_by structural left => left

end

/-- Data whose numbers are JSON numbers has a compact text of its own. -/
theorem compact_inj {left right : Data} (leftNumerals : HasNumerals left) (rightNumerals : HasNumerals right)
    (same : compact left = compact right) : left = right := by
  have chars : compactChars left = compactChars right := by
    have lists := congrArg String.toList same
    rwa [compact, compact, String.toList_ofList, String.toList_ofList] at lists
  have nothing : EndsNumber [] := by simp [EndsNumber]
  have appended : compactChars left ++ [] = compactChars right ++ [] := by rw [chars]
  exact (compactChars_append_inj left right leftNumerals rightNumerals nothing nothing appended).1

end Json

theorem canonicalItems_eq_map (items : List Data) : canonicalItems items = items.map Data.canonical := by
  induction items with
  | nil => rfl
  | cons item rest ih => rw [canonicalItems, ih, List.map_cons]

theorem canonicalEntries_eq_map (entries : List (String × Data)) :
    canonicalEntries entries = entries.map fun entry => (entry.1, entry.2.canonical) := by
  induction entries with
  | nil => rfl
  | cons entry rest ih => rw [canonicalEntries, ih, List.map_cons]

theorem keys_canonicalEntries (entries : List (String × Data)) :
    Table.keys (canonicalEntries entries) = Table.keys entries := by
  rw [canonicalEntries_eq_map, Table.keys, Table.keys, List.map_map]
  rfl

theorem sortMembers_perm (entries : List (String × Data)) : (sortMembers entries).Perm entries :=
  List.mergeSort_perm entries _

theorem pairwise_sortMembers (entries : List (String × Data)) :
    (sortMembers entries).Pairwise fun left right => left.1 ≤ right.1 := by
  have isOrder (left right : String × Data) : (!decide (right.1 < left.1)) = true ↔ left.1 ≤ right.1 := by
    rw [Bool.not_eq_true', decide_eq_false_iff_not, String.not_lt]
  unfold sortMembers
  refine (List.pairwise_mergeSort ?_ ?_ entries).imp (fun ordered => (isOrder _ _).mp ordered)
  · intro first second third
    simp only [isOrder]
    exact String.le_trans
  · intro left right
    rw [Bool.or_eq_true, isOrder, isOrder]
    exact String.le_total _ _

/-- Sorting forgets the order of members with distinct names, and nothing else. -/
theorem sortMembers_eq_iff_perm {left right : List (String × Data)} (distinct : (Table.keys left).Nodup) :
    sortMembers left = sortMembers right ↔ left.Perm right := by
  constructor
  · intro same
    exact (sortMembers_perm left).symm.trans (same ▸ sortMembers_perm right)
  · intro perm
    have members := (sortMembers_perm left).trans (perm.trans (sortMembers_perm right).symm)
    refine List.Perm.eq_of_pairwise ?_ (pairwise_sortMembers left) (pairwise_sortMembers right) members
    intro entry other isLeft isRight before after
    have inLeft := (sortMembers_perm left).mem_iff.mp isLeft
    have otherInLeft := perm.mem_iff.mpr ((sortMembers_perm right).mem_iff.mp isRight)
    exact List.inj_on_of_nodup_map distinct inLeft otherInLeft (String.le_antisymm before after)

theorem Data.canonical_map_eq_iff {left right : List (String × Data)} (distinct : (Table.keys left).Nodup) :
    (Data.map left).canonical = (Data.map right).canonical ↔
      (canonicalEntries left).Perm (canonicalEntries right) := by
  rw [← keys_canonicalEntries] at distinct
  rw [Data.canonical, Data.canonical, Data.map.injEq, sortMembers_eq_iff_perm distinct]

/-- The members of a map; other data has none. -/
def Data.members : Data → List (String × Data)
  | .map entries => entries
  | _ => []

/-- Data that is the same up to order has the same members. -/
theorem Data.canonical_member_eq {left right : Data} (distinct : (Table.keys left.members).Nodup)
    (same : left.canonical = right.canonical) (name : String) :
    (Table.get? left.members name).map canonical = (Table.get? right.members name).map canonical := by
  cases left with
  | map entries =>
    cases right with
    | map others =>
      have perm := (canonical_map_eq_iff distinct).mp same
      have found := Table.get?_of_perm perm (keys_canonicalEntries entries ▸ distinct) name
      rwa [canonicalEntries_eq_map, canonicalEntries_eq_map, Table.get?_map, Table.get?_map] at found
    | _ => cases same
  | _ =>
    cases right with
    | map others => cases same
    | _ => rfl

mutual

theorem Json.hasNumerals_canonical : ∀ data : Data, HasNumerals data → HasNumerals data.canonical
  | .null, _ | .bool _, _ | .text _, _ => trivial
  | .number _, numerals => numerals
  | .list items, numerals => itemsHaveNumerals_canonicalItems items numerals
  | .map entries, numerals => by
    have each := entriesHaveNumerals_canonicalEntries entries numerals
    rw [entriesHaveNumerals_iff] at each
    rw [Data.canonical, HasNumerals, entriesHaveNumerals_iff]
    exact fun entry member => each entry ((sortMembers_perm _).mem_iff.mp member)

theorem Json.itemsHaveNumerals_canonicalItems : ∀ items : List Data, itemsHaveNumerals items →
    itemsHaveNumerals (canonicalItems items)
  | [], _ => trivial
  | item :: rest, numerals =>
    ⟨hasNumerals_canonical item numerals.1, itemsHaveNumerals_canonicalItems rest numerals.2⟩

theorem Json.entriesHaveNumerals_canonicalEntries : ∀ entries : List (String × Data),
    entriesHaveNumerals entries → entriesHaveNumerals (canonicalEntries entries)
  | [], _ => trivial
  | (_, data) :: rest, numerals =>
    ⟨hasNumerals_canonical data numerals.1, entriesHaveNumerals_canonicalEntries rest numerals.2⟩

end

/-- Data has the same canonical text exactly if it is the same once the members of its maps are sorted. -/
theorem Data.canonicalText_eq_iff {left right : Data} (leftNumerals : Json.HasNumerals left)
    (rightNumerals : Json.HasNumerals right) :
    left.canonicalText = right.canonicalText ↔ left.canonical = right.canonical := by
  constructor
  · exact Json.compact_inj (Json.hasNumerals_canonical left leftNumerals)
      (Json.hasNumerals_canonical right rightNumerals)
  · intro same
    rw [canonicalText, canonicalText, same]

end ClassSchema
