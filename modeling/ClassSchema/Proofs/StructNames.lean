import ClassSchema.Proofs.Artifacts
import ClassSchema.Proofs.DeclaredAttributes
import ClassSchema.Struct.Source

/-! # Names of structs and fields

A struct is named with the capitalized words of its class's name, a field with the lower-case words of its
attribute's. So two names of structs or fields agree exactly if the words do, up to the underscore behind a keyword
that may not be raw. For names of ASCII letters, digits and underscores, all names of fields are names in Rust, and
so are those of structs, except that keywords with a capital are not looked for.
-/

namespace ClassSchema

section Names

/-- Whether a character is a letter or a digit of ASCII, or an underscore. -/
def isNameChar (c : Char) : Bool :=
  c.isAlphanum || c == '_'

/-- Whether a name is an identifier of ASCII that says something: it has letters, digits and underscores only, does
not start with a digit, and not all of it are underscores. -/
def IsAsciiName (name : String) : Prop :=
  (name.toList.head?.all fun c => !c.isDigit) = true ∧ name.toList.all isNameChar = true ∧
    name.toList.any Char.isAlphanum = true

instance : DecidablePred IsAsciiName :=
  fun _ => inferInstanceAs (Decidable (_ ∧ _ ∧ _))

/-- What holds of the name characters of ASCII holds of all name characters. -/
theorem forall_nameChar (holds : Char → Prop)
    (each : ∀ n < 128, isNameChar (Char.ofNat n) = true → holds (Char.ofNat n)) {c : Char}
    (isName : isNameChar c = true) : holds c := by
  have inside : c.toNat < 128 := by
    have ranges : isNameChar c = (decide ('A'.val ≤ c.val ∧ c.val ≤ 'Z'.val) ||
        decide ('a'.val ≤ c.val) && decide (c.val ≤ 'z'.val) ||
        decide ('0'.val ≤ c.val) && decide (c.val ≤ '9'.val) || c == '_') := rfl
    simp only [ranges, Bool.or_eq_true, Bool.and_eq_true, decide_eq_true_eq, beq_iff_eq,
      UInt32.le_iff_toNat_le] at isName
    rcases isName with ((⟨_, most⟩ | ⟨_, most⟩) | ⟨_, most⟩) | rfl
    · exact Nat.lt_of_le_of_lt most (by decide)
    · exact Nat.lt_of_le_of_lt most (by decide)
    · exact Nat.lt_of_le_of_lt most (by decide)
    · decide
  rw [← Char.ofNat_toNat c] at isName ⊢
  exact each c.toNat inside isName

/-- What becomes of a name character in lower case and in upper case. -/
structure HasCases (c : Char) : Prop where
  isName_toLower : isNameChar c.toLower = true
  isDigit_toLower : c.toLower.isDigit = c.isDigit
  isAlphanum_toLower : c.toLower.isAlphanum = c.isAlphanum
  toLower_of_not_isUpper : c.isUpper = false → c.toLower = c
  isAlphanum_toUpper : c.isAlphanum = true → c.toUpper.isAlphanum = true
  isLower_toUpper : c.isAlphanum = true → c.toUpper.isLower = false
  toUpper_of_isUpper : c.isUpper = true → c.toUpper = c
  notSmall_of_isUpper : c.isUpper = true → (c.isLower || c.isDigit) = false

theorem hasCases {c : Char} (isName : isNameChar c = true) : HasCases c := by
  -- all in one, so that the characters are gone through once
  have checked := forall_nameChar (fun c => (isNameChar c.toLower = true ∧ c.toLower.isDigit = c.isDigit ∧
    c.toLower.isAlphanum = c.isAlphanum) ∧ (c.isUpper = false → c.toLower = c) ∧
    (c.isAlphanum = true → c.toUpper.isAlphanum = true ∧ c.toUpper.isLower = false) ∧
    (c.isUpper = true → c.toUpper = c ∧ (c.isLower || c.isDigit) = false)) (by decide +kernel) isName
  obtain ⟨⟨isNameToo, isDigit, isAlphanum⟩, small, raised, capital⟩ := checked
  exact ⟨isNameToo, isDigit, isAlphanum, small, fun is => (raised is).1, fun is => (raised is).2,
    fun is => (capital is).1, fun is => (capital is).2⟩

theorem isNameChar_of_isAlphanum {c : Char} (isAlphanum : c.isAlphanum = true) : isNameChar c = true := by
  rw [isNameChar, isAlphanum, Bool.true_or]

end Names

section PascalCase

/-- A word with a capital, if it starts with a letter. -/
def capitalized : List Char → List Char
  | [] => []
  | c :: rest => c.toUpper :: rest

/-- The words of a name, which is cut at all but letters and digits, put together with capitals. -/
def capitalizedWords (name : String) : String :=
  String.ofList ((name.toList.splitOnP fun c => !c.isAlphanum).flatMap capitalized)

theorem pascalChars_eq (cs : List Char) :
    pascalChars true cs = (cs.splitOnP fun c => !c.isAlphanum).flatMap capitalized ∧
      pascalChars false cs = (cs.splitOnP fun c => !c.isAlphanum).headD [] ++
        (cs.splitOnP fun c => !c.isAlphanum).tail.flatMap capitalized := by
  induction cs with
  | nil => simp [pascalChars, capitalized]
  | cons c rest ih =>
    rw [List.splitOnP_cons_eq_if_modifyHead]
    have nonempty := List.splitOnP_ne_nil (fun c => !c.isAlphanum) rest
    by_cases isAlphanum : c.isAlphanum = true
    · simp only [pascalChars, isAlphanum, Bool.not_true, Bool.false_eq_true, if_false, if_true, ih.2]
      cases words : rest.splitOnP fun c => !c.isAlphanum with
      | nil => exact absurd words nonempty
      | cons word others => simp [capitalized]
    · simp only [Bool.not_eq_true] at isAlphanum
      simp [pascalChars, isAlphanum, ih.1, capitalized]

theorem isAlphanum_of_mem_pascalChars {startsWord : Bool} {cs : List Char} {c : Char}
    (member : c ∈ pascalChars startsWord cs) : c.isAlphanum = true := by
  induction cs generalizing startsWord with
  | nil => cases member
  | cons first rest ih =>
    rw [pascalChars] at member
    split at member
    · exact ih member
    · rename_i isAlphanum
      simp only [Bool.not_eq_true', Bool.not_eq_false] at isAlphanum
      rcases List.mem_cons.mp member with rfl | later
      · split
        · exact (hasCases (isNameChar_of_isAlphanum isAlphanum)).isAlphanum_toUpper isAlphanum
        · exact isAlphanum
      · exact ih later

/-- The name of a struct consists of the capitalized words, with an underscore in front of a digit. -/
theorem pascalCase_eq (name : String) :
    pascalCase name = String.ofList (guardDigit (capitalizedWords name).toList) := by
  rw [pascalCase, (pascalChars_eq _).1, capitalizedWords, String.toList_ofList]

theorem underscore_not_mem_capitalizedWords (name : String) : '_' ∉ (capitalizedWords name).toList := by
  rw [capitalizedWords, String.toList_ofList, ← (pascalChars_eq _).1]
  intro member
  exact absurd (isAlphanum_of_mem_pascalChars member) (by decide)

/-- The underscore in front of a digit can be told from what stands behind it. -/
theorem guardDigit_eq_iff {left right : List Char} (leftPlain : '_' ∉ left) (rightPlain : '_' ∉ right) :
    guardDigit left = guardDigit right ↔ left = right := by
  refine ⟨fun same => ?_, fun same => by rw [same]⟩
  cases left with
  | nil =>
    cases right with
    | nil => rfl
    | cons c rest =>
      simp only [guardDigit] at same
      split at same <;> cases same
  | cons c rest =>
    cases right with
    | nil =>
      simp only [guardDigit] at same
      split at same <;> cases same
    | cons d others =>
      simp only [guardDigit] at same
      split at same <;> split at same
      · exact (List.cons.inj same).2
      · rw [← (List.cons.inj same).1] at rightPlain
        exact absurd List.mem_cons_self rightPlain
      · rw [(List.cons.inj same).1] at leftPlain
        exact absurd List.mem_cons_self leftPlain
      · exact same

/-- Two structs have one name exactly if the capitalized words of their classes are the same. -/
theorem pascalCase_eq_iff (left right : String) :
    pascalCase left = pascalCase right ↔ capitalizedWords left = capitalizedWords right := by
  rw [pascalCase_eq, pascalCase_eq, String.ofList_inj, guardDigit_eq_iff (underscore_not_mem_capitalizedWords _)
    (underscore_not_mem_capitalizedWords _), String.toList_inj]

/-- A struct has a name that does not start with an underscore exactly if the capitalized words spell it. -/
theorem pascalCase_eq_iff_capitalizedWords (name : String) {text : String} (plain : '_' ∉ text.toList)
    (noDigit : text.toList.head?.all (fun c => !c.isDigit) = true) :
    pascalCase name = text ↔ capitalizedWords name = text := by
  have unguarded : guardDigit text.toList = text.toList := by
    cases chars : text.toList with
    | nil => rfl
    | cons c rest =>
      rw [chars] at noDigit
      simp only [List.head?_cons, Option.all_some, Bool.not_eq_true'] at noDigit
      simp [guardDigit, noDigit]
  have guarded := guardDigit_eq_iff (underscore_not_mem_capitalizedWords name) plain
  rw [unguarded] at guarded
  rw [pascalCase_eq, ← String.toList_inj, String.toList_ofList, guarded, String.toList_inj]

/-- A name of letters and digits that starts with no small letter and no digit is the name of its struct. -/
theorem pascalCase_of_capital {name : String} (isAlphanum : name.toList.all Char.isAlphanum = true)
    (isCapital : name.toList.head?.all Char.isUpper = true) : pascalCase name = name := by
  have kept {cs : List Char} (each : ∀ c ∈ cs, c.isAlphanum = true) : pascalChars false cs = cs := by
    induction cs with
    | nil => rfl
    | cons c rest ih =>
      obtain ⟨first, others⟩ := List.forall_mem_cons.mp each
      simp [pascalChars, first, ih others]
  rw [pascalCase, ← String.toList_inj, String.toList_ofList]
  cases chars : name.toList with
  | nil => rfl
  | cons c rest =>
    rw [chars, List.all_cons, Bool.and_eq_true, List.all_eq_true] at isAlphanum
    rw [chars, List.head?_cons, Option.all_some] at isCapital
    have letter := hasCases (isNameChar_of_isAlphanum isAlphanum.1)
    have noDigit := (Bool.or_eq_false_iff.mp (letter.notSmall_of_isUpper isCapital)).2
    simp [pascalChars, isAlphanum.1, letter.toUpper_of_isUpper isCapital, noDigit, kept isAlphanum.2, guardDigit]

end PascalCase

section SnakeCase

/-- The characters with an underscore in front of each capital that follows a small letter or a digit. -/
def separateWords : List Char → List Char
  | c :: d :: rest =>
    if (c.isLower || c.isDigit) && d.isUpper then c :: '_' :: separateWords (d :: rest)
    else c :: separateWords (d :: rest)
  | cs => cs

/-- The words of a name, separated and in lower case. -/
def lowerWords (name : String) : String :=
  String.ofList ((separateWords name.toList).map Char.toLower)

theorem snakeChars_cons (followsLower : Bool) {c : Char} (isName : isNameChar c = true) (rest : List Char) :
    snakeChars followsLower (c :: rest) =
      (if followsLower && c.isUpper then ['_'] else []) ++ c.toLower :: snakeChars (c.isLower || c.isDigit) rest := by
  rw [snakeChars]
  by_cases isUpper : c.isUpper = true
  · have notSmall := (hasCases isName).notSmall_of_isUpper isUpper
    cases followsLower <;> simp [isUpper, notSmall]
  · simp only [Bool.not_eq_true] at isUpper
    simp only [isUpper, Bool.and_false, Bool.false_eq_true, if_false, List.nil_append,
      (hasCases isName).toLower_of_not_isUpper isUpper]
    by_cases isAlphanum : c.isAlphanum = true
    · simp [isAlphanum]
    · obtain rfl : c = '_' := by simpa [isNameChar, isAlphanum] using isName
      rfl

theorem separateWords_cons (c : Char) (rest : List Char) : separateWords (c :: rest) =
    c :: ((if (c.isLower || c.isDigit) && rest.head?.any Char.isUpper then ['_'] else []) ++ separateWords rest) := by
  cases rest with
  | nil => simp [separateWords]
  | cons d others =>
    rw [separateWords]
    split <;> simp_all

theorem map_toLower_separateWords {c : Char} {rest : List Char} (isName : isNameChar c = true)
    (areNames : ∀ d ∈ rest, isNameChar d = true) :
    (separateWords (c :: rest)).map Char.toLower = c.toLower :: snakeChars (c.isLower || c.isDigit) rest := by
  induction rest generalizing c with
  | nil => rfl
  | cons d others ih =>
    obtain ⟨isNext, areOthers⟩ := List.forall_mem_cons.mp areNames
    rw [separateWords_cons, snakeChars_cons _ isNext, List.map_cons, List.map_append, ih isNext areOthers]
    have marked : ∀ starts : Bool, (if starts then ['_'] else []).map Char.toLower = if starts then ['_'] else [] := by
      decide
    rw [marked]
    rfl

theorem mem_separateWords_iff {cs : List Char} {c : Char} (differs : c ≠ '_') : c ∈ separateWords cs ↔ c ∈ cs := by
  induction cs with
  | nil => simp [separateWords]
  | cons first rest ih =>
    rw [separateWords_cons]
    split <;> simp [ih, differs]

/-- Whether characters are a word of Rust, or a keyword: letters, digits and underscores of ASCII that do not start
with a digit, and not just one underscore. -/
def IsWord (cs : List Char) : Prop :=
  (cs.head?.any fun c => c.isAlpha || c == '_') = true ∧ cs.all isNameChar = true ∧ cs ≠ ['_']

instance : DecidablePred IsWord :=
  fun _ => inferInstanceAs (Decidable (_ ∧ _ ∧ _))

theorem isWord_of_speaks {c : Char} {rest : List Char} (noDigit : c.isDigit = false)
    (areNames : ∀ d ∈ c :: rest, isNameChar d = true) (speaks : ∃ d ∈ c :: rest, d.isAlphanum = true) :
    IsWord (c :: rest) := by
  refine ⟨?_, List.all_eq_true.mpr areNames, ?_⟩
  · have isName := areNames c List.mem_cons_self
    simpa [isNameChar, Char.isAlphanum, noDigit] using isName
  · rintro same
    obtain ⟨d, member, isAlphanum⟩ := speaks
    rw [same] at member
    rw [List.mem_singleton.mp member] at isAlphanum
    cases isAlphanum

/-- In a name, the words in snake case are the words in lower case. -/
theorem snakeCase_eq {name : String} (isName : IsAsciiName name) : snakeCase name = lowerWords name := by
  obtain ⟨noDigit, areNames, speaks⟩ := isName
  rw [snakeCase, lowerWords]
  congr 1
  cases chars : name.toList with
  | nil =>
    rw [chars] at speaks
    cases speaks
  | cons c rest =>
    rw [chars, List.all_cons, Bool.and_eq_true, List.all_eq_true] at areNames
    rw [chars, List.head?_cons, Option.all_some, Bool.not_eq_true'] at noDigit
    rw [snakeChars_cons false areNames.1, map_toLower_separateWords areNames.1 areNames.2]
    simp [guardDigit, (hasCases areNames.1).isDigit_toLower, noDigit]

/-- The lower-case words of a name are a word. -/
theorem isWord_lowerWords {name : String} (isName : IsAsciiName name) : IsWord (lowerWords name).toList := by
  obtain ⟨noDigit, areNames, speaks⟩ := isName
  have each : ∀ d ∈ separateWords name.toList, isNameChar d = true := by
    intro d member
    by_cases underscore : d = '_'
    · rw [underscore]
      rfl
    · exact List.all_eq_true.mp areNames d ((mem_separateWords_iff underscore).mp member)
  rw [lowerWords, String.toList_ofList]
  obtain ⟨d, member, isAlphanum⟩ := List.any_eq_true.mp speaks
  have kept : d ∈ separateWords name.toList :=
    (mem_separateWords_iff (by rintro rfl; cases isAlphanum)).mpr member
  have stillSpeaks : ∃ lower ∈ (separateWords name.toList).map Char.toLower, lower.isAlphanum = true :=
    ⟨d.toLower, List.mem_map_of_mem kept, by rw [(hasCases (each d kept)).isAlphanum_toLower, isAlphanum]⟩
  have stillNames : ∀ lower ∈ (separateWords name.toList).map Char.toLower, isNameChar lower = true :=
    List.forall_mem_map.mpr fun d member => (hasCases (each d member)).isName_toLower
  cases chars : name.toList with
  | nil =>
    rw [chars] at member
    cases member
  | cons c rest =>
    rw [chars, separateWords_cons, List.map_cons] at stillSpeaks stillNames
    rw [chars] at noDigit areNames
    rw [separateWords_cons, List.map_cons]
    have isFirst : isNameChar c = true := List.all_eq_true.mp areNames c List.mem_cons_self
    refine isWord_of_speaks ?_ stillNames stillSpeaks
    rw [(hasCases isFirst).isDigit_toLower]
    simpa using noDigit

end SnakeCase

section RustNames

/-- The words that no identifier may be: the keywords in use and those that are reserved. -/
def reservedWords : List String :=
  ["abstract", "as", "async", "await", "become", "box", "break", "const", "continue", "crate", "do", "dyn", "else",
   "enum", "extern", "false", "final", "fn", "for", "if", "impl", "in", "let", "loop", "macro", "match", "mod",
   "move", "mut", "override", "priv", "pub", "ref", "return", "self", "Self", "static", "struct", "super", "trait",
   "true", "try", "type", "typeof", "unsafe", "unsized", "use", "virtual", "where", "while", "yield"]

/-- The words that may not stand behind the mark of a raw identifier either. -/
def neverRawWords : List String :=
  ["crate", "self", "Self", "super"]

/-- Whether a text is a name in Rust: an identifier that is no keyword, or a raw identifier. -/
def IsRustName (text : String) : Prop :=
  (IsWord text.toList ∧ text ∉ reservedWords) ∨
    ∃ word : String, text = "r#" ++ word ∧ IsWord word.toList ∧ word ∉ neverRawWords

/-- What the keywords are like: those that get an underscore become words that are none, all that are reserved are
escaped, and all but one of them start with a small letter. -/
theorem keywords_spec :
    (∀ word ∈ pathKeywords, IsWord (word ++ "_").toList ∧ word ++ "_" ∉ reservedWords ∧ word ++ "_" ∉ pathKeywords ∧
      word ++ "_" ∉ keywords) ∧
    ∀ word ∈ reservedWords, (word ∈ pathKeywords ∨ word ∈ keywords) ∧
      (word = "Self" ∨ word.toList.head?.any Char.isLower = true) := by
  decide +kernel

namespace RenderProfile

/-- What the default profile makes of a word. -/
theorem escapeKeyword_cases (word : String) :
    (word ∈ pathKeywords ∧ escapeKeyword {} word = word ++ "_") ∨
      (word ∉ pathKeywords ∧ word ∈ keywords ∧ escapeKeyword {} word = "r#" ++ word) ∨
      (word ∉ pathKeywords ∧ word ∉ keywords ∧ escapeKeyword {} word = word) := by
  unfold escapeKeyword
  by_cases isPath : word ∈ pathKeywords
  · simp [isPath]
  · by_cases isKeyword : word ∈ keywords <;> simp [isPath, isKeyword]

/-- With the default profile, every word becomes a name in Rust. -/
theorem isRustName_escapeKeyword {word : String} (isWord : IsWord word.toList) :
    IsRustName (escapeKeyword {} word) := by
  rcases escapeKeyword_cases word with ⟨isPath, escaped⟩ | ⟨notPath, _, escaped⟩ | ⟨notPath, notKeyword, escaped⟩ <;>
    rw [escaped]
  · obtain ⟨isWordToo, notReserved, _⟩ := keywords_spec.1 word isPath
    exact .inl ⟨isWordToo, notReserved⟩
  · have never : ∀ word ∈ neverRawWords, word ∈ pathKeywords := by decide
    exact .inr ⟨word, rfl, isWord, fun isNever => notPath (never word isNever)⟩
  · exact .inl ⟨isWord, fun reserved => (keywords_spec.2 word reserved).1.elim notPath notKeyword⟩

/-- Whether a word is a keyword that is escaped by an underscore, and another one is what it becomes. -/
def IsEscapedBy (word other : String) : Prop :=
  word ∈ pathKeywords ∧ other = word ++ "_"

/-- Different words become one name exactly if one of them is what the other one is escaped by. -/
theorem escapeKeyword_eq_iff {left right : String} (isLeft : IsWord left.toList) (isRight : IsWord right.toList) :
    escapeKeyword {} left = escapeKeyword {} right ↔
      left = right ∨ IsEscapedBy left right ∨ IsEscapedBy right left := by
  have noMark {word rest : String} (isWord : IsWord word.toList) : word ≠ "r#" ++ rest := by
    rintro rfl
    have marks := List.all_eq_true.mp isWord.2.1 '#' (by simp)
    cases marks
  have plain : ∀ word ∈ pathKeywords, word ++ "_" ∉ pathKeywords ∧ word ++ "_" ∉ keywords ∧
      ∀ rest : String, word ++ "_" ≠ "r#" ++ rest := by
    intro word isPath
    obtain ⟨isWord, _, notPath, notKeyword⟩ := keywords_spec.1 word isPath
    exact ⟨notPath, notKeyword, fun rest => noMark isWord⟩
  constructor
  · intro same
    rcases escapeKeyword_cases left with ⟨leftPath, escaped⟩ | ⟨_, _, escaped⟩ | ⟨_, _, escaped⟩ <;>
      rcases escapeKeyword_cases right with ⟨rightPath, escapedToo⟩ | ⟨_, _, escapedToo⟩ | ⟨_, _, escapedToo⟩ <;>
      rw [escaped, escapedToo] at same
    · exact .inl (by simpa using same)
    · exact absurd same ((plain left leftPath).2.2 right)
    · exact .inr (.inl ⟨leftPath, same.symm⟩)
    · exact absurd same.symm ((plain right rightPath).2.2 left)
    · exact .inl (by simpa using same)
    · exact absurd same.symm (noMark isRight)
    · exact .inr (.inr ⟨rightPath, same⟩)
    · exact absurd same (noMark isLeft)
    · exact .inl same
  · have escapes {word other : String} (escaped : IsEscapedBy word other) :
        escapeKeyword {} word = escapeKeyword {} other := by
      obtain ⟨isPath, rfl⟩ := escaped
      obtain ⟨notPath, notKeyword, _⟩ := plain word isPath
      simp [escapeKeyword, isPath, notPath, notKeyword]
    rintro (rfl | escaped | escaped)
    · rfl
    · exact escapes escaped
    · exact (escapes escaped).symm

end RenderProfile

theorem pascalChars_ne_nil (startsWord : Bool) {cs : List Char} (speaks : ∃ c ∈ cs, c.isAlphanum = true) :
    pascalChars startsWord cs ≠ [] := by
  induction cs generalizing startsWord with
  | nil => simp at speaks
  | cons c rest ih =>
    rw [pascalChars]
    split
    · rename_i isCut
      obtain ⟨d, member, isAlphanum⟩ := speaks
      rcases List.mem_cons.mp member with rfl | later
      · simp [isAlphanum] at isCut
      · exact ih true ⟨d, later, isAlphanum⟩
    · exact List.cons_ne_nil _ _

/-- Words in Pascal case start with no small letter. -/
theorem isLower_of_pascalChars {cs rest : List Char} {c : Char} (starts : pascalChars true cs = c :: rest) :
    c.isLower = false := by
  induction cs with
  | nil => cases starts
  | cons first others ih =>
    rw [pascalChars] at starts
    split at starts
    · exact ih starts
    · rename_i isAlphanum
      simp only [Bool.not_eq_true', Bool.not_eq_false] at isAlphanum
      rw [← (List.cons.inj starts).1]
      exact (hasCases (isNameChar_of_isAlphanum isAlphanum)).isLower_toUpper isAlphanum

/-- The name of a struct is a word that starts with no small letter. -/
theorem isWord_pascalCase {name : String} (isName : IsAsciiName name) :
    IsWord (pascalCase name).toList ∧ (pascalCase name).toList.head?.any Char.isLower = false := by
  obtain ⟨_, _, speaks⟩ := isName
  have nonempty := pascalChars_ne_nil true (List.any_eq_true.mp speaks)
  rw [pascalCase, String.toList_ofList]
  cases chars : pascalChars true name.toList with
  | nil => exact absurd chars nonempty
  | cons c rest =>
    have each : ∀ d ∈ c :: rest, d.isAlphanum = true :=
      fun d member => isAlphanum_of_mem_pascalChars (chars ▸ member)
    have areNames : ∀ d ∈ c :: rest, isNameChar d = true := by
      intro d member
      exact isNameChar_of_isAlphanum (each d member)
    have speaksToo : ∃ d ∈ c :: rest, d.isAlphanum = true := ⟨c, List.mem_cons_self, each c List.mem_cons_self⟩
    rw [guardDigit]
    by_cases isDigit : c.isDigit = true
    · rw [if_pos isDigit]
      refine ⟨isWord_of_speaks rfl (List.forall_mem_cons.mpr ⟨rfl, areNames⟩) ?_, rfl⟩
      exact ⟨c, List.mem_cons_of_mem _ List.mem_cons_self, each c List.mem_cons_self⟩
    · rw [if_neg isDigit]
      refine ⟨isWord_of_speaks (by simpa using isDigit) areNames speaksToo, ?_⟩
      rw [List.head?_cons, Option.any_some, isLower_of_pascalChars chars]

/-- The name of a struct is a name in Rust, unless it is the one keyword with a capital. -/
theorem isRustName_pascalCase {name : String} (isName : IsAsciiName name) (differs : pascalCase name ≠ "Self") :
    IsRustName (pascalCase name) := by
  obtain ⟨isWord, noLower⟩ := isWord_pascalCase isName
  refine .inl ⟨isWord, fun reserved => ?_⟩
  rcases (keywords_spec.2 _ reserved).2 with isSelf | isLower
  · exact differs isSelf
  · rw [noLower] at isLower
    cases isLower

end RustNames

section Compiled

/-- Whether the names of classes and attributes in a document are identifiers of ASCII. -/
def Document.HasAsciiNames (document : Document) : Prop :=
  ∀ entry ∈ document.classes, IsAsciiName entry.1 ∧ ∀ attr ∈ entry.2.attributes, IsAsciiName attr.name

instance (document : Document) : Decidable document.HasAsciiNames :=
  inferInstanceAs (Decidable (∀ entry ∈ document.classes, _ ∧ ∀ attr ∈ entry.2.attributes, _))

/-- The names of classes and fields in a model are those of the document. -/
theorem ObjectModel.isAsciiName_of_ofDocument {document : Document} {model : ObjectModel}
    (modelled : ofDocument document = .ok model) (areNames : document.HasAsciiNames) {classModel : ClassModel}
    (isClass : classModel ∈ model.classes.values) :
    IsAsciiName classModel.name ∧ ∀ field ∈ classModel.fields, IsAsciiName field.name := by
  obtain ⟨resolver, resolves, classes, each, rfl⟩ := ofDocument_eq_ok_iff.mp modelled
  obtain ⟨result, isResult, rfl⟩ := List.mem_map.mp isClass
  obtain ⟨entry, isEntry, resolved, success, rfl⟩ := exists_of_mem_forall₂ each isResult
  refine ⟨(areNames entry isEntry).1, fun field isField => ?_⟩
  obtain ⟨result, isResult, rfl⟩ := List.mem_map.mp isField
  have induced := RangeResolver.inducedAttributes_of_resolveClass success
  rw [RangeResolver.document_of_ofDocument resolves] at induced
  obtain ⟨definition, isDefinition, declares⟩ :=
    Document.exists_declares_of_mem_inducedAttributes induced (List.mem_map_of_mem isResult)
  obtain ⟨declaring, isDeclaring, rfl⟩ := List.mem_map.mp isDefinition
  exact (areNames declaring isDeclaring).2 result.attr declares

/-- Of a compiled schema whose names are identifiers of ASCII, with the default profile: two structs have one name
exactly if the capitalized words of their classes are the same, so that names of letters and digits that start with a
capital stay apart; the name of a struct is a name in Rust unless it is the one keyword with a capital, and it is that
of a type in fields exactly if the capitalized words spell it. The name of a field is a name in Rust, and two fields of
a struct have one name exactly if the lower-case words of their attributes are the same, or are a keyword that may not
be raw and that keyword with an underscore. -/
theorem Compilation.structNames_follow_words {settings : Settings} {document : Document} {compilation : Compilation}
    (compiled : ofDocument settings document = .ok compilation) (isDefault : settings.profile = {})
    (areNames : document.HasAsciiNames) :
    (∀ one ∈ compilation.model.classes.values, ∀ other ∈ compilation.model.classes.values,
      pascalCase one.name = pascalCase other.name ↔ capitalizedWords one.name = capitalizedWords other.name) ∧
    (∀ one ∈ compilation.model.classes.values, one.name.toList.all Char.isAlphanum = true →
      one.name.toList.head?.all Char.isUpper = true → pascalCase one.name = one.name) ∧
    (∀ one ∈ compilation.model.classes.values, pascalCase one.name ≠ "Self" → IsRustName (pascalCase one.name)) ∧
    (∀ one ∈ compilation.model.classes.values, ∀ type ∈ ["String", "Option", "Vec", "Box"],
      pascalCase one.name = type ↔ capitalizedWords one.name = type) ∧
    ∀ one ∈ compilation.model.classes.values, ∀ field ∈ one.fields,
      IsRustName (Struct.fieldName settings.profile field) ∧ ∀ other ∈ one.fields,
        (Struct.fieldName settings.profile field = Struct.fieldName settings.profile other ↔
          lowerWords field.name = lowerWords other.name ∨
            RenderProfile.IsEscapedBy (lowerWords field.name) (lowerWords other.name) ∨
            RenderProfile.IsEscapedBy (lowerWords other.name) (lowerWords field.name)) := by
  have modelled := (parts_of_ofDocument compiled).1
  have areAscii {one : ClassModel} (isClass : one ∈ compilation.model.classes.values) :=
    ObjectModel.isAsciiName_of_ofDocument modelled areNames isClass
  refine ⟨fun one _ other _ => pascalCase_eq_iff _ _, fun one _ => pascalCase_of_capital,
    fun one isClass => isRustName_pascalCase (areAscii isClass).1, fun one _ type listed => ?_,
    fun one isClass field isField => ?_⟩
  · have plain : ∀ type ∈ ["String", "Option", "Vec", "Box"], '_' ∉ type.toList ∧
        type.toList.head?.all (fun c => !c.isDigit) = true := by decide
    exact pascalCase_eq_iff_capitalizedWords one.name (plain type listed).1 (plain type listed).2
  · have named {field : Field} (isField : field ∈ one.fields) : Struct.fieldName settings.profile field =
        RenderProfile.escapeKeyword {} (lowerWords field.name) := by
      rw [Struct.fieldName, isDefault, snakeCase_eq ((areAscii isClass).2 field isField)]
    have isWord {field : Field} (isField : field ∈ one.fields) : IsWord (lowerWords field.name).toList :=
      isWord_lowerWords ((areAscii isClass).2 field isField)
    rw [named isField]
    refine ⟨RenderProfile.isRustName_escapeKeyword (isWord isField), fun other isOther => ?_⟩
    rw [named isOther]
    exact RenderProfile.escapeKeyword_eq_iff (isWord isField) (isWord isOther)

/-- Offices have a postal code, a type and themselves for attributes. -/
def Document.offices : Document :=
  { blank with
    id := "s"
    name := "s"
    defaultRange? := some "string"
    classes := [("postal_office", ⟨"postal_office", none, none, none,
      [⟨"postalCode", "", false, true, false, none, none⟩, ⟨"type", "", false, false, false, none, none⟩,
       ⟨"self", "postal_office", false, false, false, none, none⟩]⟩)] }

theorem Compilation.structNames_follow_words_offices : ∃ compilation office field,
    ofDocument {} .offices = .ok compilation ∧ ({} : Settings).profile = {} ∧ Document.offices.HasAsciiNames ∧
      office ∈ compilation.model.classes.values ∧ office.name = "postal_office" ∧ field ∈ office.fields ∧
      pascalCase office.name = "PostalOffice" ∧ pascalCase office.name ≠ "Self" ∧
      office.fields.map (Struct.fieldName {}) = ["postal_code", "r#type", "self_"] ∧
      IsRustName (pascalCase office.name) ∧ IsRustName (Struct.fieldName {} field) ∧
      (pascalCase office.name = pascalCase office.name ↔
        capitalizedWords office.name = capitalizedWords office.name) ∧
      (pascalCase office.name = "String" ↔ capitalizedWords office.name = "String") := by
  have checked : Document.offices.HasAsciiNames ∧ (ofDocument {} .offices).isOk = true ∧
      ((ofDocument {} .offices).toOption.bind fun compilation =>
        compilation.model.classes.values.head?.map fun office =>
          (office.name, pascalCase office.name, office.fields.map (Struct.fieldName {}))) =
        some ("postal_office", "PostalOffice", ["postal_code", "r#type", "self_"]) := by decide +kernel
  obtain ⟨areNames, success, computed⟩ := checked
  obtain ⟨compilation, compiled⟩ := exists_eq_ok_of_isOk success
  simp only [compiled, Except.toOption, Option.bind_some, Option.map_eq_some_iff, Prod.mk.injEq] at computed
  obtain ⟨office, first, isNamed, structName, fieldNames⟩ := computed
  have isClass := List.mem_of_mem_head? first
  obtain ⟨field, isField, _⟩ := List.mem_map.mp (fieldNames ▸ List.mem_cons_self)
  obtain ⟨alike, _, legal, types, fields⟩ := structNames_follow_words compiled rfl areNames
  have differs : pascalCase office.name ≠ "Self" := by
    rw [structName]
    decide
  exact ⟨compilation, office, field, compiled, rfl, areNames, isClass, isNamed, isField, structName, differs,
    fieldNames, legal office isClass differs, (fields office isClass field isField).1, alike office isClass office isClass,
    types office isClass "String" (by decide)⟩

/-- A schema with two classes of the same words, a class that is named like a type in fields and one that is named like
a keyword, and two pairs of attributes that are named alike. -/
def Document.twinsText : String :=
  "id: s\nname: s\ndefault_range: string\nclasses:\n  A_b:\n    attributes:\n" ++
    "      fooBar:\n      foo_bar:\n      self:\n      self_:\n  AB:\n  option:\n  self:\n"

/-- The document of that schema. -/
def Document.twins : Document :=
  { blank with
    id := "s"
    name := "s"
    defaultRange? := some "string"
    classes := [("A_b", ⟨"A_b", none, none, none,
        [⟨"fooBar", "", false, false, false, none, none⟩, ⟨"foo_bar", "", false, false, false, none, none⟩,
         ⟨"self", "", false, false, false, none, none⟩, ⟨"self_", "", false, false, false, none, none⟩]⟩),
      ("AB", ⟨"AB", none, none, none, []⟩), ("option", ⟨"option", none, none, none, []⟩),
      ("self", ⟨"self", none, none, none, []⟩)] }

theorem not_isRustName_self : ¬ IsRustName "Self" := by
  rintro (⟨_, notReserved⟩ | ⟨word, raw, _⟩)
  · exact notReserved (by decide)
  · have starts : "Self".toList.head? = ("r#" ++ word).toList.head? := by rw [raw]
    rw [String.toList_append] at starts
    cases starts

/-- Two structs may have one name, and so may two fields of a struct; a struct may be named like the type of optional
values, or like a keyword. -/
theorem Compilation.exists_twins : ∃ compilation,
    Document.parse Document.twinsText = .ok .twins ∧ Document.twins.HasAsciiNames ∧
      ofDocument {} .twins = .ok compilation ∧
      compilation.model.classes.values.map ClassModel.name = ["A_b", "AB", "option", "self"] ∧
      compilation.model.classes.values.map (fun one => pascalCase one.name) = ["AB", "AB", "Option", "Self"] ∧
      ¬ IsRustName "Self" ∧
      compilation.model.classes.values.map (fun one => one.fields.map Field.name) =
        [["fooBar", "foo_bar", "self", "self_"], [], [], []] ∧
      compilation.model.classes.values.map (fun one => one.fields.map (Struct.fieldName {})) =
        [["foo_bar", "foo_bar", "self_", "self_"], [], [], []] ∧
      ∀ one ∈ compilation.model.classes.values, ∀ field ∈ one.fields,
        Struct.fieldType {} false field = "Option<String>" := by
  have checked : (Document.parse Document.twinsText = .ok .twins ∧ Document.twins.HasAsciiNames) ∧
      ((ofDocument {} .twins).toOption.any fun compilation => decide
        (compilation.model.classes.values.map ClassModel.name = ["A_b", "AB", "option", "self"] ∧
        compilation.model.classes.values.map (fun one => pascalCase one.name) = ["AB", "AB", "Option", "Self"] ∧
        compilation.model.classes.values.map (fun one => one.fields.map Field.name) =
          [["fooBar", "foo_bar", "self", "self_"], [], [], []] ∧
        compilation.model.classes.values.map (fun one => one.fields.map (Struct.fieldName {})) =
          [["foo_bar", "foo_bar", "self_", "self_"], [], [], []] ∧
        ∀ one ∈ compilation.model.classes.values, ∀ field ∈ one.fields,
          Struct.fieldType {} false field = "Option<String>")) = true := by decide +kernel
  obtain ⟨⟨parsed, areNames⟩, computed⟩ := checked
  cases compiled : ofDocument {} .twins with
  | error error => simp [compiled, Except.toOption] at computed
  | ok compilation =>
    simp only [compiled, Except.toOption, Option.any_some] at computed
    obtain ⟨names, structs, attributes, fields, types⟩ := of_decide_eq_true computed
    exact ⟨compilation, parsed, areNames, rfl, names, structs, not_isRustName_self, attributes, fields, types⟩

end Compiled

end ClassSchema
