import ClassSchema.Compilation
import ClassSchema.Proofs.StructNames

/-! # Lines of struct source

Struct source is written line by line, and texts of the schema are put into the lines. Read again, it has the lines
that were meant, whose texts stand behind the mark of a comment or are reduced to names, and one start of a struct for
each class. Only the name of the schema is put into its line as it is, so that its line feeds start lines that no mark
stands in front of.
-/

namespace ClassSchema

section TextLines

theorem linesFrom_nil (current : List Char) : linesFrom current [] = if current.isEmpty then [] else [current] :=
  rfl

@[simp] theorem linesFrom_lineFeed (current rest : List Char) :
    linesFrom current ('\n' :: rest) = current :: linesFrom [] rest :=
  rfl

@[simp] theorem linesFrom_return (current rest : List Char) :
    linesFrom current ('\r' :: '\n' :: rest) = current :: linesFrom [] rest :=
  rfl

/-- What ends no line is read as part of the line. -/
theorem linesFrom_cons {current rest : List Char} {c : Char} (noFeed : c ≠ '\n')
    (noReturn : c = '\r' → rest.head? ≠ some '\n') :
    linesFrom current (c :: rest) = linesFrom (current ++ [c]) rest := by
  rw [linesFrom.eq_4]
  · rintro others rfl rfl
    exact noReturn rfl rfl
  · exact noFeed

/-- Texts are read to their end, or to the end of the line, or on by one character. -/
theorem linesFrom_induction {p : List Char → List Char → Prop} (atEnd : ∀ current, p current [])
    (lineFeed : ∀ current rest, p [] rest → p current ('\n' :: rest))
    (returnFeed : ∀ current rest, p [] rest → p current ('\r' :: '\n' :: rest))
    (further : ∀ current c rest, c ≠ '\n' → (c = '\r' → rest.head? ≠ some '\n') → p (current ++ [c]) rest →
      p current (c :: rest)) (current cs : List Char) : p current cs := by
  induction current, cs using linesFrom.induct with
  | case1 current _ => exact atEnd current
  | case2 current _ => exact atEnd current
  | case3 current rest ih => exact returnFeed current rest ih
  | case4 current rest ih => exact lineFeed current rest ih
  | case5 current c rest noEnd noFeed ih =>
    refine further current c rest noFeed (fun isReturn isFeed => ?_) ih
    obtain ⟨others, rfl⟩ := List.head?_eq_some_iff.mp isFeed
    exact noEnd others isReturn rfl

/-- Characters that end no lines are read as part of the first one. -/
theorem linesFrom_append_of_noBreak {plain : List Char} (noBreak : ∀ c ∈ plain, c ≠ '\n' ∧ c ≠ '\r')
    (current rest : List Char) : linesFrom current (plain ++ rest) = linesFrom (current ++ plain) rest := by
  induction plain generalizing current with
  | nil => simp
  | cons c others ih =>
    obtain ⟨noFirst, noOthers⟩ := List.forall_mem_cons.mp noBreak
    rw [List.cons_append, linesFrom_cons noFirst.1 (fun isReturn => absurd isReturn noFirst.2), ih noOthers]
    simp

/-- What was read before stands in front of the first line. -/
theorem linesFrom_append_current (before current cs : List Char) (nonempty : current ≠ [] ∨ cs ≠ []) :
    linesFrom (before ++ current) cs = (linesFrom current cs).modifyHead (before ++ ·) := by
  induction current, cs using linesFrom_induction with
  | atEnd current => simp_all [linesFrom_nil]
  | lineFeed current rest => simp
  | returnFeed current rest => simp
  | further current c rest noFeed noReturn ih =>
    rw [linesFrom_cons noFeed noReturn, linesFrom_cons noFeed noReturn, ← ih (.inl (by simp)), List.append_assoc]

theorem linesFrom_ne_nil {current cs : List Char} (nonempty : current ≠ [] ∨ cs ≠ []) :
    linesFrom current cs ≠ [] := by
  induction current, cs using linesFrom_induction with
  | atEnd current => simp_all [linesFrom_nil]
  | lineFeed current rest => simp
  | returnFeed current rest => simp
  | further current c rest noFeed noReturn ih =>
    rw [linesFrom_cons noFeed noReturn]
    exact ih (.inl (by simp))

/-- What does not end a line does not end one either when text follows, unless it is a carriage return at the end. -/
theorem head?_append_ne_lineFeed {c : Char} {rest : List Char} (noReturn : c = '\r' → rest.head? ≠ some '\n')
    (notLast : ¬ (c = '\r' ∧ rest = [])) (more : List Char) : c = '\r' → (rest ++ more).head? ≠ some '\n' := by
  intro isReturn
  have nonempty : rest ≠ [] := fun isEmpty => notLast ⟨isReturn, isEmpty⟩
  rw [List.head?_append_of_ne_nil _ nonempty]
  exact noReturn isReturn

/-- Text behind a line feed has its own lines. -/
theorem linesFrom_append_lineFeed (current cs rest : List Char) :
    linesFrom current (cs ++ '\n' :: rest) = linesFrom current (cs ++ ['\n']) ++ linesFrom [] rest := by
  induction current, cs using linesFrom_induction with
  | atEnd current => simp [linesFrom_nil]
  | lineFeed current others ih => simp [ih]
  | returnFeed current others ih => simp [ih]
  | further current c others noFeed noReturn ih =>
    by_cases isLast : c = '\r' ∧ others = []
    · rw [isLast.1, isLast.2]
      simp [linesFrom_nil]
    · rw [List.cons_append, List.cons_append, linesFrom_cons noFeed (head?_append_ne_lineFeed noReturn isLast _),
        linesFrom_cons noFeed (head?_append_ne_lineFeed noReturn isLast _), ih]

/-- Text without a line feed is one line. -/
theorem exists_linesFrom_eq_singleton {cs : List Char} (noFeed : '\n' ∉ cs) (current : List Char) :
    ∃ line, linesFrom current (cs ++ ['\n']) = [line] := by
  induction current, cs using linesFrom_induction with
  | atEnd current => exact ⟨current, by simp [linesFrom_nil]⟩
  | lineFeed current rest => simp at noFeed
  | returnFeed current rest => simp at noFeed
  | further current c others isOther noReturn ih =>
    by_cases isLast : c = '\r' ∧ others = []
    · rw [isLast.1, isLast.2]
      exact ⟨current, by simp [linesFrom_nil]⟩
    · rw [List.cons_append, linesFrom_cons isOther (head?_append_ne_lineFeed noReturn isLast _)]
      exact ih (List.not_mem_of_not_mem_cons noFeed)

theorem not_mem_of_mem_linesFrom {current cs line : List Char} (noFeed : '\n' ∉ current)
    (member : line ∈ linesFrom current cs) : '\n' ∉ line := by
  induction current, cs using linesFrom_induction with
  | atEnd current => simp_all [linesFrom_nil]
  | lineFeed current rest ih =>
    rw [linesFrom_lineFeed, List.mem_cons] at member
    exact member.elim (fun same => same ▸ noFeed) (ih (by simp))
  | returnFeed current rest ih =>
    rw [linesFrom_return, List.mem_cons] at member
    exact member.elim (fun same => same ▸ noFeed) (ih (by simp))
  | further current c rest notFeed noReturn ih =>
    rw [linesFrom_cons notFeed noReturn] at member
    exact ih (by simp [noFeed, Ne.symm notFeed]) member

/-- The lines of a text have no line feed. -/
theorem not_mem_of_mem_textLines {text line : String} (member : line ∈ textLines text) : '\n' ∉ line.toList := by
  obtain ⟨chars, isLine, rfl⟩ := List.mem_map.mp member
  rw [String.toList_ofList]
  exact not_mem_of_mem_linesFrom (by simp) isLine

/-- Whether a text has no character that ends lines. -/
def HasNoBreak (text : String) : Prop :=
  ∀ c ∈ text.toList, c ≠ '\n' ∧ c ≠ '\r'

-- named, since all characters may be enumerated as well
instance : DecidablePred HasNoBreak :=
  fun text => List.decidableBAll (fun c => c ≠ '\n' ∧ c ≠ '\r') text.toList

theorem HasNoBreak.append {left right : String} (noLeft : HasNoBreak left) (noRight : HasNoBreak right) :
    HasNoBreak (left ++ right) := by
  intro c member
  rw [String.toList_append] at member
  exact (List.mem_append.mp member).elim (noLeft c) (noRight c)

/-- A text that ends no lines is read as a part of the first line. -/
theorem textLines_append {text rest : String} (noBreak : HasNoBreak text) (nonempty : rest.toList ≠ []) :
    textLines (text ++ rest) = (textLines rest).modifyHead (text ++ ·) := by
  have split := linesFrom_append_of_noBreak noBreak [] rest.toList
  have moved := linesFrom_append_current text.toList [] rest.toList (.inr nonempty)
  rw [textLines, String.toList_append, split, List.nil_append, ← List.append_nil text.toList, moved, textLines]
  cases linesFrom [] rest.toList <;> simp

/-- Text behind a line feed has its own lines. -/
theorem textLines_append_lineFeed (text rest : String) :
    textLines (text ++ "\n" ++ rest) = textLines (text ++ "\n") ++ textLines rest := by
  have split := linesFrom_append_lineFeed [] text.toList rest.toList
  simp only [textLines, String.toList_append, List.append_assoc]
  rw [← List.map_append]
  exact congrArg (List.map String.ofList) split

end TextLines

section WrittenLines

/-- The lines that written lines are read as. -/
def readAgain (written : List String) : List String :=
  written.flatMap fun line => textLines (line ++ "\n")

theorem textLines_join (written : List String) :
    textLines (String.join (written.map (· ++ "\n"))) = readAgain written := by
  induction written with
  | nil => rfl
  | cons line rest ih =>
    rw [List.map_cons, String.join_cons, textLines_append_lineFeed, ih, readAgain, readAgain, List.flatMap_cons]

theorem readAgain_append (first second : List String) :
    readAgain (first ++ second) = readAgain first ++ readAgain second :=
  List.flatMap_append

/-- Behind a mark, the first line of a text is read with the mark, and the others without. -/
theorem exists_textLines_mark_append {mark : String} (noBreak : HasNoBreak mark) (text : String) :
    ∃ first, textLines (mark ++ text ++ "\n") = (mark ++ first) :: (textLines (text ++ "\n")).tail := by
  rw [String.append_assoc, textLines_append noBreak (by simp)]
  cases lines : textLines (text ++ "\n") with
  | nil => exact absurd (List.map_eq_nil_iff.mp lines) (linesFrom_ne_nil (.inr (by simp)))
  | cons first rest => exact ⟨first, rfl⟩

theorem tail_textLines_of_not_mem {text : String} (noFeed : '\n' ∉ text.toList) :
    (textLines (text ++ "\n")).tail = [] := by
  obtain ⟨line, single⟩ := exists_linesFrom_eq_singleton noFeed []
  rw [textLines, String.toList_append]
  simp [single]

theorem textLines_of_hasNoBreak {line : String} (noBreak : HasNoBreak line) : textLines (line ++ "\n") = [line] := by
  rw [textLines_append noBreak (by simp)]
  simp [textLines, linesFrom]

end WrittenLines

/-- Whether a line is a comment, indented or not. -/
def isComment (line : String) : Bool :=
  "//".toList.isPrefixOf (line.toList.dropWhile (· == ' '))

/-- Whether a line starts a struct. -/
def startsStruct (line : String) : Bool :=
  "pub struct ".toList.isPrefixOf line.toList

/-- Whether a text has letters and digits of ASCII and underscores only. -/
def IsPlainName (text : String) : Prop :=
  ∀ c ∈ text.toList, isNameChar c = true

/-- The types that fields have with the default profile: those of the scalar kinds and structs, boxed, listed or
optional. -/
inductive IsFieldType : String → Prop
  | scalar (kind : ScalarKind) : IsFieldType (TypeNames.ofKind {} kind)
  | struct {name : String} (isPlain : IsPlainName name) : IsFieldType name
  | wrapped (wrapper : String) {type : String} (isWrapper : wrapper ∈ ["Box<", "Vec<", "Option<"])
      (isType : IsFieldType type) : IsFieldType (wrapper ++ type ++ ">")

/-- The lines of struct source that no prose gets out of: blank lines, comments, and the lines of structs, which have
plain names. -/
inductive IsHarmless (line : String) : Prop
  | blank (spaces : ∀ c ∈ line.toList, c = ' ')
  | comment (marked : isComment line = true)
  | derives (same : line = "#[derive(Debug, Clone, PartialEq)]")
  | opens (name : String) (isPlain : IsPlainName name) (same : line = "pub struct " ++ name ++ " \x7b")
  | field (name type : String) (isName : IsPlainName name ∨ ∃ word, name = "r#" ++ word ∧ IsPlainName word)
      (isType : IsFieldType type) (same : line = "    pub " ++ name ++ ": " ++ type ++ ",")
  | closes (same : line = "\x7d")

/-- Whether no prose gets out of lines, and so many of them start a struct. -/
structure IsSource (structs : Nat) (lines : List String) : Prop where
  harmless : ∀ line ∈ lines, IsHarmless line
  count : lines.countP startsStruct = structs

namespace IsSource

theorem append {first second : Nat} {left right : List String} (isLeft : IsSource first left)
    (isRight : IsSource second right) : IsSource (first + second) (left ++ right) where
  harmless := List.forall_mem_append.mpr ⟨isLeft.harmless, isRight.harmless⟩
  count := by rw [List.countP_append, isLeft.count, isRight.count]

theorem flatMap {α : Type} {structs : Nat} {items : List α} {written : α → List String}
    (each : ∀ item ∈ items, IsSource structs (readAgain (written item))) :
    IsSource (items.length * structs) (readAgain (items.flatMap written)) := by
  induction items with
  | nil => exact ⟨by simp [readAgain], by simp [readAgain]⟩
  | cons item rest ih =>
    obtain ⟨isFirst, areRest⟩ := List.forall_mem_cons.mp each
    rw [List.flatMap_cons, readAgain_append, List.length_cons, Nat.add_mul, Nat.one_mul, Nat.add_comm]
    exact isFirst.append (ih areRest)

theorem flatMap_of_none {α : Type} {items : List α} {written : α → List String}
    (each : ∀ item ∈ items, IsSource 0 (readAgain (written item))) :
    IsSource 0 (readAgain (items.flatMap written)) := by
  simpa using flatMap each

/-- A line that ends no lines is read as it is. -/
theorem of_hasNoBreak {structs : Nat} {line : String} (noBreak : HasNoBreak line) (isHarmless : IsHarmless line)
    (starts : (if startsStruct line then 1 else 0) = structs) : IsSource structs (readAgain [line]) := by
  rw [readAgain, List.flatMap_singleton, textLines_of_hasNoBreak noBreak]
  exact ⟨by simpa using isHarmless, by rw [List.countP_singleton, starts]⟩

end IsSource

section Comments

theorem isComment_append {mark : String} (marked : isComment mark = true) (text : String) :
    isComment (mark ++ text) = true := by
  rw [isComment, List.isPrefixOf_iff_prefix] at marked ⊢
  obtain ⟨rest, same⟩ := marked
  rw [String.toList_append, List.dropWhile_append, ← same]
  exact ⟨rest ++ text.toList, by simp⟩

theorem startsStruct_of_isComment {line : String} (marked : isComment line = true) : startsStruct line = false := by
  rw [isComment] at marked
  rw [startsStruct]
  cases chars : line.toList with
  | nil => rfl
  | cons c rest =>
    rw [chars] at marked
    by_cases starts : c = 'p'
    · rw [starts] at marked
      simp at marked
    · simp [List.isPrefixOf, Ne.symm starts]

/-- Behind the mark of a comment, the first line of a text is a comment, and the others are read without the mark. -/
theorem exists_readAgain_comment (mark text : String) (marked : isComment mark = true) (noBreak : HasNoBreak mark) :
    ∃ first, IsSource 0 [first] ∧ readAgain [mark ++ text] = first :: (textLines (text ++ "\n")).tail := by
  obtain ⟨first, lines⟩ := exists_textLines_mark_append noBreak text
  have stillMarked := isComment_append marked first
  refine ⟨mark ++ first, ⟨?_, ?_⟩, ?_⟩
  · simpa using IsHarmless.comment stillMarked
  · rw [List.countP_singleton, startsStruct_of_isComment stillMarked]
    rfl
  · rw [readAgain, List.flatMap_singleton, lines]

theorem IsSource.comment {mark text : String} (marked : isComment mark = true) (noBreak : HasNoBreak mark)
    (noFeed : '\n' ∉ text.toList) : IsSource 0 (readAgain [mark ++ text]) := by
  obtain ⟨first, isSource, lines⟩ := exists_readAgain_comment mark text marked noBreak
  rwa [lines, tail_textLines_of_not_mem noFeed]

/-- A text stays in its doc comment, whatever line ends it has. -/
theorem Struct.isSource_docLines {indentation : String} (spaces : indentation ∈ ["", "    "]) (text : String) :
    IsSource 0 (readAgain (docLines indentation text)) := by
  have marks : ∀ indentation ∈ ["", "    "], isComment (indentation ++ "///") = true ∧
      HasNoBreak (indentation ++ "///") ∧ isComment (indentation ++ "/// ") = true ∧
      HasNoBreak (indentation ++ "/// ") := by decide
  obtain ⟨isMark, noBreak, isMarkToo, noBreakToo⟩ := marks indentation spaces
  rw [docLines, List.map_eq_flatMap]
  refine IsSource.flatMap_of_none fun line isLine => ?_
  split
  · exact .of_hasNoBreak noBreak (.comment isMark) (by rw [startsStruct_of_isComment isMark]; rfl)
  · exact .comment isMarkToo noBreakToo (not_mem_of_mem_textLines isLine)

end Comments

section Names

theorem ne_of_isNameChar {c : Char} (isName : isNameChar c = true) : c ≠ '\n' ∧ c ≠ '\r' := by
  constructor <;> rintro rfl <;> cases isName

theorem IsPlainName.hasNoBreak {text : String} (isPlain : IsPlainName text) : HasNoBreak text :=
  fun c member => ne_of_isNameChar (isPlain c member)

theorem isPlainName_guardDigit {cs : List Char} (areNames : ∀ c ∈ cs, isNameChar c = true) :
    IsPlainName (String.ofList (guardDigit cs)) := by
  rw [IsPlainName, String.toList_ofList]
  cases cs with
  | nil => simp [guardDigit]
  | cons c rest =>
    rw [guardDigit]
    split
    · exact List.forall_mem_cons.mpr ⟨rfl, areNames⟩
    · exact areNames

/-- Whatever a class is named, its struct has a plain name. -/
theorem isPlainName_pascalCase (name : String) : IsPlainName (pascalCase name) :=
  isPlainName_guardDigit fun _ member =>
    isNameChar_of_isAlphanum (isAlphanum_of_mem_pascalChars member)

theorem isNameChar_of_mem_snakeChars {followsLower : Bool} {cs : List Char} {c : Char}
    (member : c ∈ snakeChars followsLower cs) : isNameChar c = true := by
  induction cs generalizing followsLower with
  | nil => cases member
  | cons first rest ih =>
    rw [snakeChars] at member
    split at member
    · rename_i isUpper
      have isFirst : isNameChar first = true := by
        change (first.isUpper || first.isLower || first.isDigit || first == '_') = true
        rw [isUpper, Bool.true_or, Bool.true_or, Bool.true_or]
      have isLower := (hasCases isFirst).isName_toLower
      rcases List.mem_append.mp member with here | later
      · cases followsLower
        · rwa [List.mem_singleton.mp here]
        · rcases List.mem_cons.mp here with rfl | here
          · rfl
          · rwa [List.mem_singleton.mp here]
      · exact ih later
    · split at member
      · rcases List.mem_cons.mp member with rfl | later
        · rfl
        · exact ih later
      · rename_i isAlphanum
        simp only [Bool.not_eq_true', Bool.not_eq_false] at isAlphanum
        rcases List.mem_cons.mp member with rfl | later
        · exact isNameChar_of_isAlphanum isAlphanum
        · exact ih later

/-- Whatever an attribute is named, its field has a plain name, which may be raw. -/
theorem Struct.isName_fieldName (field : Field) :
    IsPlainName (fieldName {} field) ∨ ∃ word, fieldName {} field = "r#" ++ word ∧ IsPlainName word := by
  have isPlain : IsPlainName (snakeCase field.name) := isPlainName_guardDigit fun c => isNameChar_of_mem_snakeChars
  rw [fieldName]
  rcases RenderProfile.escapeKeyword_cases (snakeCase field.name) with
    ⟨_, escaped⟩ | ⟨_, _, escaped⟩ | ⟨_, _, escaped⟩ <;> rw [escaped]
  · refine .inl fun c member => ?_
    rw [String.toList_append] at member
    rcases List.mem_append.mp member with here | mark
    · exact isPlain c here
    · rw [List.mem_singleton.mp mark]
      rfl
  · exact .inr ⟨_, rfl, isPlain⟩
  · exact .inl isPlain

theorem IsFieldType.hasNoBreak {type : String} (isType : IsFieldType type) : HasNoBreak type := by
  induction isType with
  | scalar kind => cases kind <;> decide
  | struct isPlain => exact isPlain.hasNoBreak
  | wrapped wrapper isWrapper _ ih =>
    have wrappers : ∀ wrapper ∈ ["Box<", "Vec<", "Option<"], HasNoBreak wrapper := by decide
    exact ((wrappers wrapper isWrapper).append ih).append (by decide)

theorem Struct.isFieldType_fieldType (boxed : Bool) (field : Field) : IsFieldType (fieldType {} boxed field) := by
  have single : IsFieldType (singleType {} field.range) := by
    cases field.range with
    | scalar kind => exact .scalar kind
    | instanceOf className => exact .struct (isPlainName_pascalCase className)
  have held : IsFieldType (if boxed then s!"Box<{singleType {} field.range}>" else singleType {} field.range) := by
    split
    · exact .wrapped "Box<" (by decide) single
    · exact single
  rw [fieldType]
  split
  · exact .wrapped "Vec<" (by decide) held
  · split
    · exact held
    · exact .wrapped "Option<" (by decide) held

end Names

section Structs

theorem Struct.isSource_fieldLines (boxed : Bool) (field : Field) :
    IsSource 0 (readAgain (fieldLines {} boxed field)) := by
  have isName := isName_fieldName field
  have isType := isFieldType_fieldType boxed field
  have noNameBreak : HasNoBreak (fieldName {} field) := by
    rcases isName with isPlain | ⟨word, raw, isPlain⟩
    · exact isPlain.hasNoBreak
    · rw [raw]
      exact HasNoBreak.append (by decide) isPlain.hasNoBreak
  have areDocs : IsSource 0 (readAgain (field.description?.toList.flatMap (docLines "    "))) :=
    .flatMap_of_none fun text _ => isSource_docLines (by decide) text
  have isLine : IsSource 0
      (readAgain ["    pub " ++ fieldName {} field ++ ": " ++ fieldType {} boxed field ++ ","]) := by
    refine .of_hasNoBreak ?_ (.field _ _ isName isType rfl) (by simp [startsStruct])
    exact ((((show HasNoBreak "    pub " by decide).append noNameBreak).append (by decide)).append
      isType.hasNoBreak).append (by decide)
  rw [fieldLines, readAgain_append]
  exact areDocs.append isLine

/-- The lines of a struct start one struct, and no prose gets out of them. -/
theorem Struct.isSource_structLines (boxed : List OwnedProperty) (model : ClassModel) :
    IsSource 1 (readAgain (structLines {} boxed model)) := by
  have areDocs : IsSource 0 (readAgain (docLines "" (model.description?.getD model.name))) :=
    isSource_docLines (by decide) _
  have derives : IsSource 0 (readAgain ["#[derive(Debug, Clone, PartialEq)]"]) :=
    .of_hasNoBreak (by decide) (.derives rfl) (by decide)
  have opens : IsSource 1 (readAgain ["pub struct " ++ pascalCase model.name ++ " \x7b"]) := by
    have isPlain := isPlainName_pascalCase model.name
    refine .of_hasNoBreak ?_ (.opens _ isPlain rfl) (by simp [startsStruct])
    exact ((show HasNoBreak "pub struct " by decide).append isPlain.hasNoBreak).append (by decide)
  have areFields : IsSource 0 (readAgain (model.fields.flatMap fun field =>
      fieldLines {} (boxed.contains ⟨model.name, field.name⟩) field)) :=
    .flatMap_of_none fun field _ => isSource_fieldLines _ field
  have closes : IsSource 0 (readAgain ["\x7d"]) := .of_hasNoBreak (by decide) (.closes rfl) (by decide)
  simp only [structLines, readAgain_append]
  exact (((areDocs.append derives).append opens).append areFields).append closes

end Structs

section Sources

theorem Text.hexDigit_ne {n : Nat} (small : n < 16) : hexDigit n ≠ '\n' := by
  have each : ∀ n < 16, hexDigit n ≠ '\n' := by decide
  exact each n small

/-- A fingerprint is one line. -/
theorem Document.not_mem_fingerprint (document : Document) : '\n' ∉ document.fingerprint.text.toList := by
  rw [Fingerprint.text, String.toList_append, List.mem_append, not_or]
  refine ⟨by decide, ?_⟩
  simp only [Document.fingerprint, Fingerprint.ofData, Fingerprint.ofText, Text.Sha256.hex, String.toList_ofList,
    List.mem_flatMap, Text.hexDigits, List.mem_map, not_exists, not_and]
  exact fun _ _ _ _ => Text.hexDigit_ne (Nat.mod_lt _ (by decide))

/-- The lines that the name of a schema adds to the first line of the header: those behind its own line feeds. -/
def Struct.addedLines (schemaName : String) : List String :=
  (textLines (schemaName ++ "\x60 - DO NOT EDIT" ++ "\n")).tail

theorem Struct.addedLines_of_not_mem {schemaName : String} (noFeed : '\n' ∉ schemaName.toList) :
    addedLines schemaName = [] := by
  have closed : '\n' ∉ (schemaName ++ "\x60 - DO NOT EDIT").toList := by
    rw [String.toList_append, List.mem_append, not_or]
    exact ⟨noFeed, by decide⟩
  exact tail_textLines_of_not_mem closed

/-- But for the lines that the name of the schema adds, no prose gets out of the lines of structs, and one struct is
started for each class. -/
theorem Struct.exists_textLines_render (model : ObjectModel) (graph : SchemaGraph) : ∃ first rest,
    textLines (render {} model graph).code = first :: (addedLines model.schemaName ++ rest) ∧
      IsSource (render {} model graph).typeCount (first :: rest) := by
  obtain ⟨first, isFirst, lines⟩ := exists_readAgain_comment "//! Generated from schema \x60"
    (model.schemaName ++ "\x60 - DO NOT EDIT") (by decide) (by decide)
  have mark : IsSource 0 (readAgain ["//!"]) := .of_hasNoBreak (by decide) (.comment (by decide)) (by decide)
  have usage : IsSource 0 (readAgain ["//! Regenerate with \x60schemac --schema <file> rust\x60."]) :=
    .of_hasNoBreak (by decide) (.comment (by decide)) (by decide)
  have blank : IsSource 0 (readAgain [""]) := .of_hasNoBreak (by decide) (.blank (by simp)) (by decide)
  have areStructs : IsSource (model.classes.values.length * 1) (readAgain (model.classes.values.flatMap
      fun classModel => "" :: structLines {} graph.recursiveProperties classModel)) := by
    refine .flatMap fun classModel _ => ?_
    have isStruct := blank.append (isSource_structLines graph.recursiveProperties classModel)
    rwa [← readAgain_append, Nat.zero_add] at isStruct
  have isRest := isFirst.append (((mark.append usage).append blank).append areStructs)
  simp only [List.singleton_append, Nat.zero_add, Nat.mul_one, Table.values, List.length_map] at isRest
  refine ⟨first, _, ?_, isRest⟩
  simp only [← readAgain_append, addedLines]
  rw [← List.cons_append, ← lines, ← readAgain_append, render, textLines_join, headerLines, ← String.append_assoc]
  rfl

/-- The same holds behind a line for the fingerprint. -/
theorem Struct.exists_textLines_fingerprinted {fingerprint : String} (noFeed : '\n' ∉ fingerprint.toList)
    (model : ObjectModel) (graph : SchemaGraph) : ∃ front rest,
      textLines ("//! Schema fingerprint: " ++ fingerprint ++ "\n" ++ (render {} model graph).code) =
        front ++ addedLines model.schemaName ++ rest ∧
        IsSource (render {} model graph).typeCount (front ++ rest) := by
  obtain ⟨named, rest, lines, isSource⟩ := exists_textLines_render model graph
  have isFirst : IsSource 0 (readAgain ["//! Schema fingerprint: " ++ fingerprint]) :=
    .comment (by decide) (by decide) noFeed
  have isAll := isFirst.append isSource
  rw [Nat.zero_add, List.append_cons] at isAll
  refine ⟨readAgain ["//! Schema fingerprint: " ++ fingerprint] ++ [named], rest, ?_, isAll⟩
  rw [textLines_append_lineFeed, lines, readAgain, List.flatMap_singleton]
  simp

theorem Compilation.code_structSource {compilation : Compilation} (isDefault : compilation.settings.profile = {}) :
    compilation.structSource.code = "//! Schema fingerprint: " ++ compilation.document.fingerprint.text ++ "\n" ++
      (Struct.render {} compilation.model compilation.graph).code := by
  unfold structSource Compilation.fingerprint
  -- without its text the fingerprint cannot be computed when both sides are compared
  generalize compilation.document.fingerprint.text = text
  rw [isDefault]
  rfl

theorem Compilation.exists_textLines_structSource {compilation : Compilation}
    (isDefault : compilation.settings.profile = {}) : ∃ front rest,
      textLines compilation.structSource.code = front ++ Struct.addedLines compilation.model.schemaName ++ rest ∧
        IsSource compilation.structSource.typeCount (front ++ rest) := by
  rw [code_structSource isDefault]
  exact Struct.exists_textLines_fingerprinted compilation.document.not_mem_fingerprint _ _

theorem Compilation.inputs_of_ofDocument {settings : Settings} {document : Document} {compilation : Compilation}
    (compiled : ofDocument settings document = .ok compilation) :
    compilation.settings = settings ∧ compilation.model.schemaName = document.name := by
  obtain ⟨model, modelled, graph, _, validation, _, rfl⟩ := ofDocument_eq_ok_iff.mp compiled
  obtain ⟨_, _, _, _, rfl⟩ := ObjectModel.ofDocument_eq_ok_iff.mp modelled
  exact ⟨rfl, rfl⟩

/-- Of every schema that compiles, with the default profile: no prose gets out of the lines of its source but for the
lines that line feeds in its name add, all of which are there, and one struct is started for each class and each of
them that starts one. Without a line feed in the name, no prose gets out at all. -/
theorem Compilation.prose_stays_in_comments {settings : Settings} {document : Document} {compilation : Compilation}
    (compiled : ofDocument settings document = .ok compilation) (isDefault : settings.profile = {}) :
    (∀ line ∈ textLines compilation.structSource.code, IsHarmless line ∨ line ∈ Struct.addedLines document.name) ∧
    (∀ line ∈ Struct.addedLines document.name, line ∈ textLines compilation.structSource.code) ∧
    (textLines compilation.structSource.code).countP startsStruct =
      compilation.structSource.typeCount + (Struct.addedLines document.name).countP startsStruct ∧
    ('\n' ∉ document.name.toList → (∀ line ∈ textLines compilation.structSource.code, IsHarmless line) ∧
      (textLines compilation.structSource.code).countP startsStruct = compilation.structSource.typeCount) := by
  obtain ⟨rfl, isName⟩ := inputs_of_ofDocument compiled
  obtain ⟨front, rest, lines, isSource⟩ := exists_textLines_structSource isDefault
  rw [isName] at lines
  rw [lines]
  have split : ∀ line ∈ front ++ Struct.addedLines document.name ++ rest,
      IsHarmless line ∨ line ∈ Struct.addedLines document.name := by
    intro line member
    rcases List.mem_append.mp member with before | after
    · rcases List.mem_append.mp before with isFront | isAdded
      · exact .inl (isSource.harmless line (List.mem_append_left _ isFront))
      · exact .inr isAdded
    · exact .inl (isSource.harmless line (List.mem_append_right _ after))
  have count : (front ++ Struct.addedLines document.name ++ rest).countP startsStruct =
      compilation.structSource.typeCount + (Struct.addedLines document.name).countP startsStruct := by
    have counted := isSource.count
    simp only [List.countP_append] at counted ⊢
    omega
  refine ⟨split, fun line isAdded => ?_, count, fun noFeed => ?_⟩
  · exact List.mem_append_left _ (List.mem_append_right _ isAdded)
  · rw [Struct.addedLines_of_not_mem noFeed] at split count ⊢
    exact ⟨fun line member => (split line member).resolve_right List.not_mem_nil, count⟩

/-- Notes have a text of two lines for description, of which the second one reads like code. -/
def Document.notes : Document :=
  { blank with
    id := "s"
    name := "s"
    defaultRange? := some "string"
    classes := [("Note", ⟨"Note", some "A note\npub struct Hidden;", none, none,
      [⟨"type", "", false, false, false, none, none⟩]⟩)] }

theorem Compilation.prose_stays_in_comments_notes : ∃ compilation, ofDocument {} .notes = .ok compilation ∧
    ({} : Settings).profile = {} ∧ '\n' ∉ Document.notes.name.toList ∧
      (∀ line ∈ textLines compilation.structSource.code, IsHarmless line) ∧
      (textLines compilation.structSource.code).countP startsStruct = compilation.structSource.typeCount := by
  have success : (ofDocument {} .notes).isOk = true := by decide +kernel
  have noFeed : '\n' ∉ Document.notes.name.toList := by decide
  obtain ⟨compilation, compiled⟩ := exists_eq_ok_of_isOk success
  obtain ⟨harmless, count⟩ := (prose_stays_in_comments compiled rfl).2.2.2 noFeed
  exact ⟨compilation, compiled, rfl, noFeed, harmless, count⟩

/-- A schema whose name has line feeds in it. -/
def Document.extraText : String :=
  "id: s\nname: \"s\x60\\npub struct Extra;\\n//\"\nclasses:\n  Shop:\n"

/-- The document of that schema. -/
def Document.extra : Document :=
  { blank with
    id := "s"
    name := "s\x60\npub struct Extra;\n//"
    classes := [("Shop", ⟨"Shop", none, none, none, []⟩)] }

theorem not_isHarmless_extra : ¬ IsHarmless "pub struct Extra;" := by
  intro isHarmless
  cases isHarmless with
  | blank spaces => exact absurd (spaces 'p' (by decide)) (by decide)
  | comment marked => exact absurd marked (by decide)
  | derives same => exact absurd same (by decide)
  | opens name isPlain same =>
    have ends : "pub struct Extra;".toList.getLast? = ("pub struct " ++ name ++ " \x7b").toList.getLast? := by rw [same]
    rw [String.toList_append, List.getLast?_append] at ends
    cases ends
  | field name type isName isType same =>
    have starts := congrArg (fun line => line.toList.head?) same
    simp [String.toList_append] at starts
  | closes same => exact absurd same (by decide)

/-- The name of a schema may become code: its lines stand in the source, and start structs of their own. -/
theorem Compilation.exists_code_of_name : ∃ compilation, Document.parse Document.extraText = .ok .extra ∧
    ofDocument {} .extra = .ok compilation ∧ "pub struct Extra;" ∈ textLines compilation.structSource.code ∧
      ¬ IsHarmless "pub struct Extra;" ∧ compilation.structSource.typeCount = 1 ∧
      (textLines compilation.structSource.code).countP startsStruct = 2 := by
  have parsed : Document.parse Document.extraText = .ok .extra := by decide +kernel
  have counted : (ofDocument {} .extra).toOption.map (fun compilation => compilation.model.classes.length) =
      some 1 := by decide +kernel
  cases compiled : ofDocument {} .extra with
  | error error => simp [compiled, Except.toOption] at counted
  | ok compilation =>
    obtain ⟨isSettings, isName⟩ := inputs_of_ofDocument compiled
    have isDefault : compilation.settings.profile = {} := by rw [isSettings]
    obtain ⟨front, rest, lines, isSource⟩ := exists_textLines_structSource isDefault
    simp only [compiled, Except.toOption, Option.map_some, Option.some.injEq] at counted
    have added : Struct.addedLines Document.extra.name = ["pub struct Extra;", "//\x60 - DO NOT EDIT"] := by
      decide +kernel
    have startsOne : ["pub struct Extra;", "//\x60 - DO NOT EDIT"].countP startsStruct = 1 := by decide
    have typeCount : compilation.structSource.typeCount = 1 := counted
    have count := isSource.count
    rw [isName, added] at lines
    refine ⟨compilation, parsed, rfl, ?_, not_isHarmless_extra, typeCount, ?_⟩
    · simp [lines]
    · rw [typeCount] at count
      rw [lines, List.countP_append, List.countP_append, startsOne]
      rw [List.countP_append] at count
      omega

end Sources

end ClassSchema
