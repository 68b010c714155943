import ClassSchema.Instance.Loading
import ClassSchema.Proofs.BlockKeys
import ClassSchema.Proofs.DocumentNames

/-! # Quoted texts and keys of block text

A text between quotes holds printable characters only, stands on one line, and is read as the text. A name is written
as a key that is read as the name, alone as well as at the start of a line. What its length decides is only whether it
is taken for a key there.
-/

namespace ClassSchema.Block

open Yaml

/-- Whether a character is printable and may stand anywhere in YAML text: neither a break nor a tab nor a byte order
mark. -/
def isPrintable (c : Char) : Bool :=
  (0x20 ≤ c.toNat && c.toNat ≤ 0x7e) || (0xa0 ≤ c.toNat && c.toNat ≤ 0xd7ff && c != '\u2028' && c != '\u2029') ||
    (0xe000 ≤ c.toNat && c.toNat ≤ 0xfffd && c != '\ufeff') || 0x10000 ≤ c.toNat

theorem isReadable_of_isPrintable {c : Char} (printable : isPrintable c = true) :
    isReadable c = true ∧ isBreak c = false := by
  have refused : ['\n', '\r', '\u0085', '\u2028', '\u2029'].all (!isPrintable ·) = true := rfl
  have breaks : ∀ other ∈ ['\n', '\r', '\u0085', '\u2028', '\u2029'], c ≠ other := by
    rintro other member rfl
    simpa [printable] using List.all_eq_true.mp refused c member
  simp only [List.forall_mem_cons] at breaks
  obtain ⟨noFeed, noReturn, noNext, noLine, noParagraph, _⟩ := breaks
  refine ⟨?_, by simp [isBreak, noFeed, noReturn, noNext, noLine, noParagraph]⟩
  simp only [isPrintable, isReadable, Bool.or_eq_true, Bool.and_eq_true, decide_eq_true_eq, Char.le_def,
    UInt32.le_iff_toNat_le, ← Char.toNat_val] at printable ⊢
  have space : ' '.val.toNat = 32 := rfl
  have tilde : '~'.val.toNat = 126 := rfl
  omega

theorem isPrintable_of_mem_hexDigits {width code : Nat} {d : Char}
    (member : d ∈ Text.hexDigits Text.hexDigitUpper width code) : isPrintable d = true := by
  have digits : ∀ n < 16, isPrintable (Text.hexDigitUpper n) = true := by decide
  obtain ⟨place, _, rfl⟩ := List.mem_map.mp member
  exact digits _ (Nat.mod_lt _ (by decide))

theorem forall_mem_ite {p : Prop} [Decidable p] {first second : List Char} {holds : Char → Prop}
    (left : ∀ d ∈ first, holds d) (right : ¬ p → ∀ d ∈ second, holds d) :
    ∀ d ∈ if p then first else second, holds d := by
  split
  · exact left
  · exact right ‹_›

/-- Every character is written with printable ones. -/
theorem isPrintable_of_mem_quoteChar (c : Char) : ∀ d ∈ quoteChar c, isPrintable d = true := by
  have escape {letter : Char} {same : Char} {others : List Char} (printable : isPrintable letter = true)
      (other : c ≠ same → ∀ d ∈ others, isPrintable d = true) :
      ∀ d ∈ if c = same then ['\\', letter] else others, isPrintable d = true :=
    forall_mem_ite (List.forall_mem_cons.mpr ⟨rfl, List.forall_mem_singleton.mpr printable⟩) other
  unfold quoteChar
  refine escape rfl fun _ => escape rfl fun _ => escape rfl fun _ => escape rfl fun _ => escape rfl fun _ =>
    escape rfl fun _ => escape rfl fun _ => escape rfl fun _ => escape rfl fun _ => escape rfl fun _ =>
    escape rfl fun _ => escape rfl fun _ => escape rfl fun noLine => escape rfl fun noParagraph =>
    forall_mem_ite ?_ fun noControl => forall_mem_ite ?_ fun noSpecial => ?_
  · simp only [List.forall_mem_cons]
    exact ⟨rfl, rfl, fun d => isPrintable_of_mem_hexDigits⟩
  · simp only [List.forall_mem_cons]
    exact ⟨rfl, rfl, fun d => isPrintable_of_mem_hexDigits⟩
  · have valid := c.valid
    simp only [UInt32.isValidChar, Nat.isValidChar] at valid
    have notTwo : c.toNat ≠ 0xfffe ∧ c.toNat ≠ 0xffff :=
      ⟨fun same => noSpecial (.inr (.inl (Char.toNat_inj.mp same))),
        fun same => noSpecial (.inr (.inr (Char.toNat_inj.mp same)))⟩
    have noOrder : c ≠ '\ufeff' := fun same => noSpecial (.inl same)
    simp only [Char.lt_def, Char.le_def, UInt32.lt_iff_toNat_lt, UInt32.le_iff_toNat_le] at noControl
    simp only [List.forall_mem_singleton, isPrintable, bne_iff_ne, noLine, noParagraph, noOrder, ne_eq,
      not_false_eq_true, and_true, Bool.or_eq_true, Bool.and_eq_true, decide_eq_true_eq, ← Char.toNat_val] at notTwo ⊢
    have space : ' '.val.toNat = 32 := rfl
    have delete : '\x7f'.val.toNat = 127 := rfl
    have last : '\u009f'.val.toNat = 159 := rfl
    omega

/-- A quoted text is written with printable characters. -/
theorem isPrintable_of_mem_quote {text : String} {c : Char} (member : c ∈ quote text) : isPrintable c = true := by
  simp only [quote, List.mem_cons, List.mem_append, List.mem_flatMap, List.not_mem_nil, or_false] at member
  rcases member with (rfl | ⟨d, _, member⟩) | rfl
  · rfl
  · exact isPrintable_of_mem_quoteChar d c member
  · rfl

/-- The state behind a scalar that a text consists of. -/
def behindScalar (cs : List Char) (style : Style) (text : String) : TokenState :=
  ⟨⟨(⟨0, 0, 0⟩ : Mark).forward cs.length, []⟩, [.scalar style text], -1, [], false, [some ⟨0, false, ⟨0, 0, 0⟩⟩]⟩

/-- Nothing is behind the scalar, whether it might still have been a key or not. -/
theorem exists_next?_behindScalar (cs : List Char) (style : Style) (text : String) :
    ∃ final, (behindScalar cs style text).next? = some final ∧
      final.produced = [.streamEnd, .scalar style text] := by
  cases stale : TokenState.isStale ((⟨0, 0, 0⟩ : Mark).forward cs.length) ⟨0, false, ⟨0, 0, 0⟩⟩ <;>
    simp [behindScalar, TokenState.next?, skipToToken, TokenState.dropStaleKeys?, stale, Option.filter,
      TokenState.closeBlocks, TokenState.inFlow, TokenState.pushStreamEnd?, TokenState.dropKey?, TokenState.push]

theorem ofText_of_next? {cs : List Char} (readable : ∀ c ∈ cs, isReadable c = true) (nonempty : cs ≠ [])
    {style : Style} {text : String} (found : (TokenState.start cs).next? = some (behindScalar cs style text)) :
    Source.ofText (String.ofList cs) = ⟨.scalar none style text, true⟩ := by
  have scanned : Scans (TokenState.start cs) (behindScalar cs style text) :=
    .single found (by simp [behindScalar]) (List.length_pos_iff.mpr nonempty)
  obtain ⟨final, last, produced⟩ := exists_next?_behindScalar cs style text
  have run := scanned.run_eq last (by rw [produced]; rfl) (Nat.lt_succ_self _)
  have tokens : tokens (String.ofList cs) = [.scalar style text, .streamEnd] := by
    simp only [Yaml.tokens, String.toList_ofList, List.all_eq_true.mpr readable, if_true]
    exact run.trans (by rw [produced]; rfl)
  rw [Source.ofText, tokens]
  rfl

theorem next?_start {c : Char} (starts : StartsToken c) (rest : List Char) :
    (TokenState.start (c :: rest)).next? = (TokenState.start (c :: rest)).pushTokenAt? c rest :=
  @TokenState.next?_of_skips (TokenState.start (c :: rest)) _ _ _ _ (skipToToken_of_starts starts false rest _ true)
    (by simp [TokenState.start]) (.inr (by simp [TokenState.start]))

/-- A quoted text is read as the text. -/
theorem ofText_quote (text : String) :
    Source.ofText (String.ofList (quote text)) = ⟨.scalar none .doubleQuoted text, true⟩ := by
  refine ofText_of_next? (fun c => isReadable_of_mem_quote) (by simp [quote]) ?_
  have starts : StartsToken '"' := by simp [StartsToken, isBlank, isBreak]
  obtain ⟨others, split⟩ : ∃ others, quote text = '"' :: others := ⟨_, rfl⟩
  have read := quotedScalar?_quote text [] ⟨0, 0, 0⟩
  rw [List.append_nil] at read
  rw [split] at read ⊢
  rw [next?_start starts, TokenState.pushTokenAt?_quote, TokenState.pushKeyToken?, TokenState.noteKey?_of_none rfl]
  simp only [TokenState.start, Cursor.start, read, Option.map_some, String.ofList_toList]
  rfl

/-- A plain word is read as it stands. -/
theorem ofText_word {cs : List Char} (word : PlainWord cs) :
    Source.ofText (String.ofList cs) = ⟨.scalar none .plain (String.ofList cs), true⟩ := by
  obtain ⟨first, others, rfl⟩ := word.exists_cons
  refine ofText_of_next? (fun c member => isReadable_of_isPlainChar (word.areAllowed c member)) (by simp) ?_
  have starts := startsToken_of_isPlainChar (List.forall_mem_cons.mp word.areAllowed).1
  have read := plainScalar?_of_word word (-1) [] ⟨0, 0, 0⟩
  rw [plainRest?, List.append_nil, List.reverse_reverse] at read
  have pushed := TokenState.pushTokenAt?_word (TokenState.start (first :: others)) word []
  rw [List.append_nil] at pushed
  rw [next?_start starts, pushed, TokenState.pushPlainScalar?, TokenState.noteKey?_of_none rfl]
  simp only [TokenState.start, Cursor.start, Option.bind_eq_bind, Option.bind_some, TokenState.inFlow,
    List.length_singleton, Nat.lt_irrefl, decide_false, read]
  rfl

/-- A key is read as the name. -/
theorem ofText_key (name : String) :
    Source.ofText (String.ofList (key name)) = ⟨.scalar none (keyStyle name) name, true⟩ := by
  cases bare : isBareKey name with
  | true => simpa [key, keyStyle, bare] using ofText_word (plainWord_of_isBareKey bare)
  | false => simpa [key, keyStyle, bare] using ofText_quote name

/-- Whether the quoted form of a text is one: it consists of printable characters without a break, and it is read as
the text, alone as well as with anything behind it. -/
structure IsQuoted (text : String) : Prop where
  printable : ∀ c ∈ quote text, isPrintable c = true ∧ isBreak c = false
  scanned : ∀ mark rest, quotedScalar? false ⟨mark, quote text ++ rest⟩ =
    some (text.toList, ⟨mark.forward (quote text).length, rest⟩)
  alone : Source.ofText (String.ofList (quote text)) = ⟨.scalar none .doubleQuoted text, true⟩

theorem isQuoted_quote (text : String) : IsQuoted text where
  printable _ member :=
    have printable := isPrintable_of_mem_quote member
    ⟨printable, (isReadable_of_isPrintable printable).2⟩
  scanned mark rest := quotedScalar?_quote text rest mark
  alone := ofText_quote text

/-- Every text is quoted so that it is read as the text, and every name is a key that is read as the name. A document
of words that is not too deep is read to its end with its names for keys exactly if every key has at most 1024
characters. -/
theorem quotes_and_keys_are_read (text name : String) (entries : List (String × Layout)) :
    IsQuoted text ∧
      Source.ofText (String.ofList (key name)) = ⟨.scalar none (keyStyle name) name, true⟩ ∧
      (entriesHaveWords entries → (Layout.mapping entries).depth ≤ maxDepth →
        (Source.ofText (documentText entries) = ⟨.mapping none (entryNodes entries), true⟩ ↔
          ∀ name ∈ entryNames entries, IsShortKey name)) :=
  ⟨isQuoted_quote text, ofText_key name, fun words shallow => ofText_documentText_eq_iff words shallow⟩

/-- A text with a quote and a break is read, and so are a bare key and a quoted one. -/
theorem quotes_and_keys_are_read_pair :
    entriesHaveWords [("a-b", .quoted "x"), ("a b", .sequence [.plain "1"])] ∧
      (Layout.mapping [("a-b", .quoted "x"), ("a b", .sequence [.plain "1"])]).depth ≤ maxDepth ∧
      Source.ofText "\"\\\"\\n\"" = ⟨.scalar none .doubleQuoted "\"\n", true⟩ ∧
      Source.ofText "\"a b\"" = ⟨.scalar none .doubleQuoted "a b", true⟩ ∧
      Source.ofText "a-b: \"x\"\n\"a b\":\n  - 1\n" =
        ⟨.mapping none [(.scalar none .plain "a-b", .scalar none .doubleQuoted "x"),
          (.scalar none .doubleQuoted "a b", .sequence none [.scalar none .plain "1"])], true⟩ := by
  have words : entriesHaveWords [("a-b", .quoted "x"), ("a b", .sequence [.plain "1"])] :=
    ⟨trivial, ⟨.word rfl nofun, trivial⟩, trivial⟩
  have shallow : (Layout.mapping [("a-b", .quoted "x"), ("a b", .sequence [.plain "1"])]).depth ≤ maxDepth := by
    decide
  have short : ∀ name ∈ entryNames [("a-b", .quoted "x"), ("a b", .sequence [.plain "1"])], IsShortKey name := by
    unfold IsShortKey
    decide +kernel
  have quoted : String.ofList (quote "\"\n") = "\"\\\"\\n\"" := by decide +kernel
  have written : documentText [("a-b", .quoted "x"), ("a b", .sequence [.plain "1"])] =
      "a-b: \"x\"\n\"a b\":\n  - 1\n" := by decide +kernel
  have keyed : String.ofList (key "a b") = "\"a b\"" := by decide +kernel
  have style : keyStyle "a b" = .doubleQuoted := by decide +kernel
  obtain ⟨isRead, isKey, documents⟩ :=
    quotes_and_keys_are_read "\"\n" "a b" [("a-b", .quoted "x"), ("a b", .sequence [.plain "1"])]
  have isText := isRead.alone
  have isDocument := (documents words shallow).mpr short
  rw [quoted] at isText
  rw [keyed, style] at isKey
  rw [written] at isDocument
  exact ⟨words, shallow, isText, isKey, isDocument⟩

end ClassSchema.Block

namespace ClassSchema

open Yaml

namespace ObjectModel

/-- A text that is not read to its end is not loaded. -/
theorem loadBlock_ne_ok {model : ObjectModel} {className text : String}
    (unread : (Source.ofText text).isClean = false) (back : Instance) :
    model.loadBlock className text ≠ .ok back := by
  intro loaded
  unfold loadBlock at loaded
  split at loaded
  · cases loaded
  · obtain ⟨entries, success, _⟩ := bind_eq_ok_iff.mp loaded
    have read := mapError_eq_ok_iff.mp success
    simp only [readBlock, bind_eq_ok_iff, unread, Bool.false_eq_true, if_false] at read
    obtain ⟨_, _, _, _, stopped⟩ := read
    cases stopped

end ObjectModel

/-- A document with a class whose one attribute has a name. -/
def Document.bag (name : String) : Document :=
  { blank with
    id := "https://example.org/s"
    name := "s"
    classes := [("Bag", ⟨"Bag", none, none, none, [⟨name, "string", false, false, false, none, none⟩]⟩)] }

/-- The field table of that class. -/
def ClassModel.bag (name : String) : ClassModel :=
  ⟨"Bag", none, [⟨name, .scalar .string, false, false, false, none⟩]⟩

/-- An instance of that class. -/
def Instance.bag (name : String) : Instance :=
  ⟨"Bag", [(name, .text "x")]⟩

/-- An attribute with a bare name of 1025 letters is written, but the text is not loaded again. -/
theorem ObjectModel.exists_text_not_loaded : ∃ name model text,
    Block.isBareKey name = true ∧ (Block.key name).length = 1025 ∧
      ofDocument (.bag name) = .ok model ∧ model.class? "Bag" = some (.bag name) ∧
      model.constructClass .lenient (.bag name) [(name, .text "x")] = .ok (.bag name) ∧
      (Instance.bag name).toBlockText = .ok text ∧ ∀ back, model.loadBlock "Bag" text ≠ .ok back := by
  have exists_bare (count : Nat) :
      ∃ name : String, Block.isBareKey name = true ∧ (Block.key name).length = count + 1 := by
    have bare : Block.isBareKey (String.ofList (List.replicate (count + 1) 'a')) = true := by
      simp [Block.isBareKey, List.replicate_succ]
    exact ⟨_, bare, by rw [Block.key, if_pos bare, String.toList_ofList, List.length_replicate]⟩
  obtain ⟨name, bare, length⟩ := exists_bare 1024
  have modelled : ofDocument (.bag name) = .ok ⟨"s", [("Bag", .bag name)]⟩ := by rfl
  have constructed : (ObjectModel.mk "s" [("Bag", .bag name)]).constructClass .lenient (.bag name)
      [(name, .text "x")] = .ok (.bag name) := by
    simp [constructClass, constructFields, constructField, constructSingle, ClassModel.bag, ClassModel.field?,
      Outcome.fields, Outcome.unknownKeys, Outcome.scalar, coerceScalar, Instance.bag]
  have words : Block.entriesHaveWords [(name, .quoted "x")] := ⟨trivial, trivial⟩
  have illegible : ¬ Block.entriesAreLegible [(name, .quoted "x")] := by
    simp [Block.entriesAreLegible, length]
  have noEnd := Block.streamEnd_not_mem_tokens_documentText words illegible
  have unread : (Source.ofText (Block.documentText [(name, .quoted "x")])).isClean = false :=
    Bool.eq_false_iff.mpr fun clean => noEnd (streamEnd_mem_of_isClean clean)
  exact ⟨name, _, _, bare, length, modelled, rfl, constructed, rfl, loadBlock_ne_ok unread⟩

end ClassSchema
