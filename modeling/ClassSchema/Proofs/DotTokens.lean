import ClassSchema.Graph.Dot

/-! # Reading DOT

A text in DOT is read as tokens: names, texts between quotes, the sign of an edge, and marks. A text between quotes
ends at the first quote that no backslash stands in front of, and the other backslashes of it are kept. The tokens
make statements, and these give attributes to nodes and edges. Comments, texts in HTML, ports and subgraphs are left
out: a text with one of them is not read.

Every text that is read keeps its backslashes, and so do texts that are put together from such texts; and if the
whole text does, then no text in it has a quote.
-/

namespace ClassSchema

/-- A token of DOT. -/
inductive DotToken where
  /-- A name, a keyword or a number, as it stands. -/
  | name (text : String)
  /-- A text between quotes. -/
  | quoted (text : String)
  /-- The sign between the ends of an edge. -/
  | arrow
  | mark (c : Char)
deriving DecidableEq, Repr

namespace Dot

/-- Read the characters of a quoted text up to the closing quote, and what follows it. An escaped quote stands for
a quote, and an escaped line break for nothing; any other character that a backslash stands in front of is kept with
the backslash, so that a quote behind two backslashes closes. -/
def readQuoted? : List Char → Option (List Char × List Char)
  | [] => none
  | '"' :: rest => some ([], rest)
  | '\\' :: '"' :: rest => (readQuoted? rest).map fun (text, rest) => ('"' :: text, rest)
  | '\\' :: '\n' :: rest => readQuoted? rest
  | '\\' :: c :: rest => (readQuoted? rest).map fun (text, rest) => ('\\' :: c :: text, rest)
  | c :: rest => (readQuoted? rest).map fun (text, rest) => (c :: text, rest)

/-- Whether every backslash is kept where the text is read, with the character behind it. -/
def keepsBackslashes : List Char → Bool
  | [] => true
  | ['\\'] => false
  | '\\' :: c :: rest => c != '"' && c != '\n' && keepsBackslashes rest
  | _ :: rest => keepsBackslashes rest

/-- Whether a text is read between quotes as it stands. -/
def isVerbatim (text : String) : Bool :=
  keepsBackslashes text.toList && !text.toList.contains '"'

theorem keepsBackslashes_cons {c : Char} (noEscape : c ≠ '\\') (rest : List Char) :
    keepsBackslashes (c :: rest) = keepsBackslashes rest := by
  rw [keepsBackslashes] <;> simp [noEscape]

theorem keepsBackslashes_pair {c : Char} (noQuote : c ≠ '"') (noBreak : c ≠ '\n') (rest : List Char) :
    keepsBackslashes ('\\' :: c :: rest) = keepsBackslashes rest := by
  simp [keepsBackslashes, noQuote, noBreak]

/-- A text that keeps its backslashes consists of pairs that start with one and of other characters. -/
theorem keepsBackslashes_induction {motive : (cs : List Char) → keepsBackslashes cs = true → Prop}
    (nil : motive [] rfl)
    (plain : ∀ (c : Char) (rest : List Char) (noEscape : c ≠ '\\') (kept : keepsBackslashes rest = true),
      motive rest kept → motive (c :: rest) ((keepsBackslashes_cons noEscape rest).trans kept))
    (pair : ∀ (c : Char) (rest : List Char) (noQuote : c ≠ '"') (noBreak : c ≠ '\n')
      (kept : keepsBackslashes rest = true), motive rest kept →
        motive ('\\' :: c :: rest) ((keepsBackslashes_pair noQuote noBreak rest).trans kept))
    {cs : List Char} (kept : keepsBackslashes cs = true) : motive cs kept := by
  fun_induction keepsBackslashes cs with
  | case1 => exact nil
  | case2 => cases kept
  | case3 c rest ih =>
    have parts : (c != '"' && c != '\n' && keepsBackslashes rest) = true := kept
    simp only [Bool.and_eq_true, bne_iff_ne] at parts
    exact pair c rest parts.1.1 parts.1.2 parts.2 (ih parts.2)
  | case4 c rest noEnd noPair ih =>
    have noEscape : c ≠ '\\' := by
      rintro rfl
      cases rest with
      | nil => exact noEnd rfl rfl
      | cons d others => exact noPair d others rfl rfl
    have others := (keepsBackslashes_cons noEscape rest).symm.trans kept
    exact plain c rest noEscape others (ih others)

theorem keepsBackslashes_append {cs : List Char} (kept : keepsBackslashes cs = true) (others : List Char) :
    keepsBackslashes (cs ++ others) = keepsBackslashes others := by
  induction kept using keepsBackslashes_induction with
  | nil => rfl
  | plain c rest noEscape _ ih => rw [List.cons_append, keepsBackslashes_cons noEscape, ih]
  | pair c rest noQuote noBreak _ ih =>
    rw [List.cons_append, List.cons_append, keepsBackslashes_pair noQuote noBreak, ih]

theorem readQuoted?_cons {c : Char} (noQuote : c ≠ '"') (noEscape : c ≠ '\\') (rest : List Char) :
    readQuoted? (c :: rest) = (readQuoted? rest).map fun (text, rest) => (c :: text, rest) := by
  rw [readQuoted?] <;> simp [noQuote, noEscape]

theorem readQuoted?_pair {c : Char} (noQuote : c ≠ '"') (noBreak : c ≠ '\n') (rest : List Char) :
    readQuoted? ('\\' :: c :: rest) = (readQuoted? rest).map fun (text, rest) => ('\\' :: c :: text, rest) := by
  rw [readQuoted?] <;> simp [noQuote, noBreak]

/-- A text is read as it stands if it keeps its backslashes and has no quote. -/
theorem readQuoted?_append {cs : List Char} (kept : keepsBackslashes cs = true) (noQuote : '"' ∉ cs)
    (rest : List Char) : readQuoted? (cs ++ '"' :: rest) = some (cs, rest) := by
  induction kept using keepsBackslashes_induction with
  | nil => rw [List.nil_append, readQuoted?]
  | plain c others noEscape _ ih =>
    obtain ⟨first, later⟩ := not_or.mp (mt List.mem_cons.mpr noQuote)
    rw [List.cons_append, readQuoted?_cons (Ne.symm first) noEscape, ih later]
    rfl
  | pair c others noQuoteHere noBreak _ ih =>
    have later : '"' ∉ others := by simp_all
    rw [List.cons_append, List.cons_append, readQuoted?_pair noQuoteHere noBreak, ih later]
    rfl

/-- What is read between quotes keeps its backslashes. What follows keeps its own if all did, and then no quote is
among what is read. -/
theorem keepsBackslashes_of_readQuoted? {cs text rest : List Char} (read : readQuoted? cs = some (text, rest)) :
    keepsBackslashes text = true ∧ (keepsBackslashes cs = true → '"' ∉ text ∧ keepsBackslashes rest = true) := by
  fun_induction readQuoted? cs generalizing text with
  | case1 => cases read
  | case2 rest =>
    cases read
    exact ⟨rfl, fun kept => ⟨List.not_mem_nil, kept⟩⟩
  | case3 others ih =>
    obtain ⟨⟨text, rest⟩, found, same⟩ := Option.map_eq_some_iff.mp read
    cases same
    exact ⟨(keepsBackslashes_cons (by decide) _).trans (ih found).1, nofun⟩
  | case4 others ih => exact ⟨(ih read).1, nofun⟩
  | case5 c others noQuote noBreak ih =>
    obtain ⟨⟨text, rest⟩, found, same⟩ := Option.map_eq_some_iff.mp read
    cases same
    obtain ⟨inText, further⟩ := ih found
    rw [keepsBackslashes_pair noQuote noBreak, keepsBackslashes_pair noQuote noBreak]
    refine ⟨inText, fun kept => ?_⟩
    obtain ⟨none, behind⟩ := further kept
    exact ⟨by simp [none, Ne.symm noQuote], behind⟩
  | case6 c others noQuote noEscapedQuote noEscapedBreak noPair ih =>
    have noEscape : c ≠ '\\' := by
      rintro rfl
      cases others with
      | nil => cases read
      | cons d others => exact noPair d others rfl rfl
    obtain ⟨⟨text, rest⟩, found, same⟩ := Option.map_eq_some_iff.mp read
    cases same
    obtain ⟨inText, further⟩ := ih found
    rw [keepsBackslashes_cons noEscape, keepsBackslashes_cons noEscape]
    refine ⟨inText, fun kept => ?_⟩
    obtain ⟨none, behind⟩ := further kept
    exact ⟨List.not_mem_cons_of_ne_of_not_mem (Ne.symm noQuote) none, behind⟩

/-- Whether a character separates tokens. -/
def isSpace (c : Char) : Bool :=
  c == ' ' || c == '\t' || c == '\r' || c == '\n'

/-- Whether a character may stand in a name. -/
def isNameChar (c : Char) : Bool :=
  c.isAlphanum || c == '_' || 0x80 ≤ c.toNat

/-- Whether a character is a token of its own. -/
def isMark (c : Char) : Bool :=
  "\x7b\x7d[];,=+".toList.contains c

/-- Read the token at the front of a text, and what follows it. -/
def readToken? : List Char → Option (DotToken × List Char)
  | '"' :: rest => (readQuoted? rest).map fun (text, rest) => (.quoted (String.ofList text), rest)
  | '-' :: '>' :: rest => some (.arrow, rest)
  | c :: rest =>
    if isMark c then some (.mark c, rest)
    else if isNameChar c then
      some (.name (String.ofList (c :: rest.takeWhile isNameChar)), rest.dropWhile isNameChar)
    else none
  | [] => none

/-- Whether a text is read as tokens: between and behind them there is nothing but blanks. -/
inductive ReadsAs : List Char → List DotToken → Prop
  | done : ReadsAs [] []
  | space {c : Char} {rest : List Char} {tokens : List DotToken} (blank : isSpace c = true)
      (others : ReadsAs rest tokens) : ReadsAs (c :: rest) tokens
  | token {cs rest : List Char} {token : DotToken} {tokens : List DotToken}
      (read : readToken? cs = some (token, rest)) (others : ReadsAs rest tokens) : ReadsAs cs (token :: tokens)

/-- No token starts with a blank. -/
theorem readToken?_of_isSpace {c : Char} {rest : List Char} (blank : isSpace c = true) :
    readToken? (c :: rest) = none := by
  simp only [isSpace, Bool.or_eq_true, beq_iff_eq] at blank
  rcases blank with ((rfl | rfl) | rfl) | rfl <;> rfl

/-- A text is read in one way only. -/
theorem ReadsAs.unique {cs : List Char} {left right : List DotToken} (first : ReadsAs cs left)
    (second : ReadsAs cs right) : left = right := by
  induction first generalizing right with
  | done =>
    cases second with
    | done => rfl
    | token read => cases read
  | space blank _ ih =>
    cases second with
    | space _ others => exact ih others
    | token read => cases (readToken?_of_isSpace blank).symm.trans read
  | token read _ ih =>
    cases second with
    | done => cases read
    | space blank => cases (readToken?_of_isSpace blank).symm.trans read
    | token same others =>
      cases read.symm.trans same
      rw [ih others]

end Dot

namespace DotToken

/-- The text of a token that is a name or stands between quotes. -/
def text? : DotToken → Option String
  | .name text => some text
  | .quoted text => some text
  | .arrow => none
  | .mark _ => none

/-- The keyword that a token is, in lower case; a quoted text is none. -/
def keyword? : DotToken → Option String
  | .name text =>
    if ["graph", "node", "edge", "digraph", "subgraph", "strict"].contains text.toLower then some text.toLower
    else none
  | _ => none

/-- What a token identifies, unless it is a keyword. -/
def id? (token : DotToken) : Option String :=
  if token.keyword?.isSome then none else token.text?

end DotToken

/-- A statement of DOT. -/
inductive DotStatement where
  /-- An attribute of the whole graph. -/
  | assignment (name value : String)
  /-- Attributes of all graphs, nodes or edges, as the keyword says, that follow. -/
  | defaults (keyword : String) (attributes : List (String × String))
  | node (id : String) (attributes : List (String × String))
  | edge (source target : String) (attributes : List (String × String))
deriving DecidableEq, Repr

/-- The attributes that a statement gives. -/
def DotStatement.attributes : DotStatement → List (String × String)
  | .assignment name value => [(name, value)]
  | .defaults _ attributes => attributes
  | .node _ attributes => attributes
  | .edge _ _ attributes => attributes

namespace Dot

/-- The statement that gives attributes to what a token names. -/
def declaration? (token : DotToken) (attributes : List (String × String)) : Option DotStatement :=
  match token.keyword? with
  | some keyword => if ["graph", "node", "edge"].contains keyword then some (.defaults keyword attributes) else none
  | none => token.text?.map (.node · attributes)

mutual

/-- The statements of a graph, up to the brace that closes it. -/
def statements? : List DotToken → Option (List DotStatement)
  | [.mark '\x7d'] => some []
  | .mark ';' :: rest => statements? rest
  | name :: .mark '=' :: value :: rest => do
    let others ← statements? rest
    return .assignment (← name.id?) (← value.id?) :: others
  | source :: .arrow :: target :: .mark '[' :: rest => do
    let (attributes, others) ← attributes? rest
    return .edge (← source.id?) (← target.id?) attributes :: others
  | source :: .arrow :: target :: rest => do
    let others ← statements? rest
    return .edge (← source.id?) (← target.id?) [] :: others
  | first :: .mark '[' :: rest => do
    let (attributes, others) ← attributes? rest
    return (← declaration? first attributes) :: others
  | first :: rest => do
    let others ← statements? rest
    return .node (← first.id?) [] :: others
  | [] => none

/-- The attributes of a list, up to the bracket that closes it, and the statements behind it. -/
def attributes? : List DotToken → Option (List (String × String) × List DotStatement)
  | .mark ']' :: rest => do
    let others ← statements? rest
    return ([], others)
  | name :: .mark '=' :: value :: .mark ',' :: rest => do
    let (attributes, others) ← attributes? rest
    return ((← name.id?, ← value.id?) :: attributes, others)
  | name :: .mark '=' :: value :: .mark ';' :: rest => do
    let (attributes, others) ← attributes? rest
    return ((← name.id?, ← value.id?) :: attributes, others)
  | name :: .mark '=' :: value :: rest => do
    let (attributes, others) ← attributes? rest
    return ((← name.id?, ← value.id?) :: attributes, others)
  | _ => none

end

/-- Put a token in front of others; quoted texts with a plus sign between them make one. -/
def joinToken : DotToken → List DotToken → List DotToken
  | .quoted left, .mark '+' :: .quoted right :: rest => .quoted (left ++ right) :: rest
  | token, rest => token :: rest

/-- The statements of a directed graph that has a name. -/
def graph? (tokens : List DotToken) : Option (List DotStatement) :=
  match tokens.foldr joinToken [] with
  | keyword :: name :: .mark '\x7b' :: rest =>
    if keyword.keyword? = some "digraph" ∧ name.id?.isSome then statements? rest else none
  | _ => none

/-- Whether all texts of tokens have a property. -/
def TextsHold (holds : String → Prop) (tokens : List DotToken) : Prop :=
  ∀ token ∈ tokens, ∀ text ∈ token.text?, holds text

variable {holds : String → Prop}

theorem attributes_of_declaration? {token : DotToken} {attributes : List (String × String)} {statement : DotStatement}
    (found : declaration? token attributes = some statement) : statement.attributes = attributes := by
  unfold declaration? at found
  split at found
  · split at found
    · cases found
      rfl
    · cases found
  · obtain ⟨id, _, rfl⟩ := Option.map_eq_some_iff.mp found
    rfl

/-- Whether tokens are what is left of others behind a part of them. -/
def IsBehind (rest tokens : List DotToken) : Prop :=
  rest <:+ tokens ∧ rest.length < tokens.length

theorem isBehind_append (first : DotToken) (others rest : List DotToken) : IsBehind rest (first :: others ++ rest) := by
  refine ⟨List.suffix_append _ rest, ?_⟩
  rw [List.length_append]
  exact Nat.lt_add_of_pos_left (Nat.succ_pos _)

theorem TextsHold.behind {rest tokens : List DotToken} (each : TextsHold holds tokens) (later : IsBehind rest tokens) :
    TextsHold holds rest :=
  fun token member => each token (later.1.subset member)

/-- What a read of statements is made of. -/
inductive StatementsStep (tokens : List DotToken) : List DotStatement → Prop where
  /-- The brace that closes the graph. -/
  | close : StatementsStep tokens []
  /-- A semicolon, with statements behind it. -/
  | mark {rest : List DotToken} {statements : List DotStatement} (later : IsBehind rest tokens)
    (read : statements? rest = some statements) : StatementsStep tokens statements
  /-- A statement whose attributes stand in its own tokens. -/
  | short {rest : List DotToken} {statement : DotStatement} {others : List DotStatement} (later : IsBehind rest tokens)
    (values : ∀ attr ∈ statement.attributes, ∃ token ∈ tokens, token.text? = some attr.2)
    (read : statements? rest = some others) : StatementsStep tokens (statement :: others)
  /-- A statement whose attributes stand in a list behind it. -/
  | long {rest : List DotToken} {statement : DotStatement} {others : List DotStatement} (later : IsBehind rest tokens)
    (read : attributes? rest = some (statement.attributes, others)) : StatementsStep tokens (statement :: others)

/-- What a read of attributes is made of. -/
inductive AttributesStep (tokens : List DotToken) : List (String × String) → List DotStatement → Prop where
  /-- The bracket that closes the list, with statements behind it. -/
  | close {rest : List DotToken} {statements : List DotStatement} (later : IsBehind rest tokens)
    (read : statements? rest = some statements) : AttributesStep tokens [] statements
  /-- An attribute, with others behind it. -/
  | entry {rest : List DotToken} {attr : String × String} {attributes : List (String × String)}
    {statements : List DotStatement} (later : IsBehind rest tokens)
    (value : ∃ token ∈ tokens, token.text? = some attr.2) (read : attributes? rest = some (attributes, statements)) :
    AttributesStep tokens (attr :: attributes) statements

theorem text?_of_id? {token : DotToken} {text : String} (found : token.id? = some text) : token.text? = some text := by
  unfold DotToken.id? at found
  split at found
  · cases found
  · exact found

theorem statementsStep_of_statements? {tokens : List DotToken} {statements : List DotStatement}
    (read : statements? tokens = some statements) : StatementsStep tokens statements := by
  unfold statements? at read
  split at read
  · cases read
    exact .close
  · exact .mark (isBehind_append _ [] _) read
  · rename_i name value rest _
    simp only [Option.bind_eq_bind, Option.bind_eq_some_iff, Option.pure_def, Option.some.injEq] at read
    obtain ⟨others, behind, _, _, text, isText, rfl⟩ := read
    refine .short (isBehind_append name [.mark '=', value] rest) (fun attr member => ?_) behind
    obtain rfl := List.mem_singleton.mp member
    exact ⟨value, by simp, text?_of_id? isText⟩
  · rename_i source target rest _
    simp only [Option.bind_eq_bind, Option.bind_eq_some_iff, Option.pure_def, Option.some.injEq] at read
    obtain ⟨⟨attributes, others⟩, behind, _, _, _, _, rfl⟩ := read
    exact .long (isBehind_append source [.arrow, target, .mark '['] rest) behind
  · rename_i source target rest _ _
    simp only [Option.bind_eq_bind, Option.bind_eq_some_iff, Option.pure_def, Option.some.injEq] at read
    obtain ⟨others, behind, _, _, _, _, rfl⟩ := read
    exact .short (isBehind_append source [.arrow, target] rest) nofun behind
  · rename_i first rest _
    simp only [Option.bind_eq_bind, Option.bind_eq_some_iff, Option.pure_def, Option.some.injEq] at read
    obtain ⟨⟨attributes, others⟩, behind, statement, isStatement, rfl⟩ := read
    obtain rfl := attributes_of_declaration? isStatement
    exact .long (isBehind_append first [.mark '['] rest) behind
  · rename_i first rest _ _ _ _ _ _
    simp only [Option.bind_eq_bind, Option.bind_eq_some_iff, Option.pure_def, Option.some.injEq] at read
    obtain ⟨others, behind, _, _, rfl⟩ := read
    exact .short (isBehind_append first [] rest) nofun behind
  · cases read

theorem attributesStep_of_attributes? {tokens : List DotToken} {attributes : List (String × String)}
    {statements : List DotStatement} (read : attributes? tokens = some (attributes, statements)) :
    AttributesStep tokens attributes statements := by
  -- an attribute reads the same behind its value, whatever mark it ends with
  have entry {name value : DotToken} {rest : List DotToken} (marks : List DotToken)
      (found : (do
        let (attributes, others) ← attributes? rest
        return ((← name.id?, ← value.id?) :: attributes, others)) = some (attributes, statements)) :
      AttributesStep (name :: .mark '=' :: value :: marks ++ rest) attributes statements := by
    simp only [Option.bind_eq_bind, Option.bind_eq_some_iff, Option.pure_def, Option.some.injEq, Prod.mk.injEq] at found
    obtain ⟨⟨further, others⟩, behind, _, _, text, isText, rfl, rfl⟩ := found
    exact .entry (isBehind_append name (.mark '=' :: value :: marks) rest) ⟨value, by simp, text?_of_id? isText⟩ behind
  unfold attributes? at read
  split at read
  · obtain ⟨others, behind, same⟩ := Option.bind_eq_some_iff.mp read
    cases same
    exact .close (isBehind_append _ [] _) behind
  · exact entry [.mark ','] read
  · exact entry [.mark ';'] read
  · exact entry [] read
  · cases read

mutual

/-- The values of attributes are texts of tokens. -/
theorem holds_of_statements? {tokens : List DotToken} {statements : List DotStatement}
    (read : statements? tokens = some statements) (each : TextsHold holds tokens) :
    ∀ statement ∈ statements, ∀ attr ∈ statement.attributes, holds attr.2 := by
  cases statementsStep_of_statements? read with
  | close => exact nofun
  | mark later behind => exact holds_of_statements? behind (each.behind later)
  | short later values behind =>
    refine List.forall_mem_cons.mpr ⟨fun attr member => ?_, holds_of_statements? behind (each.behind later)⟩
    obtain ⟨token, isToken, isText⟩ := values attr member
    exact each token isToken attr.2 isText
  | long later behind => exact List.forall_mem_cons.mpr (holds_of_attributes? behind (each.behind later))
termination_by tokens.length
decreasing_by all_goals exact later.2

/-- So are those of attributes in a list and of the statements behind it. -/
theorem holds_of_attributes? {tokens : List DotToken} {attributes : List (String × String)}
    {statements : List DotStatement} (read : attributes? tokens = some (attributes, statements))
    (each : TextsHold holds tokens) : (∀ attr ∈ attributes, holds attr.2) ∧
      ∀ statement ∈ statements, ∀ attr ∈ statement.attributes, holds attr.2 := by
  cases attributesStep_of_attributes? read with
  | close later behind => exact ⟨nofun, holds_of_statements? behind (each.behind later)⟩
  | entry later value behind =>
    obtain ⟨token, isToken, isText⟩ := value
    obtain ⟨inList, inOthers⟩ := holds_of_attributes? behind (each.behind later)
    exact ⟨List.forall_mem_cons.mpr ⟨each token isToken _ isText, inList⟩, inOthers⟩
termination_by tokens.length
decreasing_by all_goals exact later.2

end

theorem TextsHold.joinTokens (append : ∀ left right, holds left → holds right → holds (left ++ right))
    {tokens : List DotToken} (each : TextsHold holds tokens) : TextsHold holds (tokens.foldr joinToken []) := by
  induction tokens with
  | nil => exact nofun
  | cons first rest ih =>
    obtain ⟨here, later⟩ := List.forall_mem_cons.mp each
    have others := ih later
    rw [List.foldr_cons]
    generalize rest.foldr joinToken [] = joined at others
    unfold joinToken
    split
    · rename_i left right behind
      simp only [TextsHold, List.forall_mem_cons] at others
      refine List.forall_mem_cons.mpr ⟨?_, others.2.2⟩
      rintro _ ⟨⟩
      exact append left right (here left rfl) (others.2.1 right rfl)
    · exact List.forall_mem_cons.mpr ⟨here, others⟩

/-- The values of the attributes of a graph have every property that the texts of tokens have and that texts keep
when they are put together. -/
theorem holds_of_graph? (append : ∀ left right, holds left → holds right → holds (left ++ right))
    {tokens : List DotToken} {statements : List DotStatement} (each : TextsHold holds tokens)
    (read : graph? tokens = some statements) :
    ∀ statement ∈ statements, ∀ attr ∈ statement.attributes, holds attr.2 := by
  have joined := each.joinTokens append
  unfold graph? at read
  split at read
  · rename_i keyword name rest tokens
    rw [tokens] at joined
    simp only [TextsHold, List.forall_mem_cons] at joined
    split at read
    · exact holds_of_statements? read joined.2.2.2
    · cases read
  · cases read

theorem keepsBackslashes_of_not_mem {cs : List Char} (noEscape : '\\' ∉ cs) : keepsBackslashes cs = true := by
  induction cs with
  | nil => rfl
  | cons c rest ih =>
    obtain ⟨here, later⟩ := not_or.mp (mt List.mem_cons.mpr noEscape)
    rw [keepsBackslashes_cons (Ne.symm here), ih later]

/-- A token's text keeps its backslashes. What follows keeps its own if all did, and then the text has no quote. -/
theorem keepsBackslashes_of_readToken? {cs rest : List Char} {token : DotToken}
    (read : readToken? cs = some (token, rest)) :
    (∀ text ∈ token.text?, keepsBackslashes text.toList = true) ∧ (keepsBackslashes cs = true →
      (∀ text ∈ token.text?, '"' ∉ text.toList) ∧ keepsBackslashes rest = true) := by
  unfold readToken? at read
  split at read
  · rename_i others
    obtain ⟨⟨text, rest⟩, found, same⟩ := Option.map_eq_some_iff.mp read
    cases same
    obtain ⟨inText, further⟩ := keepsBackslashes_of_readQuoted? found
    simp only [DotToken.text?, Option.mem_some_iff, forall_eq', String.toList_ofList]
    exact ⟨inText, fun kept => further ((keepsBackslashes_cons (by decide) others).symm.trans kept)⟩
  · cases read
    exact ⟨nofun, fun kept => ⟨nofun, kept⟩⟩
  · rename_i c others _ _
    split at read
    · rename_i isMark
      cases read
      have noEscape : c ≠ '\\' := by
        rintro rfl
        cases isMark
      exact ⟨nofun, fun kept => ⟨nofun, (keepsBackslashes_cons noEscape rest).symm.trans kept⟩⟩
    · split at read
      · rename_i isFirst
        cases read
        have each : ∀ d ∈ c :: others.takeWhile isNameChar, isNameChar d = true := by
          rintro d (_ | ⟨_, later⟩)
          · exact isFirst
          · exact List.all_eq_true.mp List.all_takeWhile d later
        have without (d : Char) (strange : isNameChar d = false) : d ∉ c :: others.takeWhile isNameChar :=
          fun member => Bool.false_ne_true (strange.symm.trans (each d member))
        have inName := keepsBackslashes_of_not_mem (without '\\' rfl)
        simp only [DotToken.text?, Option.mem_some_iff, forall_eq', String.toList_ofList]
        refine ⟨inName, fun kept => ⟨without '"' rfl, ?_⟩⟩
        rw [← List.takeWhile_append_dropWhile (p := isNameChar) (l := others), ← List.cons_append,
          keepsBackslashes_append inName] at kept
        exact kept
      · cases read
  · cases read

/-- Texts of tokens keep their backslashes. If those of the whole text are kept, no quote is in one of them. -/
theorem keepsBackslashes_of_readsAs {cs : List Char} {tokens : List DotToken} (reads : ReadsAs cs tokens) :
    TextsHold (keepsBackslashes ·.toList = true) tokens ∧
      (keepsBackslashes cs = true → TextsHold ('"' ∉ ·.toList) tokens) := by
  induction reads with
  | done => exact ⟨nofun, fun _ => nofun⟩
  | space blank _ ih =>
    refine ⟨ih.1, fun kept => ih.2 ?_⟩
    rename_i c rest _ _
    have noEscape : c ≠ '\\' := by
      rintro rfl
      cases blank
    exact (keepsBackslashes_cons noEscape rest).symm.trans kept
  | token read _ ih =>
    obtain ⟨inText, further⟩ := keepsBackslashes_of_readToken? read
    refine ⟨List.forall_mem_cons.mpr ⟨inText, ih.1⟩, fun kept => ?_⟩
    obtain ⟨noQuote, later⟩ := further kept
    exact List.forall_mem_cons.mpr ⟨noQuote, ih.2 later⟩

end Dot

end ClassSchema
