import Retype.Naming
import Retype.Proofs.Lexing

/-! Types read back from text.  A type is a name, a sequence of named things, or a map from texts to them; each is told
from its text whatever the name, and written as the text it is read from. -/

namespace Retype.Code.Grammar
open Code.Parser

theorem run_bind_some {α β : Type} {p : Parser α} {f : α → Parser β} {s s' : Trees} {a : α} (h : p.run s = some (a, s')) :
    (p >>= f).run s = (f a).run s' := by
  rw [StateT.run_bind, h]
  rfl

theorem run_peek_bind {β : Type} (test : Trees → Bool) (f : Bool → Parser β) (s : Trees) :
    (peek test >>= f).run s = (f (test s)).run s := rfl

theorem run_optional_false {test : Trees → Bool} {p : Parser Tree} {s : Trees} (h : test s = false) :
    (Parser.optional test p).run s = some (Tree.absent, s) := by
  rw [Parser.optional, run_peek_bind, h]
  rfl

theorem run_optional_true {test : Trees → Bool} {p : Parser Tree} {s : Trees} (h : test s = true) :
    (Parser.optional test p).run s = p.run s := by
  rw [Parser.optional, run_peek_bind, h]
  rfl

theorem run_loop_stop {stop : Trees → Bool} {step : Parser Trees} {s : Trees} (fuel : Nat)
    (h : (s.isEmpty || stop s) = true) : (loop stop step fuel).run s = some ([], s) := by
  cases fuel with
  | zero =>
    change (if (s.isEmpty || stop s) = true then some ([], s) else none) = _
    rw [if_pos h]
  | succ fuel =>
    rw [loop, run_peek_bind, h]
    rfl

theorem run_loop_step {stop : Trees → Bool} {step : Parser Trees} {s s'' : Trees} (s' first rest : Trees) {fuel : Nat}
    (go : (s.isEmpty || stop s) = false) (one : step.run s = some (first, s'))
    (more : (loop stop step fuel).run s' = some (rest, s'')) :
    (loop stop step (fuel + 1)).run s = some (first ++ rest, s'') := by
  rw [loop, run_peek_bind, go, if_neg Bool.false_ne_true, run_bind_some one, run_bind_some more]
  rfl

theorem run_manyWhile_none {more : Trees → Bool} {step : Parser Trees} {s : Trees} (h : more s = false) :
    (manyWhile more step).run s = some ([], s) := by
  refine run_loop_stop s.length ?_
  rw [h, Bool.not_false, Bool.or_true]

/-- Nothing follows, or a sign that ends an argument. -/
def Closes (rest : Trees) : Prop := rest = [] ∨ (∃ t, rest = op ">" :: t) ∨ ∃ t, rest = op "," :: t

theorem Closes.isOp_eq {rest : Trees} (h : Closes rest) {w : String} (sign : w ∈ ["::", "<", "+", "!", "=", ":"]) :
    isOp w rest = false := by
  simp only [List.mem_cons, List.not_mem_nil, or_false] at sign
  rcases h with rfl | ⟨t, rfl⟩ | ⟨t, rfl⟩ <;> rcases sign with rfl | rfl | rfl | rfl | rfl | rfl <;> rfl

section Name
variable {g : Rules} {n : String} {rest : Trees}

theorem isWord_eq_false (plain : n ∉ keywords) {w : String} (key : w ∈ keywords) : isWord w (word n :: rest) = false := by
  refine beq_eq_false_iff_ne.mpr ?_
  rintro rfl
  exact plain key

theorem isIdent_word (plain : n ∉ keywords) : isIdent (word n :: rest) = true := by
  have other : keywords.contains n = false := by
    rw [Bool.eq_false_iff]
    exact fun mem => plain (List.contains_iff_mem.mp mem)
  change (!keywords.contains n) = true
  rw [other]
  rfl

theorem run_eatIdent (plain : n ∉ keywords) : eatIdent.run (word n :: rest) = some (word n, rest) := by
  change (if isIdent [word n] = true then some (word n, rest) else none) = _
  rw [if_pos (isIdent_word plain)]

theorem run_segment {args : Tree} {rest' : Trees} (plain : n ∉ keywords)
    (arguments : (Parser.optional (fun s => !false && isOp "<" s && !isOp "<=" s || isOp "::" s && ahead 2 (isOp "<") s)
      (angleArguments g)).run rest = some (args, rest')) :
    (segment g false).run (word n :: rest) = some (.node .segment [word n, args], rest') := by
  have outer : isOuterWord (word n :: rest) = false := by
    rw [isOuterWord, isWord_eq_false plain (by decide), isWord_eq_false plain (by decide),
      isWord_eq_false plain (by decide), isWord_eq_false plain (by decide)]
    rfl
  rw [segment, run_peek_bind, outer, if_neg Bool.false_ne_true]
  rw [run_peek_bind, isWord_eq_false plain (by decide), if_neg Bool.false_ne_true]
  dsimp only
  rw [run_bind_some (run_eatIdent plain), run_bind_some arguments]
  rfl

theorem run_path {seg : Tree} {rest' : Trees} (closes : Closes rest')
    (first : (segment g false).run (word n :: rest) = some (seg, rest')) :
    (path g false).run (word n :: rest) = some (.node .path [seg], rest') := by
  have root : rootMark.run (word n :: rest) = some ([], word n :: rest) := by
    rw [rootMark, run_peek_bind]
    rfl
  have more : (moreSegments g false).run rest' = some ([], rest') := by
    refine run_manyWhile_none ?_
    rw [continues, closes.isOp_eq (by decide), Bool.false_and]
  rw [path, run_bind_some root, run_bind_some first, run_bind_some more]
  rfl

theorem run_type {seg : Tree} {rest' : Trees} (plain : n ∉ keywords) (closes : Closes rest')
    (first : (segment g false).run (word n :: rest) = some (seg, rest')) :
    (type g true).run (word n :: rest) = some (.node (.type .path) [.node .path [seg]], rest') := by
  have key {w : String} (mem : w ∈ keywords) : isWord w (word n :: rest) = false := isWord_eq_false plain mem
  have lifetimes : (optLifetimes g).run (word n :: rest) = some (Tree.absent, word n :: rest) :=
    run_optional_false (key (by decide))
  have begins : beginsPath (word n :: rest) = true := by
    rw [beginsPath, isIdent_word plain]
    rfl
  have qualified : (qualifiedPath g false).run (word n :: rest) = some (.node .path [seg], rest') := by
    rw [qualifiedPath, run_peek_bind, show isOp "<" (word n :: rest) = false from rfl, if_neg Bool.false_ne_true,
      run_path closes first]
  rw [type, run_bind_some lifetimes, run_peek_bind, key (by decide), key (by decide), key (by decide), Bool.or_false,
    Bool.or_false, if_neg Bool.false_ne_true, run_peek_bind, key (by decide), if_neg Bool.false_ne_true, run_peek_bind,
    begins, if_pos rfl, pathType, run_bind_some qualified]
  dsimp only
  rw [run_peek_bind, closes.isOp_eq (by decide)]
  rw [Bool.false_and, Bool.false_and, if_neg Bool.false_ne_true, run_peek_bind, closes.isOp_eq (by decide)]
  rfl

theorem run_type_name (plain : n ∉ keywords) (closes : Closes rest) :
    (type g true).run (word n :: rest) = some (typeOf n, rest) := by
  refine run_type plain closes (run_segment plain (run_optional_false ?_))
  rw [closes.isOp_eq (w := "<") (by decide), closes.isOp_eq (w := "::") (by decide)]
  rfl

theorem run_type_angle {args : Tree} {rest' : Trees} (plain : n ∉ keywords) (closes : Closes rest')
    (arguments : (angleArguments g).run (op "<" :: rest) = some (args, rest')) (angle : isOp "<=" (op "<" :: rest) = false) :
    (type g true).run (word n :: op "<" :: rest) =
      some (.node (.type .path) [.node .path [.node .segment [word n, args]]], rest') := by
  refine run_type plain closes (run_segment plain ?_)
  rw [run_optional_true, arguments]
  rw [angle]
  rfl

end Name

section Arguments
variable {k : Nat} {t a : Tree} {rest : Trees}

/-- An argument of one token: a name, or a number that stands for a constant. -/
inductive IsArgument : Tree → Tree → Prop
  | name {n : String} (plain : n ∉ keywords) : IsArgument (word n) (typeOf n)
  | number (text : String) : IsArgument (lit text) (.node (.expr .lit) [.node .attrs [], lit text])

theorem run_genericArgument_name {n : String} (plain : n ∉ keywords) (closes : Closes rest) :
    (genericArgument (rules (k + 1))).run (word n :: rest) = some (typeOf n, rest) := by
  have lit : isLit (word n :: rest) = false := by
    have noTrue : isWord "true" (word n :: rest) = false := isWord_eq_false plain (by decide)
    have noFalse : isWord "false" (word n :: rest) = false := isWord_eq_false plain (by decide)
    change (n == "true" || n == "false") = false
    rw [show (n == "true") = false from noTrue, show (n == "false") = false from noFalse]
    rfl
  have named : ((rules (k + 1)).type true).run (word n :: rest) = some (typeOf n, rest) := run_type_name plain closes
  rw [genericArgument, run_peek_bind, show isLifetime (word n :: rest) = false from rfl, Bool.false_and,
    if_neg Bool.false_ne_true, run_peek_bind, either, lit, show isGroup .brace (word n :: rest) = false from rfl,
    Bool.or_false, if_neg Bool.false_ne_true, run_bind_some named]
  dsimp only [typeOf, pathOf, loneSegment?, Tree.absent]
  rw [run_peek_bind, closes.isOp_eq (by decide), if_neg Bool.false_ne_true, run_peek_bind, closes.isOp_eq (by decide),
    Bool.false_and, if_neg Bool.false_ne_true]
  rfl

theorem run_genericArgument (argument : IsArgument t a) (closes : Closes rest) :
    (genericArgument (rules (k + 1))).run (t :: rest) = some (a, rest) := by
  cases argument with
  | name plain => exact run_genericArgument_name plain closes
  | number text => rfl

theorem run_angleArguments_one (argument : IsArgument t a) :
    (angleArguments (rules (k + 1))).run [op "<", t, op ">"] =
      some (.node .angleArgs [Tree.absent, op "<", a, op ">"], []) := by
  have args : (commaSeparatedWhile (fun s => !isOp ">" s) (genericArgument (rules (k + 1)))).run [t, op ">"] =
      some ([a], [op ">"]) := by
    refine run_loop_step [op ">"] [a] [] ?_ ?_ ?_
    · cases argument <;> rfl
    · rw [run_bind_some (run_genericArgument argument (.inr (.inl ⟨[], rfl⟩)))]
      rfl
    · exact run_loop_stop 1 rfl
  have colons : (optOp "::").run [op "<", t, op ">"] = some (Tree.absent, [op "<", t, op ">"]) :=
    run_optional_false rfl
  have opening : (eatOp "<").run [op "<", t, op ">"] = some (op "<", [t, op ">"]) := rfl
  have closing : (eatOp ">").run [op ">"] = some (op ">", []) := rfl
  rw [angleArguments, run_bind_some colons, run_bind_some opening, run_bind_some args, run_bind_some closing]
  cases argument <;> rfl

theorem run_angleArguments_two {m : String} (plain : m ∉ keywords) (argument : IsArgument t a) :
    (angleArguments (rules (k + 1))).run [op "<", word m, op ",", t, op ">"] =
      some (.node .angleArgs [Tree.absent, op "<", typeOf m, op ",", a, op ">"], []) := by
  have args : (commaSeparatedWhile (fun s => !isOp ">" s) (genericArgument (rules (k + 1)))).run
      [word m, op ",", t, op ">"] = some ([typeOf m, op ",", a], [op ">"]) := by
    refine run_loop_step [t, op ">"] [typeOf m, op ","] [a] rfl ?_ ?_
    · rw [run_bind_some (run_genericArgument (.name plain) (.inr (.inr ⟨_, rfl⟩)))]
      rfl
    · refine run_loop_step [op ">"] [a] [] ?_ ?_ ?_
      · cases argument <;> rfl
      · rw [run_bind_some (run_genericArgument argument (.inr (.inl ⟨[], rfl⟩)))]
        rfl
      · exact run_loop_stop 2 rfl
  have colons : (optOp "::").run [op "<", word m, op ",", t, op ">"] =
      some (Tree.absent, [op "<", word m, op ",", t, op ">"]) := run_optional_false rfl
  have opening : (eatOp "<").run [op "<", word m, op ",", t, op ">"] =
      some (op "<", [word m, op ",", t, op ">"]) := rfl
  have closing : (eatOp ">").run [op ">"] = some (op ">", []) := rfl
  rw [angleArguments, run_bind_some colons, run_bind_some opening, run_bind_some args, run_bind_some closing]
  cases argument <;> rfl

def vecOf (arg : Tree) : Tree :=
  .node (.type .path) [.node .path [.node .segment [word "Vec",
    .node .angleArgs [Tree.absent, op "<", arg, op ">"]]]]

def mapOf (arg : Tree) : Tree :=
  .node (.type .path) [.node .path [.node .segment [word "HashMap",
    .node .angleArgs [Tree.absent, op "<", typeOf "String", op ",", arg, op ">"]]]]

theorem parseAll_vec (argument : IsArgument t a) :
    parseAll (Grammar.type · true) [word "Vec", op "<", t, op ">"] = some (vecOf a) := by
  have levels : levelsFor [word "Vec", op "<", t, op ">"] = 12 := by cases argument <;> rfl
  rw [parseAll, levels]
  change (Grammar.type (rules 12) true).all [word "Vec", op "<", t, op ">"] = _
  rw [Parser.all, run_type_angle (by decide) (.inl rfl) (run_angleArguments_one argument) ?_]
  · rfl
  · cases argument <;> rfl

theorem parseAll_map (argument : IsArgument t a) :
    parseAll (Grammar.type · true) [word "HashMap", op "<", word "String", op ",", t, op ">"] = some (mapOf a) := by
  have levels : levelsFor [word "HashMap", op "<", word "String", op ",", t, op ">"] = 16 := by cases argument <;> rfl
  rw [parseAll, levels]
  change (Grammar.type (rules 16) true).all [word "HashMap", op "<", word "String", op ",", t, op ">"] = _
  rw [Parser.all, run_type_angle (by decide) (.inl rfl) (run_angleArguments_two (by decide) argument) rfl]
  rfl

end Arguments

end Retype.Code.Grammar

namespace Retype.Naming
open Retype.Code Retype.Code.Grammar

/-- A name that stands for a type in text. -/
structure IsTypeName (n : String) : Prop where
  ascii : Lexer.IsAsciiName n.toList
  plain : n ∉ Parser.keywords

section TypeName
variable {n : String}

theorem parseType_name (name : IsTypeName n) : parseType n = some (typeOf n) := by
  rw [parseType, parseText, Lexer.lex_name name.ascii]
  change (Grammar.type (rules 6) true).all [word n] = _
  rw [Parser.all, run_type_name name.plain (.inl rfl)]

theorem parseType_vec (name : IsTypeName n) : parseType ("Vec<" ++ n ++ ">") = some (vecOf (typeOf n)) := by
  rw [parseType, parseText, Lexer.lex_vec name.ascii]
  exact parseAll_vec (.name name.plain)

theorem parseType_map (name : IsTypeName n) : parseType ("HashMap<String, " ++ n ++ ">") = some (mapOf (typeOf n)) := by
  rw [parseType, parseText, Lexer.lex_map name.ascii]
  exact parseAll_map (.name name.plain)

theorem unwrapGeneric_name (wrappers : List String) (n : String) : unwrapGeneric wrappers (typeOf n) = none := by
  have path : (typeOf n).typePath? = some (pathOf n) := rfl
  have last : (pathOf n).lastSegment? = some n := rfl
  have members : (pathOf n).angleMembers? = none := rfl
  simp only [unwrapGeneric, path, last, members, Option.bind_eq_bind, Option.bind_some, Option.bind_none, ite_self]

theorem peelWrappers_name (fuel : Nat) (n : String) : peelWrappers fuel (typeOf n) = typeOf n := by
  cases fuel with
  | zero => rfl
  | succ fuel => rw [peelWrappers, unwrapGeneric_name]

theorem name_isSequence (name : IsTypeName n) : isSequence n = false := by
  rw [isSequence, sequenceElement, parseType_name name, Option.bind_some, unwrapGeneric_name]
  rfl

theorem vec_isSequence (name : IsTypeName n) : isSequence ("Vec<" ++ n ++ ">") = true := by
  rw [isSequence, sequenceElement, parseType_vec name]
  rfl

theorem map_isSequence (name : IsTypeName n) : isSequence ("HashMap<String, " ++ n ++ ">") = false := by
  rw [isSequence, sequenceElement, parseType_map name]
  rfl

theorem name_elementModel (name : IsTypeName n) : elementModel n = some n := by
  rw [elementModel, parseType_name name, Option.bind_eq_bind, Option.bind_some, peelWrappers_name]
  rfl

theorem vec_elementModel (name : IsTypeName n) : elementModel ("Vec<" ++ n ++ ">") = some n := by
  have inner : unwrapGeneric peeledTypes (vecOf (typeOf n)) = some (typeOf n) := rfl
  rw [elementModel, parseType_vec name, Option.bind_eq_bind, Option.bind_some]
  have fuel (t : Tree) : t.size = (t.size - 1) + 1 := (Nat.sub_add_cancel t.size_pos).symm
  rw [fuel, peelWrappers, inner]
  dsimp only
  rw [peelWrappers_name]
  rfl

theorem map_elementModel (name : IsTypeName n) : elementModel ("HashMap<String, " ++ n ++ ">") = none := by
  rw [elementModel, parseType_map name]
  rfl

end TypeName

theorem tighten_append {x : List Char} (noSpace : ' ' ∉ x) (before : Option Char) (rest : List Char) :
    ∃ last, tighten before (x ++ rest) = x ++ tighten last rest := by
  induction x generalizing before with
  | nil => exact ⟨before, rfl⟩
  | cons c x ih =>
    obtain ⟨last, same⟩ := ih (fun mem => noSpace (List.mem_cons_of_mem _ mem)) (some c)
    have kept : ¬(c == ' ' && (before.all isGlue || (x ++ rest).head?.all isGlue)) = true := by
      intro dropped
      exact noSpace (beq_iff_eq.mp (Bool.and_eq_true_iff.mp dropped).1 ▸ List.mem_cons_self)
    refine ⟨last, ?_⟩
    rw [List.cons_append, tighten, if_neg kept, same]
    rfl

theorem spaceCommas_append (x y : List Char) : spaceCommas (x ++ y) = spaceCommas x ++ spaceCommas y :=
  List.flatMap_append

theorem spaceCommas_of_not_mem {x : List Char} (noComma : ',' ∉ x) : spaceCommas x = x := by
  induction x with
  | nil => rfl
  | cons c x ih =>
    have other : ¬(c == ',') = true := fun same => noComma (beq_iff_eq.mp same ▸ List.mem_cons_self)
    rw [spaceCommas, List.flatMap_cons, if_neg other]
    exact congrArg _ (ih fun mem => noComma (List.mem_cons_of_mem _ mem))

section Text
variable {n : String} {arg t : Tree}

theorem not_mem_of_isWord (word : Lexer.IsWord n.toList) {c : Char} (sign : Lexer.isWordy c = false) : c ∉ n.toList := by
  intro mem
  rw [word.chars c mem] at sign
  cases sign

theorem renderType_typeOf (word : Lexer.IsWord n.toList) : renderType (typeOf n) = n := by
  obtain ⟨last, same⟩ := tighten_append (not_mem_of_isWord word (by decide)) none []
  have tightened : tighten none n.toList = n.toList := by
    rw [List.append_nil] at same
    rw [same]
    exact List.append_nil _
  have text : (typeOf n).text = n := rfl
  rw [renderType, text, tightened, spaceCommas_of_not_mem (not_mem_of_isWord word (by decide)), String.ofList_toList]

theorem write_argument (word : Lexer.IsWord n.toList) (before : Option Char) :
    spaceCommas (tighten before (n.toList ++ [' ', '>'])) = n.toList ++ ['>'] := by
  obtain ⟨last, same⟩ := tighten_append (not_mem_of_isWord word (by decide)) before [' ', '>']
  have closed : tighten last [' ', '>'] = ['>'] := by
    rw [tighten, if_pos (by rw [Bool.and_eq_true, Bool.or_eq_true]; exact ⟨rfl, .inr rfl⟩)]
    rfl
  rw [same, closed, spaceCommas_append, spaceCommas_of_not_mem (not_mem_of_isWord word (by decide))]
  rfl

theorem renderType_of_text {before : List Char} {front : String} (kept : List Char) (last : Option Char)
    (word : Lexer.IsWord n.toList) (text : t.text.toList = before ++ (n.toList ++ [' ', '>']))
    (tightened : tighten none (before ++ (n.toList ++ [' ', '>'])) = kept ++ tighten last (n.toList ++ [' ', '>']))
    (written : front.toList = spaceCommas kept) : renderType t = front ++ n ++ ">" := by
  have whole : (front ++ n ++ ">").toList = spaceCommas kept ++ (n.toList ++ ['>']) := by
    rw [String.toList_append, String.toList_append, List.append_assoc, written]
    rfl
  rw [renderType, text, tightened, spaceCommas_append, write_argument word, ← whole, String.ofList_toList]

theorem renderType_vecOf (word : Lexer.IsWord n.toList) (text : arg.words = [⟨n, false⟩]) :
    renderType (vecOf arg) = "Vec<" ++ n ++ ">" := by
  have words : (vecOf arg).words = [⟨"Vec", false⟩, ⟨"<", false⟩, ⟨n, false⟩, ⟨">", false⟩] := by
    simp [vecOf, op, Code.word, Tree.absent, Tree.words, Trees.words, Token.word, text]
  have chars : (vecOf arg).text.toList = "Vec < ".toList ++ (n.toList ++ [' ', '>']) := by
    rw [Tree.text, words]
    simp [spaced]
  exact renderType_of_text "Vec<".toList (some '<') word chars rfl rfl

theorem renderType_mapOf (word : Lexer.IsWord n.toList) (text : arg.words = [⟨n, false⟩]) :
    renderType (mapOf arg) = "HashMap<String, " ++ n ++ ">" := by
  have words : (mapOf arg).words =
      [⟨"HashMap", false⟩, ⟨"<", false⟩, ⟨"String", false⟩, ⟨",", false⟩, ⟨n, false⟩, ⟨">", false⟩] := by
    simp [mapOf, op, Code.word, typeOf, pathOf, Tree.absent, Tree.words, Trees.words, Token.word, text]
  have chars : (mapOf arg).text.toList = "HashMap < String , ".toList ++ (n.toList ++ [' ', '>']) := by
    rw [Tree.text, words]
    simp [spaced]
  exact renderType_of_text "HashMap<String,".toList (some ',') word chars rfl rfl

theorem exists_isArgument {token : Token} (plain : n ∉ Parser.keywords) (isToken : Lexer.IsTokenOf n.toList token) :
    ∃ arg, IsArgument (.leaf token) arg ∧ arg.words = [⟨n, false⟩] := by
  rw [Lexer.IsTokenOf, String.ofList_toList] at isToken
  rcases isToken with rfl | rfl
  · exact ⟨typeOf n, .name plain, rfl⟩
  · exact ⟨_, .number n, rfl⟩

/-- A sequence is written as the text it is read from, whatever the word for its elements. -/
theorem renderType_of_parseType_vec (word : Lexer.IsWord n.toList) (plain : n ∉ Parser.keywords)
    (parsed : parseType ("Vec<" ++ n ++ ">") = some t) : renderType t = "Vec<" ++ n ++ ">" := by
  rcases Lexer.lex_word Lexer.opens_vec word with ⟨token, isToken, lexed⟩ | none
  · obtain ⟨arg, argument, text⟩ := exists_isArgument plain isToken
    rw [parseType, parseText, lexed] at parsed
    obtain rfl := Option.some.inj ((parseAll_vec argument).symm.trans parsed)
    exact renderType_vecOf word text
  · rw [parseType, parseText, none] at parsed
    cases parsed

theorem renderType_of_parseType_map (word : Lexer.IsWord n.toList) (plain : n ∉ Parser.keywords)
    (parsed : parseType ("HashMap<String, " ++ n ++ ">") = some t) : renderType t = "HashMap<String, " ++ n ++ ">" := by
  rcases Lexer.lex_word Lexer.opens_map word with ⟨token, isToken, lexed⟩ | none
  · obtain ⟨arg, argument, text⟩ := exists_isArgument plain isToken
    rw [parseType, parseText, lexed] at parsed
    obtain rfl := Option.some.inj ((parseAll_map argument).symm.trans parsed)
    exact renderType_mapOf word text
  · rw [parseType, parseText, none] at parsed
    cases parsed

end Text
end Retype.Naming
