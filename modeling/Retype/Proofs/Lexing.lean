import Retype.Proofs.Words

/-! Reading the text of a type.  It is a name, or a name with arguments of which the last is a word: the word is one
token, or the text cannot be read. -/

namespace Retype.Code.Lexer
open Retype.Text

theorem lexemes_mono {s : Chars} {ls : List Lexeme} {fuel more : Nat} (h : lexemes fuel s = some ls)
    (le : fuel ≤ more) : lexemes more s = some ls := by
  induction fuel generalizing s ls more with
  | zero =>
    cases s with
    | nil =>
      cases h
      cases more <;> rfl
    | cons c s => cases h
  | succ fuel ih =>
    cases s with
    | nil =>
      cases h
      cases more <;> rfl
    | cons c s =>
      obtain ⟨more, rfl⟩ : ∃ m, more = m + 1 := ⟨more - 1, by omega⟩
      obtain ⟨⟨l, n⟩, first, h⟩ := Option.bind_eq_some_iff.mp h
      obtain ⟨rest, found, same⟩ := Option.bind_eq_some_iff.mp h
      refine Option.bind_eq_some_iff.mpr ⟨(l, n), first, ?_⟩
      exact Option.bind_eq_some_iff.mpr ⟨rest, ih found (by omega), same⟩

/-- Where a text is read at all, its length is fuel enough, since a lexeme that takes nothing is read forever. -/
theorem lexemes_eq {s : Chars} {fuel : Nat} (enough : s.length ≤ fuel) : lexemes fuel s = lexemes s.length s := by
  have least {s : Chars} {ls : List Lexeme} {fuel : Nat} (h : lexemes fuel s = some ls) :
      lexemes s.length s = some ls := by
    induction fuel generalizing s ls with
    | zero =>
      cases s with
      | nil => exact h
      | cons c s => cases h
    | succ fuel ih =>
      cases s with
      | nil => exact h
      | cons c s =>
        obtain ⟨⟨l, n⟩, first, h⟩ := Option.bind_eq_some_iff.mp h
        obtain ⟨rest, found, same⟩ := Option.bind_eq_some_iff.mp h
        cases same
        refine Option.bind_eq_some_iff.mpr ⟨(l, n), first, Option.bind_eq_some_iff.mpr ⟨rest, ?_, rfl⟩⟩
        cases n with
        | zero =>
          have again : lexemes (fuel + 1) (c :: s) = some rest := lexemes_mono found (Nat.le_succ _)
          have whole : lexemes (fuel + 1) (c :: s) = some (l :: rest) :=
            Option.bind_eq_some_iff.mpr ⟨(l, 0), first, Option.bind_eq_some_iff.mpr ⟨rest, found, rfl⟩⟩
          rw [again] at whole
          exact absurd (congrArg List.length (Option.some.inj whole)) (by rw [List.length_cons]; omega)
        | succ n =>
          refine lexemes_mono (ih found) ?_
          rw [List.drop_succ_cons, List.length_drop]
          omega
  cases read : lexemes fuel s with
  | some ls => exact (least read).symm
  | none =>
    cases found : lexemes s.length s with
    | none => rfl
    | some ls =>
      rw [lexemes_mono found enough] at read
      cases read

theorem lexemes_first (c : Char) (s : Chars) : lexemes (c :: s).length (c :: s) =
    (lexeme? (c :: s)).bind fun p => (lexemes s.length ((c :: s).drop p.2)).bind fun ls => some (p.1 :: ls) := rfl

theorem lexemes_cons {x rest : Chars} {l : Lexeme} (nonempty : x ≠ [])
    (first : lexeme? (x ++ rest) = some (l, x.length)) :
    lexemes (x ++ rest).length (x ++ rest) = (lexemes rest.length rest).map (l :: ·) := by
  cases x with
  | nil => exact (nonempty rfl).elim
  | cons c x =>
    have left : (c :: x ++ rest).drop (c :: x).length = rest := List.drop_left' rfl
    have enough : rest.length ≤ (x ++ rest).length := by
      rw [List.length_append]
      omega
    rw [List.cons_append] at first left ⊢
    rw [lexemes_first, first, Option.bind_some, left, lexemes_eq enough, Option.map_eq_bind]
    rfl

theorem lexemes_name {x rest : Chars} (name : IsAsciiName x) (ends : EndsName rest) :
    lexemes (x ++ rest).length (x ++ rest) =
      (lexemes rest.length rest).map (.trees [word (String.ofList x)] :: ·) :=
  lexemes_cons name.isWord.nonempty (lexeme?_name name ends)

theorem lexemes_op {c : Char} {rest : Chars} (sign : c = '<' ∨ c = '>' ∨ c = ',') (alone : isPunct rest = false) :
    lexemes (c :: rest).length (c :: rest) =
      (lexemes rest.length rest).map (.trees [op (String.singleton c)] :: ·) := by
  refine lexemes_cons (x := [c]) (List.cons_ne_nil _ _) ?_
  have token : token? (c :: rest) = some (.punct (String.singleton c) (isPunct rest), 1) := by
    rcases sign with rfl | rfl | rfl <;> rfl
  have found : lexeme? (c :: rest) = (token? (c :: rest)).map fun p => (.trees [.leaf p.1], p.2) := by
    rcases sign with rfl | rfl | rfl <;> rfl
  rw [List.singleton_append, found, token, alone]
  rfl

theorem lexemes_space {rest : Chars} :
    lexemes (' ' :: rest).length (' ' :: rest) = (lexemes rest.length rest).map (.trees [] :: ·) :=
  lexemes_cons (x := [' ']) (List.cons_ne_nil _ _) rfl

theorem lexemes_eq_none {s : Chars} (nonempty : s ≠ []) (unread : lexeme? s = none) : lexemes s.length s = none := by
  cases s with
  | nil => exact (nonempty rfl).elim
  | cons c s =>
    rw [lexemes_first, unread]
    rfl

theorem lexemes_word {x rest : Chars} (word : IsWord x) (ends : EndsName rest) :
    (∃ t, IsTokenOf x t ∧ lexeme? (x ++ rest) = some (.trees [.leaf t], x.length)) ∨
      lexemes (x ++ rest).length (x ++ rest) = none := by
  cases first : lexeme? (x ++ rest) with
  | none => exact .inr (lexemes_eq_none (List.append_ne_nil_of_left_ne_nil word.nonempty rest) first)
  | some p =>
    obtain ⟨l, n⟩ := p
    obtain ⟨few, stops, t, isToken, rfl⟩ := lexeme?_eq_some word ends first
    cases left : x.drop n with
    | nil =>
      obtain rfl : n = x.length := Nat.le_antisymm few (List.drop_eq_nil_iff.mp left)
      rw [List.take_length] at isToken
      exact .inl ⟨t, isToken, rfl⟩
    | cons d y =>
      right
      have odd : isIdentContinue d = false := stops d (by rw [left]; rfl)
      have later : IsWord (d :: y) :=
        ⟨List.cons_ne_nil _ _, fun e mem => word.chars e (List.mem_of_mem_drop (left ▸ mem))⟩
      have stuck : lexemes (d :: y ++ rest).length (d :: y ++ rest) = none :=
        lexemes_eq_none (List.cons_ne_nil _ _) (lexeme?_eq_none later ends odd)
      have whole : x = x.take n ++ (d :: y) := by rw [← left, List.take_append_drop]
      have length : (x.take n).length = n := List.length_take_of_le few
      generalize x.take n = front at whole length
      subst whole length
      cases front with
      | nil => exact stuck
      | cons c front =>
        rw [List.append_assoc] at first ⊢
        rw [lexemes_cons (List.cons_ne_nil _ _) first, stuck]
        rfl

theorem endsName_nil : EndsName [] := by
  intro e found
  cases found

theorem endsName_of_mem {d : Char} {rest : Chars} (sign : d = '<' ∨ d = '>' ∨ d = ',') : EndsName (d :: rest) := by
  intro e found
  cases found
  exact sign

theorem lex_eq {s : String} (mark : s.toList.head? ≠ some '\ufeff') :
    lex s = (lexemes s.toList.length s.toList).bind (nest [] []) := by
  unfold lex
  split
  · rename_i same
    rw [same] at mark
    exact (mark rfl).elim
  · rfl

theorem lex_name {n : String} (name : IsAsciiName n.toList) : lex n = some [word n] := by
  have found : lexemes (n.toList ++ []).length (n.toList ++ []) = some [.trees [word (String.ofList n.toList)]] :=
    lexemes_name name endsName_nil
  rw [List.append_nil] at found
  have mark : n.toList.head? ≠ some '\ufeff' := by
    intro marked
    have ascii : isAscii '\ufeff' = true := by
      revert marked
      cases same : n.toList with
      | nil =>
        rw [same] at name
        cases name.start
      | cons c r =>
        rw [same] at name
        rintro ⟨⟩
        exact name.first.1
    revert ascii
    decide
  rw [lex_eq mark, found, String.ofList_toList]
  rfl

/-- The text of a type up to its last argument. -/
structure Opens (front : String) (ls : List Lexeme) : Prop where
  begins : front.toList.head?.any (· != '\ufeff') = true
  reads : ∀ rest, isPunct rest = false → lexemes (front.toList ++ rest).length (front.toList ++ rest) =
    (lexemes rest.length rest).map (ls ++ ·)

theorem opens_vec : Opens "Vec<" [.trees [word "Vec"], .trees [op "<"]] := by
  refine ⟨by decide, fun rest alone => ?_⟩
  have text : "Vec<".toList ++ rest = "Vec".toList ++ '<' :: rest := rfl
  rw [text, lexemes_name (by decide) (endsName_of_mem (.inl rfl)), lexemes_op (.inl rfl) alone, Option.map_map]
  rfl

theorem opens_map : Opens "HashMap<String, "
    [.trees [word "HashMap"], .trees [op "<"], .trees [word "String"], .trees [op ","], .trees []] := by
  refine ⟨by decide, fun rest alone => ?_⟩
  have text : "HashMap<String, ".toList ++ rest =
      "HashMap".toList ++ '<' :: ("String".toList ++ ',' :: ' ' :: rest) := rfl
  have string : IsAsciiName "String".toList := by decide
  rw [text, lexemes_name (by decide) (endsName_of_mem (.inl rfl)), lexemes_op (.inl rfl) (isPunct_word string.isWord),
    lexemes_name string (endsName_of_mem (.inr (.inr rfl))), lexemes_op (.inr (.inr rfl)) rfl, lexemes_space,
    Option.map_map, Option.map_map, Option.map_map, Option.map_map]
  rfl

section Argument
variable {front n : String} {ls : List Lexeme}

theorem endsName_close : EndsName ['>'] := endsName_of_mem (.inr (.inl rfl))

theorem lex_argument (opens : Opens front ls) (word : IsWord n.toList) : lex (front ++ n ++ ">") =
    (lexemes (n.toList ++ ['>']).length (n.toList ++ ['>'])).bind fun more => nest [] [] (ls ++ more) := by
  have text : (front ++ n ++ ">").toList = front.toList ++ (n.toList ++ ['>']) := by
    rw [String.toList_append, String.toList_append, List.append_assoc]
    rfl
  have mark : (front ++ n ++ ">").toList.head? ≠ some '\ufeff' := by
    obtain ⟨c, found, other⟩ := (Option.any_eq_true _ _).mp opens.begins
    rw [text, List.head?_append, found]
    exact fun same => bne_iff_ne.mp other (Option.some.inj same)
  rw [lex_eq mark, text, opens.reads _ (isPunct_word word), Option.bind_map]
  rfl

theorem lex_token {t : Token} (opens : Opens front ls) (word : IsWord n.toList)
    (first : lexeme? (n.toList ++ ['>']) = some (.trees [.leaf t], n.toList.length)) :
    lex (front ++ n ++ ">") = nest [] [] (ls ++ [.trees [.leaf t], .trees [op ">"]]) := by
  rw [lex_argument opens word, lexemes_cons word.nonempty first]
  rfl

theorem lex_word (opens : Opens front ls) (word : IsWord n.toList) :
    (∃ t, IsTokenOf n.toList t ∧ lex (front ++ n ++ ">") = nest [] [] (ls ++ [.trees [.leaf t], .trees [op ">"]])) ∨
      lex (front ++ n ++ ">") = none := by
  rcases lexemes_word word endsName_close with ⟨t, isToken, first⟩ | none
  · exact .inl ⟨t, isToken, lex_token opens word first⟩
  · right
    rw [lex_argument opens word, none]
    rfl

theorem lex_named (opens : Opens front ls) (name : IsAsciiName n.toList) :
    lex (front ++ n ++ ">") = nest [] [] (ls ++ [.trees [word n], .trees [op ">"]]) := by
  have first := lexeme?_name name endsName_close
  rw [String.ofList_toList] at first
  exact lex_token opens name.isWord first

theorem lex_vec (name : IsAsciiName n.toList) :
    lex ("Vec<" ++ n ++ ">") = some [word "Vec", op "<", word n, op ">"] := lex_named opens_vec name

theorem lex_map (name : IsAsciiName n.toList) : lex ("HashMap<String, " ++ n ++ ">") =
    some [word "HashMap", op "<", word "String", op ",", word n, op ">"] := lex_named opens_map name

end Argument

end Retype.Code.Lexer
